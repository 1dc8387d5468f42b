import CucumberExpressions.Proofs.Scanner.History

/-!
# From the tokens back to the expression

The tokens of an expression divide it: their stretches follow each other without a gap from its
start to its end, and the stretch of a token is its text, with an escape character before each
special character if it is a text. So the expression can be written again from its tokens.

## Main definitions

* `Token.stretch` — the stretch of an expression that a token was read from
* `Token.StandsIn` — a token that is written at its place in an expression

## Main results

* `Token.standsIn_of_mem_framed` — the tokens of an expression stand in it
* `Token.flatMap_written_visible_framed` — written one after another they are the expression
* `tokenize_roundTrip` — both, together with what follows from them
-/

namespace CucumberExpressions

namespace Token

/-- The stretch of an expression that a token was read from. -/
def stretch (expression : String) (token : Token) : List Char :=
  expression.toList.extract token.start.toNat token.stop.toNat

/-- The token is written in the expression, at the place that it names. -/
def StandsIn (expression : String) (token : Token) : Prop :=
  ∃ before after : List Char,
    expression.toList = before ++ token.lexeme.written ++ after ∧
      token.start = before.length ∧
      token.stop = (before.length + token.lexeme.width : Nat)

variable {expression : String} {token : Token} {atoms : List Atom}

/-- Where a token stands in an expression its lexeme is written. -/
theorem StandsIn.stretch_eq (h : token.StandsIn expression) :
    token.stretch expression = token.lexeme.written := by
  obtain ⟨before, after, hexpression, hstart, hstop⟩ := h
  rw [stretch, hexpression, hstart, hstop, Int.toNat_natCast, Int.toNat_natCast,
    List.extract_eq_take_drop, Nat.add_sub_cancel_left, List.append_assoc, List.drop_left,
    Lexeme.width, List.take_left]

/-- A token stands inside its expression. -/
theorem StandsIn.bounds (h : token.StandsIn expression) :
    0 ≤ token.start ∧ token.start ≤ token.stop ∧ token.stop ≤ expression.length := by
  obtain ⟨before, after, hexpression, hstart, hstop⟩ := h
  have hlength := congrArg List.length hexpression
  rw [String.length_toList, List.length_append, List.length_append, ← Lexeme.width] at hlength
  omega

/-- The stretch of a token is as wide as its lexeme. -/
theorem StandsIn.stop_sub_start (h : token.StandsIn expression) :
    token.stop - token.start = token.lexeme.width := by
  obtain ⟨before, after, -, hstart, hstop⟩ := h
  omega

/-- Items that are written one after another stand in the expression that they are written as. -/
theorem standsIn_of_mem_place {α : Type*} {content : α → Lexeme} {width : α → Nat}
    {items : List α} (hwidth : ∀ item ∈ items, (content item).width = width item)
    (hexpression : expression.toList = items.flatMap fun item => (content item).written)
    (h : token ∈ place content width 0 items) : token.StandsIn expression := by
  obtain ⟨items₁, item, items₂, rfl, hlexeme, hstart, hstop⟩ := exists_of_mem_place h
  -- The items before the one of the token are as wide as they are written.
  have hbefore : (items₁.flatMap fun item => (content item).written).length =
      (items₁.map width).sum := by
    rw [List.length_flatMap]
    refine congrArg List.sum (List.map_congr_left fun item hitem => ?_)
    exact hwidth item (List.mem_append_left _ hitem)
  refine ⟨items₁.flatMap fun item => (content item).written,
    items₂.flatMap fun item => (content item).written, ?_, ?_, ?_⟩
  · rw [hexpression, hlexeme, List.flatMap_append, List.flatMap_cons, List.append_assoc]
  · rw [hstart, hbefore, Nat.zero_add]
  · rw [hstop, hbefore, hlexeme, Nat.zero_add,
      hwidth item (List.mem_append_right _ List.mem_cons_self)]

/-- The tokens of an expression stand in it. -/
theorem standsIn_of_mem_framed (h : expression.toList = Atom.written atoms)
    (hmem : token ∈ framed expression.length (ofRuns (Atom.runs atoms))) :
    token.StandsIn expression := by
  rcases List.mem_cons.mp hmem with rfl | hmem
  · exact ⟨[], expression.toList, rfl, rfl, rfl⟩
  rcases List.mem_append.mp hmem with hmem | hmem
  · refine standsIn_of_mem_place (fun run hrun => ?_) ?_ hmem
    · exact Lexeme.width_ofRun (Atom.isChain_of_mem_runs hrun)
    · rw [h, ← Lexeme.flatMap_written_map_ofRun, List.flatMap_map]
  · obtain rfl := List.mem_singleton.mp hmem
    refine ⟨expression.toList, [], ?_, ?_, ?_⟩
    · simp [endOfLine, lexeme, Lexeme.written]
    · rw [String.length_toList, endOfLine]
    · simp [endOfLine, lexeme, Lexeme.width, Lexeme.written, ← String.length_toList]

/-- Written one after another, with or without the sentinels, the tokens of an expression are the
expression. -/
theorem flatMap_written_visible_framed (length : Nat) (atoms : List Atom) (sentinels : Bool) :
    ((visible sentinels (framed length (ofRuns (Atom.runs atoms)))).flatMap fun token =>
      token.lexeme.written) = Atom.written atoms := by
  cases sentinels with
  | false => rw [visible_framed_ofRuns, flatMap_written_ofRuns]
  | true =>
    rw [visible, if_pos rfl, framed, List.flatMap_cons, List.flatMap_append,
      flatMap_written_ofRuns]
    simp [startOfLine, endOfLine, lexeme, Lexeme.written]

end Token

/-- **Round trip.** The tokens of an expression follow each other without a gap from its start to
its end. The stretch of each of them is what the token is written as; in particular, the stretch of
a text is longer than the text by its special characters. Written one after another the tokens are
the expression again, and no other expression has the same tokens. -/
theorem tokenize_roundTrip {expression : String} {tokens : List Token}
    (h : tokenize expression = .ok tokens) :
    Token.Tiles 0 expression.length tokens ∧
      (∀ token ∈ tokens, 0 ≤ token.start ∧ token.start ≤ token.stop ∧
        token.stop ≤ expression.length ∧ token.stretch expression = token.lexeme.written) ∧
      (∀ token ∈ tokens, token.kind = .text →
        token.stop - token.start = token.text.length + token.text.toList.countP isSpecial) ∧
      (∀ sentinels, ((Token.visible sentinels tokens).flatMap fun token =>
        token.lexeme.written) = expression.toList) ∧
      ∀ expression', tokenize expression' = .ok tokens → expression' = expression := by
  -- This is needed of any expression with these tokens, so that they determine it.
  have hwritten : ∀ {expression : String}, tokenize expression = .ok tokens → ∀ sentinels,
      ((Token.visible sentinels tokens).flatMap fun token => token.lexeme.written) =
        expression.toList := by
    intro expression h sentinels
    obtain ⟨atoms, hatoms, rfl⟩ := tokenize_eq_ok_iff.mp h
    rw [Token.flatMap_written_visible_framed, hatoms]
  have hstands : ∀ token ∈ tokens, token.StandsIn expression := by
    obtain ⟨atoms, hatoms, rfl⟩ := tokenize_eq_ok_iff.mp h
    exact fun token => Token.standsIn_of_mem_framed hatoms
  refine ⟨?_, fun token hmem => ?_, fun token hmem hkind => ?_, hwritten h,
    fun expression' h' => ?_⟩
  · obtain ⟨atoms, hatoms, rfl⟩ := tokenize_eq_ok_iff.mp h
    refine Token.tiles_framed ?_
    rw [← String.length_toList, hatoms, Atom.length_written]
    exact Token.tiles_ofRuns atoms
  · have hbounds := (hstands token hmem).bounds
    exact ⟨hbounds.1, hbounds.2.1, hbounds.2.2, (hstands token hmem).stretch_eq⟩
  · rw [(hstands token hmem).stop_sub_start,
      Lexeme.width_of_kind_eq_text (show token.lexeme.kind = .text from hkind)]
    exact Int.natCast_add _ _
  · -- Both expressions are what the tokens are written as.
    exact String.toList_inj.mp ((hwritten h' true).symm.trans (hwritten h true))

/-- The text of one token has two escape characters fewer than its stretch. -/
theorem stretch_of_escaped_text :
    Token.stretch "(\\/\\ )" ⟨.text, "/ ", 1, 5⟩ = ['\\', '/', '\\', ' '] := by
  have htokens : tokenize "(\\/\\ )" =
      .ok [⟨.startOfLine, "", 0, 0⟩, ⟨.beginOptional, "(", 0, 1⟩, ⟨.text, "/ ", 1, 5⟩,
        ⟨.endOptional, ")", 5, 6⟩, ⟨.endOfLine, "", 6, 6⟩] := by
    decide +kernel
  obtain ⟨-, hstretch, -⟩ := tokenize_roundTrip htokens
  rw [(hstretch ⟨.text, "/ ", 1, 5⟩ (by decide)).2.2.2]
  decide

end CucumberExpressions
