import CucumberExpressions.Proofs.Lexeme
import CucumberExpressions.Proofs.Scanner.Feeding

/-!
# What a scanner has read

A reading scanner is determined by the atoms that it has read, together with the escape character
that may wait after them: it has given a token for every run but the last one, and holds the last
run. So the tokens of an expression can be read off the runs of its atoms.

## Main definitions

* `Scanner.after` — the scanner that has read a list of atoms
* `Scanner.openToken` — the token of the run that it holds

## Main results

* `Scanner.feed_char`, `Scanner.feed_escapeCharacter`, `Scanner.feed_of_not_isSpecial` — what a
  character does to such a scanner
* `Scanner.feedAll_written` — reading a written list of atoms gives the tokens of its closed runs
* `tokenize_of_written`, `tokenize_of_dangling`, `tokenize_of_invalid` — the tokens of an expression
  whose atoms go on to its end, and its error if they do not
-/

namespace CucumberExpressions

open Atom

namespace Scanner

variable {expression : String} {atoms : List Atom} {pending : Bool}

/-- The offset of the last run of a list of atoms. -/
def openStart (atoms : List Atom) : Nat := ((closedRuns atoms).map totalWidth).sum

/-- The scanner that has read a list of atoms, and then an escape character if one is pending. -/
def after (expression : String) (atoms : List Atom) (pending : Bool) : Scanner where
  expression
  rest := expression.toList
  phase := .reading
  collected := String.ofList ((openRun atoms).map char)
  last := kindOf (openRun atoms)
  pending
  start := openStart atoms
  escapes := (openRun atoms).countP isEscaped + pending.toNat

/-- The token of the last run of a list of atoms. -/
def openToken (atoms : List Atom) : Token where
  kind := kindOf (openRun atoms)
  text := String.ofList ((openRun atoms).map char)
  start := openStart atoms
  stop := (openStart atoms + totalWidth (openRun atoms) : Nat)

/-- The open run reaches to the end of what has been read. -/
theorem openStart_add_totalWidth (atoms : List Atom) :
    openStart atoms + totalWidth (openRun atoms) = totalWidth atoms := by
  conv_rhs =>
    rw [← flatten_closedRuns_append_openRun atoms, totalWidth_append, totalWidth_flatten]
  rfl

/-! ### Reading one character -/

/-- An escape character waits for the character after it. -/
theorem feed_escapeCharacter (expression : String) (atoms : List Atom) :
    (after expression atoms false).feed escapeCharacter = (none, after expression atoms true) :=
  rfl

/-- A character that is not special cannot be escaped. The scanner forgets it and waits on. -/
theorem feed_of_not_isSpecial {c : Char} (h : isSpecial c = false) :
    (after expression atoms true).feed c =
      (some (.error ⟨expression, (openStart atoms + ((openRun atoms).countP isEscaped + 1) : Nat),
        .cannotEscape (String.singleton c)⟩), after expression atoms true) := by
  simp [feed, after, isEscapable_eq_isSpecial, h]

/-- The token that is cut off is that of the last run, unless it is a text that is charged with an
escape character after it. -/
theorem cut_after (h : kindOf (openRun atoms) = .text → pending = false) :
    (after expression atoms pending).cut (kindOf (openRun atoms)) =
      (openToken atoms, { after expression atoms pending with
        collected := "", start := totalWidth atoms, escapes := pending.toNat }) := by
  have hwidth := totalWidth_eq (openRun atoms)
  have htotal := openStart_add_totalWidth atoms
  by_cases hkind : kindOf (openRun atoms) = .text
  · -- A text is charged with the escape characters in it, and none is pending.
    have hstop : openStart atoms + (openRun atoms).length + (openRun atoms).countP isEscaped =
        totalWidth atoms := by omega
    simp [cut, after, openToken, hkind, h hkind, hstop, htotal]
  · -- Any other run has no escape characters; the pending one stays with the scanner.
    have hescaped := countP_isEscaped_eq_zero (isChain_openRun atoms) hkind
    have hstop : openStart atoms + (openRun atoms).length = totalWidth atoms := by omega
    simp [cut, after, openToken, hkind, hescaped, hstop, htotal]

/-- What the scanner does with a character whose meaning is settled. -/
theorem feed_char_eq (s : Scanner) (a : Atom) (h : s.pending = a.isEscaped) :
    s.feed a.char =
      if s.last.splits a.kind then
        (some (.token (s.cut s.last).1), { (s.cut s.last).2 with
          collected := String.singleton a.char, last := a.kind, pending := false })
      else
        (none, { s with
          collected := s.collected.push a.char, last := a.kind, pending := false }) := by
  cases a with
  | plain c hc =>
    by_cases hsplits : s.last.splits (Kind.ofChar c) = true <;>
      simp [feed, h, isEscaped, char, kind, hc, hsplits]
  | escaped c hc =>
    by_cases hsplits : s.last.splits .text = true <;>
      simp [feed, h, isEscaped, char, kind, isEscapable_eq_isSpecial, hc, hsplits]

theorem after_append_of_continues {a : Atom} (h : continues atoms a = true) :
    { after expression atoms a.isEscaped with
      collected := (String.ofList ((openRun atoms).map char)).push a.char
      last := a.kind
      pending := false } = after expression (atoms ++ [a]) false := by
  have hlast : kindOf (openRun (atoms ++ [a])) = a.kind := by
    refine (kind_eq_kindOf (isChain_openRun (atoms ++ [a])) ?_).symm
    rw [openRun_append_of_continues h]
    exact List.mem_append_right _ (List.mem_singleton_self a)
  rw [openRun_append_of_continues h] at hlast
  simp [after, openStart, openRun_append_of_continues h, closedRuns_append_of_continues h, hlast,
    List.countP_append, List.countP_singleton, toNat_isEscaped]

theorem after_append_of_not_continues {a : Atom} (h : continues atoms a = false) :
    { after expression atoms a.isEscaped with
      collected := String.singleton a.char
      last := a.kind
      pending := false
      start := totalWidth atoms
      escapes := a.isEscaped.toNat } = after expression (atoms ++ [a]) false := by
  have hstart : openStart (atoms ++ [a]) = totalWidth atoms := by
    rw [← openStart_add_totalWidth atoms, openStart, closedRuns_append_of_not_continues h]
    simp [openStart]
  simp [after, hstart, openRun_append_of_not_continues h, kindOf, List.countP_singleton,
    toNat_isEscaped]

/-- A character that does not continue the last run brings out the token of this run. -/
theorem feed_char (expression : String) (atoms : List Atom) (a : Atom) :
    (after expression atoms a.isEscaped).feed a.char =
      (if continues atoms a then none else some (.token (openToken atoms)),
        after expression (atoms ++ [a]) false) := by
  have hsplits := splits_kindOf_openRun atoms a
  rw [feed_char_eq _ a rfl]
  cases h : continues atoms a with
  | true =>
    rw [h] at hsplits
    rw [if_neg (by simpa [after] using hsplits), ← after_append_of_continues h]
    rfl
  | false =>
    rw [h] at hsplits
    have hpending : kindOf (openRun atoms) = .text → a.isEscaped = false := by
      intro hkind
      -- An escaped character would continue a text.
      cases a with
      | plain => rfl
      | escaped => rw [hkind] at hsplits; cases hsplits
    rw [if_pos (by simpa [after] using hsplits), ← after_append_of_not_continues h,
      show (after expression atoms a.isEscaped).last = kindOf (openRun atoms) from rfl,
      cut_after hpending]
    rfl

/-! ### Reading many characters -/

/-- An atom closes the open run unless it continues it. -/
theorem feedAll_source (expression : String) (atoms : List Atom) (a : Atom) :
    (after expression atoms false).feedAll a.source =
      (if continues atoms a then [] else [.token (openToken atoms)],
        after expression (atoms ++ [a]) false) := by
  cases a with
  | plain c hc =>
    have hfeed : (after expression atoms false).feed c = _ :=
      feed_char expression atoms (plain c hc)
    rw [source, feedAll, feedAll, hfeed]
    cases continues atoms (plain c hc) <;> rfl
  | escaped c hc =>
    have hfeed : (after expression atoms true).feed c = _ :=
      feed_char expression atoms (escaped c hc)
    rw [source, feedAll, feed_escapeCharacter, feedAll, feedAll, hfeed]
    cases continues atoms (escaped c hc) <;> rfl

/-- The open run is laid out after the closed ones. -/
theorem ofRuns_append_openRun (atoms : List Atom) :
    Token.ofRuns (closedRuns atoms ++ [openRun atoms]) =
      Token.ofRuns (closedRuns atoms) ++ [openToken atoms] := by
  rw [Token.ofRuns, Token.place_append, Nat.zero_add]
  rfl

/-- Reading a written list of atoms gives the tokens of its closed runs. -/
theorem feedAll_written (expression : String) (atoms : List Atom) :
    (started expression).feedAll (written atoms) =
      ((Token.ofRuns (closedRuns atoms)).map .token, after expression atoms false) := by
  -- The last atom is read by the scanner that has read the atoms before it.
  induction atoms using List.reverseRecOn with
  | nil => rfl
  | append_singleton atoms a ih =>
    rw [written_append, feedAll_append, ih, written_cons, written_nil, List.append_nil,
      feedAll_source]
    cases h : continues atoms a with
    | true =>
      rw [closedRuns_append_of_continues h]
      simp
    | false =>
      rw [closedRuns_append_of_not_continues h, ofRuns_append_openRun]
      simp

/-! ### After the last character -/

theorem isEmpty_collected_after (h : atoms ≠ []) :
    (after expression atoms pending).collected.isEmpty = false := by
  have hopen := openRun_ne_nil h
  simpa [after, String.isEmpty_iff] using hopen

/-- At the end of the expression comes the token of the last run, and then the end of the line. -/
theorem ofRuns_append_ending (expression : String) (atoms : List Atom) :
    (Token.ofRuns (closedRuns atoms)).map .token ++ (after expression atoms false).ending =
      (Token.ofRuns (runs atoms) ++ [Token.endOfLine (totalWidth atoms)]).map .token := by
  by_cases h : atoms = []
  · subst h
    rfl
  · have hcut : (after expression atoms false).cut (after expression atoms false).last = _ :=
      cut_after fun _ => rfl
    rw [ending, if_neg (by simp [isEmpty_collected_after h]), hcut,
      ← closedRuns_append_openRun h, ofRuns_append_openRun]
    simp [close, cut, after, Token.endOfLine]

/-- An escape character that waits at the end of the expression is an error, whatever is given
before. -/
theorem ending_after_true (expression : String) (atoms : List Atom) :
    ∃ tokens : List Token, (after expression atoms true).ending =
      tokens.map .token ++ [.error (.atEndOfLine expression)] := by
  by_cases h : atoms = []
  · subst h
    exact ⟨[], rfl⟩
  · refine ⟨[((after expression atoms true).cut (after expression atoms true).last).1], ?_⟩
    rw [ending, if_neg (by simp [isEmpty_collected_after h])]
    rfl

end Scanner

/-! ### The tokens of an expression -/

variable {expression : String} {atoms : List Atom}

open Scanner

/-- If its atoms go on to its end, an expression has the tokens of their runs. -/
theorem tokenize_of_written (h : expression.toList = written atoms) :
    tokenize expression =
      .ok (Token.framed expression.length (Token.ofRuns (runs atoms))) := by
  have hlength : expression.length = totalWidth atoms := by
    rw [← String.length_toList, h, length_written]
  rw [tokenize_eq_collect, h, feedAll_written]
  dsimp only
  rw [ofRuns_append_ending, Outcome.collect_map_token, hlength]
  rfl

/-- An escape character that is left at the end of an expression is an error. -/
theorem tokenize_of_dangling (h : expression.toList = written atoms ++ [escapeCharacter]) :
    tokenize expression = .error (.atEndOfLine expression) := by
  obtain ⟨tokens, hending⟩ := ending_after_true expression atoms
  have hfed : (started expression).feedAll expression.toList =
      ((Token.ofRuns (closedRuns atoms)).map .token, after expression atoms true) := by
    rw [h, feedAll_append, feedAll_written, feedAll, feedAll, feed_escapeCharacter]
    simp
  rw [tokenize_eq_collect, hfed]
  dsimp only
  rw [hending, Outcome.collect_map_token_append, Outcome.collect_map_token_append]
  rfl

/-- So is an escape character before a character that is not special. The error names this
character, and the offset of the last run, moved on by the escape characters from there on. -/
theorem tokenize_of_invalid {c : Char} {rest : List Char}
    (h : expression.toList = written atoms ++ escapeCharacter :: c :: rest)
    (hc : isSpecial c = false) :
    tokenize expression =
      .error ⟨expression, (openStart atoms + ((openRun atoms).countP isEscaped + 1) : Nat),
        .cannotEscape (String.singleton c)⟩ := by
  rw [tokenize_eq_collect, h, feedAll_append, feedAll_written, feedAll, feed_escapeCharacter,
    feedAll, feed_of_not_isSpecial hc]
  simp only [Option.toList_none, Option.toList_some, List.nil_append, List.append_assoc,
    List.cons_append, Outcome.collect_map_token_append]
  rfl

/-- An expression has tokens exactly if its atoms go on to its end. -/
theorem tokenize_eq_ok_iff {tokens : List Token} :
    tokenize expression = .ok tokens ↔
      ∃ atoms, expression.toList = written atoms ∧
        tokens = Token.framed expression.length (Token.ofRuns (runs atoms)) := by
  constructor
  · intro h
    obtain ⟨atoms, rest, hatoms, hstops⟩ := exists_written_append expression.toList
    cases hstops with
    | finished =>
      rw [List.append_nil] at hatoms
      rw [tokenize_of_written hatoms] at h
      exact ⟨atoms, hatoms, (Except.ok.inj h).symm⟩
    | dangling =>
      rw [tokenize_of_dangling hatoms] at h
      cases h
    | invalid rest hc =>
      rw [tokenize_of_invalid hatoms hc] at h
      cases h
  · rintro ⟨atoms, hatoms, rfl⟩
    exact tokenize_of_written hatoms

/-- An error is about the expression that has been read. -/
theorem expression_of_tokenize_eq_error {error : ExpressionError}
    (h : tokenize expression = .error error) : error.expression = expression := by
  obtain ⟨atoms, rest, hatoms, hstops⟩ := exists_written_append expression.toList
  cases hstops with
  | finished =>
    rw [List.append_nil] at hatoms
    rw [tokenize_of_written hatoms] at h
    cases h
  | dangling =>
    rw [tokenize_of_dangling hatoms] at h
    cases h
    rfl
  | invalid rest hc =>
    rw [tokenize_of_invalid hatoms hc] at h
    cases h
    rfl

end CucumberExpressions
