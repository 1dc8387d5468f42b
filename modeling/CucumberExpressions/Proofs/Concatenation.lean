import CucumberExpressions.Proofs.FirstError

/-!
# Expressions put together

If two expressions have tokens, so has the one that puts them together: the tokens of the second are
moved behind those of the first. Only at the seam two tokens may become one, if both are text or
both are blank. What comes after a bad escape, on the other hand, does not change its error.

## Main definitions

* `Token.shift` — a token of an expression that stands after other characters
* `Token.join` — two neighbouring tokens that are read as one
* `Token.meld` — the tokens on both sides of a seam

## Main results

* `Token.ofRuns_runs_append` — the tokens of two lists of atoms that are put together
* `tokenize_append` — the tokens of two expressions that are put together, and their error
-/

namespace CucumberExpressions

open Atom Scanner

namespace Token

/-- The token of an expression that stands `offset` characters later. -/
def shift (offset : Nat) (token : Token) : Token :=
  { token with start := token.start + offset, stop := token.stop + offset }

/-- Two neighbouring tokens as one of the kind of the first. -/
def join (token token' : Token) : Token :=
  ⟨token.kind, token.text ++ token'.text, token.start, token'.stop⟩

/-- The tokens on both sides of a seam. The last one before it and the first one after it are one
token if both are text or both are blank. -/
def meld (tokens tokens' : List Token) : List Token :=
  match tokens.getLast?, tokens' with
  | some last, first :: rest =>
    if last.kind.merges first.kind then tokens.dropLast ++ last.join first :: rest
    else tokens ++ first :: rest
  | _, _ => tokens ++ tokens'

variable {α : Type*} {content : α → Lexeme} {width : α → Nat}

/-- At a seam the last token and the first one become one if their kinds run on. -/
theorem meld_concat_cons (tokens rest : List Token) (last first : Token) :
    meld (tokens ++ [last]) (first :: rest) =
      if last.kind.merges first.kind then tokens ++ last.join first :: rest
      else tokens ++ [last] ++ first :: rest := by
  simp [meld]

@[simp] theorem meld_nil (tokens : List Token) : meld tokens [] = tokens := by
  cases h : tokens.getLast? <;> simp [meld, h]

@[simp] theorem nil_meld (tokens : List Token) : meld [] tokens = tokens := rfl

theorem shift_zero (token : Token) : token.shift 0 = token := by
  simp [shift]

/-- Items that are written later have the same tokens, moved by as much. -/
theorem map_shift_place (offset start : Nat) (items : List α) :
    (place content width start items).map (shift offset) =
      place content width (start + offset) items := by
  induction items generalizing start with
  | nil => rfl
  | cons item items ih =>
    have hstop : start + width item + offset = start + offset + width item := Nat.add_right_comm ..
    rw [place, place, List.map_cons, ih, hstop, shift, ← hstop]
    rfl

/-- The token of the last run goes on with the first run after it. -/
theorem place_openRun_append {atoms : List Atom} (hne : atoms ≠ []) (first : List Atom)
    (rest : List (List Atom)) :
    place Lexeme.ofRun totalWidth (openStart atoms) ((openRun atoms ++ first) :: rest) =
      (openToken atoms).join ⟨kindOf first, String.ofList (first.map char), totalWidth atoms,
          (totalWidth atoms + totalWidth first : Nat)⟩ ::
        place Lexeme.ofRun totalWidth (totalWidth atoms + totalWidth first) rest := by
  have hstop : openStart atoms + totalWidth (openRun atoms ++ first) =
      totalWidth atoms + totalWidth first := by
    rw [totalWidth_append, ← Nat.add_assoc, openStart_add_totalWidth]
  have hlexeme : Lexeme.ofRun (openRun atoms ++ first) =
      ⟨kindOf (openRun atoms), (openToken atoms).text ++ String.ofList (first.map char)⟩ := by
    rw [Lexeme.ofRun, kindOf_append (openRun_ne_nil hne), List.map_append, String.ofList_append]
    rfl
  rw [place, hstop, hlexeme]
  rfl

/-- The tokens of two lists of atoms that are put together. -/
theorem ofRuns_runs_append (atoms atoms' : List Atom) :
    ofRuns (runs (atoms ++ atoms')) =
      meld (ofRuns (runs atoms)) ((ofRuns (runs atoms')).map (shift (totalWidth atoms))) := by
  by_cases hne : atoms = []
  · subst hne
    have hshift : shift (totalWidth []) = id := funext shift_zero
    rw [hshift, List.map_id, List.nil_append]
    exact (nil_meld _).symm
  have hafter : (ofRuns (runs atoms')).map (shift (totalWidth atoms)) =
      place Lexeme.ofRun totalWidth (totalWidth atoms) (runs atoms') := by
    rw [ofRuns, map_shift_place, Nat.zero_add]
  cases hruns : runs atoms' with
  | nil =>
    obtain rfl : atoms' = [] := List.splitBy_eq_nil.mp hruns
    rw [List.append_nil]
    exact (meld_nil _).symm
  | cons first rest =>
    have hseam : (openToken atoms).kind.merges (Lexeme.ofRun first).kind =
        (kindOf (openRun atoms)).merges (kindOf atoms') := by
      rw [← kindOf_of_runs_eq_cons hruns]
      rfl
    rw [hruns] at hafter
    rw [hafter, place, ofRuns_runs hne, meld_concat_cons, hseam]
    cases hmerges : (kindOf (openRun atoms)).merges (kindOf atoms') with
    | true =>
      rw [if_pos rfl, runs_append_of_merges hruns hmerges, ofRuns, place_append, Nat.zero_add,
        ← openStart, place_openRun_append hne]
      rfl
    | false =>
      rw [if_neg Bool.false_ne_true, runs_append_of_not_merges hmerges, ← ofRuns_runs hne, ofRuns,
        place_append, Nat.zero_add, ← totalWidth_flatten, flatten_runs, hruns, place]
      rfl

end Token

/-- **Expressions put together.** If two expressions have tokens, so has the one that puts them
together: between the sentinels they are the tokens of both, where those of the second come after
the characters of the first and the two at the seam are one if they are both text or both blank. If
a character of an expression cannot be escaped, it still cannot, at the same place, whatever comes
after the expression. -/
theorem tokenize_append :
    (∀ (expression expression' : String) (tokens tokens' : List Token),
      tokenize expression = .ok tokens → tokenize expression' = .ok tokens' →
        tokenize (expression ++ expression') =
          .ok (Token.framed (expression ++ expression').length
            (Token.meld (Token.visible false tokens)
              ((Token.visible false tokens').map (Token.shift expression.length))))) ∧
    ∀ (expression expression' character : String) (error : ExpressionError),
      tokenize expression = .error error → error.problem = .cannotEscape character →
        tokenize (expression ++ expression') =
          .error { error with expression := expression ++ expression' } := by
  constructor
  · intro expression expression' tokens tokens' h h'
    obtain ⟨atoms, hatoms, rfl⟩ := tokenize_eq_ok_iff.mp h
    obtain ⟨atoms', hatoms', rfl⟩ := tokenize_eq_ok_iff.mp h'
    have happend : (expression ++ expression').toList = written (atoms ++ atoms') := by
      rw [String.toList_append, hatoms, hatoms', written_append]
    have hlength : expression.length = totalWidth atoms := by
      rw [← String.length_toList, hatoms, length_written]
    rw [tokenize_of_written happend, Token.visible_framed_ofRuns, Token.visible_framed_ofRuns,
      hlength, Token.ofRuns_runs_append]
  · intro expression expression' character error h hproblem
    obtain ⟨atoms, herror⟩ := exists_firstError h
    cases herror with
    | dangling => cases hproblem
    | @invalid c rest hexpression hc =>
      -- The same escape is the first bad one, and it comes after the same atoms.
      have happend : (expression ++ expression').toList =
          written atoms ++ escapeCharacter :: c :: (rest ++ expression'.toList) := by
        rw [String.toList_append, hexpression, List.append_assoc]
        rfl
      exact tokenize_of_invalid happend hc

/-- The word before the seam goes on with the escaped bracket after it. -/
theorem tokenize_append_escaped_bracket :
    tokenize ("a b" ++ "\\( c") =
      .ok [Token.startOfLine, ⟨.text, "a", 0, 1⟩, ⟨.whiteSpace, " ", 1, 2⟩, ⟨.text, "b(", 2, 5⟩,
        ⟨.whiteSpace, " ", 5, 6⟩, ⟨.text, "c", 6, 7⟩, Token.endOfLine 7] := by
  have htokens : tokenize "a b" =
      .ok [Token.startOfLine, ⟨.text, "a", 0, 1⟩, ⟨.whiteSpace, " ", 1, 2⟩, ⟨.text, "b", 2, 3⟩,
        Token.endOfLine 3] := by
    decide +kernel
  have htokens' : tokenize "\\( c" =
      .ok [Token.startOfLine, ⟨.text, "(", 0, 2⟩, ⟨.whiteSpace, " ", 2, 3⟩, ⟨.text, "c", 3, 4⟩,
        Token.endOfLine 4] := by
    decide +kernel
  rw [tokenize_append.1 _ _ _ _ htokens htokens']
  decide

end CucumberExpressions
