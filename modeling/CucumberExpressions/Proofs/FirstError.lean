import CucumberExpressions.Proofs.Acceptance
import CucumberExpressions.Proofs.Scanner.Course
import Mathlib.Data.List.ModifyLast

/-!
# The first error of an expression

An expression that goes wrong is made of atoms up to its first bad escape, so what stands before
this escape has tokens of its own. They tell where the error points, and what a reader has got who
asked for one token after another.

A scanner keeps the last run until it knows that the run is complete. So the error of a character
that cannot be escaped comes before the token of the last run, and it points at a place in or after
this run, not always at the escape character. At the end of the expression the token of the last run
comes first, and a text is charged with the escape character that is left over.

## Main definitions

* `FirstError` — the error of an expression that goes wrong after some atoms
* `ExpressionError.CaretAt` — where the caret of a report stands
* `Scanner.FailsAfter` — a scanner gives some tokens and then an error
* `Token.charged` — a token at whose end an escape character is left over

## Main results

* `exists_firstError` — every error of an expression is of this form
* `cannotEscape_points_into_last_run` — where the error of a bad escape points
* `tokens_before_firstError` — the tokens that come before an error
-/

namespace CucumberExpressions

open Atom Scanner

/-- The error of an expression that goes wrong after the given atoms: the escape character after
them is the last character, or it stands before a character that is not special. -/
inductive FirstError (expression : String) (atoms : List Atom) : ExpressionError → Prop
  | dangling (h : expression.toList = written atoms ++ [escapeCharacter]) :
      FirstError expression atoms (.atEndOfLine expression)
  | invalid {c : Char} {rest : List Char}
      (h : expression.toList = written atoms ++ escapeCharacter :: c :: rest)
      (hc : isSpecial c = false) :
      FirstError expression atoms
        ⟨expression, (openStart atoms + ((openRun atoms).countP isEscaped + 1) : Nat),
          .cannotEscape (String.singleton c)⟩

variable {expression : String} {atoms : List Atom} {error : ExpressionError}

/-- Every error comes after some atoms. -/
theorem exists_firstError (h : tokenize expression = .error error) :
    ∃ atoms, FirstError expression atoms error := by
  obtain ⟨atoms, rest, hatoms, hstops⟩ := exists_written_append expression.toList
  refine ⟨atoms, ?_⟩
  cases hstops with
  | finished =>
    rw [List.append_nil] at hatoms
    cases h.symm.trans (tokenize_of_written hatoms)
  | dangling =>
    cases h.symm.trans (tokenize_of_dangling hatoms)
    exact .dangling hatoms
  | invalid rest hc =>
    cases h.symm.trans (tokenize_of_invalid hatoms hc)
    exact .invalid hatoms hc

/-! ### What stands before the error -/

/-- Behind these atoms there is a bad escape. -/
theorem FirstError.exists_toList_eq (h : FirstError expression atoms error) :
    ∃ rest, expression.toList = written atoms ++ rest ∧ IsBadEscape rest 0 := by
  cases h with
  | dangling h => exact ⟨_, h, rfl, by simp⟩
  | invalid h hc => exact ⟨_, h, rfl, by simp [hc]⟩

/-- The first bad escape is introduced after the atoms. -/
theorem FirstError.isLeast (h : FirstError expression atoms error) :
    IsLeast {p | IsBadEscape expression.toList p} (totalWidth atoms) := by
  obtain ⟨rest, hrest, hbad⟩ := h.exists_toList_eq
  rw [hrest]
  exact isLeast_isBadEscape_written_append hbad

/-- What stands before it has the tokens of the atoms. -/
theorem FirstError.tokenize_take (h : FirstError expression atoms error) :
    tokenize (String.ofList (expression.toList.take (totalWidth atoms))) =
      .ok (Token.framed (totalWidth atoms) (Token.ofRuns (runs atoms))) := by
  obtain ⟨rest, hrest, -⟩ := h.exists_toList_eq
  have htake : expression.toList.take (totalWidth atoms) = written atoms := by
    rw [hrest, ← length_written, List.take_left]
  have htokens := tokenize_of_written (String.toList_ofList (l := written atoms))
  rwa [String.length_ofList, length_written, ← htake] at htokens

/-- The last token before the end of the line is that of the last run; without atoms this is the
start of the line. -/
theorem getLast?_dropLast_framed (length : Nat) (atoms : List Atom) :
    (Token.framed length (Token.ofRuns (runs atoms))).dropLast.getLast? =
      some (openToken atoms) := by
  rw [Token.framed, ← List.cons_append, List.dropLast_concat]
  by_cases h : atoms = []
  · subst h
    rfl
  · rw [ofRuns_runs h, ← List.cons_append, List.getLast?_concat]

theorem dropLast_ofRuns_runs (atoms : List Atom) :
    (Token.ofRuns (runs atoms)).dropLast = Token.ofRuns (closedRuns atoms) := by
  by_cases h : atoms = []
  · subst h
    rfl
  · rw [ofRuns_runs h, List.dropLast_concat]

theorem length_text_openToken (atoms : List Atom) :
    (openToken atoms).text.length = (openRun atoms).length := by
  rw [openToken, String.length_ofList, List.length_map]

/-! ### Where the error points -/

/-- The caret of a report stands at an offset: it comes on a line of its own after the expression,
with as many spaces before it. -/
def ExpressionError.CaretAt (error : ExpressionError) (offset : Nat) : Prop :=
  ∃ advice, error.report =
    "This Cucumber Expression has a problem at column " ++ toString error.column ++ ":\n\n" ++
      error.expression ++ "\n" ++ "".pushn ' ' offset ++ "^\n" ++ advice

/-- The caret stands below the offset to which an error points. -/
theorem ExpressionError.caretAt_of_index_eq {offset : Nat} (h : error.index = offset) :
    error.CaretAt offset := by
  have hspaces : error.index.toNat = offset := by rw [h, Int.toNat_natCast]
  refine ⟨error.problem.description ++ (".\n" ++ error.problem.solution), ?_⟩
  unfold report
  simp only [hspaces, String.append_assoc]

/-- The error points at a character of the expression. -/
theorem FirstError.exists_index_lt (h : FirstError expression atoms error) :
    ∃ i : Nat, error.index = i ∧ i < expression.length := by
  cases h with
  | dangling hexpression =>
    have hlength := congrArg List.length hexpression
    rw [String.length_toList, List.length_append, List.length_singleton] at hlength
    refine ⟨expression.length - 1, ?_, by omega⟩
    change (expression.length : Int) - 1 = (expression.length - 1 : Nat)
    omega
  | invalid hexpression hc =>
    have hlength := congrArg List.length hexpression
    simp only [String.length_toList, List.length_append, length_written, List.length_cons]
      at hlength
    -- The last run and its escapes end where the bad escape starts.
    have hopen := openStart_add_totalWidth atoms
    have hwidth := totalWidth_eq (openRun atoms)
    exact ⟨_, rfl, by omega⟩

/-- **The place of a bad escape.** If a character cannot be escaped, take the tokens of what stands
before the escape, and the last of them before the end of the line. The error points at the
character, moved back by the length of this token's text; so it points at a character of the
expression which is not before the token and not after the character that cannot be escaped. It
points at the escape character exactly if the text has one character. -/
theorem cannotEscape_points_into_last_run {character : String}
    (h : tokenize expression = .error error) (hproblem : error.problem = .cannotEscape character) :
    ∃ (p index : Nat) (tokens : List Token) (last : Token),
      IsLeast {p | IsBadEscape expression.toList p} p ∧
        (∃ c, expression.toList[p + 1]? = some c ∧ character = String.singleton c) ∧
        tokenize (String.ofList (expression.toList.take p)) = .ok tokens ∧
        tokens.dropLast.getLast? = some last ∧ (p = 0 → last.text = "") ∧
        error.index = index ∧ index + last.text.length = p + 1 ∧
        1 ≤ index ∧ index ≤ p + 1 ∧ p + 1 < expression.length ∧
        error.CaretAt index ∧ (∃ c, expression.toList[index]? = some c) ∧ last.start ≤ index ∧
        (index = p ↔ last.text.length = 1) := by
  obtain ⟨atoms, herror⟩ := exists_firstError h
  have hleast := herror.isLeast
  have htokens := herror.tokenize_take
  cases herror with
  | dangling => cases hproblem
  | @invalid c rest hexpression hc =>
    cases hproblem
    have hlength := congrArg List.length hexpression
    simp only [String.length_toList, List.length_append, length_written, List.length_cons]
      at hlength
    -- The escape comes after the last run, which is as wide as its characters and their escapes.
    have hopen := openStart_add_totalWidth atoms
    have hwidth := totalWidth_eq (openRun atoms)
    have htext := length_text_openToken atoms
    have hindex : openStart atoms + ((openRun atoms).countP isEscaped + 1) +
        (openToken atoms).text.length = totalWidth atoms + 1 := by omega
    refine ⟨totalWidth atoms, _, _, openToken atoms, hleast, ⟨c, ?_, rfl⟩, htokens,
      getLast?_dropLast_framed _ atoms, fun hp => ?_, rfl, hindex, by omega, by omega, by omega,
      ExpressionError.caretAt_of_index_eq rfl, ?_, ?_, by omega⟩
    · rw [hexpression, ← length_written, List.getElem?_append_right (Nat.le_add_right _ _),
        Nat.add_sub_cancel_left]
      rfl
    · have hempty : (openToken atoms).text.length = 0 := by omega
      simpa using hempty
    · refine ⟨_, List.getElem?_eq_getElem ?_⟩
      rw [String.length_toList]
      omega
    · have hstart : (openToken atoms).start = (openStart atoms : Int) := rfl
      omega

/-- After a text of two characters the error points at the second of them. -/
theorem cannotEscape_points_into_text :
    ∃ (p : Nat) (tokens : List Token) (last : Token),
      IsLeast {p | IsBadEscape "ab\\x".toList p} p ∧
        tokenize (String.ofList ("ab\\x".toList.take p)) = .ok tokens ∧
        tokens.dropLast.getLast? = some last ∧ 1 + last.text.length = p + 1 ∧
        (⟨"ab\\x", 1, .cannotEscape "x"⟩ : ExpressionError).CaretAt 1 := by
  have herror : tokenize "ab\\x" = .error ⟨"ab\\x", 1, .cannotEscape "x"⟩ := by decide +kernel
  obtain ⟨p, index, tokens, last, hleast, -, htokens, hlast, -, hindex, hsum, -, -, -, hcaret, -⟩ :=
    cannotEscape_points_into_last_run herror rfl
  obtain rfl : 1 = index := Int.ofNat.inj hindex
  exact ⟨p, tokens, last, hleast, htokens, hlast, hsum, hcaret⟩

/-! ### The tokens before the error -/

/-- A token at whose end an escape character is left over. Only a text is charged with it. -/
def Token.charged (token : Token) : Token :=
  { token with stop := token.stop + if token.kind = .text then 1 else 0 }

namespace Scanner

/-- On request the scanner gives these tokens, and then the error. -/
def FailsAfter (s : Scanner) (tokens : List Token) (error : ExpressionError) : Prop :=
  (List.range (tokens.length + 1)).map s.outcome = tokens.map .token ++ [.error error]

/-- What a scanner gives up to its first error can be read off its transcript. -/
theorem failsAfter_of_transcript_eq {s : Scanner} {tokens : List Token} {behind : List Outcome}
    (h : s.transcript = tokens.map .token ++ .error error :: behind) :
    s.FailsAfter tokens error := by
  have hbefore : s.transcript = (tokens.map .token ++ [.error error]) ++ behind := by
    rw [h, List.append_assoc, List.singleton_append]
  have hlength : (tokens.map Outcome.token ++ [.error error] : List Outcome).length =
      tokens.length + 1 := by simp
  have htranscript : tokens.length + 1 ≤ s.transcript.length := by
    rw [hbefore, List.length_append, hlength]
    exact Nat.le_add_right _ _
  rw [FailsAfter, map_outcome_range htranscript, hbefore, ← hlength, List.take_left]

/-- Before the error of a bad escape come the tokens of the closed runs. -/
theorem failsAfter_of_invalid {c : Char} {rest : List Char}
    (h : expression.toList = written atoms ++ escapeCharacter :: c :: rest)
    (hc : isSpecial c = false) :
    (ofExpression expression).FailsAfter
      (Token.startOfLine :: Token.ofRuns (closedRuns atoms))
      ⟨expression, (openStart atoms + ((openRun atoms).countP isEscaped + 1) : Nat),
        .cannotEscape (String.singleton c)⟩ := by
  have htranscript := transcript_ofExpression expression
  rw [h, feedAll_append, feedAll_written, feedAll, feed_escapeCharacter, feedAll,
    feed_of_not_isSpecial hc] at htranscript
  simp only [Option.toList_none, Option.toList_some, List.nil_append, List.append_assoc,
    List.cons_append] at htranscript
  exact failsAfter_of_transcript_eq htranscript

/-- Before the error of an escape character that is left over come the tokens of all runs. -/
theorem failsAfter_of_dangling (h : expression.toList = written atoms ++ [escapeCharacter]) :
    (ofExpression expression).FailsAfter (Token.startOfLine :: readTokens atoms true)
      (.atEndOfLine expression) := by
  have hfed := feedAll_written_append_waiting expression atoms true
  rw [waiting, if_pos rfl, ← h] at hfed
  have htranscript := transcript_ofExpression expression
  rw [hfed] at htranscript
  dsimp only at htranscript
  rw [closing_after, ← List.append_assoc, ← List.map_append] at htranscript
  exact failsAfter_of_transcript_eq htranscript

theorem lastToken_true_eq (atoms : List Atom) :
    lastToken atoms true = (openToken atoms).charged := by
  rw [lastToken, Token.charged, ← openStart_add_totalWidth atoms]
  by_cases hkind : kindOf (openRun atoms) = .text <;> simp [openToken, hkind]

theorem modifyLast_charged_framed (length : Nat) (atoms : List Atom) :
    (Token.framed length (Token.ofRuns (runs atoms))).dropLast.modifyLast Token.charged =
      Token.startOfLine :: readTokens atoms true := by
  rw [Token.framed, ← List.cons_append, List.dropLast_concat]
  by_cases h : atoms = []
  · subst h
    rfl
  · rw [ofRuns_runs h, ← List.cons_append, List.modifyLast_concat, readTokens,
      lastTokens_of_ne_nil h, lastToken_true_eq]
    rfl

end Scanner

/-- **The tokens before the error.** Take the tokens of what stands before the first bad escape. If
a character cannot be escaped, a reader gets these tokens up to the last one that is no sentinel,
which is missing; if the escape character is the last one of the expression, a reader gets all of
them up to the end of the line, and if the last one is a text, it is charged with the escape
character and so goes on to the end of the expression. -/
theorem tokens_before_firstError (h : tokenize expression = .error error) :
    ∃ (p : Nat) (tokens : List Token),
      IsLeast {p | IsBadEscape expression.toList p} p ∧
        tokenize (String.ofList (expression.toList.take p)) = .ok tokens ∧
        (∀ character, error.problem = .cannotEscape character →
          (ofExpression expression).FailsAfter
            (Token.startOfLine :: (Token.visible false tokens).dropLast) error) ∧
        (error.problem = .escapedEndOfLine →
          p + 1 = expression.length ∧
            (ofExpression expression).FailsAfter (tokens.dropLast.modifyLast Token.charged) error ∧
            ∀ last, tokens.dropLast.getLast? = some last → last.kind = .text →
              last.charged.stop = expression.length) ∧
        error.problem ≠ .invalid := by
  obtain ⟨atoms, herror⟩ := exists_firstError h
  refine ⟨totalWidth atoms, _, herror.isLeast, herror.tokenize_take, ?_⟩
  cases herror with
  | @invalid c rest hexpression hc =>
    refine ⟨fun _ _ => ?_, nofun, nofun⟩
    rw [Token.visible_framed_ofRuns, dropLast_ofRuns_runs]
    exact failsAfter_of_invalid hexpression hc
  | dangling hexpression =>
    have hlength : totalWidth atoms + 1 = expression.length := by
      rw [← String.length_toList, hexpression, List.length_append, length_written,
        List.length_singleton]
    refine ⟨nofun, fun _ => ⟨hlength, ?_, fun last hlast hkind => ?_⟩, nofun⟩
    · rw [modifyLast_charged_framed]
      exact failsAfter_of_dangling hexpression
    · obtain rfl : openToken atoms = last :=
        Option.some_inj.mp ((getLast?_dropLast_framed _ atoms).symm.trans hlast)
      have hstop : (openToken atoms).stop = (totalWidth atoms : Nat) := by
        rw [← openStart_add_totalWidth atoms]
        rfl
      rw [Token.charged, if_pos hkind, hstop, ← hlength]
      rfl

/-- The escape character that is left over is charged to the text before it. -/
theorem charged_text_before_firstError :
    (ofExpression "a\\").FailsAfter [Token.startOfLine, ⟨.text, "a", 0, 2⟩]
      (.atEndOfLine "a\\") := by
  have herror : tokenize "a\\" = .error (.atEndOfLine "a\\") := by decide +kernel
  obtain ⟨p, tokens, -, htokens, -, hend, -⟩ := tokens_before_firstError herror
  obtain ⟨hp, hfails, -⟩ := hend rfl
  obtain rfl : 1 = p := (Nat.succ.inj hp).symm
  have hbefore : tokenize (String.ofList ("a\\".toList.take 1)) =
      .ok [Token.startOfLine, ⟨.text, "a", 0, 1⟩, Token.endOfLine 1] := by
    decide +kernel
  cases hbefore.symm.trans htokens
  exact hfails

end CucumberExpressions
