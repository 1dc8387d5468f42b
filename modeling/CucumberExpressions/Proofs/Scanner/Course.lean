import CucumberExpressions.Proofs.Mending
import CucumberExpressions.Proofs.Scanner.Transcript
import Mathlib.Algebra.BigOperators.Group.List.Basic

/-!
# The course of the requests to a scanner

Between the start of the line and its end, or the error that stands there, a scanner gives the
tokens of the runs of the mended expression, interspersed with errors about the characters that are
missing in it. If an escape character is left at the end, a text before it is charged with it.

## Main definitions

* `Scanner.lastToken` — the token of the last run, at the end of an expression
* `Scanner.lastTokens`, `Scanner.readTokens` — the tokens after the last character, and all those
  between the sentinels
* `Scanner.atEnd` — what comes after these tokens
* `Token.Proper` — the tokens that can stand between the sentinels

## Main results

* `Scanner.closing_after` — what a scanner gives after the last character
* `Scanner.proper_of_mem_readTokens`, `Scanner.tiles_readTokens` — the tokens between the sentinels
  are proper and leave no gap
* `Scanner.exists_transcript_eq` — what the transcript of an expression is made of
-/

namespace CucumberExpressions

open Atom

/-- A token that can stand between the sentinels. Only a text can be longer in the expression. -/
structure Token.Proper (token : Token) : Prop where
  isSentinel : token.kind.isSentinel = false
  text_ne : token.text ≠ ""
  stop_eq : token.kind ≠ .text → token.stop = token.start + token.text.length

theorem Token.proper_of_mem_ofRuns {atoms : List Atom} {token : Token}
    (h : token ∈ Token.ofRuns (runs atoms)) : token.Proper := by
  obtain ⟨before, run, behind, hruns, hlexeme, hstart, hstop⟩ := Token.exists_of_mem_place h
  have hmem : run ∈ runs atoms := by
    rw [hruns]
    exact List.mem_append_right _ List.mem_cons_self
  have hkind : token.kind = kindOf run := congrArg Lexeme.kind hlexeme
  have htext : token.text = String.ofList (run.map char) := congrArg Lexeme.text hlexeme
  refine ⟨Token.isSentinel_of_mem_ofRuns h, ?_, fun hne => ?_⟩
  · rw [htext]
    simpa using ne_nil_of_mem_runs hmem
  · -- Outside of texts there are no escape characters.
    have hescaped := countP_isEscaped_eq_zero (isChain_of_mem_runs hmem) (hkind ▸ hne)
    have hwidth := totalWidth_eq run
    have hlength : token.text.length = run.length := by
      rw [htext, String.length_ofList, List.length_map]
    rw [hstart, hstop, hlength]
    omega

namespace Scanner

variable {expression : String} {atoms : List Atom} {pending : Bool} {token : Token} {o : Outcome}

/-! ### The tokens between the sentinels -/

/-- The token of the last run if the expression ends there. A text is charged with the escape
character that waits after it. -/
def lastToken (atoms : List Atom) (pending : Bool) : Token :=
  { openToken atoms with
    stop := (totalWidth atoms + if kindOf (openRun atoms) = .text then pending.toNat else 0 : Nat) }

/-- The tokens that are given after the last character. -/
def lastTokens (atoms : List Atom) (pending : Bool) : List Token :=
  if atoms = [] then [] else [lastToken atoms pending]

/-- The tokens between the sentinels. -/
def readTokens (atoms : List Atom) (pending : Bool) : List Token :=
  Token.ofRuns (closedRuns atoms) ++ lastTokens atoms pending

/-- What is given after these tokens, up to the first final outcome. -/
def atEnd (expression : String) (atoms : List Atom) (pending : Bool) : List Outcome :=
  if pending then [.error (.atEndOfLine expression)]
  else [.token (Token.endOfLine (totalWidth atoms)), .stop]

theorem lastTokens_of_ne_nil (h : atoms ≠ []) :
    lastTokens atoms pending = [lastToken atoms pending] :=
  if_neg h

theorem ofRuns_runs (h : atoms ≠ []) :
    Token.ofRuns (runs atoms) = Token.ofRuns (closedRuns atoms) ++ [openToken atoms] := by
  rw [← closedRuns_append_openRun h, ofRuns_append_openRun]

theorem proper_of_mem_readTokens (h : token ∈ readTokens atoms pending) : token.Proper := by
  by_cases hne : atoms = []
  · subst hne
    cases h
  have hproper : ∀ token ∈ Token.ofRuns (closedRuns atoms) ++ [openToken atoms], token.Proper :=
    fun token hmem => Token.proper_of_mem_ofRuns (by rwa [ofRuns_runs hne])
  rw [readTokens, lastTokens_of_ne_nil hne] at h
  rcases List.mem_append.mp h with h | h
  · exact hproper token (List.mem_append_left _ h)
  · -- The last token differs from that of the open run only in where it ends, if it is a text.
    obtain rfl := List.mem_singleton.mp h
    have hopen := hproper _ (List.mem_append_right _ (List.mem_singleton_self _))
    refine ⟨hopen.isSentinel, hopen.text_ne, fun hkind => ?_⟩
    have hstop := hopen.stop_eq hkind
    have htotal := openStart_add_totalWidth atoms
    have hkind' : kindOf (openRun atoms) ≠ .text := hkind
    simp only [lastToken, openToken, if_neg hkind'] at hstop ⊢
    omega

/-- There are no more tokens than characters that have been read. -/
theorem length_readTokens_le (atoms : List Atom) (pending : Bool) :
    (readTokens atoms pending).length ≤ totalWidth atoms := by
  by_cases hne : atoms = []
  · subst hne
    rfl
  have hlength : (readTokens atoms pending).length = ((runs atoms).map totalWidth).length := by
    have hruns := congrArg List.length (Token.map_lexeme_ofRuns (runs atoms))
    rw [ofRuns_runs hne] at hruns
    rw [readTokens, lastTokens_of_ne_nil hne]
    simpa using hruns
  rw [hlength]
  -- There is a token for each run, and each run takes at least one character.
  conv_rhs => rw [← flatten_runs atoms, totalWidth_flatten]
  refine List.length_le_sum_of_one_le _ fun width hwidth => ?_
  obtain ⟨run, hrun, rfl⟩ := List.mem_map.mp hwidth
  have hpos := List.length_pos_of_ne_nil (ne_nil_of_mem_runs hrun)
  rw [totalWidth_eq]
  omega

/-- The tokens leave no gap, and they reach the end unless an escape character waits there. -/
theorem tiles_readTokens (atoms : List Atom) (pending : Bool) :
    ∃ stop : Nat, Token.Tiles 0 stop (readTokens atoms pending) ∧
      (pending = false → stop = totalWidth atoms) := by
  by_cases hne : atoms = []
  · subst hne
    exact ⟨0, rfl, fun _ => rfl⟩
  -- The last token starts where the last run does, which is where the closed runs end.
  have hclosed : Token.Tiles (0 : Nat) _ (Token.ofRuns (closedRuns atoms)) :=
    Token.tiles_place 0 (closedRuns atoms)
  rw [Nat.zero_add] at hclosed
  refine ⟨totalWidth atoms + if kindOf (openRun atoms) = .text then pending.toNat else 0, ?_, ?_⟩
  · rw [readTokens, lastTokens_of_ne_nil hne]
    exact Token.tiles_append hclosed ⟨rfl, rfl⟩
  · rintro rfl
    simp

/-! ### The transcript -/

/-- The token that is cut off last is that of the open run. -/
theorem cut_fst_after (expression : String) (atoms : List Atom) (pending : Bool) :
    ((after expression atoms pending).cut (kindOf (openRun atoms))).1 =
      lastToken atoms pending := by
  have hwidth := totalWidth_eq (openRun atoms)
  have htotal := openStart_add_totalWidth atoms
  by_cases hkind : kindOf (openRun atoms) = .text
  · simp [cut, after, lastToken, openToken, hkind]
    omega
  · have hescaped := countP_isEscaped_eq_zero (isChain_openRun atoms) hkind
    simp [cut, after, lastToken, openToken, hkind]
    omega

/-- After the last character come the token of the last run, and the end of the line or the error
that stands there. -/
theorem closing_after (expression : String) (atoms : List Atom) (pending : Bool) :
    (after expression atoms pending).closing =
      (lastTokens atoms pending).map .token ++ atEnd expression atoms pending := by
  by_cases h : atoms = []
  · -- Nothing has been collected.
    subst h
    cases pending <;> rfl
  · have hcut := cut_fst_after expression atoms pending
    have hlast : (after expression atoms pending).last = kindOf (openRun atoms) := rfl
    rw [closing, ending, isEmpty_collected_after h, lastTokens_of_ne_nil h, ← hcut, hlast]
    cases pending with
    | false =>
      rw [cut_after fun _ => rfl]
      simp [close, cut, after, atEnd, Token.endOfLine]
    | true => rfl

/-- What is given on the way is a token, or an error about a character that is rejected. -/
theorem mem_feedAll {s : Scanner} {cs : List Char} (h : o ∈ (s.feedAll cs).1) :
    (∃ token, o = .token token) ∨
      ∃ index c, o = .error ⟨s.expression, index, .cannotEscape (String.singleton c)⟩ := by
  induction cs generalizing s with
  | nil => cases h
  | cons c cs ih =>
    rw [feedAll] at h
    rcases List.mem_append.mp h with h | h
    · rcases feed_fst_cases (Option.mem_toList.mp h) with htoken | ⟨index, herror⟩
      · exact Or.inl htoken
      · exact Or.inr ⟨index, c, herror⟩
    · rw [← s.expression_feed c]
      exact ih h

/-- **The transcript.** Between the start of the line and what stands at its end, a scanner gives
tokens and errors: the tokens of the mended expression, and an error about each discarded
character. -/
theorem exists_transcript_eq
    (h : mend expression.toList = written atoms ++ waiting pending) :
    ∃ middle : List Outcome,
      (ofExpression expression).transcript =
          .token Token.startOfLine :: (middle ++ atEnd expression atoms pending) ∧
        (∀ o ∈ middle, (∃ token, o = .token token) ∨
          ∃ index c, o = .error ⟨expression, index, .cannotEscape (String.singleton c)⟩) ∧
        middle.filter (·.rejected?.isNone) = (readTokens atoms pending).map .token ∧
        middle.filterMap Outcome.rejected? =
          (discarded expression.toList).map String.singleton := by
  obtain ⟨hkept, hstate⟩ := feedAll_of_mend_eq expression h
  have herrors := (recovers_mend (s := started expression) rfl expression.toList).errors
  have hlast : ∀ o ∈ (lastTokens atoms pending).map Outcome.token, ∃ token, o = .token token :=
    fun o ho => by
      obtain ⟨token, -, rfl⟩ := List.mem_map.mp ho
      exact ⟨token, rfl⟩
  have hquiet : ∀ o ∈ (lastTokens atoms pending).map Outcome.token, o.rejected? = none :=
    fun o ho => by
      obtain ⟨token, rfl⟩ := hlast o ho
      rfl
  refine ⟨((started expression).feedAll expression.toList).1 ++
    (lastTokens atoms pending).map .token, ?_, ?_, ?_, ?_⟩
  · rw [transcript_ofExpression]
    dsimp only
    rw [hstate, closing_after, List.append_assoc]
    rfl
  · intro o ho
    rcases List.mem_append.mp ho with ho | ho
    · exact mem_feedAll ho
    · exact Or.inl (hlast o ho)
  · have hself : ((lastTokens atoms pending).map Outcome.token).filter (·.rejected?.isNone) = _ :=
      List.filter_eq_self.mpr fun o ho => by rw [hquiet o ho]; rfl
    rw [List.filter_append, hkept, hself, ← List.map_append, ← readTokens]
  · rw [List.filterMap_append, herrors, List.filterMap_eq_nil_iff.mpr hquiet, List.append_nil]

end Scanner

end CucumberExpressions
