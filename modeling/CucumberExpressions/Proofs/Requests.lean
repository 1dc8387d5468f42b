import CucumberExpressions.Proofs.Scanner.Course
import Mathlib.Data.List.GetD

/-!
# Any number of requests

However often a scanner is asked, also after errors, it gives the start of the line first, then
tokens and errors about single characters, and then either the end of the line and nothing any more,
or for ever the error of an escape character at the end. The number of outcomes before the final one
is bounded by the length of the expression, and the tokens follow each other without a gap.

## Main definitions

* `Outcome.token?` — the token of an outcome
* `Outcome.Ends` — the two ways in which the requests come to an end

## Main results

* `outcome_shape_and_progress` — what a scanner gives on any request
-/

namespace CucumberExpressions

open Atom Scanner

namespace Outcome

/-- The token of an outcome. -/
def token? : Outcome → Option Token
  | .token t => some t
  | _ => none

/-- How the requests to a scanner come to an end: what comes last, and what is given for ever. After
the end of the line there is nothing left, but an escape character that is left at the end is an
error on every request. -/
inductive Ends (expression : String) : List Outcome → Outcome → Prop
  | endOfLine (stop : Nat) : Ends expression [.token (Token.endOfLine stop)] .stop
  | dangling : Ends expression [] (.error (.atEndOfLine expression))

variable {expression : String} {atoms : List Atom} {pending : Bool} {closing : List Outcome}
  {last : Outcome}

theorem Ends.length_le (h : Ends expression closing last) : closing.length ≤ 1 := by
  cases h <;> simp

/-- The outcomes at the end are a list of this form, and then the final outcome. -/
theorem exists_ends_atEnd (expression : String) (atoms : List Atom) (pending : Bool) :
    ∃ closing last, atEnd expression atoms pending = closing ++ [last] ∧
      Ends expression closing last ∧
      ∀ stop : Nat, (pending = false → stop = totalWidth atoms) →
        ∃ stop', Token.Tiles stop stop' (closing.filterMap token?) := by
  cases pending with
  | false =>
    refine ⟨_, _, rfl, .endOfLine (totalWidth atoms), fun stop hstop => ⟨totalWidth atoms, ?_⟩⟩
    rw [hstop rfl]
    exact ⟨rfl, rfl⟩
  | true => exact ⟨[], _, rfl, .dangling, fun stop _ => ⟨stop, rfl⟩⟩

/-- The tokens among outcomes are found among those that are no errors on the way. -/
theorem filterMap_token?_filter (outcomes : List Outcome) :
    (outcomes.filter (·.rejected?.isNone)).filterMap token? = outcomes.filterMap token? := by
  rw [List.filterMap_filter]
  refine List.filterMap_congr fun o _ => ?_
  cases hrejected : o.rejected? with
  | none => rfl
  | some character =>
    -- Such an outcome is an error.
    cases o with
    | token token => cases hrejected
    | error error => rfl
    | stop => rfl

theorem filterMap_token?_map (tokens : List Token) :
    (tokens.map Outcome.token).filterMap token? = tokens := by
  rw [List.filterMap_map]
  exact List.filterMap_some

end Outcome

open Outcome

theorem getD_append_singleton {α : Type*} (list : List α) (a : α) (n : Nat) :
    (list ++ [a]).getD n a = list.getD n a := by
  rcases Nat.lt_or_ge n list.length with h | h
  · rw [List.getD_append _ _ _ _ h]
  · rw [List.getD_append_right _ _ _ _ h, List.getD_eq_default _ _ h]
    cases n - list.length <;> rfl

/-- **Shape and progress.** Every request gives what stands at its place in a list that starts with
the start of the line, goes on with tokens and errors about single characters, and ends in one of
the two ways; after this list the final outcome is given for ever. The list has at most two outcomes
more than the expression has characters, and its tokens follow each other without a gap. -/
theorem outcome_shape_and_progress (expression : String) :
    ∃ middle closing last, Outcome.Ends expression closing last ∧
      let before := .token Token.startOfLine :: (middle ++ closing)
      (∀ n, (ofExpression expression).outcome n = before.getD n last) ∧
        (∀ o ∈ middle, (∃ token, o = .token token ∧ token.Proper) ∨
          ∃ index c, o = .error ⟨expression, index, .cannotEscape (String.singleton c)⟩) ∧
        before.length ≤ expression.length + 2 ∧
        (∀ n, expression.length + 2 ≤ n → (ofExpression expression).outcome n = last) ∧
        ∃ stop, Token.Tiles 0 stop (before.filterMap Outcome.token?) := by
  obtain ⟨atoms, pending, hmend⟩ := exists_mend_eq expression.toList
  obtain ⟨middle, htranscript, hmiddle, hkept, herrors⟩ := exists_transcript_eq hmend
  obtain ⟨closing, last, hend, hends, htilesEnd⟩ := exists_ends_atEnd expression atoms pending
  refine ⟨middle, closing, last, hends, ?_⟩
  intro before
  have hbefore : (ofExpression expression).transcript = before ++ [last] := by
    rw [htranscript, hend, ← List.append_assoc]
    rfl
  have houtcome : ∀ n, (ofExpression expression).outcome n = before.getD n last := by
    intro n
    rw [outcome_eq_getD_transcript, hbefore, List.getLastD_concat, getD_append_singleton]
  have hlength : before.length ≤ expression.length + 2 := by
    -- A token takes at least one character of the mended expression, an error one that is missing.
    have htokens : middle.countP (·.rejected?.isNone) = (readTokens atoms pending).length := by
      rw [List.countP_eq_length_filter, hkept, List.length_map]
    have hmissing : middle.countP (fun o => ¬ o.rejected?.isNone) =
        (discarded expression.toList).length := by
      have hcount := congrArg List.length herrors
      rw [List.length_filterMap_eq_countP, List.length_map] at hcount
      rw [← hcount]
      refine List.countP_congr fun o _ => ?_
      cases o.rejected? <;> simp
    have hsplit := List.length_eq_countP_add_countP (fun o : Outcome => o.rejected?.isNone)
      (l := middle)
    have hread := length_readTokens_le atoms pending
    have htotal := length_mend_add_length_discarded expression.toList
    rw [hmend, List.length_append, length_written, String.length_toList] at htotal
    have hclosing := hends.length_le
    simp only [before, List.length_cons, List.length_append]
    omega
  refine ⟨houtcome, fun o ho => ?_, hlength, fun n hn => ?_, ?_⟩
  · rcases hmiddle o ho with ⟨token, rfl⟩ | herror
    · have hmem : Outcome.token token ∈ middle.filter (·.rejected?.isNone) :=
        List.mem_filter.mpr ⟨ho, rfl⟩
      rw [hkept] at hmem
      obtain ⟨token', htoken', heq⟩ := List.mem_map.mp hmem
      cases heq
      exact Or.inl ⟨token, rfl, proper_of_mem_readTokens htoken'⟩
    · exact Or.inr herror
  · rw [houtcome, List.getD_eq_default _ _ (hlength.trans hn)]
  · obtain ⟨stop, htiles, hstop⟩ := tiles_readTokens atoms pending
    obtain ⟨stop', htiles'⟩ := htilesEnd stop hstop
    refine ⟨stop', rfl, ?_⟩
    change Token.Tiles 0 stop' ((middle ++ closing).filterMap token?)
    rw [List.filterMap_append, ← filterMap_token?_filter middle, hkept, filterMap_token?_map]
    exact Token.tiles_append htiles htiles'

end CucumberExpressions
