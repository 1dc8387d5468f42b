import CucumberExpressions.Proofs.Scanner.Course

/-!
# Going on after an error

An error about a character that cannot be escaped does not end the requests to a scanner. Apart from
such errors the scanner gives what it gives for the mended expression, from which these characters
are missing.

## Main definitions

* `Outcome.inExpression` — an outcome, with the error at the end of the given expression

## Main results

* `transcript_recovers_as_mended` — the transcript of an expression is that of the mended one,
  interspersed with errors about the discarded characters
-/

namespace CucumberExpressions

open Atom Scanner

variable {expression : String} {atoms : List Atom} {pending : Bool}

/-- The outcome, with the error at the end of the given expression if it is one at the end. -/
def Outcome.inExpression (expression : String) : Outcome → Outcome
  | .error ⟨_, _, .escapedEndOfLine⟩ => .error (.atEndOfLine expression)
  | o => o

theorem map_inExpression_atEnd (expression expression' : String) (atoms : List Atom)
    (pending : Bool) :
    (atEnd expression' atoms pending).map (Outcome.inExpression expression) =
      atEnd expression atoms pending := by
  cases pending <;> rfl

theorem rejected?_of_mem_atEnd {o : Outcome} (h : o ∈ atEnd expression atoms pending) :
    o.rejected? = none := by
  cases pending with
  | false =>
    rcases List.mem_cons.mp h with rfl | h
    · rfl
    · rw [List.mem_singleton.mp h]
      rfl
  | true =>
    rw [List.mem_singleton.mp h]
    rfl

/-- Without the errors on the way, a transcript has the tokens of the mended expression. -/
theorem filter_transcript (h : mend expression.toList = written atoms ++ waiting pending) :
    (ofExpression expression).transcript.filter (·.rejected?.isNone) =
      .token Token.startOfLine ::
        ((readTokens atoms pending).map .token ++ atEnd expression atoms pending) := by
  obtain ⟨middle, htranscript, -, hkept, -⟩ := exists_transcript_eq h
  have hend : (atEnd expression atoms pending).filter (·.rejected?.isNone) =
      atEnd expression atoms pending :=
    List.filter_eq_self.mpr fun o ho => by rw [rejected?_of_mem_atEnd ho]; rfl
  rw [htranscript, List.filter_cons_of_pos rfl, List.filter_append, hkept, hend]

/-- The errors on the way name the characters that are discarded, in their order. -/
theorem filterMap_transcript (expression : String) :
    (ofExpression expression).transcript.filterMap Outcome.rejected? =
      (discarded expression.toList).map String.singleton := by
  obtain ⟨atoms, pending, h⟩ := exists_mend_eq expression.toList
  obtain ⟨middle, htranscript, -, -, herrors⟩ := exists_transcript_eq h
  have hend : (atEnd expression atoms pending).filterMap Outcome.rejected? = [] :=
    List.filterMap_eq_nil_iff.mpr fun o => rejected?_of_mem_atEnd
  rw [htranscript, List.filterMap_cons_none rfl, List.filterMap_append, herrors, hend,
    List.append_nil]

/-- A token that ends the line stands after the last atom of the mended expression. -/
theorem eq_endOfLine_of_mem_transcript {token : Token}
    (h : mend expression.toList = written atoms ++ waiting pending)
    (hmem : .token token ∈ (ofExpression expression).transcript)
    (hkind : token.kind = .endOfLine) :
    token = Token.endOfLine (totalWidth atoms) ∧ pending = false := by
  have hkept : .token token ∈
      (ofExpression expression).transcript.filter (·.rejected?.isNone) :=
    List.mem_filter.mpr ⟨hmem, rfl⟩
  rw [filter_transcript h] at hkept
  rcases List.mem_cons.mp hkept with hstart | hkept
  · cases hstart
    cases hkind
  rcases List.mem_append.mp hkept with hread | hend
  · -- The tokens in between are no sentinels.
    obtain ⟨token', htoken', heq⟩ := List.mem_map.mp hread
    cases heq
    have hsentinel := (proper_of_mem_readTokens htoken').isSentinel
    rw [hkind] at hsentinel
    cases hsentinel
  · cases pending with
    | false => simpa [atEnd] using hend
    | true => simp [atEnd] at hend

/-- **Recovery.** Without the errors on the way, the transcript of an expression is that of the
mended one, where an error at the end names the expression itself. The errors on the way are about
the discarded characters, in their order, and the mended expression has none. So the end of the line
stands before the end of the expression by as many characters as there are such errors. -/
theorem transcript_recovers_as_mended (expression : String) :
    let transcript := (ofExpression expression).transcript
    let mended := (ofExpression (String.ofList (mend expression.toList))).transcript
    transcript.filter (·.rejected?.isNone) = mended.map (Outcome.inExpression expression) ∧
      transcript.filterMap Outcome.rejected? =
        (discarded expression.toList).map String.singleton ∧
      (∀ o ∈ mended, o.rejected? = none) ∧
      ∀ token, .token token ∈ transcript → token.kind = .endOfLine →
        ∃ stop, token = Token.endOfLine stop ∧
          stop + transcript.countP (·.rejected?.isSome) = expression.length := by
  intro transcript mended
  obtain ⟨atoms, pending, h⟩ := exists_mend_eq expression.toList
  -- The mended expression is made of the same atoms, and nothing is missing in it.
  obtain ⟨hmend, hdiscarded⟩ := mend_written_append_waiting atoms pending
  have hmended : (String.ofList (mend expression.toList)).toList =
      written atoms ++ waiting pending := by rw [String.toList_ofList, h]
  have herrors := filterMap_transcript expression
  have hquiet : ∀ o ∈ mended, o.rejected? = none := by
    have herrors' := filterMap_transcript (String.ofList (mend expression.toList))
    rw [hmended, hdiscarded] at herrors'
    exact List.filterMap_eq_nil_iff.mp herrors'
  refine ⟨?_, herrors, hquiet, fun token hmem hkind => ?_⟩
  · have hself : mended.filter (·.rejected?.isNone) = mended :=
      List.filter_eq_self.mpr fun o ho => by rw [hquiet o ho]; rfl
    have hfilter : mended.filter (·.rejected?.isNone) = _ :=
      @filter_transcript _ atoms pending (by rw [hmended, hmend])
    rw [filter_transcript h, ← hself, hfilter, List.map_cons, List.map_append, List.map_map,
      map_inExpression_atEnd]
    rfl
  · obtain ⟨rfl, rfl⟩ := eq_endOfLine_of_mem_transcript h hmem hkind
    have hcount : transcript.countP (·.rejected?.isSome) =
        (discarded expression.toList).length := by
      rw [← List.length_filterMap_eq_countP, herrors, List.length_map]
    have hlength := length_mend_add_length_discarded expression.toList
    rw [h, waiting, if_neg Bool.false_ne_true, List.append_nil, length_written,
      String.length_toList] at hlength
    exact ⟨totalWidth atoms, rfl, by rw [hcount, hlength]⟩

end CucumberExpressions
