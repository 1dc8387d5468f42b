import CucumberExpressions.Proofs.Scanner.History

/-!
# Reading an expression in two phases

Tokens can be found in two phases. First the expression is cut into atoms from left to right; then
neighbouring atoms that belong to one token are put together, and the tokens are laid out one after
another between the sentinels. The scanner does both at once and one character late, with the same
result.

## Main definitions

* `tokensInTwoPhases` — the tokens of an expression, found in two phases

## Main results

* `tokenize_eq_tokensInTwoPhases` — a scanner finds the same tokens
-/

namespace CucumberExpressions

/-- The tokens of an expression, found in two phases: atoms first, then runs of atoms. -/
def tokensInTwoPhases (expression : String) : List Token :=
  Token.framed expression.length
    (Token.ofRuns (Atom.runs (Atom.read expression.toList).1))

/-- **Reading in two phases.** If an expression has tokens, its atoms go on to its end, and the
tokens are those of the runs of its atoms. The sentinels stand at both ends and nowhere else, and no
two neighbouring tokens could have been one. -/
theorem tokenize_eq_tokensInTwoPhases {expression : String} {tokens : List Token}
    (h : tokenize expression = .ok tokens) :
    (Atom.read expression.toList).2 = [] ∧
      tokens = tokensInTwoPhases expression ∧
      (∀ token ∈ tokens.tail.dropLast, token.kind.isSentinel = false) ∧
      tokens.IsChain (fun token token' =>
        ¬ (token.kind = .text ∧ token'.kind = .text) ∧
          ¬ (token.kind = .whiteSpace ∧ token'.kind = .whiteSpace)) ∧
      Token.visible false tokens = tokens.tail.dropLast := by
  obtain ⟨atoms, hatoms, rfl⟩ := tokenize_eq_ok_iff.mp h
  have hread : Atom.read expression.toList = (atoms, []) := by
    rw [hatoms, Atom.read_written]
  have hsentinel : ∀ token ∈ Token.ofRuns (Atom.runs atoms), token.kind.isSentinel = false :=
    fun _ => Token.isSentinel_of_mem_ofRuns
  refine ⟨by rw [hread], by rw [tokensInTwoPhases, hread], ?_, ?_, ?_⟩
  · rw [Token.tail_dropLast_framed]
    exact hsentinel
  · refine (Token.isChain_framed _ (Token.isChain_ofRuns atoms)).imp fun token token' hmerges => ?_
    exact Kind.merges_eq_false_iff.mp hmerges
  · rw [Token.visible_false_framed _ hsentinel, Token.tail_dropLast_framed]

/-- Escaped characters inside a text and right after a symbol. -/
theorem tokensInTwoPhases_with_escapes :
    tokensInTwoPhases "a\\ b  (\\/" =
      [⟨.startOfLine, "", 0, 0⟩, ⟨.text, "a b", 0, 4⟩, ⟨.whiteSpace, "  ", 4, 6⟩,
        ⟨.beginOptional, "(", 6, 7⟩, ⟨.text, "/", 7, 9⟩, ⟨.endOfLine, "", 9, 9⟩] := by
  have htokens : tokenize "a\\ b  (\\/" =
      .ok [⟨.startOfLine, "", 0, 0⟩, ⟨.text, "a b", 0, 4⟩, ⟨.whiteSpace, "  ", 4, 6⟩,
        ⟨.beginOptional, "(", 6, 7⟩, ⟨.text, "/", 7, 9⟩, ⟨.endOfLine, "", 9, 9⟩] := by
    decide +kernel
  exact (tokenize_eq_tokensInTwoPhases htokens).2.1.symm

end CucumberExpressions
