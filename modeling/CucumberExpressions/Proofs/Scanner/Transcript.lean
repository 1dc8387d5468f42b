import CucumberExpressions.Proofs.Scanner.Feeding

/-!
# What a scanner gives on request

A scanner can be asked any number of times, also after an error. Sooner or later it gives the same
outcome on every further request: nothing, once the end of the line has been given, or the error of
an escape character at the end of the expression. What comes up to that point is its transcript.

## Main definitions

* `Outcome.isFinal` — the outcomes that are given for ever
* `Scanner.outcome` — the outcome of the request with a given number
* `Scanner.afterRequests` — a scanner after a number of requests
* `Scanner.transcript` — the outcomes up to the first final one
* `Scanner.closing` — what a scanner gives after the last character

## Main results

* `Scanner.next_next_of_isFinal` — a final outcome is given again
* `Scanner.outcome_eq_getD_transcript` — the transcript determines every outcome
* `Scanner.transcript_ofExpression` — the transcript is what comes out while the expression is read,
  and what comes after it
-/

namespace CucumberExpressions

/-- The outcomes that are given again on every further request. -/
def Outcome.isFinal : Outcome → Bool
  | .token _ => false
  | .error e => e.problem = .escapedEndOfLine
  | .stop => true

namespace Scanner

/-- The outcome of request number `n`, counted from 0. -/
def outcome (s : Scanner) : Nat → Outcome
  | 0 => s.next.1
  | n + 1 => s.next.2.outcome n

/-- The scanner after a number of requests. -/
def afterRequests (s : Scanner) : Nat → Scanner
  | 0 => s
  | n + 1 => s.next.2.afterRequests n

variable {s s' : Scanner} {cs : List Char} {c : Char} {o : Outcome}

/-! ### One request -/

theorem next_of_fresh (hphase : s.phase = .fresh) :
    s.next = (.token (s.cut .startOfLine).1,
      { (s.cut .startOfLine).2 with phase := .reading }) := by
  rw [next]
  simp only [hphase]

theorem next_of_reading (hphase : s.phase = .reading) : s.next = s.advance s.rest := by
  rw [next]
  simp only [hphase]

theorem next_of_emptied (hphase : s.phase = .emptied) : s.next = s.close := by
  rw [next]
  simp only [hphase]

theorem next_of_closed (hphase : s.phase = .closed) : s.next = (.stop, s) := by
  rw [next]
  simp only [hphase]

/-- Reading a character brings out a token, or an error about this character. -/
theorem feed_fst_cases (h : (s.feed c).1 = some o) :
    (∃ token, o = .token token) ∨
      ∃ index, o = .error ⟨s.expression, index, .cannotEscape (String.singleton c)⟩ := by
  unfold feed at h
  dsimp only at h
  split at h
  · cases h
  · split at h
    · cases h
      exact Or.inr ⟨_, rfl⟩
    · -- Whether a token ends here depends on the kind of the character, but only a token can.
      generalize (if s.pending = true then Kind.text else Kind.ofChar c) = kind at h
      split at h
      · cases h
        exact Or.inl ⟨_, rfl⟩
      · cases h

theorem isFinal_of_feed (h : (s.feed c).1 = some o) : o.isFinal = false := by
  rcases feed_fst_cases h with ⟨token, rfl⟩ | ⟨index, rfl⟩ <;> rfl

/-- An escape character that waits at the end is an error, and goes on being one. -/
theorem close_of_pending (h : s.pending = true) :
    s.close = (.error (.atEndOfLine s.expression), s) := by
  rw [close, if_pos h]

/-- Otherwise the end of the line is given. -/
theorem close_of_not_pending (h : s.pending = false) :
    s.close = (.token (s.cut .endOfLine).1, { (s.cut .endOfLine).2 with phase := .closed }) := by
  rw [close, if_neg (by simp [h])]

/-- If nothing has been collected the end comes next. -/
theorem finish_of_isEmpty (h : s.collected.isEmpty = true) : s.finish = s.close := by
  rw [finish, if_pos h]

/-- What has been collected is given before the end. -/
theorem finish_of_not_isEmpty (h : s.collected.isEmpty = false) :
    s.finish = (.token (s.cut s.last).1, { (s.cut s.last).2 with phase := .emptied }) := by
  rw [finish, if_neg (by simp [h])]

/-- Closing gives an error for ever, or else it gives the end of the line. -/
theorem pending_of_isFinal_close (h : s.close.1.isFinal = true) : s.pending = true := by
  cases hpending : s.pending with
  | true => rfl
  | false =>
    rw [close_of_not_pending hpending] at h
    cases h

theorem finish_eq_close_of_isFinal (h : s.finish.1.isFinal = true) :
    s.finish = s.close ∧ s.pending = true := by
  cases hcollected : s.collected.isEmpty with
  | true =>
    have hfinish := finish_of_isEmpty hcollected
    rw [hfinish] at h
    exact ⟨hfinish, pending_of_isFinal_close h⟩
  | false =>
    rw [finish_of_not_isEmpty hcollected] at h
    cases h

/-- What is given for ever is given again. -/
theorem next_advance_of_isFinal (hphase : s.phase = .reading)
    (h : (s.advance cs).1.isFinal = true) : (s.advance cs).2.next = s.advance cs := by
  induction cs generalizing s with
  | nil =>
    rw [advance] at h ⊢
    obtain ⟨hfinish, hpending⟩ := finish_eq_close_of_isFinal h
    -- The scanner has nothing left to read or to give, so it comes to the same error again.
    have hclose : finish { s with rest := [] } = (.error (.atEndOfLine s.expression),
        { s with rest := [] }) := hfinish.trans (close_of_pending hpending)
    rw [hclose, next_with_rest hphase, ← advance_with_rest s [] [], advance]
    exact hclose
  | cons c cs ih =>
    rw [advance] at h ⊢
    cases hfeed : s.feed c with
    | mk outcome s' =>
      rw [hfeed] at h
      cases outcome with
      | none =>
        have hphase' : s'.phase = .reading := by rw [← hphase, ← phase_feed s c, hfeed]
        exact ih hphase' h
      | some outcome =>
        have hfinal : outcome.isFinal = false := isFinal_of_feed (by rw [hfeed])
        exact absurd (hfinal.symm.trans h) Bool.false_ne_true

/-- A final outcome is given again. -/
theorem next_next_of_isFinal (h : s.next.1.isFinal = true) : s.next.2.next = s.next := by
  cases hphase : s.phase with
  | fresh =>
    -- The first request gives the start of the line.
    rw [next_of_fresh hphase] at h
    cases h
  | reading =>
    rw [next_of_reading hphase] at h ⊢
    exact next_advance_of_isFinal hphase h
  | emptied =>
    have hnext := next_of_emptied hphase
    rw [hnext] at h
    rw [hnext, close_of_pending (pending_of_isFinal_close h), hnext,
      close_of_pending (pending_of_isFinal_close h)]
  | closed =>
    have hnext := next_of_closed hphase
    rw [hnext, hnext]

/-! ### Requests up to a final outcome -/

/-- An error on the way brings the end nearer. -/
theorem remaining_advance_error_lt {error : ExpressionError} (hphase : s.phase = .reading)
    (hfinal : (Outcome.error error).isFinal = false) (h : s.advance cs = (.error error, s')) :
    s'.remaining < cs.length + 2 := by
  induction cs generalizing s with
  | nil =>
    have hfinish : (finish { s with rest := [] }).1 = .error error := by
      rw [← advance, h]
    -- The only error after the last character is a final one.
    unfold finish close at hfinish
    dsimp only at hfinish
    split at hfinish
    · split at hfinish
      · cases hfinish
        cases hfinal
      · cases hfinish
    · cases hfinish
  | cons c cs ih =>
    have hphase' : (s.feed c).2.phase = .reading := (phase_feed s c).trans hphase
    rw [advance] at h
    cases hfeed : s.feed c with
    | mk outcome t =>
      rw [hfeed] at h hphase'
      cases outcome with
      | none =>
        have := ih hphase' h
        simp only [List.length_cons]
        omega
      | some outcome =>
        cases h
        have hleft : t.phase.left = 2 := by rw [show t.phase = .reading from hphase']; rfl
        simp [remaining, hleft]

/-- As long as no outcome is final, each request brings the end nearer. -/
theorem remaining_next_lt (h : s.next.1.isFinal = false) : s.next.2.remaining < s.remaining := by
  cases hnext : s.next with
  | mk outcome s' =>
    rw [hnext] at h
    cases outcome with
    | token token => exact remaining_of_next_eq_token hnext
    | stop => cases h
    | error error =>
      cases hphase : s.phase with
      | fresh =>
        rw [next_of_fresh hphase] at hnext
        cases hnext
      | reading =>
        rw [next_of_reading hphase] at hnext
        have hlt := remaining_advance_error_lt hphase h hnext
        simpa [remaining, hphase, Phase.left] using hlt
      | emptied =>
        rw [next_of_emptied hphase] at hnext
        unfold close at hnext
        split at hnext <;> cases hnext
        cases h
      | closed =>
        rw [next_of_closed hphase] at hnext
        cases hnext

/-- The outcomes of requests up to the first final one. -/
def transcript (s : Scanner) : List Outcome :=
  if _h : s.next.1.isFinal = true then [s.next.1] else s.next.1 :: s.next.2.transcript
termination_by s.remaining
decreasing_by exact remaining_next_lt (Bool.not_eq_true _ ▸ _h)

theorem transcript_of_isFinal (h : s.next.1.isFinal = true) : s.transcript = [s.next.1] := by
  rw [transcript, dif_pos h]

theorem transcript_of_not_isFinal (h : s.next.1.isFinal = false) :
    s.transcript = s.next.1 :: s.next.2.transcript := by
  rw [transcript, dif_neg (by simp [h])]

/-- The transcript depends on the next request only. -/
theorem transcript_congr (h : s.next = s'.next) : s.transcript = s'.transcript := by
  rw [transcript, h, ← transcript]

theorem outcome_of_isFinal (h : s.next.1.isFinal = true) (n : Nat) : s.outcome n = s.next.1 := by
  induction n generalizing s with
  | zero => rfl
  | succ n ih =>
    have hnext := next_next_of_isFinal h
    rw [outcome, ih (by rwa [hnext]), hnext]

/-- The transcript determines every outcome: after it the last one is given again. -/
theorem outcome_eq_getD_transcript (s : Scanner) (n : Nat) :
    s.outcome n = s.transcript.getD n (s.transcript.getLastD .stop) := by
  induction n generalizing s with
  | zero =>
    cases hfinal : s.next.1.isFinal with
    | true => rw [transcript_of_isFinal hfinal]; rfl
    | false => rw [transcript_of_not_isFinal hfinal]; rfl
  | succ n ih =>
    cases hfinal : s.next.1.isFinal with
    | true =>
      -- The transcript is used up, and its last outcome takes over.
      rw [transcript_of_isFinal hfinal, outcome_of_isFinal hfinal]
      rfl
    | false =>
      have hne : s.next.2.transcript ≠ [] := by
        rw [transcript]
        split <;> simp
      rw [transcript_of_not_isFinal hfinal, outcome, ih, List.getD_cons_succ,
        List.getLastD_cons, List.getLastD_eq_getLast?, List.getLastD_eq_getLast?,
        List.getLast?_eq_some_getLast hne]
      rfl

/-- The first requests give the start of the transcript. -/
theorem map_outcome_range {n : Nat} (h : n ≤ s.transcript.length) :
    (List.range n).map s.outcome = s.transcript.take n := by
  refine List.ext_getElem (by simp [h]) fun i hi hi' => ?_
  have hlt : i < s.transcript.length := by
    rw [List.length_take] at hi'
    omega
  rw [List.getElem_map, List.getElem_range, List.getElem_take, outcome_eq_getD_transcript,
    List.getD_eq_getElem?_getD, List.getElem?_eq_getElem hlt, Option.getD_some]

/-! ### Transcripts and feeding -/

/-- What a scanner gives after the last character, up to the first final outcome. -/
def closing (s : Scanner) : List Outcome := s.ending ++ if s.pending then [] else [.stop]

theorem transcript_of_next_eq_close (h : s.next = s'.close) :
    s.transcript = s'.close.1 :: if s'.pending then [] else [.stop] := by
  cases hpending : s'.pending with
  | true =>
    rw [close_of_pending hpending] at h ⊢
    rw [transcript_of_isFinal (by rw [h]; rfl), h]
    rfl
  | false =>
    rw [close_of_not_pending hpending] at h ⊢
    rw [transcript_of_not_isFinal (by rw [h]; rfl), h, transcript_of_isFinal rfl]
    rfl

/-- When everything is read, the transcript is what closes it. -/
theorem transcript_at_end (hphase : s.phase = .reading) :
    { s with rest := [] }.transcript = s.closing := by
  have hnext : { s with rest := [] }.next = { s with rest := [] }.finish := next_with_rest hphase []
  cases hcollected : s.collected.isEmpty with
  | true =>
    have hfinish : { s with rest := [] }.finish = { s with rest := [] }.close :=
      finish_of_isEmpty hcollected
    rw [transcript_of_next_eq_close (hnext.trans hfinish), closing, ending, hcollected,
      close_with_rest s [] s.phase]
    rfl
  | false =>
    have hfinish : { s with rest := [] }.finish =
        (.token (s.cut s.last).1, { (s.cut s.last).2 with rest := [], phase := .emptied }) :=
      finish_of_not_isEmpty hcollected
    rw [transcript_of_not_isFinal (by rw [hnext, hfinish]; rfl), hnext, hfinish,
      transcript_of_next_eq_close rfl, close_with_rest, closing, ending, hcollected]
    rfl

/-- The transcript of a reading scanner is what the rest of the expression brings out, and what
comes after it. -/
theorem transcript_of_reading (hphase : s.phase = .reading) (cs : List Char) :
    { s with rest := cs }.transcript = (s.feedAll cs).1 ++ (s.feedAll cs).2.closing := by
  induction cs generalizing s with
  | nil => exact transcript_at_end hphase
  | cons c cs ih =>
    have hphase' : (s.feed c).2.phase = .reading := (phase_feed s c).trans hphase
    rw [feedAll]
    cases hfeed : s.feed c with
    | mk outcome s' =>
      rw [hfeed] at hphase'
      cases outcome with
      | none =>
        -- The same request goes on to the next character.
        rw [transcript_congr (next_of_feed_eq_none hphase hfeed), ih hphase']
        rfl
      | some outcome =>
        have hnext : { s with rest := c :: cs }.next = (outcome, { s' with rest := cs }) :=
          next_of_feed_eq_some hphase hfeed
        have hfinal : outcome.isFinal = false := isFinal_of_feed (by rw [hfeed])
        rw [transcript_of_not_isFinal (by rw [hnext]; exact hfinal), hnext, ih hphase']
        rfl

/-- The transcript of an expression: what is given while its characters are fed, and then what
closes it. -/
theorem transcript_ofExpression (expression : String) :
    (ofExpression expression).transcript =
      let fed := (started expression).feedAll expression.toList
      .token ⟨.startOfLine, "", 0, 0⟩ :: (fed.1 ++ fed.2.closing) := by
  have hnext : (ofExpression expression).next =
      (.token ⟨.startOfLine, "", 0, 0⟩, started expression) := rfl
  have htranscript : (started expression).transcript = _ :=
    transcript_of_reading (s := started expression) rfl expression.toList
  rw [transcript_of_not_isFinal (by rw [hnext]; rfl), hnext, htranscript]

end Scanner

end CucumberExpressions
