import CucumberExpressions.Scanner
import Mathlib.Tactic.Basic

/-!
# What a scanner gives while it reads

Requests decide only how often a scanner is asked, not what it gives: it reads one character after
another, and each of them may bring something out of it. After the last character comes what is
still collected, and then the end of the line.

## Main definitions

* `Scanner.feedAll` — what a scanner gives while it reads a text
* `Scanner.ending` — what a scanner gives after the last character
* `Outcome.collect` — the tokens in a list of outcomes, or its first error

## Main results

* `Scanner.drain_fst_of_reading` — draining collects what the rest of the expression brings out
* `tokenize_eq_collect` — so do the tokens of an expression
-/

namespace CucumberExpressions

/-- The tokens in a list of outcomes, or its first error. -/
def Outcome.collect : List Outcome → Except ExpressionError (List Token)
  | [] => .ok []
  | .token t :: rest => (collect rest).map (t :: ·)
  | .error e :: _ => .error e
  | .stop :: _ => .ok []

theorem Outcome.collect_map_token_append (tokens : List Token) (outcomes : List Outcome) :
    collect (tokens.map .token ++ outcomes) = (collect outcomes).map (tokens ++ ·) := by
  induction tokens with
  | nil => cases h : collect outcomes <;> simp [h, Except.map]
  | cons t tokens ih =>
    rw [List.map_cons, List.cons_append, collect, ih]
    cases collect outcomes <;> rfl

theorem Outcome.collect_map_token (tokens : List Token) :
    collect (tokens.map .token) = .ok tokens := by
  simpa [collect, Except.map] using collect_map_token_append tokens []

namespace Scanner

variable {s s' : Scanner} {token : Token} {error : ExpressionError}

/-- What a scanner gives while it reads a text, and the scanner after it. -/
def feedAll (s : Scanner) : List Char → List Outcome × Scanner
  | [] => ([], s)
  | c :: cs =>
    ((s.feed c).1.toList ++ ((s.feed c).2.feedAll cs).1, ((s.feed c).2.feedAll cs).2)

/-- What a scanner gives after the last character: the token that is still collected, and the end
of the line or the error that stands there. -/
def ending (s : Scanner) : List Outcome :=
  if s.collected.isEmpty then [s.close.1]
  else [.token (s.cut s.last).1, (s.cut s.last).2.close.1]

/-- Two texts can be fed one after the other. -/
theorem feedAll_append (s : Scanner) (cs cs' : List Char) :
    s.feedAll (cs ++ cs') =
      ((s.feedAll cs).1 ++ ((s.feedAll cs).2.feedAll cs').1, ((s.feedAll cs).2.feedAll cs').2) := by
  induction cs generalizing s with
  | nil => rfl
  | cons c cs ih => simp only [List.cons_append, feedAll, ih, List.append_assoc]

/-! ### Draining step by step -/

/-- Draining gives the next token, and then what draining gives after it. -/
theorem drain_of_next_eq_token (h : s.next = (.token token, s')) :
    s.drain = (s'.drain.1.map (token :: ·), s'.drain.2) := by
  rw [drain]
  split
  case h_1 token' s'' hnext =>
    obtain ⟨htoken, rfl⟩ := Prod.mk.inj (hnext.symm.trans h)
    cases htoken
    split
    case h_1 heq => rw [heq]; rfl
    case h_2 heq => rw [heq]; rfl
  case h_2 hnext => cases hnext.symm.trans h
  case h_3 hnext => cases hnext.symm.trans h

/-- Draining ends with the first error. -/
theorem drain_of_next_eq_error (h : s.next = (.error error, s')) :
    s.drain = (.error error, s') := by
  rw [drain]
  split
  case h_1 hnext => cases hnext.symm.trans h
  case h_2 hnext => cases hnext.symm.trans h; rfl
  case h_3 hnext => cases hnext.symm.trans h

theorem drain_of_next_eq_stop (h : s.next = (.stop, s')) : s.drain = (.ok [], s') := by
  rw [drain]
  split
  case h_1 hnext => cases hnext.symm.trans h
  case h_2 hnext => cases hnext.symm.trans h
  case h_3 hnext => cases hnext.symm.trans h; rfl

/-! ### The rest of the expression

Reading a character does not look at the characters after it, so the scanner can be followed without
its rest. -/

/-- Feeding a character does not look at the characters that are left. -/
theorem feed_with_rest (s : Scanner) (rest : List Char) (c : Char) :
    { s with rest }.feed c = ((s.feed c).1, { (s.feed c).2 with rest }) := by
  -- Every branch passes the rest on as it is.
  unfold feed cut
  dsimp only
  (repeat' split) <;> rfl

theorem advance_with_rest (s : Scanner) (rest cs : List Char) :
    { s with rest }.advance cs = s.advance cs := by
  induction cs generalizing s with
  | nil => rfl
  | cons c cs ih =>
    unfold advance
    rw [feed_with_rest]
    cases hfeed : s.feed c with
    | mk outcome s' =>
      cases outcome with
      | none => exact ih s'
      | some outcome => rfl

theorem next_with_rest (h : s.phase = .reading) (cs : List Char) :
    { s with rest := cs }.next = s.advance cs := by
  rw [← advance_with_rest s cs cs, next]
  simp only [h]

/-- A character that brings nothing out leaves the request to the characters after it. -/
theorem next_of_feed_eq_none {c : Char} {cs : List Char} (hphase : s.phase = .reading)
    (h : s.feed c = (none, s')) :
    { s with rest := c :: cs }.next = { s' with rest := cs }.next := by
  have hphase' : s'.phase = .reading := by rw [← hphase, ← phase_feed s c, h]
  rw [next_with_rest hphase, next_with_rest hphase', advance, h]

theorem next_of_feed_eq_some {c : Char} {cs : List Char} {outcome : Outcome}
    (hphase : s.phase = .reading) (h : s.feed c = (some outcome, s')) :
    { s with rest := c :: cs }.next = (outcome, { s' with rest := cs }) := by
  rw [next_with_rest hphase, advance, h]

/-- Draining depends on the next request only. -/
theorem drain_congr (h : s.next = s'.next) : s.drain = s'.drain := by
  cases hnext : s'.next with
  | mk outcome t =>
    rw [hnext] at h
    cases outcome with
    | token token => rw [drain_of_next_eq_token h, drain_of_next_eq_token hnext]
    | error error => rw [drain_of_next_eq_error h, drain_of_next_eq_error hnext]
    | stop => rw [drain_of_next_eq_stop h, drain_of_next_eq_stop hnext]

/-! ### Draining and feeding -/

theorem close_with_rest (s : Scanner) (rest : List Char) (phase : Phase) :
    { s with rest, phase }.close.1 = s.close.1 := by
  unfold close cut
  dsimp only
  split <;> rfl

/-- Nothing comes after the end of the line, and nothing after the error that stands there. -/
theorem drain_fst_of_next_eq_close (h : s.next = s'.close) :
    s.drain.1 = Outcome.collect [s'.close.1] := by
  -- A pending escape character makes closing an error, and otherwise closing ends the line.
  cases hpending : s'.pending with
  | true =>
    have hclose : s'.close = (.error (.atEndOfLine s'.expression), s') := by
      rw [close, if_pos hpending]
    rw [drain_of_next_eq_error (h.trans hclose), hclose]
    rfl
  | false =>
    have hclose : s'.close =
        (.token (s'.cut .endOfLine).1, { (s'.cut .endOfLine).2 with phase := .closed }) := by
      rw [close, if_neg (by simp [hpending])]
    rw [drain_of_next_eq_token (h.trans hclose), hclose, drain_of_next_eq_stop rfl]
    rfl

/-- When everything is read, draining gives what is left to give. -/
theorem drain_fst_at_end (hphase : s.phase = .reading) :
    { s with rest := [] }.drain.1 = Outcome.collect s.ending := by
  have hnext : { s with rest := [] }.next = { s with rest := [] }.finish := next_with_rest hphase []
  cases hcollected : s.collected.isEmpty with
  | true =>
    have hfinish : { s with rest := [] }.finish = { s with rest := [] }.close := by
      rw [finish, if_pos hcollected]
    rw [drain_fst_of_next_eq_close (hnext.trans hfinish), ending, if_pos hcollected,
      close_with_rest s [] s.phase]
  | false =>
    have hfinish : { s with rest := [] }.finish =
        (.token (s.cut s.last).1, { (s.cut s.last).2 with rest := [], phase := .emptied }) := by
      rw [finish, if_neg (by simp [hcollected])]
      rfl
    rw [drain_of_next_eq_token (hnext.trans hfinish), ending, if_neg (by simp [hcollected]),
      Outcome.collect, drain_fst_of_next_eq_close rfl, close_with_rest]

/-- Draining collects what the rest of the expression brings out, and what comes after it. -/
theorem drain_fst_of_reading (hphase : s.phase = .reading) (cs : List Char) :
    { s with rest := cs }.drain.1 =
      Outcome.collect ((s.feedAll cs).1 ++ (s.feedAll cs).2.ending) := by
  -- Draining goes on after a token and stops after an error, and so does collecting.
  induction cs generalizing s with
  | nil => exact drain_fst_at_end hphase
  | cons c cs ih =>
    have hphase' : (s.feed c).2.phase = .reading := (phase_feed s c).trans hphase
    rw [feedAll]
    cases hfeed : s.feed c with
    | mk outcome s' =>
      rw [hfeed] at hphase'
      cases outcome with
      | none =>
        rw [drain_congr (next_of_feed_eq_none hphase hfeed), ih hphase']
        rfl
      | some outcome =>
        have hnext : { s with rest := c :: cs }.next = (outcome, { s' with rest := cs }) :=
          next_of_feed_eq_some hphase hfeed
        cases outcome with
        | token token =>
          rw [drain_of_next_eq_token hnext, ih hphase']
          rfl
        | error error =>
          rw [drain_of_next_eq_error hnext]
          rfl
        | stop =>
          rw [drain_of_next_eq_stop hnext]
          rfl

/-- A scanner that has given the start of the line. -/
def started (expression : String) : Scanner :=
  { expression, rest := expression.toList, phase := .reading }

end Scanner

/-- The tokens of an expression are the start of the line, what comes out while it is read, and what
comes after it; an error on the way is all that is left. -/
theorem tokenize_eq_collect (expression : String) :
    tokenize expression =
      let fed := (Scanner.started expression).feedAll expression.toList
      (Outcome.collect (fed.1 ++ fed.2.ending)).map (⟨.startOfLine, "", 0, 0⟩ :: ·) := by
  have hnext : (Scanner.ofExpression expression).next =
      (.token ⟨.startOfLine, "", 0, 0⟩, Scanner.started expression) := rfl
  have hdrain : (Scanner.started expression).drain.1 = _ :=
    Scanner.drain_fst_of_reading (s := Scanner.started expression) rfl expression.toList
  rw [tokenize, Scanner.drain_of_next_eq_token hnext]
  exact congrArg (Except.map _) hdrain

end CucumberExpressions
