import CucumberExpressions.ExpressionError
import CucumberExpressions.Token

/-!
# The scanner

A scanner reads an expression from left to right and gives one token, or one error, on each
request. It stays usable after an error: the character that could not be escaped is skipped, the
escape character before it goes on waiting, and an escape character at the end of the line is an
error on every further request.

Escape characters are charged to the stretch of the next text token that is given.

## Main definitions

* `Scanner` — what is left to read and what has been collected
* `Scanner.next` — the outcome of one request
* `Scanner.drain` — all tokens up to the end, or the first error
* `tokenize` — the tokens of an expression, or its first error

## Main results

* `Scanner.remaining_of_next_eq_token` — each token brings the end nearer, so draining ends
-/

namespace CucumberExpressions

/-- How far a scanner has come: nothing has been given; the start of the line has been given; what
was collected after the last character has been given, too; the end of the line has been given. -/
inductive Phase
  | fresh | reading | emptied | closed
  deriving DecidableEq, Repr

/-- The number of phases after this one. -/
def Phase.left : Phase → Nat
  | fresh => 3
  | reading => 2
  | emptied => 1
  | closed => 0

/-- A reader of an expression, with the characters that it has not read. It collects the characters
of the next token, and knows the kind of the last of them; at first this is the start of the line.
It is pending if an escape character waits for the character that it escapes. -/
structure Scanner where
  expression : String
  rest : List Char
  phase : Phase := .fresh
  collected : String := ""
  last : Kind := .startOfLine
  pending : Bool := false
  /-- The offset at which the next token starts. -/
  start : Nat := 0
  /-- The escape characters that no token has been charged with. -/
  escapes : Nat := 0
  deriving DecidableEq, Repr

/-- What a scanner gives on request: the next token, an error of the expression, or the word that
nothing is left. -/
inductive Outcome
  | token (token : Token)
  | error (error : ExpressionError)
  | stop
  deriving DecidableEq, Repr

namespace Scanner

/-- A scanner at the start of `expression`. -/
def ofExpression (expression : String) : Scanner :=
  { expression, rest := expression.toList }

/-- The collected characters as a token of the given kind, and the scanner after it. Only a text
token is charged with the escape characters. -/
def cut (s : Scanner) (kind : Kind) : Token × Scanner :=
  let charged := if kind = .text then s.escapes else 0
  let stop := s.start + s.collected.length + charged
  (⟨kind, s.collected, s.start, stop⟩,
    { s with collected := "", start := stop, escapes := s.escapes - charged })

/-- Reads one character. Nothing is given while the characters belong to one token. -/
def feed (s : Scanner) (c : Char) : Option Outcome × Scanner :=
  if !s.pending && c = escapeCharacter then
    (none, { s with escapes := s.escapes + 1, pending := true })
  else if s.pending && !isEscapable c then
    (some (.error ⟨s.expression, s.start + s.escapes, .cannotEscape (String.singleton c)⟩), s)
  else
    let kind := if s.pending then .text else Kind.ofChar c
    if s.last.splits kind then
      let (token, s) := s.cut s.last
      (some (.token token),
        { s with collected := String.singleton c, last := kind, pending := false })
    else
      (none, { s with collected := s.collected.push c, last := kind, pending := false })

/-- Gives the end of the line, unless an escape character still waits. -/
def close (s : Scanner) : Outcome × Scanner :=
  if s.pending then
    (.error (.atEndOfLine s.expression), s)
  else
    let (token, s) := s.cut .endOfLine
    (.token token, { s with phase := .closed })

/-- Gives what is still collected after the last character. -/
def finish (s : Scanner) : Outcome × Scanner :=
  if s.collected.isEmpty then
    s.close
  else
    let (token, s) := s.cut s.last
    (.token token, { s with phase := .emptied })

/-- Reads the given characters until there is something to give. -/
def advance (s : Scanner) : List Char → Outcome × Scanner
  | [] => finish { s with rest := [] }
  | c :: rest =>
    match s.feed c with
    | (some outcome, s) => (outcome, { s with rest })
    | (none, s) => s.advance rest

/-- The outcome of a request, and the scanner after it. -/
def next (s : Scanner) : Outcome × Scanner :=
  match s.phase with
  | .fresh =>
    let (token, s) := s.cut .startOfLine
    (.token token, { s with phase := .reading })
  | .reading => s.advance s.rest
  | .emptied => s.close
  | .closed => (.stop, s)

/-! ### Draining -/

/-- A bound on the number of tokens still to come. -/
def remaining (s : Scanner) : Nat := s.rest.length + s.phase.left

/-- Reading a character leaves alone what is known of the expression and how far the scanner is. -/
theorem feed_snd_eq (s : Scanner) (c : Char) :
    (s.feed c).2 =
      { (s.feed c).2 with expression := s.expression, rest := s.rest, phase := s.phase } := by
  unfold feed cut
  dsimp only
  (repeat' split) <;> rfl

theorem expression_feed (s : Scanner) (c : Char) : (s.feed c).2.expression = s.expression := by
  rw [feed_snd_eq]

theorem rest_feed (s : Scanner) (c : Char) : (s.feed c).2.rest = s.rest := by
  rw [feed_snd_eq]

theorem phase_feed (s : Scanner) (c : Char) : (s.feed c).2.phase = s.phase := by
  rw [feed_snd_eq]

/-- After what was collected there is only the end of the line. -/
theorem remaining_finish_lt {s s' : Scanner} {token : Token} (hrest : s.rest = [])
    (h : s.finish = (.token token, s')) : s'.remaining < 2 := by
  unfold finish close cut at h
  dsimp only at h
  split at h
  · split at h <;> cases h
    simp [remaining, Phase.left, hrest]
  · cases h
    simp [remaining, Phase.left, hrest]

/-- A token on the way brings the end nearer. -/
theorem remaining_advance_lt {cs : List Char} {s s' : Scanner} {token : Token}
    (hphase : s.phase = .reading) (h : s.advance cs = (.token token, s')) :
    s'.remaining < cs.length + 2 := by
  induction cs generalizing s with
  | nil =>
    have := remaining_finish_lt rfl h
    simpa using this
  | cons c rest ih =>
    have hfeed := s.phase_feed c
    rw [hphase] at hfeed
    unfold advance at h
    split at h <;> rename_i heq <;> rw [heq] at hfeed <;> dsimp only at hfeed
    · cases h
      simp [remaining, Phase.left, hfeed]
    · have := ih hfeed h
      simp only [List.length_cons]
      omega

/-- Each token brings the end nearer. -/
theorem remaining_of_next_eq_token {s s' : Scanner} {token : Token}
    (h : s.next = (.token token, s')) : s'.remaining < s.remaining := by
  unfold next at h
  split at h
  · rename_i hphase
    cases h
    simp [remaining, Phase.left, hphase]
  · rename_i hphase
    have := remaining_advance_lt hphase h
    simpa [remaining, Phase.left, hphase] using this
  · rename_i hphase
    unfold close cut at h
    dsimp only at h
    split at h
    · cases h
    · cases h
      simp [remaining, Phase.left, hphase]
  · cases h

/-- All tokens up to the end, or the first error; the tokens before an error are lost. -/
def drain (s : Scanner) : Except ExpressionError (List Token) × Scanner :=
  match _h : s.next with
  | (.token token, s') =>
    match s'.drain with
    | (.ok tokens, s'') => (.ok (token :: tokens), s'')
    | (.error error, s'') => (.error error, s'')
  | (.error error, s') => (.error error, s')
  | (.stop, s') => (.ok [], s')
termination_by s.remaining
decreasing_by exact remaining_of_next_eq_token _h

end Scanner

/-- The tokens of `expression`, or its first error. -/
def tokenize (expression : String) : Except ExpressionError (List Token) :=
  (Scanner.ofExpression expression).drain.1

end CucumberExpressions
