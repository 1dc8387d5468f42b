import CucumberExpressions.Scanner

/-!
# Several scanners side by side

A pool holds the scanners that have been opened, each under its number. Steps on them can be mixed
in any order.

## Main definitions

* `Scanner.Pool` — the open scanners
* `Scanner.Step` — opening a scanner, or a request to one of them
* `Scanner.Pool.step`, `Scanner.Pool.run` — the answers to one step and to a list of steps
-/

namespace CucumberExpressions.Scanner

/-- The open scanners, in the order in which they were opened; the first one has the number 0. -/
structure Pool where
  scanners : List Scanner := []
  deriving DecidableEq, Repr

/-- A step on a pool of scanners: it opens one at the start of an expression, requests one outcome
of a scanner, or drains a scanner. -/
inductive Step
  | new (expression : String)
  | next (number : Nat)
  | drain (number : Nat)
  deriving DecidableEq, Repr

/-- The answer to a step: the number of the opened scanner, the outcome of a request, the tokens
drained or the error that ended the draining, or that there is no scanner of the number. -/
inductive Answer
  | opened (number : Nat)
  | outcome (outcome : Outcome)
  | drained (tokens : List Token)
  | failed (error : ExpressionError)
  | unknown (number : Nat)
  deriving DecidableEq, Repr

namespace Pool

/-- The pool with another scanner in the place of one of its scanners. -/
def replace (pool : Pool) (number : Nat) (scanner : Scanner) : Pool :=
  ⟨pool.scanners.set number scanner⟩

/-- The answer to one step, and the pool after it. -/
def step (pool : Pool) : Step → Answer × Pool
  | .new expression =>
    (.opened pool.scanners.length, ⟨pool.scanners ++ [Scanner.ofExpression expression]⟩)
  | .next number =>
    match pool.scanners[number]? with
    | none => (.unknown number, pool)
    | some scanner =>
      let (outcome, scanner) := scanner.next
      (.outcome outcome, pool.replace number scanner)
  | .drain number =>
    match pool.scanners[number]? with
    | none => (.unknown number, pool)
    | some scanner =>
      match scanner.drain with
      | (.ok tokens, scanner) => (.drained tokens, pool.replace number scanner)
      | (.error error, scanner) => (.failed error, pool.replace number scanner)

/-- The answers to a list of steps. -/
def run (pool : Pool) : List Step → List Answer
  | [] => []
  | step :: steps => (pool.step step).1 :: (pool.step step).2.run steps

end Pool

end CucumberExpressions.Scanner
