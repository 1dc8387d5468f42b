import CucumberExpressions.Proofs.Scanner.Transcript
import CucumberExpressions.Scanner.Pool

/-!
# Scanners in a pool do not disturb each other

Steps on the scanners of a pool can be mixed in any order. A scanner answers the requests made to it
as it would alone, whatever happens to the others in between. Draining is no new kind of request: it
gives what one request after another would give.

## Main definitions

* `Scanner.Request` — what a scanner can be asked for
* `Scanner.serve` — the answers of one scanner to requests made to it alone
* `Scanner.Step.request?` — the request that a step makes to a scanner
* `Scanner.answersOf` — the answers to the requests made to a scanner, among all answers

## Main results

* `Scanner.Pool.answersOf_run` — the answers of a scanner that is open
* `Scanner.exists_drainsAs` — draining is a number of requests
* `pool_isolates_scanners` — both for any sequence of steps
-/

namespace CucumberExpressions

namespace Scanner

/-- What a scanner can be asked for: one outcome, or all tokens up to the end. -/
inductive Request
  | next
  | drain
  deriving DecidableEq, Repr

/-- The answer of a scanner to a request, and the scanner after it. -/
def respond (s : Scanner) : Request → Answer × Scanner
  | .next => (.outcome s.next.1, s.next.2)
  | .drain =>
    match s.drain.1 with
    | .ok tokens => (.drained tokens, s.drain.2)
    | .error error => (.failed error, s.drain.2)

/-- The answers of a scanner to requests made to it alone. -/
def serve (s : Scanner) : List Request → List Answer
  | [] => []
  | request :: requests => (s.respond request).1 :: (s.respond request).2.serve requests

/-- The step that makes a request to the scanner with the given number. -/
def Request.toStep (number : Nat) : Request → Step
  | .next => .next number
  | .drain => .drain number

/-- The request that a step makes to the scanner with the given number, if it makes one. -/
def Step.request? (number : Nat) : Step → Option Request
  | .new _ => none
  | .next n => if n = number then some .next else none
  | .drain n => if n = number then some .drain else none

/-- Whether a step opens a scanner. -/
def Step.isNew : Step → Bool
  | .new _ => true
  | _ => false

/-- The requests made to the scanner with the given number, in their order. -/
def requestsTo (number : Nat) (steps : List Step) : List Request :=
  steps.filterMap (Step.request? number)

/-- The answers to the steps that make requests to the scanner with the given number. -/
def answersOf (number : Nat) (steps : List Step) (answers : List Answer) : List Answer :=
  ((steps.zip answers).filter fun pair => (pair.1.request? number).isSome).map Prod.snd

/-! ### Steps and answers -/

/-- A step opens a scanner, or asks one for something. -/
theorem Step.eq_new_or_eq_toStep (step : Step) :
    (∃ expression, step = .new expression) ∨
      ∃ number request, step = Request.toStep number request := by
  cases step with
  | new expression => exact .inl ⟨expression, rfl⟩
  | next number => exact .inr ⟨number, .next, rfl⟩
  | drain number => exact .inr ⟨number, .drain, rfl⟩

theorem Step.request?_toStep (number n : Nat) (request : Request) :
    (request.toStep n).request? number = if n = number then some request else none := by
  cases request <;> rfl

theorem Step.isNew_toStep (number : Nat) (request : Request) :
    (request.toStep number).isNew = false := by
  cases request <;> rfl

theorem Step.countP_isNew_cons (step : Step) (steps : List Step) :
    (step :: steps).countP isNew = steps.countP isNew + step.isNew.toNat := by
  rw [List.countP_cons]
  cases step.isNew <;> rfl

/-- A step makes no request to a scanner, or it is made of the request. -/
theorem Step.request?_cases (number : Nat) (step : Step) :
    step.request? number = none ∨ ∃ request : Request, step = request.toStep number := by
  rcases step.eq_new_or_eq_toStep with ⟨expression, rfl⟩ | ⟨n, request, rfl⟩
  · exact .inl rfl
  · rw [request?_toStep]
    by_cases hn : n = number
    · exact .inr ⟨request, by rw [hn]⟩
    · exact .inl (if_neg hn)

theorem answersOf_cons_of_none {number : Nat} {step : Step} (h : step.request? number = none)
    (steps : List Step) (answer : Answer) (answers : List Answer) :
    answersOf number (step :: steps) (answer :: answers) = answersOf number steps answers := by
  rw [answersOf, List.zip_cons_cons, List.filter_cons_of_neg (by simp [h])]
  rfl

theorem answersOf_cons_toStep (number : Nat) (request : Request) (steps : List Step)
    (answer : Answer) (answers : List Answer) :
    answersOf number (request.toStep number :: steps) (answer :: answers) =
      answer :: answersOf number steps answers := by
  rw [answersOf, List.zip_cons_cons,
    List.filter_cons_of_pos (by simp [Step.request?_toStep]), List.map_cons]
  rfl

theorem requestsTo_cons_of_none {number : Nat} {step : Step} (h : step.request? number = none)
    (steps : List Step) : requestsTo number (step :: steps) = requestsTo number steps :=
  List.filterMap_cons_none h

theorem requestsTo_cons_toStep (number : Nat) (request : Request) (steps : List Step) :
    requestsTo number (request.toStep number :: steps) = request :: requestsTo number steps :=
  List.filterMap_cons_some (by simp [Step.request?_toStep])

/-- The answers to steps that come later come later. -/
theorem answersOf_append (number : Nat) {xs : List Step} {as : List Answer}
    (h : xs.length = as.length) (ys : List Step) (bs : List Answer) :
    answersOf number (xs ++ ys) (as ++ bs) = answersOf number xs as ++ answersOf number ys bs := by
  rw [answersOf, List.zip_append h, List.filter_append, List.map_append]
  rfl

namespace Pool

variable {pool : Pool} {number : Nat} {s : Scanner}

/-- The pool after a list of steps. -/
def after (pool : Pool) (steps : List Step) : Pool :=
  steps.foldl (fun pool step => (pool.step step).2) pool

theorem length_run (pool : Pool) (steps : List Step) : (pool.run steps).length = steps.length := by
  induction steps generalizing pool with
  | nil => rfl
  | cons step steps ih => rw [run, List.length_cons, List.length_cons, ih]

/-- A run goes on with the scanners as the first steps leave them. -/
theorem run_append (pool : Pool) (xs ys : List Step) :
    pool.run (xs ++ ys) = pool.run xs ++ (pool.after xs).run ys := by
  induction xs generalizing pool with
  | nil => rfl
  | cons step xs ih =>
    rw [List.cons_append, run, ih, run, List.cons_append]
    rfl

/-! ### One step -/

/-- A request is answered by the scanner of its number, and leaves the others as they are. -/
theorem step_toStep (pool : Pool) (number : Nat) (request : Request) :
    pool.step (request.toStep number) =
      match pool.scanners[number]? with
      | none => (.unknown number, pool)
      | some s => ((s.respond request).1, pool.replace number (s.respond request).2) := by
  cases request with
  | next => cases h : pool.scanners[number]? <;> simp [Request.toStep, step, respond, h]
  | drain =>
    cases h : pool.scanners[number]? with
    | none => simp [Request.toStep, step, h]
    | some s =>
      rcases hdrain : s.drain with ⟨_ | _, _⟩ <;>
        simp [Request.toStep, step, respond, h, hdrain]

/-- A step opens a scanner, or the number of open scanners stays. -/
theorem length_step (pool : Pool) (step : Step) :
    (pool.step step).2.scanners.length = pool.scanners.length + step.isNew.toNat := by
  rcases step.eq_new_or_eq_toStep with ⟨expression, rfl⟩ | ⟨number, request, rfl⟩
  · simp [Pool.step, Step.isNew]
  · rw [step_toStep, Step.isNew_toStep]
    cases pool.scanners[number]? <;> simp [replace]

/-- A request to an open scanner is answered by this scanner. -/
theorem step_of_request (request : Request) (hs : pool.scanners[number]? = some s) :
    (pool.step (request.toStep number)).1 = (s.respond request).1 ∧
      (pool.step (request.toStep number)).2.scanners[number]? = some (s.respond request).2 := by
  have hlt : number < pool.scanners.length := (List.getElem?_eq_some_iff.mp hs).1
  rw [step_toStep, hs]
  exact ⟨rfl, by simp [replace, hlt]⟩

/-- Any other step leaves it as it is. -/
theorem step_of_no_request {step : Step} (hs : pool.scanners[number]? = some s)
    (hrequest : step.request? number = none) :
    (pool.step step).2.scanners[number]? = some s := by
  have hlt : number < pool.scanners.length := (List.getElem?_eq_some_iff.mp hs).1
  rcases step.eq_new_or_eq_toStep with ⟨expression, rfl⟩ | ⟨n, request, rfl⟩
  · rw [Pool.step, List.getElem?_append_left hlt, hs]
  · have hne : n ≠ number := by
      rintro rfl
      simp [Step.request?_toStep] at hrequest
    rw [step_toStep]
    cases pool.scanners[n]? with
    | none => exact hs
    | some _ => exact (List.getElem?_set_ne hne).trans hs

/-! ### Many steps -/

/-- An open scanner answers the requests made to it as it would alone. -/
theorem answersOf_run (hs : pool.scanners[number]? = some s) (steps : List Step) :
    answersOf number steps (pool.run steps) = s.serve (requestsTo number steps) := by
  induction steps generalizing pool s with
  | nil => rfl
  | cons step steps ih =>
    rw [run]
    -- A step makes no request to this scanner and leaves it as it is, or it is answered by it.
    rcases step.request?_cases number with hrequest | ⟨request, rfl⟩
    · rw [answersOf_cons_of_none hrequest, requestsTo_cons_of_none hrequest,
        ih (step_of_no_request hs hrequest)]
    · obtain ⟨hanswer, hafter⟩ := step_of_request request hs
      rw [answersOf_cons_toStep, requestsTo_cons_toStep, serve, hanswer, ih hafter]

/-- As long as a scanner is not open, requests made to it are to no avail. -/
theorem answersOf_run_of_not_open {steps : List Step}
    (h : pool.scanners.length + steps.countP Step.isNew ≤ number) :
    answersOf number steps (pool.run steps) =
      (requestsTo number steps).map fun _ => .unknown number := by
  induction steps generalizing pool with
  | nil => rfl
  | cons step steps ih =>
    have htail : (pool.step step).2.scanners.length + steps.countP Step.isNew ≤ number := by
      rw [Step.countP_isNew_cons] at h
      rw [length_step]
      omega
    rw [run]
    rcases step.request?_cases number with hrequest | ⟨request, rfl⟩
    · rw [answersOf_cons_of_none hrequest, requestsTo_cons_of_none hrequest, ih htail]
    · have hclosed : pool.scanners[number]? = none := List.getElem?_eq_none (by omega)
      rw [answersOf_cons_toStep, requestsTo_cons_toStep, ih htail, step_toStep, hclosed]
      rfl

/-- The scanners are those that were there and those that have been opened. -/
theorem length_after (pool : Pool) (steps : List Step) :
    (pool.after steps).scanners.length = pool.scanners.length + steps.countP Step.isNew := by
  induction steps generalizing pool with
  | nil => rfl
  | cons step steps ih =>
    have htail : (pool.after (step :: steps)).scanners.length = _ := ih (pool.step step).2
    rw [htail, length_step, Step.countP_isNew_cons]
    omega

end Pool

/-! ### Draining -/

/-- Requests to a scanner give these tokens and then something else, and draining comes to the
same: it gives the tokens if nothing is left after them, and otherwise the error. -/
structure DrainsAs (s : Scanner) (tokens : List Token) : Prop where
  outcomes_eq : (List.range tokens.length).map s.outcome = tokens.map .token
  result_eq :
    match s.outcome tokens.length with
    | .token _ => False
    | .error error => s.drain.1 = .error error
    | .stop => s.drain.1 = .ok tokens
  after_eq : s.drain.2 = s.afterRequests (tokens.length + 1)

variable {s s' : Scanner} {token : Token} {tokens : List Token}

/-- A token before what draining gives is given first. -/
theorem DrainsAs.cons (hnext : s.next = (.token token, s')) (h : s'.DrainsAs tokens) :
    s.DrainsAs (token :: tokens) := by
  have houtcome : s.outcome 0 = .token token := by rw [outcome, hnext]
  have hlater : ∀ n, s.outcome (n + 1) = s'.outcome n := fun n => by rw [outcome, hnext]
  have hdrain := drain_of_next_eq_token hnext
  refine ⟨?_, ?_, ?_⟩
  · rw [List.length_cons, List.range_succ_eq_map, List.map_cons, List.map_map, houtcome,
      List.map_cons, ← h.outcomes_eq]
    exact congrArg _ (List.map_congr_left fun n _ => hlater n)
  · have hresult := h.result_eq
    rw [List.length_cons, hlater, hdrain]
    cases hlast : s'.outcome tokens.length with
    | token _ => rwa [hlast] at hresult
    | error error =>
      rw [hlast] at hresult
      exact congrArg (Except.map _) hresult
    | stop =>
      rw [hlast] at hresult
      exact congrArg (Except.map _) hresult
  · rw [hdrain, List.length_cons, afterRequests, hnext]
    exact h.after_eq

/-- Draining is a number of requests. -/
theorem exists_drainsAs (s : Scanner) : ∃ tokens, s.DrainsAs tokens := by
  induction s using drain.induct with
  | case1 s token s' hnext _ _ _ ih =>
    obtain ⟨tokens, htokens⟩ := ih
    exact ⟨token :: tokens, htokens.cons hnext⟩
  | case2 s token s' hnext _ _ _ ih =>
    obtain ⟨tokens, htokens⟩ := ih
    exact ⟨token :: tokens, htokens.cons hnext⟩
  | case3 s error s' hnext =>
    -- The tokens before an error are lost, so none are left to be given here.
    have hdrain := drain_of_next_eq_error hnext
    exact ⟨[], rfl, by simp [outcome, hnext, hdrain], by simp [afterRequests, hnext, hdrain]⟩
  | case4 s s' hnext =>
    have hdrain := drain_of_next_eq_stop hnext
    exact ⟨[], rfl, by simp [outcome, hnext, hdrain], by simp [afterRequests, hnext, hdrain]⟩

/-- A scanner drains to nothing exactly if it has nothing left to give. -/
theorem drain_eq_nil_iff : s.drain.1 = .ok [] ↔ s.next.1 = .stop := by
  cases hnext : s.next with
  | mk o s' =>
    cases o with
    | token token =>
      rw [drain_of_next_eq_token hnext]
      cases s'.drain.1 <;> simp [Except.map]
    | error error => simp [drain_of_next_eq_error hnext]
    | stop => simp [drain_of_next_eq_stop hnext]

end Scanner

open Scanner

/-- **Scanners do not disturb each other.** For any sequence of steps, each scanner that is opened
gives the answers that it would give to the requests made to it alone; requests made before it is
open are to no avail. Draining a scanner comes to what requests give up to the first outcome that is
no token. A scanner drains to nothing exactly if it has nothing left to give, and a new one drains
to the tokens of its expression. -/
theorem pool_isolates_scanners :
    (∀ (before : List Step) (expression : String) (after : List Step),
      let number := before.countP Step.isNew
      let steps := before ++ .new expression :: after
      let answers := Pool.run {} steps
      answers[before.length]? = some (.opened number) ∧
        answersOf number steps answers =
          ((requestsTo number before).map fun _ => .unknown number) ++
            (ofExpression expression).serve (requestsTo number after)) ∧
      (∀ s : Scanner, ∃ tokens, s.DrainsAs tokens) ∧
      (∀ s : Scanner, s.drain.1 = .ok [] ↔ s.next.1 = .stop) ∧
      ∀ expression, (ofExpression expression).drain.1 = tokenize expression := by
  refine ⟨fun before expression after => ?_, exists_drainsAs, fun _ => drain_eq_nil_iff,
    fun _ => rfl⟩
  intro number steps answers
  have hlength : (Pool.after {} before).scanners.length = number := by
    rw [Pool.length_after]
    simp [number]
  have hanswers : answers = Pool.run {} before ++ .opened number ::
      Pool.run ⟨(Pool.after {} before).scanners ++ [ofExpression expression]⟩ after := by
    rw [← hlength]
    exact Pool.run_append _ _ _
  -- The scanner is opened after the steps before, and has the number that is free then.
  have hopen : ((Pool.after {} before).scanners ++ [ofExpression expression])[number]? =
      some (ofExpression expression) := by
    rw [← hlength]
    exact List.getElem?_concat_length
  have hbefore : answersOf number before (Pool.run {} before) = _ :=
    Pool.answersOf_run_of_not_open (by simp [number])
  constructor
  · rw [hanswers, List.getElem?_append_right (by simp [Pool.length_run]), Pool.length_run,
      Nat.sub_self]
    rfl
  · rw [hanswers, answersOf_append number (Pool.length_run _ _).symm, hbefore,
      answersOf_cons_of_none rfl, Pool.answersOf_run hopen]

end CucumberExpressions
