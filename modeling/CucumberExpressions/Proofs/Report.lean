import CucumberExpressions.Proofs.Scanner.History
import CucumberExpressions.Report
import Mathlib.Data.List.Forall2

/-!
# Reports on many expressions

A report goes through its expressions one by one. What it does with one of them depends on nothing
that came before, and only adds to what has been written and kept. So the report on two lists after
each other is made of the reports on the two, and every expression can be found in it with what it
has alone.

## Main definitions

* `Progress.append` — one report in the making after another
* `acceptedText?`, `failedText?` — what the text format writes about one expression
* `Options.messagesOf` — what a run tells about one expression
* `Recorded` — the record that the JSON format writes about one expression
* `Progress.ofExpressions` — the report in the making after some expressions

## Main results

* `Options.foldl_step_eq_append` — going through expressions adds to what is there
* `Options.report_eq` — what is in a report
* `report_of_each_expression` — a report says of each expression what it has alone
-/

namespace CucumberExpressions

/-! ### Reports in the making -/

namespace Progress

/-- One report in the making after another. A status of 0 leaves the one before it as it is. -/
def append (p q : Progress) : Progress where
  status := if q.status = 0 then p.status else q.status
  output := p.output ++ q.output
  messages := p.messages ++ q.messages
  records := p.records ++ q.records

theorem append_empty (p : Progress) : p.append {} = p := by
  simp [append]

theorem append_assoc (p q r : Progress) : (p.append q).append r = p.append (q.append r) := by
  by_cases hr : r.status = 0 <;> simp [append, hr, String.append_assoc]

end Progress

namespace Options

/-- An expression adds what it comes to alone. -/
theorem step_eq_append (options : Options) (progress : Progress) (expression : String) :
    options.step progress expression = progress.append (options.step {} expression) := by
  -- In each format and for each outcome, what is new stands behind what is there.
  cases hformat : options.reportFormat <;> cases htokens : tokenize expression <;>
    simp [step, Progress.tell, Progress.append, hformat, htokens]

/-- Going through expressions adds to what is there. -/
theorem foldl_step_eq_append (options : Options) (progress : Progress)
    (expressions : List String) :
    expressions.foldl options.step progress =
      progress.append (expressions.foldl options.step {}) := by
  induction expressions generalizing progress with
  | nil => exact progress.append_empty.symm
  | cons expression expressions ih =>
    rw [List.foldl_cons, List.foldl_cons, ih, ih (options.step {} expression),
      ← Progress.append_assoc, ← step_eq_append]

end Options

/-! ### One expression -/

/-- What the text format writes to the output about an expression that has tokens. -/
def acceptedText? (sentinels : Bool) (expression : String) : Option String :=
  match tokenize expression with
  | .ok tokens => some (expression ++ "\n" ++ Token.dump (Token.visible sentinels tokens))
  | .error _ => none

/-- What the text format writes to the error output about an expression that is wrong. -/
def failedText? (expression : String) : Option String :=
  match tokenize expression with
  | .ok _ => none
  | .error error => some (error.report ++ "\n")

/-- What a run tells about an expression. -/
def Options.messagesOf (options : Options) (expression : String) : List Message :=
  .logged expression ::
    match options.reportFormat, tokenize expression with
    | .text, .error error => [.error error]
    | _, _ => []

/-- The record that the JSON format writes about an expression. It has the tokens that the text
format shows, or the error. -/
inductive Recorded (sentinels : Bool) (expression : String) : Json → Prop
  | accepted {tokens : List Token} (h : tokenize expression = .ok tokens) :
      Recorded sentinels expression (.object [("expression", .string expression),
        ("tokens", .array ((Token.visible sentinels tokens).map Token.toJson))])
  | failed {error : ExpressionError} (h : tokenize expression = .error error) :
      Recorded sentinels expression (.object [("expression", .string expression),
        ("error", .string error.message), ("index", .number error.index)])

/-- The result for an expression makes the record of this expression. -/
theorem recorded_toJson (sentinels : Bool) (expression : String) :
    Recorded sentinels expression (Record.ofExpression sentinels expression).toJson := by
  rw [Record.ofExpression]
  cases htokens : tokenize expression with
  | ok tokens => exact .accepted htokens
  | error error =>
    rw [Record.toJson, expression_of_tokenize_eq_error htokens]
    exact .failed htokens

/-- An expression fails if it has an error. -/
theorem Record.isFailed_ofExpression_iff {sentinels : Bool} {expression : String} :
    (Record.ofExpression sentinels expression).isFailed = true ↔
      ∃ error, tokenize expression = .error error := by
  rw [Record.ofExpression]
  cases tokenize expression <;> simp [Record.isFailed]

/-! ### All expressions -/

namespace Progress

/-- The report in the making after the given expressions. -/
def ofExpressions (options : Options) (expressions : List String) : Progress where
  status :=
    if (expressions.map (Record.ofExpression options.sentinels)).any Record.isFailed then 1 else 0
  output :=
    match options.reportFormat with
    | .text => String.join (expressions.filterMap (acceptedText? options.sentinels))
    | .json => ""
  messages := expressions.flatMap options.messagesOf
  records :=
    match options.reportFormat with
    | .text => []
    | .json => expressions.map (Record.ofExpression options.sentinels)

theorem ofExpressions_nil (options : Options) : ofExpressions options [] = {} := by
  cases hformat : options.reportFormat <;> simp [ofExpressions, hformat]

/-- Reports in the making can be put together. -/
theorem ofExpressions_append (options : Options) (xs ys : List String) :
    ofExpressions options (xs ++ ys) =
      (ofExpressions options xs).append (ofExpressions options ys) := by
  -- The status of the first list stands if no expression of the second one is wrong.
  cases hformat : options.reportFormat <;>
    cases hys : (ys.map (Record.ofExpression options.sentinels)).any Record.isFailed <;>
      simp [ofExpressions, append, hformat, hys]

theorem ofExpressions_singleton (options : Options) (expression : String) :
    ofExpressions options [expression] = options.step {} expression := by
  cases hformat : options.reportFormat <;> cases htokens : tokenize expression <;>
    simp [ofExpressions, Options.step, Progress.tell, Options.messagesOf, Record.ofExpression,
      Record.isFailed, acceptedText?, hformat, htokens]

end Progress

namespace Options

/-- Going through expressions brings a report up to where it says of each one what it has. -/
theorem foldl_step_eq_ofExpressions (options : Options) (expressions : List String) :
    expressions.foldl options.step {} = Progress.ofExpressions options expressions := by
  induction expressions with
  | nil => exact (Progress.ofExpressions_nil options).symm
  | cons expression expressions ih =>
    rw [List.foldl_cons, foldl_step_eq_append, ih, ← Progress.ofExpressions_singleton,
      ← Progress.ofExpressions_append]
    rfl

/-- What is in a report. -/
theorem report_eq (options : Options) :
    options.report = {
      status := if options.records.any Record.isFailed then 1 else 0
      output :=
        match options.reportFormat with
        | .text =>
          String.join (options.expressions.filterMap (acceptedText? options.sentinels))
        | .json => (Json.array (options.records.map Record.toJson)).render ++ "\n"
      messages := options.expressions.flatMap options.messagesOf } := by
  rw [report, foldl_step_eq_ofExpressions]
  cases hformat : options.reportFormat <;>
    simp [finish, Progress.ofExpressions, records, hformat]

/-- The status is 1 if one of the expressions is wrong. -/
theorem status_report_eq_one_iff {options : Options} :
    options.report.status = 1 ↔
      ∃ expression ∈ options.expressions, ∃ error, tokenize expression = .error error := by
  have hany : options.records.any Record.isFailed = true ↔
      ∃ expression ∈ options.expressions, ∃ error, tokenize expression = .error error := by
    simp only [records, List.any_map, List.any_eq_true, Function.comp_apply,
      Record.isFailed_ofExpression_iff]
  rw [report_eq, ← hany]
  cases options.records.any Record.isFailed <;> simp

theorem status_report_le_one (options : Options) : options.report.status ≤ 1 := by
  rw [report_eq]
  cases options.records.any Record.isFailed <;> simp

/-- The status is 0 if all of the expressions have tokens. -/
theorem status_report_eq_zero_iff_forall {options : Options} :
    options.report.status = 0 ↔
      ∀ expression ∈ options.expressions, ∃ tokens, tokenize expression = .ok tokens := by
  have hnot : options.report.status = 0 ↔ ¬ options.report.status = 1 := by
    have := options.status_report_le_one
    omega
  simp only [hnot, status_report_eq_one_iff, not_exists, not_and]
  refine forall₂_congr fun expression _ => ?_
  cases tokenize expression <;> simp

/-- The errors among the messages are those of the text format. -/
theorem map_text_filter_isError_messagesOf (options : Options) (expression : String) :
    ((options.messagesOf expression).filter Message.isError).map Message.text =
      match options.reportFormat with
      | .text => (failedText? expression).toList
      | .json => [] := by
  rw [messagesOf, failedText?]
  cases options.reportFormat <;> cases tokenize expression <;> rfl

/-- What a run writes to the error output are the errors that it tells about, in the text format. -/
theorem errorOutput_report (options : Options) :
    options.report.errorOutput =
      match options.reportFormat with
      | .text => String.join (options.expressions.filterMap failedText?)
      | .json => "" := by
  rw [report_eq, Report.errorOutput]
  simp only [List.filter_flatMap, List.map_flatMap, map_text_filter_isError_messagesOf]
  cases options.reportFormat with
  | text => rw [List.filterMap_eq_flatMap_toList failedText?]
  | json =>
    rw [List.flatMap_eq_nil_iff.mpr fun _ _ => rfl]
    exact String.join_nil

variable {format : Option Format} {sentinels verbose : Bool} {expressions : List String}

/-- In the text format the output has the tokens of every expression that has them. -/
theorem output_report_of_text (hformat : format.getD .text = .text) :
    (Options.mk expressions format sentinels verbose).report.output =
      String.join (expressions.filterMap (acceptedText? sentinels)) := by
  rw [report_eq]
  simp only [reportFormat, hformat]

/-- In the text format the errors are told apart from the output. -/
theorem errorOutput_report_of_text (hformat : format.getD .text = .text) :
    (Options.mk expressions format sentinels verbose).report.errorOutput =
      String.join (expressions.filterMap failedText?) := by
  rw [errorOutput_report]
  simp only [reportFormat, hformat]

/-- In the JSON format the output is one array of records. -/
theorem output_report_of_json (hformat : format.getD .text = .json) :
    (Options.mk expressions format sentinels verbose).report.output =
      (Json.array ((expressions.map (Record.ofExpression sentinels)).map
        Record.toJson)).render ++ "\n" := by
  rw [report_eq]
  simp only [records, reportFormat, hformat]

theorem errorOutput_report_of_json (hformat : format.getD .text = .json) :
    (Options.mk expressions format sentinels verbose).report.errorOutput = "" := by
  rw [errorOutput_report]
  simp only [reportFormat, hformat]

/-- The status of the whole is 1 as soon as that of one part is. -/
theorem status_report_append (more : List String) :
    (Options.mk (expressions ++ more) format sentinels verbose).report.status =
      max (Options.mk expressions format sentinels verbose).report.status
        (Options.mk more format sentinels verbose).report.status := by
  have hone : (Options.mk (expressions ++ more) format sentinels verbose).report.status = 1 ↔
      (Options.mk expressions format sentinels verbose).report.status = 1 ∨
        (Options.mk more format sentinels verbose).report.status = 1 := by
    simp only [status_report_eq_one_iff, List.mem_append, or_and_right, exists_or]
  have hwhole := status_report_le_one (Options.mk (expressions ++ more) format sentinels verbose)
  have hfirst := status_report_le_one (Options.mk expressions format sentinels verbose)
  have hsecond := status_report_le_one (Options.mk more format sentinels verbose)
  omega

/-- The messages about more expressions come after those about the first ones. -/
theorem messages_report_append (more : List String) :
    (Options.mk (expressions ++ more) format sentinels verbose).report.messages =
      (Options.mk expressions format sentinels verbose).report.messages ++
        (Options.mk more format sentinels verbose).report.messages := by
  rw [report_eq, report_eq, report_eq]
  exact List.flatMap_append

end Options

/-- **A report says of each expression what it has alone.** The text format writes the tokens of the
expressions that have tokens to the output, and the errors of the others to the error output. The
JSON format writes one record for each expression, with the same tokens, and nothing to the error
output. The status is 1 exactly if some expression is wrong. So in the text format, the report on
two lists of expressions after each other is made of the reports on the two. Nothing of this depends
on whether the log is shown. -/
theorem report_of_each_expression (format : Option Format) (sentinels verbose : Bool)
    (expressions : List String) :
    let report (list : List String) := (Options.mk list format sentinels verbose).report
    (report expressions).status ≤ 1 ∧
      ((report expressions).status = 1 ↔
        ∃ expression ∈ expressions, ∃ error, tokenize expression = .error error) ∧
      match format.getD .text with
      | .text =>
        (report expressions).output =
            String.join (expressions.filterMap (acceptedText? sentinels)) ∧
          (report expressions).errorOutput = String.join (expressions.filterMap failedText?) ∧
          ∀ more,
            report (expressions ++ more) =
                ⟨max (report expressions).status (report more).status,
                  (report expressions).output ++ (report more).output,
                  (report expressions).messages ++ (report more).messages⟩ ∧
              (report (expressions ++ more)).errorOutput =
                (report expressions).errorOutput ++ (report more).errorOutput
      | .json =>
        (report expressions).errorOutput = "" ∧
          ∃ written, List.Forall₂ (Recorded sentinels) expressions written ∧
            (report expressions).output = (Json.array written).render ++ "\n" := by
  intro report
  refine ⟨Options.status_report_le_one _, Options.status_report_eq_one_iff, ?_⟩
  cases hformat : format.getD .text with
  | text =>
    have houtput : ∀ list, (report list).output = _ :=
      fun _ => Options.output_report_of_text hformat
    have herrors : ∀ list, (report list).errorOutput = _ :=
      fun _ => Options.errorOutput_report_of_text hformat
    refine ⟨houtput expressions, herrors expressions, fun more => ⟨?_, ?_⟩⟩
    · rw [← Options.status_report_append, ← Options.messages_report_append, houtput expressions,
        houtput more, ← String.join_append, ← List.filterMap_append, ← houtput]
    · rw [herrors, herrors, herrors, List.filterMap_append, String.join_append]
  | json =>
    refine ⟨Options.errorOutput_report_of_json hformat, _, ?_,
      Options.output_report_of_json hformat⟩
    rw [List.map_map, List.forall₂_map_right_iff, List.forall₂_same]
    exact fun expression _ => recorded_toJson sentinels expression

end CucumberExpressions
