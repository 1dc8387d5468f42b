import CucumberExpressions.Proofs.Diagnostic
import CucumberExpressions.Proofs.ExpressionList
import CucumberExpressions.Proofs.Report
import Mathlib.Data.List.Forall2

/-!
# Reports and diagnostics

A list of expressions can be looked at in two ways. A run of the program reads it from a file, with
the breaks of its lines unified, drops the lines that hold no expression, and reports on what is
left. An editor holds it as a document, and asks for the diagnostics line by line. Both come to the
same errors.

## Main definitions

* `Json.isErrorRecord` — whether a record of a report is about an error
* `Diagnostic.Shows` — a diagnostic shows the error of a record

## Main results

* `ofDocument_shows_error_records` — the diagnostics of a document show the errors in the report on
  a file with the same text, one by one
-/

namespace CucumberExpressions

open Atom

/-! ### Records of errors -/

namespace Json

/-- The value under a key, in an object that has it. -/
def member? (key : String) : Json → Option Json
  | .object members => members.lookup key
  | _ => none

/-- Whether a record of a report is about an error. -/
def isErrorRecord (record : Json) : Bool := (record.member? "error").isSome

end Json

/-- A record of a report has an error exactly if the result does. -/
theorem Record.isErrorRecord_toJson (record : Record) :
    record.toJson.isErrorRecord = record.isFailed := by
  cases record <;> rfl

/-- The records of errors in a report come from the expressions that are wrong. -/
theorem Record.filter_isErrorRecord_map_toJson (records : List Record) :
    (records.map toJson).filter Json.isErrorRecord = (records.filter isFailed).map toJson := by
  have hcongr : Json.isErrorRecord ∘ toJson = isFailed := funext isErrorRecord_toJson
  rw [List.filter_map, hcongr]

/-! ### Diagnostics -/

namespace Diagnostic

/-- The diagnostic has the message of a record, and covers the character that the record points at
in its expression. -/
def Shows (diagnostic : Diagnostic) (record : Json) : Prop :=
  ∃ expression message index,
    record.member? "expression" = some (.string expression) ∧
      record.member? "error" = some (.string message) ∧
      record.member? "index" = some (.number index) ∧
      diagnostic.message = message ∧
      diagnostic.start.character = Text.utf16Column expression.toList index ∧
      diagnostic.stop.character = Text.utf16Column expression.toList (index + 1)

/-- The diagnostic of an error shows the record of this error, whatever its line is. -/
theorem ofError_shows {line : List Char} {error : ExpressionError} (number : Nat)
    (h : tokenize (String.ofList line) = .error error) :
    (ofError number line error).Shows (Record.failed error).toJson := by
  have hexpression := congrArg String.toList (expression_of_tokenize_eq_error h)
  rw [String.toList_ofList] at hexpression
  refine ⟨error.expression, error.message, error.index, rfl, rfl, rfl, rfl, ?_, ?_⟩
  · rw [hexpression]
    rfl
  · rw [hexpression]
    rfl

/-- The diagnostics of lines show the errors of their expressions, one by one. The numbers of the
lines do not matter. -/
theorem exists_ofLines_forall₂_shows (sentinels : Bool) (number : Nat) (lines : List (List Char)) :
    ∃ diagnostics, ofLines number (lines.map (List.map .char)) = .ok diagnostics ∧
      List.Forall₂ Shows diagnostics
        (((((lines.filter fun line => !ExpressionList.isSkipped line).map String.ofList).map
          (Record.ofExpression sentinels)).filter Record.isFailed).map Record.toJson) := by
  induction lines generalizing number with
  | nil => exact ⟨[], rfl, .nil⟩
  | cons line lines ih =>
    obtain ⟨rest, hrest, htail⟩ := ih (number + 1)
    cases hskipped : ExpressionList.isSkipped line with
    | true =>
      -- Neither side looks at such a line.
      have hnone : ofLine number (line.map .char) = .ok none := by
        refine ofLine_of_not_fails (fun error hfails => ?_) number
        rw [(fails_map_char_iff.mp hfails).1] at hskipped
        cases hskipped
      refine ⟨rest, ofLines_cons_eq_ok_iff.mpr ⟨none, rest, hnone, hrest, rfl⟩, ?_⟩
      rw [List.filter_cons_of_neg (by simp [hskipped])]
      exact htail
    | false =>
      rw [List.filter_cons_of_pos (by simp [hskipped])]
      simp only [List.map_cons]
      -- Both sides ask the same of the line; only an error leaves a trace.
      cases htokens : tokenize (String.ofList line) with
      | ok tokens =>
        have hnone : ofLine number (line.map .char) = .ok none := by
          refine ofLine_of_not_fails (fun error hfails => ?_) number
          rw [(fails_map_char_iff.mp hfails).2] at htokens
          cases htokens
        have hrecord : Record.ofExpression sentinels (String.ofList line) =
            .accepted (String.ofList line) (Token.visible sentinels tokens) := by
          rw [Record.ofExpression, htokens]
        rw [hrecord]
        exact ⟨rest, ofLines_cons_eq_ok_iff.mpr ⟨none, rest, hnone, hrest, rfl⟩, htail⟩
      | error error =>
        have hfound := ofLine_map_char hskipped htokens number
        have hrecord : Record.ofExpression sentinels (String.ofList line) = .failed error := by
          rw [Record.ofExpression, htokens]
        rw [hrecord]
        exact ⟨ofError number line error :: rest,
          ofLines_cons_eq_ok_iff.mpr ⟨some _, rest, hfound, hrest, rfl⟩,
          .cons (ofError_shows number htokens) htail⟩

/-- The same for the lines of a document. -/
theorem forall₂_shows_ofDocument (sentinels : Bool) (text : List Char) :
    List.Forall₂ Shows (ofDocument text)
      ((((((Text.splitLines text).filter fun line => !ExpressionList.isSkipped line).map
        String.ofList).map (Record.ofExpression sentinels)).filter Record.isFailed).map
          Record.toJson) := by
  obtain ⟨diagnostics, hdiagnostics, hshows⟩ :=
    exists_ofLines_forall₂_shows sentinels 0 (Text.splitLines text)
  rw [← splitLinesBy_map_char] at hdiagnostics
  obtain rfl : ofDocument text = diagnostics :=
    Except.ok.inj ((ofSource_map_char text).symm.trans hdiagnostics)
  exact hshows

end Diagnostic

/-- A report has status 0 exactly if no expression is wrong. -/
theorem Options.status_report_eq_zero_iff (options : Options) :
    options.report.status = 0 ↔ options.records.filter Record.isFailed = [] := by
  simp [report_eq, List.filter_eq_nil_iff]

/-- **Agreement.** A file with the text of a document can be read. The diagnostics of the document
show the error records in the report on its expressions, one by one and in their order. So the
status of a report is 0 exactly if there are no diagnostics. Nothing keeps them from being told. -/
theorem ofDocument_shows_error_records (text : String) (sentinels verbose : Bool) :
    ∃ expressions, ExpressionList.ofBytes? text.toUTF8 = some expressions ∧
      Diagnostic.ofSource (text.toList.map .char) = .ok (Diagnostic.ofDocument text.toList) ∧
      (let options : Options := ⟨expressions, some .json, sentinels, verbose⟩
        let written := options.records.map Record.toJson
        options.report.output = (Json.array written).render ++ "\n" ∧
          List.Forall₂ Diagnostic.Shows (Diagnostic.ofDocument text.toList)
            (written.filter Json.isErrorRecord)) ∧
      ∀ format : Option Format,
        (Options.mk expressions format sentinels verbose).report.status = 0 ↔
          Diagnostic.ofDocument text.toList = [] := by
  -- The lines are those of the text as it stands, since their breaks do not matter.
  have hshows := Diagnostic.forall₂_shows_ofDocument sentinels text.toList
  refine ⟨_, ExpressionList.ofBytes?_toUTF8 text, Diagnostic.ofSource_map_char text.toList,
    ⟨by rw [Options.report_eq]; rfl, ?_⟩, fun format => ?_⟩
  · rw [Record.filter_isErrorRecord_map_toJson]
    exact hshows
  · have hlength := hshows.length_eq
    rw [Options.status_report_eq_zero_iff, ← List.length_eq_zero_iff, ← List.length_eq_zero_iff,
      hlength, List.length_map]
    rfl

end CucumberExpressions
