import CucumberExpressions.Program
import CucumberExpressions.Proofs.CommandLine.Verbose
import CucumberExpressions.Proofs.Precedence
import CucumberExpressions.Proofs.Report

/-!
# The status of a run

A run that ends with a status ends with 2 exactly if it is refused, and then it writes nothing to
the output. There are four reasons to refuse a run, and it does not matter how many of them there
are, or which one is noticed first. Any other run that ends with a status reports on its
expressions, and the status says whether one of them is wrong. The log changes nothing about this.

## Main definitions

* `Program.Refused` — the reasons to refuse a run

## Main results

* `Program.cases_of_ending` — how a run ends that ends with a status
* `Program.runWith_verbosely` — the log changes neither the ending nor the output
* `Program.status_run_eq_two_iff_refused` — what the status of a run says
-/

namespace CucumberExpressions

open ExpressionList

namespace Program

variable {view : FileView} {arguments : CommandLine.Arguments} {status : Nat}

/-- The reasons to refuse a run: the settings file breaks the rules of TOML, the settings are wrong,
a file with expressions cannot be read, or there are no expressions, neither among the arguments nor
in the files. -/
inductive Refused (view : FileView) (arguments : CommandLine.Arguments) : Prop
  | malformedSettings {content : ByteArray}
      (hcontent : view (arguments.settingsPath ".") = .ok content)
      (hparse : Toml.parseBytes content = .error .malformed) : Refused view arguments
  | wrongSettings {content : ByteArray} {table : Toml.Table}
      (hcontent : view (arguments.settingsPath ".") = .ok content)
      (hparse : Toml.parseBytes content = .ok table) (hwrong : Settings.Wrong table) :
      Refused view arguments
  | unreadableFile {name : String} {reason : PathError} (hmem : .value name ∈ arguments.files)
      (hname : view name = .error reason) : Refused view arguments
  | noExpressions {lists : List (List String)}
      (hlists : List.Forall₂ (Listed view) arguments.files lists)
      (hempty : arguments.expressions ++ lists.flatten = []) : Refused view arguments

/-! ### Runs that have their options -/

/-- Without expressions there is nothing to report on. -/
theorem carryOut_of_eq_nil (options : Options) (h : options.expressions = []) :
    (carryOut options).ending = .status 2 ∧ (carryOut options).output = "" := by
  rw [carryOut, if_pos (by simp [h])]
  exact ⟨rfl, rfl⟩

theorem carryOut_of_ne_nil (options : Options) (h : options.expressions ≠ []) :
    (carryOut options).ending = .status options.report.status ∧
      (carryOut options).output = options.report.output := by
  rw [carryOut, if_neg (by simpa using h)]
  exact ⟨rfl, rfl⟩

/-- A run that has its options is refused only if there are no expressions. -/
theorem refused_iff_of_resolve {table : Toml.Table} {settings : Settings}
    {lists : List (List String)}
    (hload : Settings.load view (arguments.settingsPath ".") = .ok table)
    (hsettings : Settings.ofTable table = .ok settings)
    (hlists : List.Forall₂ (Listed view) arguments.files lists) :
    Refused view arguments ↔ arguments.expressions ++ lists.flatten = [] := by
  constructor
  · intro h
    cases h with
    | malformedSettings hcontent hparse =>
      rw [Settings.load, hcontent] at hload
      cases hparse.symm.trans (mapError_eq_ok_iff.mp hload)
    | wrongSettings hcontent hparse hwrong =>
      rw [Settings.load, hcontent] at hload
      cases hparse.symm.trans (mapError_eq_ok_iff.mp hload)
      obtain ⟨error, herror⟩ := Settings.exists_ofTable_eq_error_iff.mpr hwrong
      cases herror.symm.trans hsettings
    | unreadableFile hmem hname =>
      obtain ⟨listed, hlisted⟩ := exists_listed_of_mem hlists hmem
      cases hlisted with
      | file hname' _ =>
        -- The files have all been read.
        cases hname.symm.trans hname'
    | noExpressions hlists' hempty =>
      rwa [List.right_unique_forall₂' rightUnique_listed hlists hlists']
  · exact .noExpressions hlists

/-- A run that is refused its options has a reason for it. -/
theorem refused_of_resolve_eq_refusal {refusal : Refusal}
    (h : Options.resolve view arguments "." = .error (.refusal refusal)) :
    Refused view arguments := by
  rw [Options.resolve, Options.resolveLoaded_eq_error_iff, Settings.exists_load_eq_error_iff] at h
  rcases h with hloading | ⟨table, hload, ⟨error, herror, -⟩ |
    ⟨settings, before, given, after, -, hfiles, -, hgiven⟩⟩
  · cases hloading with
    | malformed hcontent hparse => exact .malformedSettings hcontent hparse
  · have hwrong := Settings.exists_ofTable_eq_error_iff.mp ⟨error, herror⟩
    rcases Settings.load_eq_ok_iff.mp hload with ⟨content, hcontent, hparse⟩ | ⟨_, _, _, rfl⟩
    · exact .wrongSettings hcontent hparse hwrong
    · -- The empty table has no settings that could be wrong.
      cases herror
  · cases loadGiven_eq_error_iff.mp hgiven with
    | noFile hname => exact .unreadableFile (by simp [hfiles]) hname

/-! ### The status -/

/-- A run that ends with a status is refused, or it reports on its expressions. -/
theorem cases_of_ending (hending : (runWith view arguments).ending = .status status) :
    (Refused view arguments ∧ status = 2 ∧ (runWith view arguments).output = "") ∨
      ¬ Refused view arguments ∧
        ∃ lists, ∃ options : Options, List.Forall₂ (Listed view) arguments.files lists ∧
          options.expressions = arguments.expressions ++ lists.flatten ∧
            status = options.report.status := by
  unfold runWith at hending ⊢
  split at hending
  next options hresolve =>
    obtain ⟨table, settings, lists, hload, hsettings, hlists, hoptions⟩ :=
      Options.resolve_eq_ok_iff.mp hresolve
    have hrefused := refused_iff_of_resolve hload hsettings hlists
    have hexpressions : options.expressions = arguments.expressions ++ lists.flatten := by
      rw [hoptions]
      rfl
    -- A run that has its options can only be refused for want of expressions.
    by_cases hempty : options.expressions = []
    · obtain ⟨hstatus, houtput⟩ := carryOut_of_eq_nil options hempty
      refine .inl ⟨hrefused.mpr (hexpressions ▸ hempty), ?_, houtput⟩
      cases hstatus.symm.trans hending
      rfl
    · obtain ⟨hstatus, -⟩ := carryOut_of_ne_nil options hempty
      refine .inr ⟨fun h => hempty (hexpressions.trans (hrefused.mp h)), lists, options, hlists,
        hexpressions, ?_⟩
      cases hstatus.symm.trans hending
      rfl
  next refusal hresolve =>
    cases hending
    exact .inl ⟨refused_of_resolve_eq_refusal hresolve, rfl, rfl⟩
  next => cases hending

/-! ### The log -/

/-- The log changes nothing in the other options. -/
theorem resolve_verbosely (view : FileView) (arguments : CommandLine.Arguments)
    (directory : String) :
    Options.resolve view arguments.verbosely directory =
      (Options.resolve view arguments directory).map fun options =>
        { options with verbose := true } := by
  have hpath : arguments.verbosely.settingsPath directory = arguments.settingsPath directory := rfl
  have hfiles : arguments.verbosely.files = arguments.files := rfl
  unfold Options.resolve Options.resolveLoaded
  rw [hpath, hfiles]
  cases (Settings.load view (arguments.settingsPath directory)).mapError (·.failure) with
  | error failure => rfl
  | ok table =>
    change (do
      let settings ← (Settings.ofTable table).mapError (·.failure)
      let lists ← arguments.files.mapM (ExpressionList.loadGiven view)
      return Options.merge arguments.verbosely settings lists.flatten) = Except.map _ (do
      let settings ← (Settings.ofTable table).mapError (·.failure)
      let lists ← arguments.files.mapM (ExpressionList.loadGiven view)
      return Options.merge arguments settings lists.flatten)
    cases (Settings.ofTable table).mapError (·.failure) with
    | error failure => rfl
    | ok settings => cases arguments.files.mapM (ExpressionList.loadGiven view) <;> rfl

/-- The log leaves the status and the output of a report as they are. -/
theorem carryOut_verbosely (options : Options) :
    (carryOut { options with verbose := true }).ending = (carryOut options).ending ∧
      (carryOut { options with verbose := true }).output = (carryOut options).output := by
  by_cases hempty : options.expressions = []
  · obtain ⟨hstatus, houtput⟩ := carryOut_of_eq_nil options hempty
    obtain ⟨hstatus', houtput'⟩ :=
      carryOut_of_eq_nil { options with verbose := true } hempty
    exact ⟨hstatus'.trans hstatus.symm, houtput'.trans houtput.symm⟩
  · obtain ⟨hstatus, houtput⟩ := carryOut_of_ne_nil options hempty
    obtain ⟨hstatus', houtput'⟩ :=
      carryOut_of_ne_nil { options with verbose := true } hempty
    rw [hstatus', houtput', hstatus, houtput]
    exact ⟨rfl, rfl⟩

/-- The log changes neither how a run ends nor what it writes to the output. -/
theorem runWith_verbosely (view : FileView) (arguments : CommandLine.Arguments) :
    (runWith view arguments.verbosely).ending = (runWith view arguments).ending ∧
      (runWith view arguments.verbosely).output = (runWith view arguments).output := by
  unfold runWith
  rw [resolve_verbosely]
  cases Options.resolve view arguments "." with
  | ok options => exact carryOut_verbosely options
  | error failure => cases failure <;> exact ⟨rfl, rfl⟩

/-- **What the status of a run says.** A run that ends with a status ends with 2 exactly if there is
a reason to refuse it, and then it writes nothing to the output. Otherwise the files with
expressions can be read, and the status is 1 if one of the expressions is wrong and 0 if none is.
The flag for the log in front of the command line changes neither the status nor the output. The
settings, which may be such a reason, are those of the file that is named on the command line; if no
name is given, or an empty one, they are those of the usual file. -/
theorem status_run_eq_two_iff_refused {words : List String}
    (hwords : CommandLine.Arguments.ofWords words = .ok arguments)
    (hending : (run view words).ending = .status status) :
    ((∀ name, arguments.config = some (.value name) → name ≠ "" →
        arguments.settingsPath "." = name) ∧
      ((∀ name, arguments.config = some (.value name) → name = "") →
        arguments.settingsPath "." = joinPath "." "cukexp.toml")) ∧
      (status = 2 ↔ Refused view arguments) ∧
      (Refused view arguments → (run view words).output = "") ∧
      (¬ Refused view arguments →
        ∃ lists, List.Forall₂ (Listed view) arguments.files lists ∧
          let expressions := arguments.expressions ++ lists.flatten
          (status = 1 ↔ ∃ expression ∈ expressions, ∃ error, tokenize expression = .error error) ∧
            (status = 0 ↔ ∀ expression ∈ expressions, ∃ tokens, tokenize expression = .ok tokens)) ∧
      (run view ("-v" :: words)).ending = .status status ∧
        (run view ("-v" :: words)).output = (run view words).output := by
  have hrun : run view words = runWith view arguments := by rw [run, hwords]
  have hlogged : run view ("-v" :: words) = runWith view arguments.verbosely := by
    rw [run, CommandLine.Arguments.ofWords_cons_verbose hwords]
  obtain ⟨hsame, houtput⟩ := runWith_verbosely view arguments
  rw [hrun] at hending
  rw [hrun, hlogged, hsame]
  refine ⟨Options.settingsPath_eq, ?_⟩
  rcases cases_of_ending hending with
    ⟨hrefused, hstatus, hnothing⟩ | ⟨hrefused, lists, options, hlists, hexpressions, hstatus⟩
  · exact ⟨iff_of_true hstatus hrefused, fun _ => hnothing, fun h => absurd hrefused h, hending,
      houtput⟩
  · -- A report never has the status of a refusal.
    have hle := options.status_report_le_one
    have hone : options.report.status = 1 ↔ _ := Options.status_report_eq_one_iff
    have hzero : options.report.status = 0 ↔ _ := Options.status_report_eq_zero_iff_forall
    rw [hexpressions, ← hstatus] at hone hzero
    exact ⟨iff_of_false (by omega) hrefused, fun h => absurd h hrefused,
      fun _ => ⟨lists, hlists, hone, hzero⟩, hending, houtput⟩

/-- A missing file with expressions is a reason to refuse a run, even if there are expressions among
the arguments. -/
theorem status_run_of_missing_file :
    let arguments : CommandLine.Arguments :=
      { expressions := ["a"], files := [.value "b"], config := some (.value "c") }
    arguments.settingsPath "." = "c" ∧ Refused (fun _ => .error .notFound) arguments ∧
      (run (fun _ => .error .notFound) ["-v", "--config", "c", "-f", "b", "a"]).ending =
        .status 2 ∧
      (run (fun _ => .error .notFound) ["-v", "--config", "c", "-f", "b", "a"]).output = "" := by
  intro arguments
  have hwords : CommandLine.Arguments.ofWords ["--config", "c", "-f", "b", "a"] =
      .ok arguments := rfl
  have hending : (run (fun _ => .error .notFound) ["--config", "c", "-f", "b", "a"]).ending =
      .status 2 := rfl
  obtain ⟨⟨hnamed, -⟩, hstatus, hnothing, -, hverbose, houtput⟩ :=
    status_run_eq_two_iff_refused hwords hending
  have hrefused := hstatus.mp rfl
  exact ⟨hnamed "c" rfl (by decide), hrefused, hverbose, houtput.trans (hnothing hrefused)⟩

end Program

end CucumberExpressions
