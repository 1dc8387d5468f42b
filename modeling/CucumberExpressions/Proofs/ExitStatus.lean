import CucumberExpressions.Program
import CucumberExpressions.Proofs.Precedence
import CucumberExpressions.Proofs.Report

/-!
# How a run ends

A run whose command line is in order gives a status: 0 or 1 after a report, and 2 if it is refused.
Not every failure is foreseen, though. A file that is no text in UTF-8 ends the run without a
status, whether it is the settings file or a file with expressions; so does a settings file that
cannot be looked at or opened, or one with an integer of too many digits to be read or shown, and so
does a file with expressions that has no proper name. There are no other failures of this kind but
those of an interpreter that runs out of its means: a limit on recursion, which settings that are
nested deeply enough would reach, is not part of the model.

## Main definitions

* `Program.Unforeseen` — the failures that are not foreseen, and what they come from

## Main results

* `Options.resolve_eq_fault_iff` — the arguments give such a failure exactly if there is one
* `Program.ending_run_iff_unforeseen` — a run ends with a status unless there is one
-/

namespace CucumberExpressions

/-! ### What is not foreseen -/

/-- The value that a setting cannot have. -/
def Settings.ValueError.value : Settings.ValueError → Toml.Value
  | .format value => value
  | .sentinels value => value

/-- The failures that are not foreseen: the settings file cannot be loaded, a wrong value in the
settings has an integer in it with too many digits to be shown, or a file with expressions cannot be
read. Those of the settings come first, and a file with expressions matters only if all the files
before it can be read. -/
inductive Program.Unforeseen (view : FileView) (arguments : CommandLine.Arguments) : Fault → Prop
  | loading {fault : Fault}
      (hpath : Settings.Unloadable view (arguments.settingsPath ".") (.fault fault)) :
      Unforeseen view arguments fault
  | showing {table : Toml.Table} {error : Settings.ValueError} {n : Int}
      (hload : Settings.load view (arguments.settingsPath ".") = .ok table)
      (hwrong : Settings.ofTable table = .error error) (hmem : n ∈ error.value.integers)
      (hlong : Toml.Value.IsTooLong n) : Unforeseen view arguments .integerTooLongToShow
  | reading {table : Toml.Table} {settings : Settings}
      {before after : List (CommandLine.Given String)} {given : CommandLine.Given String}
      {fault : Fault} (hload : Settings.load view (arguments.settingsPath ".") = .ok table)
      (hsettings : Settings.ofTable table = .ok settings)
      (hfiles : arguments.files = before ++ given :: after)
      (hbefore : ∀ given ∈ before, ∃ listed, ExpressionList.Listed view given listed)
      (hgiven : ExpressionList.Unreadable view given (.fault fault)) :
      Unforeseen view arguments fault

/-! ### The settings -/

namespace Settings

/-- A wrong value is refused with a message that shows it, if it can be shown. -/
theorem ValueError.failure_eq_fault_iff {error : ValueError} {fault : Fault} :
    error.failure = .fault fault ↔
      fault = .integerTooLongToShow ∧ ∃ n ∈ error.value.integers, Toml.Value.IsTooLong n := by
  rw [← Toml.Value.show?_eq_none_iff]
  cases error with
  | format value =>
    rw [failure, ValueError.value]
    cases value.show? <;> simp [eq_comm]
  | sentinels value =>
    rw [failure, ValueError.value]
    cases value.show? <;> simp [eq_comm]

end Settings

/-! ### The whole run -/

section Faults

variable {view : FileView} {arguments : CommandLine.Arguments} {fault : Fault}

/-- The arguments give a failure that is not foreseen exactly if there is one. -/
theorem Options.resolve_eq_fault_iff :
    resolve view arguments "." = .error (.fault fault) ↔
      Program.Unforeseen view arguments fault := by
  rw [resolve, resolveLoaded_eq_error_iff, Settings.exists_load_eq_error_iff]
  simp only [ExpressionList.loadGiven_eq_ok_iff, ExpressionList.loadGiven_eq_error_iff]
  constructor
  · rintro (hpath | ⟨table, hload, ⟨error, hwrong, hfault⟩ |
      ⟨settings, before, given, after, hsettings, hfiles, hbefore, hgiven⟩⟩)
    · exact .loading hpath
    · obtain ⟨rfl, n, hmem, hlong⟩ := Settings.ValueError.failure_eq_fault_iff.mp hfault
      exact .showing hload hwrong hmem hlong
    · exact .reading hload hsettings hfiles hbefore hgiven
  · intro h
    cases h with
    | loading hpath => exact .inl hpath
    | showing hload hwrong hmem hlong =>
      have hfault := Settings.ValueError.failure_eq_fault_iff.mpr ⟨rfl, _, hmem, hlong⟩
      exact .inr ⟨_, hload, .inl ⟨_, hwrong, hfault⟩⟩
    | reading hload hsettings hfiles hbefore hgiven =>
      exact .inr ⟨_, hload, .inr ⟨_, _, _, _, hsettings, hfiles, hbefore, hgiven⟩⟩

/-- Files with proper names can only fail by their content. -/
theorem Program.Unforeseen.ne_of_named (h : Unforeseen view arguments fault)
    (hnull : ∀ path, view path = .error .embeddedNull → path.contains '\x00' = true)
    (hnamed : ∀ given ∈ arguments.files,
      ∃ name, given = .value name ∧ name.contains '\x00' = false) :
    fault ≠ .unnamedFile ∧ fault ≠ .embeddedNull := by
  cases h with
  | loading hpath => cases hpath <;> simp
  | showing => simp
  | @reading _ _ before after given _ _ _ hfiles _ hgiven =>
    obtain ⟨name, rfl, hproper⟩ := hnamed given (by simp [hfiles])
    cases hgiven with
    | embeddedNull hname =>
      rw [hnull name hname] at hproper
      cases hproper
    | notUtf8 => simp

end Faults

namespace Program

/-- A run that has its options ends with a status. -/
theorem ending_carryOut (options : Options) :
    ∃ status ≤ 2, (carryOut options).ending = .status status := by
  unfold carryOut
  split
  next => exact ⟨2, Nat.le_refl 2, rfl⟩
  next =>
    exact ⟨options.report.status, options.status_report_le_one.trans (Nat.le_succ 1), rfl⟩

/-- A run ends with a failure that is not foreseen if the arguments give one, and with a status
otherwise. -/
theorem ending_runWith (view : FileView) (arguments : CommandLine.Arguments) :
    (∃ fault, Options.resolve view arguments "." = .error (.fault fault) ∧
        (runWith view arguments).ending = .fault fault) ∨
      (∀ fault, Options.resolve view arguments "." ≠ .error (.fault fault)) ∧
        ∃ status ≤ 2, (runWith view arguments).ending = .status status := by
  unfold runWith
  split
  next options hresolve => exact .inr ⟨by simp [hresolve], ending_carryOut options⟩
  next refusal hresolve => exact .inr ⟨by simp [hresolve], 2, Nat.le_refl 2, rfl⟩
  next fault hresolve => exact .inl ⟨fault, hresolve, rfl⟩

/-- **How a run ends.** If its command line is in order, a run ends with a status of at most 2,
unless there is a failure that is not foreseen, and then it ends with this failure. If all files
with expressions have proper names, what is not foreseen is never one of their names. -/
theorem ending_run_iff_unforeseen {view : FileView} {words : List String}
    {arguments : CommandLine.Arguments}
    (hwords : CommandLine.Arguments.ofWords words = .ok arguments) :
    ((∃ status ≤ 2, (run view words).ending = .status status) ↔
        ∀ fault, ¬ Unforeseen view arguments fault) ∧
      (∀ fault, (run view words).ending = .fault fault ↔ Unforeseen view arguments fault) ∧
      ((∀ path, view path = .error .embeddedNull → path.contains '\x00' = true) →
        (∀ given ∈ arguments.files,
          ∃ name, given = .value name ∧ name.contains '\x00' = false) →
        ∀ fault, Unforeseen view arguments fault →
          fault ≠ .unnamedFile ∧ fault ≠ .embeddedNull) := by
  have hrun : run view words = runWith view arguments := by rw [run, hwords]
  refine and_assoc.mp ⟨?_, fun hnull hnamed fault h => h.ne_of_named hnull hnamed⟩
  simp only [hrun, ← Options.resolve_eq_fault_iff]
  -- The two ways to end exclude each other, so each one decides both equivalences.
  rcases ending_runWith view arguments with
    ⟨fault, hresolve, hending⟩ | ⟨hresolve, status, hstatus, hending⟩
  · constructor
    · exact iff_of_false (by simp [hending]) fun h => h fault hresolve
    · simp [hending, hresolve]
  · constructor
    · exact iff_of_true ⟨status, hstatus, hending⟩ hresolve
    · exact fun fault => iff_of_false (by simp [hending]) (hresolve fault)

/-- A file with expressions that is no text is not foreseen, even if it has a proper name. -/
theorem ending_run_of_file_not_utf8 :
    let files := FileSystem.inRoot [("b", .file ⟨#[0x61, 0xff, 0x62]⟩)]
    let arguments : CommandLine.Arguments :=
      { files := [.value "/b"], config := some (.value "c") }
    (run files.view ["--config", "c", "-f", "/b"]).ending = .fault .notUtf8 ∧
      ∀ fault, Unforeseen files.view arguments fault →
        fault ≠ .unnamedFile ∧ fault ≠ .embeddedNull := by
  intro files arguments
  have hwords : CommandLine.Arguments.ofWords ["--config", "c", "-f", "/b"] = .ok arguments := rfl
  have hview : files.view "/b" = .ok ⟨#[0x61, 0xff, 0x62]⟩ := by
    simp only [FileSystem.view, FileSystem.resolve, normalizePath, pathComponents_eq,
      String.contains_char_eq]
    decide +kernel
  have hnamed : ∀ given ∈ arguments.files,
      ∃ name, given = .value name ∧ name.contains '\x00' = false := by
    intro given hgiven
    refine ⟨"/b", List.mem_singleton.mp hgiven, ?_⟩
    rw [String.contains_char_eq]
    decide
  obtain ⟨-, hfault, hproper⟩ := @ending_run_iff_unforeseen files.view _ _ hwords
  refine ⟨(hfault .notUtf8).mpr ?_,
    hproper (fun _ => FileSystem.view_eq_embeddedNull_iff.mp) hnamed⟩
  -- There are no settings, and no files before this one.
  have hsettings : files.view "c" = .error .notFound :=
    FileSystem.view_inRoot_of_slash_notMem (by decide) (by decide) (by decide)
  have hload : Settings.load files.view "c" = .ok [] := by
    rw [Settings.load, hsettings]
  have hbefore : ∀ given ∈ [], ∃ listed, ExpressionList.Listed files.view given listed := by simp
  have hgiven : ExpressionList.Unreadable files.view (.value "/b") (.fault .notUtf8) :=
    .notUtf8 hview (by decide)
  exact .reading hload rfl (List.nil_append _).symm hbefore hgiven

/-- So not every run with a command line in order ends with a status. -/
theorem not_forall_ending_run_eq_status :
    ¬ ∀ (files : FileSystem) (words : List String) (arguments : CommandLine.Arguments),
      CommandLine.Arguments.ofWords words = .ok arguments →
      (∀ given ∈ arguments.files, ∃ name, given = .value name ∧ name.contains '\x00' = false) →
      ∃ status ≤ 2, (run files.view words).ending = .status status := by
  intro h
  let files := FileSystem.inRoot [("b", .file ⟨#[0x61, 0xff, 0x62]⟩)]
  let arguments : CommandLine.Arguments := { config := some (.value "b") }
  obtain ⟨status, -, hstatus⟩ := h files ["--config", "b"] arguments rfl (by simp [arguments])
  have hview : files.view "b" = .ok ⟨#[0x61, 0xff, 0x62]⟩ :=
    FileSystem.view_inRoot_of_slash_notMem (by decide) (by decide) (by decide)
  have hunforeseen : Unforeseen files.view arguments .notUtf8 :=
    .loading (.notUtf8 hview (by decide))
  rcases ending_runWith files.view arguments with ⟨fault, -, hending⟩ | ⟨hresolve, -⟩
  · cases hstatus.symm.trans hending
  · exact hresolve .notUtf8 (Options.resolve_eq_fault_iff.mpr hunforeseen)

end Program

end CucumberExpressions
