import CucumberExpressions.Proofs.FileTree
import CucumberExpressions.Proofs.Resolution
import CucumberExpressions.Proofs.Toml

/-!
# What comes first

The options of a run are merged from three layers: what the command line asks for comes before what
the settings ask for, and this comes before what is usual. The checks have an order as well. The
settings file is loaded first, then the format and then the sentinels in it are checked, and then
the files with expressions are read one after another. A check that fails ends the merging with its
own failure, whatever would have come later, and whatever the command line asks for.

## Main definitions

* `Settings.Unloadable` — why a settings file cannot be loaded
* `ExpressionList.Unreadable` — why a file with expressions cannot be read
* `Options.FirstFailure` — the failure of the first check that fails

## Main results

* `Options.resolveLoaded_eq_error_iff_firstFailure` — there are no options exactly if a check fails,
  and the failure is that of the first one
* `Options.resolve_merges_in_order` — the layers, the checks, and what they depend on
* `Options.not_forall_resolve_of_no_files` — a path can be too long to say that no file is there
-/

namespace CucumberExpressions

/-! ### Files that cannot be loaded -/

/-- Why a settings file cannot be loaded: it is no text, it breaks the rules of TOML, an integer in
it has too many digits to be read, its path is too long to look for it, or it may not be looked for
or not be opened. -/
inductive Settings.Unloadable (view : FileView) (path : String) : Failure → Prop
  | notUtf8 {content : ByteArray} (hcontent : view path = .ok content)
      (htext : String.fromUTF8? content = none) : Unloadable view path (.fault .notUtf8)
  | malformed {content : ByteArray} (hcontent : view path = .ok content)
      (hparse : Toml.parseBytes content = .error .malformed) :
      Unloadable view path (.refusal .malformedSettings)
  | integerTooLong {content : ByteArray} {digits : Nat} (hcontent : view path = .ok content)
      (hparse : Toml.parseBytes content = .error (.integerTooLong digits)) :
      Unloadable view path (.fault (.integerTooLong digits))
  | pathTooLong (hpath : view path = .error .nameTooLong) :
      Unloadable view path (.fault (.pathTooLong (normalizePath path)))
  | permissionDenied (hpath : view path = .error .permissionDenied) :
      Unloadable view path (.fault (.permissionDenied (normalizePath path)))

/-- A settings file is not loaded exactly if there is a reason for it. -/
theorem Settings.exists_load_eq_error_iff {view : FileView} {path : String} {failure : Failure} :
    (∃ error, load view path = .error error ∧ error.failure = failure) ↔
      Unloadable view path failure := by
  simp only [load_eq_error_iff]
  constructor
  · rintro ⟨error, ⟨hpath, rfl⟩ | ⟨hpath, rfl⟩ | ⟨content, e, hcontent, hparse, rfl⟩, rfl⟩
    · exact .pathTooLong hpath
    · exact .permissionDenied hpath
    · -- There is a file, so the failure is what its reader says.
      cases e with
      | notUtf8 => exact .notUtf8 hcontent ((Toml.parseBytes_eq_notUtf8_iff content).mp hparse)
      | malformed => exact .malformed hcontent hparse
      | integerTooLong digits => exact .integerTooLong hcontent hparse
  · intro h
    cases h with
    | @notUtf8 content hcontent htext =>
      have hparse := (Toml.parseBytes_eq_notUtf8_iff content).mpr htext
      exact ⟨_, .inr (.inr ⟨content, _, hcontent, hparse, rfl⟩), rfl⟩
    | malformed hcontent hparse => exact ⟨_, .inr (.inr ⟨_, _, hcontent, hparse, rfl⟩), rfl⟩
    | integerTooLong hcontent hparse => exact ⟨_, .inr (.inr ⟨_, _, hcontent, hparse, rfl⟩), rfl⟩
    | pathTooLong hpath => exact ⟨_, .inl ⟨hpath, rfl⟩, rfl⟩
    | permissionDenied hpath => exact ⟨_, .inr (.inl ⟨hpath, rfl⟩), rfl⟩

/-- Why a file with expressions cannot be read: it has no name, its name has a null character or
leads to no file, or it is no text. -/
inductive ExpressionList.Unreadable (view : FileView) : CommandLine.Given String → Failure → Prop
  | unnamed : Unreadable view .nothing (.fault .unnamedFile)
  | embeddedNull {name : String} (hname : view name = .error .embeddedNull) :
      Unreadable view (.value name) (.fault .embeddedNull)
  | noFile {name : String} {reason : PathError} (hname : view name = .error reason)
      (hreason : reason ≠ .embeddedNull) :
      Unreadable view (.value name) (.refusal (.cannotRead name reason))
  | notUtf8 {name : String} {content : ByteArray} (hname : view name = .ok content)
      (htext : String.fromUTF8? content = none) : Unreadable view (.value name) (.fault .notUtf8)

/-- A file with expressions is not read exactly if there is a reason for it. -/
theorem ExpressionList.loadGiven_eq_error_iff {view : FileView} {given : CommandLine.Given String}
    {failure : Failure} :
    loadGiven view given = .error failure ↔ Unreadable view given failure := by
  constructor
  · intro h
    cases given with
    | nothing =>
      cases h
      exact .unnamed
    | value name =>
      rw [loadGiven] at h
      unfold load at h
      split at h
      next hname =>
        cases h
        exact .embeddedNull hname
      next reason hreason hname =>
        cases h
        exact .noFile hname fun heq => hreason heq
      next content hname =>
        unfold ofBytes? at h
        cases htext : String.fromUTF8? content with
        | some text =>
          rw [htext] at h
          cases h
        | none =>
          rw [htext] at h
          cases h
          exact .notUtf8 hname htext
  · intro h
    cases h with
    | unnamed => rfl
    | embeddedNull hname => rw [loadGiven, load, hname]
    | @noFile name reason hname hreason =>
      rw [loadGiven, load, hname]
      cases reason with
      | embeddedNull => exact absurd rfl hreason
      -- Any other reason is put into the message.
      | _ => rfl
    | notUtf8 hname htext =>
      rw [loadGiven, load, hname]
      simp only [ofBytes?, htext, Option.map_none]

/-! ### The options and the first failure -/

namespace Options

open ExpressionList

variable {view : FileView} {arguments arguments' : CommandLine.Arguments} {directory : String}
  {loaded : Except Settings.LoadError Toml.Table} {table table' : Toml.Table} {options : Options}
  {failure : Failure}

/-- The options are merged from the arguments, the settings in a table, and the files with
expressions. All settings are in order, and all files can be read. -/
inductive Merged (view : FileView) (arguments : CommandLine.Arguments) (table : Toml.Table)
    (options : Options) : Prop
  | intro {format : Option Format} {sentinels : Option Bool} {lists : List (List String)}
      (hformat : (Settings.outputOf table).lookup "format" = format.map Settings.formatValue)
      (hsentinels : (Settings.outputOf table).lookup "sentinels" = sentinels.map .boolean)
      (hlists : List.Forall₂ (Listed view) arguments.files lists)
      (expressions_eq : options.expressions = arguments.expressions ++ lists.flatten)
      (format_eq : options.format =
        match arguments.format with
        | some given => given.toOption
        | none => some (format.getD .text))
      (sentinels_eq : options.sentinels =
        if arguments.noSentinels then false else sentinels.getD true)
      (verbose_eq : options.verbose = arguments.verbose) : Merged view arguments table options

/-- The failure of the first check that fails: the settings file cannot be loaded, the format in the
settings is none of the formats, the settings do not say with a truth value whether the sentinels
are shown, or a file with expressions cannot be read. Each case says that the checks before it
pass. -/
inductive FirstFailure (view : FileView) (arguments : CommandLine.Arguments) :
    Except Settings.LoadError Toml.Table → Failure → Prop
  | loading (error : Settings.LoadError) : FirstFailure view arguments (.error error) error.failure
  | format {table : Toml.Table} {value : Toml.Value}
      (hvalue : (Settings.outputOf table).lookup "format" = some value)
      (hwrong : ∀ format, value ≠ Settings.formatValue format) :
      FirstFailure view arguments (.ok table) (Settings.ValueError.format value).failure
  | sentinels {table : Toml.Table} {format : Option Format} {value : Toml.Value}
      (hformat : (Settings.outputOf table).lookup "format" = format.map Settings.formatValue)
      (hvalue : (Settings.outputOf table).lookup "sentinels" = some value)
      (hwrong : ∀ shown, value ≠ .boolean shown) :
      FirstFailure view arguments (.ok table) (Settings.ValueError.sentinels value).failure
  | reading {table : Toml.Table} {settings : Settings}
      {before after : List (CommandLine.Given String)} {given : CommandLine.Given String}
      {failure : Failure} (hsettings : Settings.ofTable table = .ok settings)
      (hfiles : arguments.files = before ++ given :: after)
      (hbefore : ∀ given ∈ before, ∃ listed, Listed view given listed)
      (hgiven : Unreadable view given failure) :
      FirstFailure view arguments (.ok table) failure

/-- There are options exactly if the layers can be merged. -/
theorem resolveLoaded_eq_ok_iff_merged :
    resolveLoaded view arguments loaded = .ok options ↔
      ∃ table, loaded = .ok table ∧ Merged view arguments table options := by
  rw [resolveLoaded_eq_ok_iff]
  constructor
  · rintro ⟨table, settings, lists, hload, hsettings, hlists, rfl⟩
    obtain ⟨hformat, hsentinels⟩ := Settings.ofTable_eq_ok_iff.mp hsettings
    exact ⟨table, hload, .intro hformat hsentinels hlists rfl rfl rfl rfl⟩
  · rintro ⟨table, hload, hmerged⟩
    obtain ⟨hformat, hsentinels, hlists, hexpressions, hformat', hsentinels', hverbose⟩ := hmerged
    have hsettings : Settings.ofTable table = .ok ⟨_, _⟩ :=
      Settings.ofTable_eq_ok_iff.mpr ⟨hformat, hsentinels⟩
    refine ⟨table, _, _, hload, hsettings, hlists, ?_⟩
    -- The options are equal because all four of their fields are.
    cases options
    subst hexpressions hformat' hsentinels' hverbose
    rfl

/-- There are no options exactly if a check fails, and the failure is that of the first one. -/
theorem resolveLoaded_eq_error_iff_firstFailure :
    resolveLoaded view arguments loaded = .error failure ↔
      FirstFailure view arguments loaded failure := by
  rw [resolveLoaded_eq_error_iff]
  simp only [loadGiven_eq_ok_iff, loadGiven_eq_error_iff, Settings.ofTable_eq_error_iff]
  constructor
  · rintro (⟨error, rfl, rfl⟩ | ⟨table, rfl, ⟨error, ⟨value, hvalue, hformat, rfl⟩ |
      ⟨⟨format, hformat⟩, value, hvalue, hsentinels, rfl⟩, rfl⟩ |
      ⟨settings, before, given, after, hsettings, hfiles, hbefore, hgiven⟩⟩)
    · exact .loading error
    · exact .format hvalue hformat
    · exact .sentinels hformat hvalue hsentinels
    · exact .reading hsettings hfiles hbefore hgiven
  · intro h
    cases h with
    | loading error => exact .inl ⟨error, rfl, rfl⟩
    | format hvalue hwrong =>
      exact .inr ⟨_, rfl, .inl ⟨_, .inl ⟨_, hvalue, hwrong, rfl⟩, rfl⟩⟩
    | sentinels hformat hvalue hwrong =>
      exact .inr ⟨_, rfl, .inl ⟨_, .inr ⟨⟨_, hformat⟩, _, hvalue, hwrong, rfl⟩, rfl⟩⟩
    | reading hsettings hfiles hbefore hgiven =>
      exact .inr ⟨_, rfl, .inr ⟨_, _, _, _, hsettings, hfiles, hbefore, hgiven⟩⟩

/-- The checks look at nothing but the settings and the files. -/
theorem FirstFailure.of_files_eq (h : FirstFailure view arguments loaded failure)
    (hfiles : arguments'.files = arguments.files) :
    FirstFailure view arguments' loaded failure := by
  cases h with
  | loading error => exact .loading error
  | format hvalue hwrong => exact .format hvalue hwrong
  | sentinels hformat hvalue hwrong => exact .sentinels hformat hvalue hwrong
  | reading hsettings hsplit hbefore hgiven =>
    exact .reading hsettings (hfiles.trans hsplit) hbefore hgiven

/-- Of a table of settings, only the two settings matter. -/
theorem resolveLoaded_congr
    (h : ∀ key ∈ ["format", "sentinels"],
      (Settings.outputOf table).lookup key = (Settings.outputOf table').lookup key) :
    resolveLoaded view arguments (.ok table) = resolveLoaded view arguments (.ok table') := by
  have hsettings : Settings.ofTable table = Settings.ofTable table' := by
    simp only [Settings.ofTable_eq, Settings.formatOf, Settings.sentinelsOf, h _ List.mem_cons_self,
      h _ (List.mem_cons_of_mem _ List.mem_cons_self)]
  have hresolve : ∀ table, resolveLoaded view arguments (.ok table) =
      (Settings.ofTable table).mapError Settings.ValueError.failure >>= fun settings =>
        arguments.files.mapM (loadGiven view) >>= fun lists =>
          return merge arguments settings lists.flatten := fun _ => rfl
  rw [hresolve, hresolve, hsettings]

/-- Only a name that is not empty takes the place of the usual path. -/
theorem settingsPath_eq :
    (∀ name, arguments.config = some (.value name) → name ≠ "" →
        arguments.settingsPath directory = name) ∧
      ((∀ name, arguments.config = some (.value name) → name = "") →
        arguments.settingsPath directory = joinPath directory "cukexp.toml") := by
  unfold CommandLine.Arguments.settingsPath
  constructor
  · intro name hconfig hname
    -- The name passes the filter.
    simp [hconfig, CommandLine.Given.toOption, Settings.path, Option.filter, hname]
  · intro hnone
    rcases hconfig : arguments.config with _ | _ | name
    · rfl
    · rfl
    · rw [hnone name hconfig]
      rfl

/-- **What comes first.** The options of a run are merged from the arguments, the settings and the
files with expressions, in this order. There are none exactly if a check fails, and then the failure
is that of the first one. What the arguments ask for does not hide a check that fails, and of the
settings only the format and the sentinels matter. -/
theorem resolve_merges_in_order (view : FileView) (arguments : CommandLine.Arguments)
    (directory : String) :
    let path := arguments.settingsPath directory
    resolve view arguments directory = resolveLoaded view arguments (Settings.load view path) ∧
      ((∀ name, arguments.config = some (.value name) → name ≠ "" → path = name) ∧
        ((∀ name, arguments.config = some (.value name) → name = "") →
          path = joinPath directory "cukexp.toml")) ∧
      (∀ failure, (∃ error, Settings.load view path = .error error ∧ error.failure = failure) ↔
        Settings.Unloadable view path failure) ∧
      (∀ loaded,
        (∀ options, resolveLoaded view arguments loaded = .ok options ↔
          ∃ table, loaded = .ok table ∧ Merged view arguments table options) ∧
        (∀ failure, resolveLoaded view arguments loaded = .error failure ↔
          FirstFailure view arguments loaded failure) ∧
        ∀ arguments' : CommandLine.Arguments, arguments'.files = arguments.files →
          ∀ failure, resolveLoaded view arguments' loaded = .error failure ↔
            resolveLoaded view arguments loaded = .error failure) ∧
      ∀ table table' : Toml.Table,
        (∀ key ∈ ["format", "sentinels"],
          (Settings.outputOf table).lookup key = (Settings.outputOf table').lookup key) →
        resolveLoaded view arguments (.ok table) = resolveLoaded view arguments (.ok table') := by
  refine ⟨rfl, settingsPath_eq, fun failure => Settings.exists_load_eq_error_iff, ?_,
    fun table table' => resolveLoaded_congr⟩
  intro loaded
  refine ⟨fun options => resolveLoaded_eq_ok_iff_merged, fun failure =>
    resolveLoaded_eq_error_iff_firstFailure, ?_⟩
  -- The first failure says nothing about the arguments but for their files.
  intro arguments' hfiles failure
  rw [resolveLoaded_eq_error_iff_firstFailure, resolveLoaded_eq_error_iff_firstFailure]
  exact ⟨fun h => h.of_files_eq hfiles.symm, fun h => h.of_files_eq hfiles⟩

/-- If the path of the settings file is too long there are no options, even though no file is
there. -/
theorem not_forall_resolve_of_no_files :
    ¬ ∀ (files : FileSystem) (arguments : CommandLine.Arguments),
      (∀ content, files.view (arguments.settingsPath ".") ≠ .ok content) →
      arguments.files = [] →
      ∃ options, resolve files.view arguments "." = .ok options := by
  intro h
  obtain ⟨name, hslash, hnull, hlong⟩ : ∃ name : String, '/' ∉ name.toList ∧
      '\x00' ∉ name.toList ∧ longestComponent < name.utf8ByteSize := by
    refine ⟨String.ofList (List.replicate 256 'a'), ?_⟩
    rw [String.toList_ofList, String.utf8ByteSize_ofList]
    decide +kernel
  have hview : (FileSystem.inRoot []).view name = .error .nameTooLong :=
    FileSystem.view_inRoot_of_longestComponent_lt hslash hnull hlong
  let arguments : CommandLine.Arguments := { expressions := ["x"], config := some (.value name) }
  have hpath : arguments.settingsPath "." = name := by
    refine settingsPath_eq.1 name rfl ?_
    -- The empty name is not too long.
    rintro rfl
    cases hlong
  obtain ⟨options, hoptions⟩ := h (.inRoot []) arguments (by simp [hpath, hview]) rfl
  rw [resolve, hpath, Settings.load_eq_error_iff.mpr (.inl ⟨hview, rfl⟩)] at hoptions
  cases hoptions

end Options

end CucumberExpressions
