import CucumberExpressions.Proofs.Except
import CucumberExpressions.Resolution

/-!
# What the options of a run come from

The options come from the arguments, from the settings and from the files with expressions, if all
of them are in order. What is wrong with the settings can be said of their table alone, and what a
file lists can be said of its content.

## Main definitions

* `Settings.Wrong` — the tables whose settings are wrong
* `Settings.Checked` — what checking a setting comes to
* `Settings.outputOf` — where the settings stand in a table
* `ExpressionList.Listed` — what a flag for files with expressions adds to the expressions

## Main results

* `Settings.ofTable_eq_ok_iff`, `Settings.ofTable_eq_error_iff` — which settings a table has, and
  which of them is found to be wrong
* `Settings.exists_ofTable_eq_error_iff` — wrong settings are an error, and nothing else is one
* `Options.resolve_eq_ok_iff` — when there are options, and which
* `Options.resolveLoaded_eq_error_iff` — which check fails if there are none
-/

namespace CucumberExpressions

/-! ### Settings -/

/-- A format is found under its own name only. -/
theorem Format.ofName?_eq_some_iff {name : String} {format : Format} :
    ofName? name = some format ↔ format.name = name := by
  constructor
  · intro h
    simpa using List.find?_some h
  · rintro rfl
    cases format <;> rfl

namespace Settings

variable {view : FileView} {path : String} {table output : Toml.Table}

/-- The settings in a table are wrong: they ask for a format that is none of the formats, or they do
not say with a truth value whether the sentinels are shown. -/
inductive Wrong (table : Toml.Table) : Prop
  | format {output : Toml.Table} {value : Toml.Value}
      (houtput : table.lookup "output" = some (.table output))
      (hvalue : output.lookup "format" = some value)
      (hwrong : ∀ format : Format, value ≠ .string format.name) : Wrong table
  | sentinels {output : Toml.Table} {value : Toml.Value}
      (houtput : table.lookup "output" = some (.table output))
      (hvalue : output.lookup "sentinels" = some value)
      (hwrong : ∀ shown : Bool, value ≠ .boolean shown) : Wrong table

/-- What checking a setting comes to. What is found under its key, if anything, stands for a value
of the setting, or it is wrong. -/
inductive Checked {α : Type} (encode : α → Toml.Value) (wrong : Toml.Value → ValueError) :
    Option Toml.Value → Except ValueError (Option α) → Prop
  | ok (setting : Option α) : Checked encode wrong (setting.map encode) (.ok setting)
  | error {value : Toml.Value} (h : ∀ a, value ≠ encode a) :
      Checked encode wrong (some value) (.error (wrong value))

section Checked

variable {α : Type} {encode : α → Toml.Value} {wrong : Toml.Value → ValueError}
  {found : Option Toml.Value} {result : Except ValueError (Option α)}

/-- A setting is in order if it is absent, or has one of its values. -/
theorem Checked.eq_ok_iff (h : Checked encode wrong found result) (hencode : encode.Injective)
    {setting : Option α} : result = .ok setting ↔ found = setting.map encode := by
  cases h with
  | ok actual =>
    rw [Except.ok.injEq]
    exact (Option.map_injective hencode).eq_iff.symm
  | @error value hwrong =>
    refine iff_of_false nofun fun heq => ?_
    obtain ⟨a, -, ha⟩ := Option.map_eq_some_iff.mp heq.symm
    exact hwrong a ha.symm

/-- A setting is wrong if it has another value. -/
theorem Checked.eq_error_iff (h : Checked encode wrong found result) {error : ValueError} :
    result = .error error ↔
      ∃ value, found = some value ∧ (∀ a, value ≠ encode a) ∧ error = wrong value := by
  cases h with
  | ok actual =>
    refine iff_of_false nofun ?_
    rintro ⟨value, hvalue, hwrong, -⟩
    obtain ⟨a, -, ha⟩ := Option.map_eq_some_iff.mp hvalue
    exact hwrong a ha.symm
  | @error value hwrong =>
    constructor
    · rintro ⟨⟩
      exact ⟨value, rfl, hwrong, rfl⟩
    · rintro ⟨_, ⟨⟩, -, rfl⟩
      rfl

end Checked

/-- The value that stands for a format in the settings. -/
def formatValue (format : Format) : Toml.Value := .string format.name

theorem formatValue_injective : formatValue.Injective := by
  intro format format' h
  have hname := Format.ofName?_eq_some_iff.mpr (Toml.Value.string.inj h)
  rw [Format.ofName?_eq_some_iff.mpr rfl] at hname
  exact (Option.some.inj hname).symm

theorem checked_formatOf (output : Toml.Table) :
    Checked formatValue .format (output.lookup "format") (formatOf output) := by
  unfold formatOf
  split
  next h => exact h ▸ .ok none
  next name h =>
    rw [h]
    split
    next format hname =>
      obtain rfl := Format.ofName?_eq_some_iff.mp hname
      exact .ok (some format)
    next hname =>
      refine .error fun format heq => ?_
      rw [Format.ofName?_eq_some_iff.mpr (Toml.Value.string.inj heq).symm] at hname
      cases hname
  next value hstring h =>
    rw [h]
    exact .error fun format heq => hstring _ heq

theorem checked_sentinelsOf (output : Toml.Table) :
    Checked .boolean .sentinels (output.lookup "sentinels") (sentinelsOf output) := by
  unfold sentinelsOf
  split
  next h => exact h ▸ .ok none
  next shown h => exact h ▸ .ok (some shown)
  next value hboolean h =>
    rw [h]
    exact .error fun shown heq => hboolean shown heq

/-- The table `output` in a table of settings. If there is none, or something else has this name,
the settings are those of an empty one. -/
def outputOf (table : Toml.Table) : Toml.Table :=
  match table.lookup "output" with
  | some (.table output) => output
  | _ => []

theorem ofTable_eq (table : Toml.Table) :
    ofTable table = do return ⟨← formatOf (outputOf table), ← sentinelsOf (outputOf table)⟩ := by
  unfold ofTable outputOf
  cases table.lookup "output" with
  | none => rfl
  | some value => cases value <;> rfl

/-- The settings of the output stand in a table of their own. -/
theorem lookup_outputOf_eq_some_iff {key : String} {value : Toml.Value} :
    (outputOf table).lookup key = some value ↔
      ∃ output, table.lookup "output" = some (.table output) ∧ output.lookup key = some value := by
  unfold outputOf
  cases table.lookup "output" with
  | none => simp
  | some value => cases value <;> simp

/-- The settings of a table are what stands in its table `output`. -/
theorem ofTable_eq_ok_iff {settings : Settings} :
    ofTable table = .ok settings ↔
      (outputOf table).lookup "format" = settings.format.map formatValue ∧
        (outputOf table).lookup "sentinels" = settings.sentinels.map .boolean := by
  rw [ofTable_eq, ← (checked_formatOf _).eq_ok_iff formatValue_injective,
    ← (checked_sentinelsOf _).eq_ok_iff fun _ _ => Toml.Value.boolean.inj]
  constructor
  · intro h
    obtain ⟨format, hformat, h⟩ := bind_eq_ok_iff.mp h
    obtain ⟨sentinels, hsentinels, ⟨⟩⟩ := bind_eq_ok_iff.mp h
    exact ⟨hformat, hsentinels⟩
  · rintro ⟨hformat, hsentinels⟩
    exact bind_eq_ok_iff.mpr ⟨_, hformat, bind_eq_ok_iff.mpr ⟨_, hsentinels, rfl⟩⟩

/-- The format is checked first, so the other setting matters only if the format is not wrong. -/
theorem ofTable_eq_error_iff {error : ValueError} :
    ofTable table = .error error ↔
      (∃ value, (outputOf table).lookup "format" = some value ∧
          (∀ format, value ≠ formatValue format) ∧ error = .format value) ∨
        (∃ format : Option Format, (outputOf table).lookup "format" = format.map formatValue) ∧
          ∃ value, (outputOf table).lookup "sentinels" = some value ∧
            (∀ shown, value ≠ .boolean shown) ∧ error = .sentinels value := by
  rw [ofTable_eq, bind_eq_error_iff, (checked_formatOf _).eq_error_iff,
    ← (checked_sentinelsOf _).eq_error_iff]
  simp only [← (checked_formatOf _).eq_ok_iff formatValue_injective]
  refine or_congr_right ⟨?_, ?_⟩
  · rintro ⟨format, hformat, h⟩
    rcases bind_eq_error_iff.mp h with hsentinels | ⟨_, _, ⟨⟩⟩
    exact ⟨⟨format, hformat⟩, hsentinels⟩
  · rintro ⟨⟨format, hformat⟩, hsentinels⟩
    exact ⟨format, hformat, bind_eq_error_iff.mpr (.inl hsentinels)⟩

/-- Wrong settings are an error, and nothing else is one. -/
theorem exists_ofTable_eq_error_iff : (∃ error, ofTable table = .error error) ↔ Wrong table := by
  simp only [ofTable_eq_error_iff]
  constructor
  · rintro ⟨error, ⟨value, hvalue, hwrong, -⟩ | ⟨-, value, hvalue, hwrong, -⟩⟩
    · obtain ⟨output, houtput, hlookup⟩ := lookup_outputOf_eq_some_iff.mp hvalue
      exact .format houtput hlookup hwrong
    · obtain ⟨output, houtput, hlookup⟩ := lookup_outputOf_eq_some_iff.mp hvalue
      exact .sentinels houtput hlookup hwrong
  · intro h
    cases h with
    | @format output value houtput hvalue hwrong =>
      have hlookup := lookup_outputOf_eq_some_iff.mpr ⟨output, houtput, hvalue⟩
      exact ⟨_, .inl ⟨value, hlookup, hwrong, rfl⟩⟩
    | @sentinels output value houtput hvalue hwrong =>
      have hlookup := lookup_outputOf_eq_some_iff.mpr ⟨output, houtput, hvalue⟩
      -- The format is looked at first, so it may be another error that is given.
      cases hformat : formatOf (outputOf table) with
      | error first => exact ⟨first, .inl ((checked_formatOf _).eq_error_iff.mp hformat)⟩
      | ok format =>
        have hfound := ((checked_formatOf _).eq_ok_iff formatValue_injective).mp hformat
        exact ⟨_, .inr ⟨⟨format, hfound⟩, value, hlookup, hwrong, rfl⟩⟩

/-- A table comes from a settings file, or it is empty. -/
theorem load_eq_ok_iff :
    load view path = .ok table ↔
      (∃ content, view path = .ok content ∧ Toml.parseBytes content = .ok table) ∨
        (∃ reason ∈ [PathError.notFound, .isDirectory, .notDirectory, .embeddedNull],
          view path = .error reason) ∧ table = [] := by
  unfold load
  cases view path with
  | ok content => simp [mapError_eq_ok_iff]
  | error reason => cases reason <;> simp [eq_comm]

/-- A settings file cannot be loaded if its path is too long, or if it is closed to the program, or
if its content is no document. -/
theorem load_eq_error_iff {error : LoadError} :
    load view path = .error error ↔
      (view path = .error .nameTooLong ∧ error = .pathTooLong (normalizePath path)) ∨
        (view path = .error .permissionDenied ∧ error = .permissionDenied (normalizePath path)) ∨
        ∃ content e, view path = .ok content ∧ Toml.parseBytes content = .error e ∧
          error = .document e := by
  unfold load
  cases view path with
  | ok content => simp [mapError_eq_error_iff, @eq_comm _ _ error]
  | error reason => cases reason <;> simp [@eq_comm _ _ error]

end Settings

/-! ### Files with expressions -/

namespace ExpressionList

variable {view : FileView} {given : CommandLine.Given String} {listed : List String}

/-- What a flag for files with expressions adds to the expressions: the lines that are kept from the
file of this name. -/
inductive Listed (view : FileView) : CommandLine.Given String → List String → Prop
  | file {name : String} {content : ByteArray} {listed : List String}
      (hname : view name = .ok content) (hlines : ofBytes? content = some listed) :
      Listed view (.value name) listed

/-- A file with expressions is read exactly if it lists something. -/
theorem loadGiven_eq_ok_iff : loadGiven view given = .ok listed ↔ Listed view given listed := by
  constructor
  · intro h
    cases given with
    | nothing => cases h
    | value name =>
      rw [loadGiven] at h
      unfold load at h
      split at h
      next => cases h
      next => cases h
      next content hname =>
        split at h
        next expressions hlines =>
          cases h
          exact .file hname hlines
        next => cases h
  · rintro ⟨hname, hlines⟩
    rw [loadGiven, load, hname]
    simp only [hlines]

/-- A file lists one list of expressions only. -/
theorem rightUnique_listed : Relator.RightUnique (Listed view) := by
  intro given listed listed' h h'
  rw [← loadGiven_eq_ok_iff] at h h'
  exact Except.ok.inj (h.symm.trans h')

/-- If all files can be read, so can each one of them. -/
theorem exists_listed_of_mem {files : List (CommandLine.Given String)} {lists : List (List String)}
    (h : List.Forall₂ (Listed view) files lists) (hmem : given ∈ files) :
    ∃ listed, Listed view given listed := by
  have hboth : List.Forall₂ (fun given listed =>
      (∃ listed, Listed view given listed) ∧ Listed view given listed) files lists :=
    h.imp fun _ listed hlisted => ⟨⟨listed, hlisted⟩, hlisted⟩
  exact ((List.forall₂_and_left _ _).mp hboth).1 given hmem

end ExpressionList

/-! ### Options -/

namespace Options

variable {view : FileView} {arguments : CommandLine.Arguments} {directory : String}
  {loaded : Except Settings.LoadError Toml.Table} {options : Options}

/-- There are options if the settings and all files are in order. -/
theorem resolveLoaded_eq_ok_iff :
    resolveLoaded view arguments loaded = .ok options ↔
      ∃ table settings lists, loaded = .ok table ∧ Settings.ofTable table = .ok settings ∧
        List.Forall₂ (ExpressionList.Listed view) arguments.files lists ∧
          options = merge arguments settings lists.flatten := by
  have hlists : ∀ lists, arguments.files.mapM (ExpressionList.loadGiven view) = .ok lists ↔
      List.Forall₂ (ExpressionList.Listed view) arguments.files lists := by
    intro lists
    simp only [mapM_eq_ok_iff, ExpressionList.loadGiven_eq_ok_iff]
  constructor
  · intro h
    obtain ⟨table, htable, h⟩ := bind_eq_ok_iff.mp h
    obtain ⟨settings, hsettings, h⟩ := bind_eq_ok_iff.mp h
    obtain ⟨lists, hfiles, ⟨⟩⟩ := bind_eq_ok_iff.mp h
    exact ⟨table, settings, lists, mapError_eq_ok_iff.mp htable, mapError_eq_ok_iff.mp hsettings,
      (hlists lists).mp hfiles, rfl⟩
  · rintro ⟨table, settings, lists, htable, hsettings, hfiles, rfl⟩
    refine bind_eq_ok_iff.mpr ⟨table, mapError_eq_ok_iff.mpr htable, ?_⟩
    refine bind_eq_ok_iff.mpr ⟨settings, mapError_eq_ok_iff.mpr hsettings, ?_⟩
    exact bind_eq_ok_iff.mpr ⟨lists, (hlists lists).mpr hfiles, rfl⟩

/-- Each check is made only if the ones before it pass. -/
theorem resolveLoaded_eq_error_iff {failure : Failure} :
    resolveLoaded view arguments loaded = .error failure ↔
      (∃ error, loaded = .error error ∧ error.failure = failure) ∨
      ∃ table, loaded = .ok table ∧
        ((∃ error, Settings.ofTable table = .error error ∧ error.failure = failure) ∨
          ∃ settings before given after, Settings.ofTable table = .ok settings ∧
            arguments.files = before ++ given :: after ∧
              (∀ given ∈ before, ∃ listed, ExpressionList.loadGiven view given = .ok listed) ∧
                ExpressionList.loadGiven view given = .error failure) := by
  constructor
  · intro h
    rcases bind_eq_error_iff.mp h with hloaded | ⟨table, hloaded, h⟩
    · exact .inl (mapError_eq_error_iff.mp hloaded)
    refine .inr ⟨table, mapError_eq_ok_iff.mp hloaded, ?_⟩
    rcases bind_eq_error_iff.mp h with hchecked | ⟨settings, hchecked, h⟩
    · exact .inl (mapError_eq_error_iff.mp hchecked)
    rcases bind_eq_error_iff.mp h with hlists | ⟨lists, _, hmerged⟩
    · obtain ⟨before, given, after, hfiles⟩ := mapM_eq_error_iff.mp hlists
      exact .inr ⟨settings, before, given, after, mapError_eq_ok_iff.mp hchecked, hfiles⟩
    · cases hmerged
  · rintro (hloaded | ⟨table, hloaded, hchecked |
      ⟨settings, before, given, after, hchecked, hfiles⟩⟩)
    · exact bind_eq_error_iff.mpr (.inl (mapError_eq_error_iff.mpr hloaded))
    · refine bind_eq_error_iff.mpr (.inr ⟨table, mapError_eq_ok_iff.mpr hloaded, ?_⟩)
      exact bind_eq_error_iff.mpr (.inl (mapError_eq_error_iff.mpr hchecked))
    · refine bind_eq_error_iff.mpr (.inr ⟨table, mapError_eq_ok_iff.mpr hloaded, ?_⟩)
      refine bind_eq_error_iff.mpr (.inr ⟨settings, mapError_eq_ok_iff.mpr hchecked, ?_⟩)
      exact bind_eq_error_iff.mpr (.inl (mapM_eq_error_iff.mpr ⟨before, given, after, hfiles⟩))

/-- There are options exactly if the settings and all files with expressions are in order. -/
theorem resolve_eq_ok_iff :
    resolve view arguments directory = .ok options ↔
      ∃ table settings lists,
        Settings.load view (arguments.settingsPath directory) = .ok table ∧
          Settings.ofTable table = .ok settings ∧
            List.Forall₂ (ExpressionList.Listed view) arguments.files lists ∧
              options = merge arguments settings lists.flatten :=
  resolveLoaded_eq_ok_iff

end Options

end CucumberExpressions
