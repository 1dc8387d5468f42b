import CucumberExpressions.CommandLine.Arguments
import CucumberExpressions.Proofs.Except
import Mathlib.Data.List.Induction

/-!
# Choosing every setting on the command line

Every setting can be chosen on the command line, and every text can be given as an expression. A
long flag with an equals sign takes what stands behind the sign as its value, whatever it looks
like, and behind the separator nothing is a flag any more. Choices can be made in any order and
again. Of the files all are kept, and of the format and the settings file what is chosen last.

The only value that cannot be given in this way is that of two dashes, which is dropped.

## Main definitions

* `CommandLine.Choice` — the choice of a setting
* `CommandLine.Choice.word` — the word that makes it
* `CommandLine.Arguments.ofChoices` — what a list of choices asks for

## Main results

* `CommandLine.Choice.read_word` — how the word of a choice is read
* `CommandLine.Reading.step_choice` — what it does to the arguments
* `CommandLine.Arguments.ofWords_choices` — choices and expressions on a command line
-/

namespace CucumberExpressions.CommandLine

/-- The choice of a setting: it names a file with expressions or the settings file, chooses the
format of the report, leaves the sentinels out, or logs every expression. -/
inductive Choice
  | file (name : String) (ne : name ≠ "--")
  | config (name : String) (ne : name ≠ "--")
  | format (chosen : Format)
  | noSentinels
  | verbose
  deriving DecidableEq

namespace Choice

/-- The word that makes a choice. -/
def word : Choice → String
  | file name _ => "--file=" ++ name
  | config name _ => "--config=" ++ name
  | .format chosen => "--format=" ++ chosen.name
  | noSentinels => "--no-sentinels"
  | verbose => "--verbose"

/-- The file with expressions that a choice names. -/
def file? : Choice → Option String
  | file name _ => some name
  | _ => none

/-- The settings file that a choice names. -/
def config? : Choice → Option String
  | config name _ => some name
  | _ => none

/-- The format that is chosen. -/
def format? : Choice → Option Format
  | .format chosen => some chosen
  | _ => none

/-- How the word of a choice is read. -/
def reading : Choice → Word
  | file name _ => .long (.parameter .file) (some name.toList)
  | config name _ => .long (.parameter .config) (some name.toList)
  | .format chosen => .long (.parameter .format) (some chosen.name.toList)
  | noSentinels => .long (.switch .noSentinels) none
  | verbose => .long (.switch .verbose) none

end Choice

/-! ### Reading the words -/

/-- Only the first equals sign counts. -/
theorem splitAtEquals_append {spelling : List Char} (h : '=' ∉ spelling) (value : List Char) :
    splitAtEquals (spelling ++ '=' :: value) = (spelling, some value) := by
  have hbefore : ∀ c ∈ spelling, decide (c ≠ '=') = true := by
    intro c hc
    refine decide_eq_true ?_
    rintro rfl
    exact h hc
  have hdrop : (spelling ++ '=' :: value).dropWhile (fun c => decide (c ≠ '=')) = '=' :: value := by
    rw [List.dropWhile_append_of_pos hbefore]
    rfl
  have htake : (spelling ++ '=' :: value).takeWhile (fun c => decide (c ≠ '=')) = spelling := by
    rw [List.takeWhile_append_of_pos hbefore]
    exact List.append_nil spelling
  rw [splitAtEquals, hdrop, htake]

/-- A long flag takes what stands behind the equals sign, whatever it looks like. -/
theorem Word.read_long_append {spelling : List Char} {flag : Flag}
    (h : '=' ∉ '-' :: '-' :: spelling) (hflag : flagOf? ('-' :: '-' :: spelling) = some flag)
    (value : List Char) :
    Word.read ('-' :: '-' :: spelling ++ '=' :: value) = .ok (.long flag (some value)) := by
  have hsplit := splitAtEquals_append h value
  rw [List.cons_append, List.cons_append] at hsplit ⊢
  rw [Word.read, Word.readLong, hsplit]
  dsimp only
  rw [hflag]

namespace Choice

/-- The word of a choice is read as this choice. -/
theorem read_word (choice : Choice) : Word.read choice.word.toList = .ok choice.reading := by
  cases choice with
  | file name =>
    rw [word, String.toList_append]
    have hflag : flagOf? ('-' :: '-' :: "file".toList) = some (.parameter .file) := by decide
    exact Word.read_long_append (by decide) hflag name.toList
  | config name =>
    rw [word, String.toList_append]
    have hflag : flagOf? ('-' :: '-' :: "config".toList) = some (.parameter .config) := by decide
    exact Word.read_long_append (by decide) hflag name.toList
  | format chosen => cases chosen <;> decide
  | noSentinels => decide
  | verbose => decide

/-- No choice is made by the separator. -/
theorem word_ne (choice : Choice) : choice.word ≠ "--" := by
  intro h
  have hread := choice.read_word
  have hambiguous : ∀ flag value, Word.read "--".toList ≠ .ok (.long flag value) := by
    intro flag value hlong
    cases hlong
  rw [h] at hread
  cases choice <;> exact hambiguous _ _ hread

end Choice

/-- Behind the separator nothing is a flag, and before it the choices are read. -/
theorem readWords_choices (choices : List Choice) (expressions : List String) :
    readWords (choices.map Choice.word ++ "--" :: expressions) =
      .ok (choices.map (fun choice => (choice.word, choice.reading)) ++
        ("--", .separator) :: expressions.map fun word => (word, .plain)) := by
  induction choices with
  | nil => rfl
  | cons choice choices ih =>
    rw [List.map_cons, List.cons_append, readWords, if_neg choice.word_ne, choice.read_word, ih]
    rfl

/-! ### Acting on the words -/

namespace Arguments

/-- The arguments after a choice. -/
def choose (arguments : Arguments) : Choice → Arguments
  | .file name _ => { arguments with files := arguments.files ++ [.value name] }
  | .config name _ => { arguments with config := some (.value name) }
  | .format chosen => { arguments with format := some (.value chosen) }
  | .noSentinels => { arguments with noSentinels := true }
  | .verbose => { arguments with verbose := true }

/-- What a list of choices asks for. -/
def ofChoices (choices : List Choice) : Arguments where
  files := (choices.filterMap Choice.file?).map .value
  format := (choices.filterMap Choice.format?).getLast?.map .value
  noSentinels := choices.contains .noSentinels
  config := (choices.filterMap Choice.config?).getLast?.map .value
  verbose := choices.contains .verbose

/-- A choice is added to those before it, or takes the place of one of them. -/
theorem ofChoices_append_singleton (choices : List Choice) (choice : Choice) :
    ofChoices (choices ++ [choice]) = (ofChoices choices).choose choice := by
  cases choice <;>
    simp [ofChoices, choose, Choice.file?, Choice.config?, Choice.format?]

end Arguments

/-- A value other than two dashes is given as it is. -/
theorem Given.ofValue_ofList_toList {value : String} (ne : value ≠ "--") :
    ofValue (String.ofList value.toList) = .value value := by
  rw [String.ofList_toList]
  exact if_neg ne

namespace Reading

/-- The word of a choice makes this choice, and changes nothing else. -/
theorem step_choice (arguments : Arguments) (choice : Choice) :
    step { arguments } (choice.word, choice.reading) =
      .ok { arguments := arguments.choose choice } := by
  cases choice with
  | file name ne =>
    rw [Arguments.choose, ← Given.ofValue_ofList_toList ne]
    rfl
  | config name ne =>
    rw [Arguments.choose, ← Given.ofValue_ofList_toList ne]
    rfl
  | format chosen => cases chosen <;> rfl
  | noSentinels => rfl
  | verbose => rfl

/-- The words of choices are acted on in their order. -/
theorem foldlM_step_choices (choices : List Choice) :
    (choices.map fun choice => (choice.word, choice.reading)).foldlM step {} =
      .ok { arguments := .ofChoices choices } := by
  induction choices using List.reverseRecOn with
  | nil => rfl
  | append_singleton choices choice ih =>
    rw [List.map_append, List.foldlM_append, Arguments.ofChoices_append_singleton]
    refine bind_eq_ok_iff.mpr ⟨_, ih, ?_⟩
    exact bind_eq_ok_iff.mpr ⟨_, step_choice _ choice, rfl⟩

/-- Behind the separator every word is an expression. -/
theorem foldlM_step_plain (arguments : Arguments) (words : List String) :
    (words.map fun word => (word, Word.plain)).foldlM step { arguments, stage := .within } =
      .ok { arguments := { arguments with expressions := arguments.expressions ++ words }
            stage := .within } := by
  induction words generalizing arguments with
  | nil => rw [List.append_nil]; rfl
  | cons word words ih =>
    refine bind_eq_ok_iff.mpr ⟨_, rfl, (ih _).trans ?_⟩
    rw [List.append_assoc]
    rfl

end Reading

/-- **Choices.** Every list of choices can be made on the command line, in any order and with any
values, and every list of texts can be given as the expressions after the separator, even texts that
look like flags or like the separator itself. -/
theorem Arguments.ofWords_choices (choices : List Choice) (expressions : List String) :
    ∃ arguments, ofWords (choices.map Choice.word ++ "--" :: expressions) = .ok arguments ∧
      arguments.expressions = expressions ∧
      arguments.files = (choices.filterMap Choice.file?).map .value ∧
      arguments.format = (choices.filterMap Choice.format?).getLast?.map .value ∧
      arguments.config = (choices.filterMap Choice.config?).getLast?.map .value ∧
      (arguments.noSentinels = true ↔ .noSentinels ∈ choices) ∧
      (arguments.verbose = true ↔ .verbose ∈ choices) := by
  refine ⟨{ ofChoices choices with expressions := expressions }, ?_, rfl, rfl, rfl, rfl,
    List.contains_iff_mem, List.contains_iff_mem⟩
  rw [ofWords, readWords_choices]
  refine bind_eq_ok_iff.mpr ⟨{
    arguments := { ofChoices choices with expressions := expressions }, stage := .within }, ?_, rfl⟩
  rw [List.foldlM_append]
  refine bind_eq_ok_iff.mpr ⟨_, Reading.foldlM_step_choices choices, ?_⟩
  -- The separator itself is no expression.
  exact bind_eq_ok_iff.mpr ⟨_, rfl, Reading.foldlM_step_plain (ofChoices choices) expressions⟩

end CucumberExpressions.CommandLine
