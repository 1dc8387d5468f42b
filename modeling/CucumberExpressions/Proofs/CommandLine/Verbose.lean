import CucumberExpressions.CommandLine.Arguments
import CucumberExpressions.Proofs.Except

/-!
# The flag for the log in front

The flag that asks for the log can stand in front of any command line. The words after it are read
as they would be without it, and what they ask for is the same apart from the log.

## Main definitions

* `CommandLine.Arguments.verbosely` — the same arguments with the log
* `CommandLine.Reading.verbosely` — the same reading of a command line with the log

## Main results

* `CommandLine.Reading.step_verbosely` — a word is read in the same way with the log
* `CommandLine.Arguments.ofWords_cons_verbose` — so is a command line after the flag
-/

namespace CucumberExpressions.CommandLine

/-- The same arguments with the log. -/
def Arguments.verbosely (arguments : Arguments) : Arguments := { arguments with verbose := true }

/-- The same reading with the log. -/
def Reading.verbosely (reading : Reading) : Reading :=
  { reading with arguments := reading.arguments.verbosely }

namespace Arguments

variable {arguments arguments' : Arguments}

/-- Raising a flag does the same to the other arguments if the log is asked for. -/
theorem raise_verbosely {switch : Switch} (h : arguments.raise switch = .ok arguments') :
    arguments.verbosely.raise switch = .ok arguments'.verbosely := by
  cases switch <;> cases h <;> rfl

/-- Giving a value to a flag does the same to the other arguments if the log is asked for. -/
theorem give_verbosely {parameter : Parameter} {given : Given String}
    (h : arguments.give parameter given = .ok arguments') :
    arguments.verbosely.give parameter given = .ok arguments'.verbosely := by
  cases parameter with
  | file => cases h; rfl
  | config => cases h; rfl
  | format =>
    obtain ⟨format, hformat, ⟨⟩⟩ := bind_eq_ok_iff.mp h
    exact bind_eq_ok_iff.mpr ⟨format, hformat, rfl⟩

end Arguments

namespace Reading

variable {reading reading' : Reading}

theorem interrupt_verbosely (reading : Reading) :
    reading.verbosely.interrupt = reading.interrupt.verbosely := by
  obtain ⟨arguments, stage, awaiting, leftOver⟩ := reading
  cases stage <;> rfl

theorem raiseAll_verbosely {switches : List Switch} (h : reading.raiseAll switches = .ok reading') :
    reading.verbosely.raiseAll switches = .ok reading'.verbosely := by
  obtain ⟨arguments, harguments, ⟨⟩⟩ := bind_eq_ok_iff.mp h
  exact bind_eq_ok_iff.mpr
    ⟨_, foldlM_eq_ok_of_simulates Arguments.raise_verbosely harguments, rfl⟩

theorem give_verbosely {parameter : Parameter} {value : String}
    (h : reading.give parameter value = .ok reading') :
    reading.verbosely.give parameter value = .ok reading'.verbosely := by
  obtain ⟨arguments, harguments, ⟨⟩⟩ := bind_eq_ok_iff.mp h
  exact bind_eq_ok_iff.mpr ⟨_, Arguments.give_verbosely harguments, rfl⟩

theorem cluster_verbosely {cluster : Except UsageError Cluster}
    (h : reading.cluster cluster = .ok reading') :
    reading.verbosely.cluster cluster = .ok reading'.verbosely := by
  cases cluster with
  | error error => cases h
  | ok cluster =>
    obtain ⟨raised, ending⟩ := cluster
    cases ending with
    | complete =>
      rw [Reading.cluster, interrupt_verbosely]
      exact raiseAll_verbosely h
    | awaiting parameter =>
      cases h
      rw [Reading.cluster, interrupt_verbosely]
      rfl
    | given parameter value =>
      obtain ⟨next, hnext, h⟩ := bind_eq_ok_iff.mp h
      rw [Reading.cluster, interrupt_verbosely]
      exact bind_eq_ok_iff.mpr ⟨_, raiseAll_verbosely hnext, give_verbosely h⟩

/-- A word is read in the same way with the log. -/
theorem step_verbosely {word : String × Word} (h : reading.step word = .ok reading') :
    reading.verbosely.step word = .ok reading'.verbosely := by
  obtain ⟨word, kind⟩ := word
  obtain ⟨arguments, stage, awaiting, leftOver⟩ := reading
  -- What a word means depends on whether a flag still waits for its value, and not on the log.
  cases awaiting with
  | some awaited =>
    cases kind with
    | plain =>
      obtain ⟨next, hnext, h⟩ := bind_eq_ok_iff.mp h
      exact bind_eq_ok_iff.mpr ⟨_, raiseAll_verbosely hnext, give_verbosely h⟩
    | _ => cases h
  | none =>
    cases kind with
    | plain => cases h; cases stage <;> rfl
    | separator => cases h; cases stage <;> rfl
    | unknown => cases h; cases stage <;> rfl
    | short flag attached => exact cluster_verbosely h
    | long flag value => exact cluster_verbosely h

/-- What is left at the end of the words does not depend on the log. -/
theorem finish_verbosely {arguments : Arguments} (h : reading.finish = .ok arguments) :
    reading.verbosely.finish = .ok arguments.verbosely := by
  obtain ⟨arguments, stage, awaiting, leftOver⟩ := reading
  cases awaiting with
  | some awaited => cases h
  | none =>
    cases leftOver with
    | nil => cases h; rfl
    | cons word words => cases h

end Reading

/-- A command line is read in the same way after the flag for the log. -/
theorem Arguments.ofWords_cons_verbose {words : List String} {arguments : Arguments}
    (h : ofWords words = .ok arguments) :
    ofWords ("-v" :: words) = .ok arguments.verbosely := by
  unfold ofWords at h
  cases hwords : readWords words with
  | error error => rw [hwords] at h; cases h
  | ok readings =>
    rw [hwords] at h
    obtain ⟨reading, hreading, hfinish⟩ := bind_eq_ok_iff.mp h
    have hflag : readWords ("-v" :: words) =
        .ok (("-v", .short (.switch .verbose) none) :: readings) := by
      rw [readWords, if_neg (by decide), hwords]
      rfl
    -- The flag is acted on first, and brings the reading of the other words under way with the log.
    have hstart : Reading.step {} ("-v", .short (.switch .verbose) none) =
        .ok (Reading.verbosely {}) := rfl
    rw [ofWords, hflag]
    refine bind_eq_ok_iff.mpr ⟨_, ?_, Reading.finish_verbosely hfinish⟩
    rw [List.foldlM_cons]
    exact bind_eq_ok_iff.mpr
      ⟨_, hstart, foldlM_eq_ok_of_simulates Reading.step_verbosely hreading⟩

end CucumberExpressions.CommandLine
