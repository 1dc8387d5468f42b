import CucumberExpressions.Proofs.Except
import CucumberExpressions.Toml.Document

/-!
# What can go wrong with a TOML document

Once the content of a file is known to be text, there are two ways left in which it can fail to be a
TOML document: it breaks the rules, or it has an integer with more digits than are read. Each reader
fails in no other way, if it does, because the readers that it calls do not. A value that has been
read may still be impossible to show, which is the case exactly if it has too long an integer in it.

## Main definitions

* `Toml.ReadError.OfText` — the errors that a text can give
* `Toml.Value.integers` — the integers in a value

## Main results

* `Toml.parse_failsAsText` — reading a text gives no other errors
* `Toml.parseBytes_eq_notUtf8_iff` — a file gives the error that it is no text only if it is none
* `Toml.Value.show?_eq_none_iff` — which values cannot be shown
-/

namespace CucumberExpressions.Toml

/-- The errors that a text can give: it breaks the rules of TOML, or it has an integer in decimal
with more digits than are read. -/
inductive ReadError.OfText : ReadError → Prop
  | malformed : OfText .malformed
  | integerTooLong {digits : Nat} (h : longestDecimal < digits) : OfText (.integerTooLong digits)

/-- A result that is an error that a text can give, if it is one. -/
def FailsAsText {α : Type} (result : Except ReadError α) : Prop :=
  ∀ error, result = .error error → error.OfText

namespace FailsAsText

variable {α β : Type}

theorem ok (a : α) : FailsAsText (.ok a) := by
  intro error h
  cases h

theorem malformed : FailsAsText (.error .malformed : Except ReadError α) := by
  intro error h
  cases h
  exact .malformed

/-- Two steps fail as a text does if each of them does. -/
theorem bind {result : Except ReadError α} {f : α → Except ReadError β}
    (h : FailsAsText result) (hf : ∀ a, FailsAsText (f a)) : FailsAsText (result >>= f) := by
  intro error herror
  rcases bind_eq_error_iff.mp herror with hfirst | ⟨a, _, hsecond⟩
  · exact h error hfirst
  · exact hf a error hsecond

end FailsAsText

open FailsAsText

/-! ### Scalars -/

theorem Number.value_failsAsText (number : Number) : FailsAsText number.value := by
  cases number with
  | based value => exact ok _
  | float negative decimal => exact ok _
  | whole negative digits =>
    rw [value]
    split
    next hlong =>
      intro error h
      cases h
      exact .integerTooLong hlong
    next => exact ok _

theorem readPoint_failsAsText (text : List Char) : FailsAsText (readPoint text) := by
  unfold readPoint
  split
  next => split <;> first | exact ok _ | exact malformed
  next =>
    split
    next => exact ok _
    next =>
      split
      next number rest _ => exact number.value_failsAsText.bind fun value => ok _
      next => split <;> first | exact ok _ | exact malformed

theorem readText_failsAsText (text : List Char) : FailsAsText (readText text) := by
  unfold readText
  split <;> first | exact ok _ | exact malformed

theorem readScalar_failsAsText (text : List Char) : FailsAsText (readScalar text) := by
  unfold readScalar
  split <;>
    first | exact ok _ | exact readText_failsAsText _ | exact readPoint_failsAsText _

/-! ### Keys and comments -/

theorem skipComment_failsAsText (text : List Char) : FailsAsText (skipComment text) := by
  unfold skipComment
  split
  next => split <;> first | exact ok _ | exact malformed
  next => exact ok _

theorem readKeyPart_failsAsText (text : List Char) : FailsAsText (readKeyPart text) := by
  unfold readKeyPart
  split
  next => split <;> first | exact ok _ | exact malformed
  next => exact ok _

theorem readKeyParts_failsAsText (steps : Nat) (text : List Char) :
    FailsAsText (readKeyParts steps text) := by
  induction steps generalizing text with
  | zero => exact malformed
  | succ steps ih =>
    rw [readKeyParts]
    apply (readKeyPart_failsAsText text).bind
    intro (part, text)
    dsimp only
    split
    next => exact (ih _).bind fun _ => ok _
    next => exact ok _

theorem readKey_failsAsText (text : List Char) : FailsAsText (readKey text) :=
  readKeyParts_failsAsText _ text

theorem readKeyAndEquals_failsAsText (text : List Char) :
    FailsAsText (readKeyAndEquals text) := by
  unfold readKeyAndEquals
  apply (readKey_failsAsText text).bind
  intro (key, text)
  dsimp only
  split <;> first | exact ok _ | exact malformed

theorem skipInArray_failsAsText (steps : Nat) (text : List Char) :
    FailsAsText (skipInArray steps text) := by
  induction steps generalizing text with
  | zero => exact ok _
  | succ steps ih =>
    rw [skipInArray]
    split
    next => exact (skipComment_failsAsText _).bind ih
    next => exact ok _

/-! ### Values -/

/-- Arrays and tables in values are read by three functions that call each other. -/
theorem readNested_readItems_readEntries_failsAsText (steps : Nat) :
    (∀ text, FailsAsText (readNested steps text)) ∧
      (∀ text, FailsAsText (readItems steps text)) ∧
      ∀ entries text, FailsAsText (readEntries steps entries text) := by
  -- The three readers call each other, each time with one step less.
  induction steps with
  | zero => exact ⟨fun _ => malformed, fun _ => malformed, fun _ _ => malformed⟩
  | succ steps ih =>
    obtain ⟨hnested, hitems, hentries⟩ := ih
    refine ⟨fun text => ?nested, fun text => ?items, fun entries text => ?entries⟩
    case nested =>
      unfold readNested
      split
      next rest =>
        apply (skipInArray_failsAsText steps rest).bind
        intro rest
        exact (hitems rest).bind fun _ => ok _
      next rest =>
        split
        next => exact ok _
        next rest _ => exact (hentries [] _).bind fun _ => ok _
      next => exact readScalar_failsAsText _
    case items =>
      unfold readItems
      split
      next => exact ok _
      next =>
        apply (hnested _).bind
        intro (item, rest)
        apply (skipInArray_failsAsText steps rest).bind
        intro rest
        split
        next => exact ok _
        next rest =>
          apply (skipInArray_failsAsText steps rest).bind
          intro rest
          exact (hitems rest).bind fun _ => ok _
        next => exact malformed
    case entries =>
      unfold readEntries
      apply (readKeyAndEquals_failsAsText text).bind
      intro (key, text)
      apply (hnested text).bind
      intro (value, text)
      dsimp only
      split
      next => exact malformed
      next entries _ =>
        split
        next => exact ok _
        next rest _ => exact hentries entries _
        next => exact malformed

theorem readValue_failsAsText (text : List Char) : FailsAsText (readValue text) :=
  (readNested_readItems_readEntries_failsAsText _).1 text

/-! ### Statements -/

namespace Draft

theorem enter_failsAsText (draft : Draft) (header : List String) (entries : Option Entries) :
    FailsAsText (draft.enter header entries) := by
  cases entries with
  | none => exact malformed
  | some entries => exact ok _

theorem readArrayHeader_failsAsText (draft : Draft) (text : List Char) :
    FailsAsText (draft.readArrayHeader text) := by
  unfold readArrayHeader
  apply (readKey_failsAsText _).bind
  intro (header, text)
  apply (enter_failsAsText draft header _).bind
  intro draft
  split <;> first | exact ok _ | exact malformed

theorem readHeader_failsAsText (draft : Draft) (text : List Char) :
    FailsAsText (draft.readHeader text) := by
  unfold readHeader
  apply (readKey_failsAsText _).bind
  intro (header, text)
  apply (enter_failsAsText draft header _).bind
  intro draft
  split <;> first | exact ok _ | exact malformed

theorem readAssignment_failsAsText (draft : Draft) (text : List Char) :
    FailsAsText (draft.readAssignment text) := by
  unfold readAssignment
  apply (readKeyAndEquals_failsAsText text).bind
  intro (key, text)
  apply (readValue_failsAsText text).bind
  intro (value, text)
  dsimp only
  split <;> first | exact ok _ | exact malformed

theorem readStatement_failsAsText (draft : Draft) (text : List Char) :
    FailsAsText (draft.readStatement text) := by
  unfold readStatement
  split
  next => exact ok _
  next => exact ok _
  next => exact ok _
  next rest => exact draft.readArrayHeader_failsAsText rest
  next rest _ => exact draft.readHeader_failsAsText rest
  next =>
    split
    next => exact draft.readAssignment_failsAsText _
    next => exact malformed

theorem readLines_failsAsText (steps : Nat) (draft : Draft) (text : List Char) :
    FailsAsText (readLines steps draft text) := by
  induction steps generalizing draft text with
  | zero => exact malformed
  | succ steps ih =>
    rw [readLines]
    apply (draft.readStatement_failsAsText _).bind
    intro (draft, text)
    apply (skipComment_failsAsText _).bind
    intro text
    split
    next => exact ok _
    next text => exact ih draft text
    next => exact malformed

end Draft

/-- A text that is not read as a document fails as texts do. -/
theorem parse_failsAsText (text : List Char) : FailsAsText (parse text) := by
  unfold parse
  exact (Draft.readLines_failsAsText _ _ _).bind fun _ => ok _

/-- A file gives the error that it is no text only if it is none. -/
theorem parseBytes_eq_notUtf8_iff (content : ByteArray) :
    parseBytes content = .error .notUtf8 ↔ String.fromUTF8? content = none := by
  unfold parseBytes
  constructor
  · intro h
    cases htext : String.fromUTF8? content with
    | none => rfl
    | some text =>
      rw [htext] at h
      cases parse_failsAsText text.toList _ h
  · intro h
    rw [h]

/-- A file has an integer that is too long only if its text has one. -/
theorem parseBytes_eq_integerTooLong_iff {content : ByteArray} {digits : Nat} :
    parseBytes content = .error (.integerTooLong digits) ↔
      ∃ text, String.fromUTF8? content = some text ∧
        parse text.toList = .error (.integerTooLong digits) := by
  unfold parseBytes
  cases String.fromUTF8? content with
  | some text => simp
  | none => simp

/-! ### Showing a value -/

namespace Value

mutual

/-- The integers in a value. -/
def integers : Value → List Int
  | .integer value => [value]
  | .array items => integersOfItems items
  | .table entries => integersOfEntries entries
  | _ => []

/-- The integers in the items of an array. -/
def integersOfItems : List Value → List Int
  | [] => []
  | item :: items => integers item ++ integersOfItems items

/-- The integers in an entry of a table. -/
def integersOfEntry : String × Value → List Int
  | (_, value) => integers value

/-- The integers in the entries of a table. -/
def integersOfEntries : List (String × Value) → List Int
  | [] => []
  | entry :: entries => integersOfEntry entry ++ integersOfEntries entries

end

/-- Whether an integer has more digits than are shown. -/
def IsTooLong (value : Int) : Prop := Nat.pow 10 longestDecimal ≤ value.natAbs

/-- An integer is not shown exactly if it has too many digits. -/
theorem showInteger?_eq_none_iff (value : Int) : showInteger? value = none ↔ IsTooLong value := by
  unfold showInteger?
  split
  next h => exact iff_of_false (Option.some_ne_none _) (Nat.not_le_of_lt h)
  next h => exact iff_of_true rfl (Nat.le_of_not_lt h)

mutual

/-- A value is not shown exactly if one of the integers in it is not. -/
theorem showInner?_eq_none_iff :
    ∀ value : Value, showInner? value = none ↔ ∃ n ∈ integers value, IsTooLong n
  | .boolean _ => by simp [showInner?, integers]
  | .integer n => by simp [showInner?, integers, showInteger?_eq_none_iff]
  | .float _ => by simp [showInner?, integers]
  | .string _ => by simp [showInner?, integers]
  | .date _ => by simp [showInner?, integers]
  | .time _ => by simp [showInner?, integers]
  | .dateTime _ _ _ => by simp [showInner?, integers]
  | .array items => by
    rw [integers, ← showItems?_eq_none_iff items, showInner?]
    cases showItems? items <;> simp
  | .table entries => by
    rw [integers, ← showEntries?_eq_none_iff entries, showInner?]
    cases showEntries? entries <;> simp

theorem showItems?_eq_none_iff :
    ∀ items : List Value, showItems? items = none ↔ ∃ n ∈ integersOfItems items, IsTooLong n
  | [] => by simp [showItems?, integersOfItems]
  | item :: items => by
    rw [integersOfItems, showItems?]
    simp only [List.mem_append, or_and_right, exists_or]
    rw [← showInner?_eq_none_iff item, ← showItems?_eq_none_iff items]
    cases showInner? item <;> cases showItems? items <;> simp

theorem showEntry?_eq_none_iff :
    ∀ entry : String × Value,
      showEntry? entry = none ↔ ∃ n ∈ integersOfEntry entry, IsTooLong n
  | (_, value) => by
    rw [integersOfEntry, ← showInner?_eq_none_iff value, showEntry?]
    cases showInner? value <;> simp

theorem showEntries?_eq_none_iff :
    ∀ entries : List (String × Value),
      showEntries? entries = none ↔ ∃ n ∈ integersOfEntries entries, IsTooLong n
  | [] => by simp [showEntries?, integersOfEntries]
  | entry :: entries => by
    rw [integersOfEntries, showEntries?]
    simp only [List.mem_append, or_and_right, exists_or]
    rw [← showEntry?_eq_none_iff entry, ← showEntries?_eq_none_iff entries]
    cases showEntry? entry <;> cases showEntries? entries <;> simp

end

/-- A value cannot be shown exactly if it has too long an integer in it. -/
theorem show?_eq_none_iff (value : Value) :
    value.show? = none ↔ ∃ n ∈ value.integers, IsTooLong n := by
  rw [← showInner?_eq_none_iff]
  cases value with
  | string | date | time | dateTime =>
    exact iff_of_false (Option.some_ne_none _) (by simp [showInner?])
  | _ => rfl

end Value

end CucumberExpressions.Toml
