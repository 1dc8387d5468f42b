import CucumberExpressions.Proofs.Json.Scalar

/-!
# Reading JSON

A reader for whole JSON texts, which reads a text exactly if it is one, and gives what it stands
for. So a text stands for at most one value, however it is read.

The values inside a value are read by the reader itself, one level further down. A text cannot have
more levels than characters, so the number of levels is a bound for the recursion that is never
reached.

## Main definitions

* `Json.readValue` — reads a value with a limited number of levels
* `Json.read?` — the value that a text stands for

## Main results

* `Json.read?_eq_some_iff` — the texts that are read are the spellings of what is read
* `Json.Spells.unique` — a text stands for one value only
-/

namespace CucumberExpressions.Json

variable {α β : Type} {text rest space : List Char}

/-! ### Readers made of readers -/

/-- Reads something with white space around it. -/
def padded (read : Reader α) : Reader α := fun text => do
  let (a, rest) ← read (skipSpace text)
  return (a, skipSpace rest)

/-- Reads one or more items with commas between them, up to the bracket that closes them. -/
def readItems (read : Reader α) (close : Char) : Nat → Reader (List α)
  | 0, _ => none
  | steps + 1, text => do
    let (item, rest) ← read text
    match rest with
    | ',' :: rest =>
      let (items, rest) ← readItems read close steps rest
      return (item :: items, rest)
    | c :: rest => if c = close then some ([item], rest) else none
    | [] => none

/-- Reads any number of items with commas between them, up to the bracket that closes them. -/
def readSeries (read : Reader α) (close : Char) : Reader (List α) := fun text =>
  if (skipSpace text).head? = some close then some ([], (skipSpace text).tail)
  else readItems read close text.length text

/-- Reads a member of an object. -/
def readMember (read : Reader Value) : Reader (String × Value) := fun text => do
  let (key, rest) ← padded readString text
  match rest with
  | ':' :: rest =>
    let (value, rest) ← read rest
    return ((key, value), rest)
  | _ => none

/-- Reads a value without white space around it, given how to read the values inside it. -/
def readBare (read : Reader Value) : Reader Value
  | '[' :: rest => do
    let (items, rest) ← readSeries read ']' rest
    return (.array items, rest)
  | '\x7b' :: rest => do
    let (members, rest) ← readSeries (readMember read) '\x7d' rest
    return (.object members, rest)
  | '\x22' :: rest => do
    let (value, rest) ← readString ('\x22' :: rest)
    return (.string value, rest)
  | 'n' :: 'u' :: 'l' :: 'l' :: rest => some (.null, rest)
  | 't' :: 'r' :: 'u' :: 'e' :: rest => some (.boolean true, rest)
  | 'f' :: 'a' :: 'l' :: 's' :: 'e' :: rest => some (.boolean false, rest)
  | text => do
    let (numeral, rest) ← readNumeral text
    return (.number numeral.value, rest)

/-- Reads a value that has fewer than the given number of levels. -/
def readValue : Nat → Reader Value
  | 0 => fun _ => none
  | levels + 1 => padded (readBare (readValue levels))

/-- The value that a text stands for, if it is a JSON text. -/
def read? (text : List Char) : Option Value :=
  match readValue (text.length + 1) text with
  | some (value, []) => some value
  | _ => none

/-! ### What is read is spelled -/

/-- What is read with white space around it is read without it. -/
theorem exists_of_padded {read : Reader α} {a : α} (h : padded read text = some (a, rest)) :
    ∃ before after core rest', IsSpaces before ∧ IsSpaces after ∧
      read core = some (a, rest') ∧ text = before ++ core ∧ rest' = after ++ rest := by
  obtain ⟨⟨a', rest'⟩, hread, h⟩ := Option.bind_eq_some_iff.mp h
  cases h
  obtain ⟨before, hbefore, htext⟩ := exists_eq_append_skipSpace text
  obtain ⟨after, hafter, hrest⟩ := exists_eq_append_skipSpace rest'
  exact ⟨before, after, _, rest', hbefore, hafter, hread, htext, hrest⟩

section Series

variable {read : Reader α} {close : Char} {item : β → α} {spelling : β → List Char}
  {Written : β → Prop} {items : List α}

/-- What is read as items has been written as items. -/
theorem exists_of_readItems
    (hread : ∀ {text rest a}, read text = some (a, rest) →
      ∃ one, Written one ∧ item one = a ∧ text = spelling one ++ rest)
    {steps : Nat} (h : readItems read close steps text = some (items, rest)) :
    ∃ written : List β, (∀ one ∈ written, Written one) ∧ written ≠ [] ∧ written.map item = items ∧
      text = [','].intercalate (written.map spelling) ++ close :: rest := by
  induction steps generalizing text items with
  | zero => cases h
  | succ steps ih =>
    obtain ⟨⟨a, after⟩, ha, hafter⟩ := Option.bind_eq_some_iff.mp h
    obtain ⟨one, hone, rfl, rfl⟩ := hread ha
    dsimp only at hafter
    split at hafter
    next after =>
      -- After a comma there is at least one more item.
      obtain ⟨⟨others, rest'⟩, hothers, hrest⟩ := Option.bind_eq_some_iff.mp hafter
      cases hrest
      obtain ⟨written, hwritten, hne, rfl, rfl⟩ := ih hothers
      obtain ⟨two, written, rfl⟩ := List.exists_cons_of_ne_nil hne
      refine ⟨one :: two :: written, List.forall_mem_cons.mpr ⟨hone, hwritten⟩, by simp, rfl, ?_⟩
      simp [List.intercalate_cons_cons]
    next c after _ =>
      split at hafter
      next hclose =>
        cases hafter
        exact ⟨[one], by simpa using hone, by simp, rfl, by simp [hclose]⟩
      next => cases hafter
    next => cases hafter

/-- What is read as a series has been written as one, with white space before its end. -/
theorem exists_of_readSeries
    (hread : ∀ {text rest a}, read text = some (a, rest) →
      ∃ one, Written one ∧ item one = a ∧ text = spelling one ++ rest)
    (h : readSeries read close text = some (items, rest)) :
    ∃ (written : List β) (space : List Char), (∀ one ∈ written, Written one) ∧ IsSpaces space ∧
      written.map item = items ∧
      text = [','].intercalate (written.map spelling) ++ space ++ close :: rest := by
  obtain ⟨space, hspace, htext⟩ := exists_eq_append_skipSpace text
  rw [readSeries] at h
  split at h
  next hclose =>
    -- Between the brackets is nothing but white space.
    cases h
    refine ⟨[], space, by simp, hspace, rfl, ?_⟩
    rw [List.map_nil, List.intercalate_nil, List.nil_append, List.cons_head?_tail hclose]
    exact htext
  next =>
    obtain ⟨written, hwritten, -, hitems, htext⟩ := exists_of_readItems hread h
    exact ⟨written, [], hwritten, isSpaces_nil, hitems, by simpa using htext⟩

end Series

/-- A reader that takes only spellings of values. -/
def ReadsValues (read : Reader Value) : Prop :=
  ∀ {text rest value}, read text = some (value, rest) →
    ∃ spelling, Spells value spelling ∧ text = spelling ++ rest

/-- What is read as a member has been written as one. -/
theorem exists_of_readMember {read : Reader Value} (hread : ReadsValues read)
    {member : String × Value} (h : readMember read text = some (member, rest)) :
    ∃ written : WrittenMember, (SpellsKey written.key written.keyText ∧
      Spells written.value written.valueText) ∧ written.member = member ∧
        text = written.text ++ rest := by
  obtain ⟨⟨key, afterKey⟩, hkey, h⟩ := Option.bind_eq_some_iff.mp h
  dsimp only at h
  split at h
  next afterColon =>
    obtain ⟨⟨value, afterValue⟩, hvalue, h⟩ := Option.bind_eq_some_iff.mp h
    cases h
    obtain ⟨before, after, core, rest', hbefore, hafter, hcore, rfl, rfl⟩ := exists_of_padded hkey
    obtain ⟨keySpelling, hkeySpelling, rfl⟩ := exists_of_readString hcore
    obtain ⟨valueSpelling, hvalueSpelling, rfl⟩ := hread hvalue
    exact ⟨⟨key, value, before ++ keySpelling ++ after, valueSpelling⟩,
      ⟨.mk hbefore hkeySpelling hafter, hvalueSpelling⟩, rfl, by simp [WrittenMember.text]⟩
  next => cases h

/-- A reader of values for one level makes a reader for the next one. -/
theorem readsValues_readBare {read : Reader Value} (hread : ReadsValues read) :
    ReadsValues (readBare read) := by
  intro text rest value h
  rw [readBare.eq_def] at h
  split at h
  next after =>
    obtain ⟨⟨items, after'⟩, hitems, h⟩ := Option.bind_eq_some_iff.mp h
    cases h
    have hread' : ∀ {text rest value}, read text = some (value, rest) →
        ∃ one : Value × List Char, Spells one.1 one.2 ∧ one.1 = value ∧ text = one.2 ++ rest := by
      intro text rest value h
      obtain ⟨spelling, hspelling, htext⟩ := hread h
      exact ⟨(value, spelling), hspelling, rfl, htext⟩
    obtain ⟨written, space, hwritten, hspace, rfl, rfl⟩ := exists_of_readSeries hread' hitems
    exact ⟨_, .array hwritten hspace, by simp⟩
  next after =>
    obtain ⟨⟨members, after'⟩, hmembers, h⟩ := Option.bind_eq_some_iff.mp h
    cases h
    obtain ⟨written, space, hwritten, hspace, rfl, rfl⟩ :=
      exists_of_readSeries (exists_of_readMember hread) hmembers
    exact ⟨_, .object (fun one h => (hwritten one h).1) (fun one h => (hwritten one h).2) hspace,
      by simp⟩
  next after =>
    obtain ⟨⟨string, after'⟩, hstring, h⟩ := Option.bind_eq_some_iff.mp h
    cases h
    obtain ⟨spelling, hspelling, htext⟩ := exists_of_readString hstring
    exact ⟨spelling, .string hspelling, htext⟩
  next =>
    cases h
    exact ⟨_, .null, rfl⟩
  next =>
    cases h
    exact ⟨_, .true, rfl⟩
  next =>
    cases h
    exact ⟨_, .false, rfl⟩
  next =>
    obtain ⟨⟨numeral, after'⟩, hnumeral, h⟩ := Option.bind_eq_some_iff.mp h
    cases h
    obtain ⟨hvalid, rfl⟩ := of_readNumeral hnumeral
    exact ⟨_, .number hvalid, rfl⟩

/-- Whatever is read as a value spells it. -/
theorem readsValues_readValue (levels : Nat) : ReadsValues (readValue levels) := by
  induction levels with
  | zero => intro text rest value h; cases h
  | succ levels ih =>
    intro text rest value h
    obtain ⟨before, after, core, rest', hbefore, hafter, hcore, rfl, rfl⟩ := exists_of_padded h
    obtain ⟨spelling, hspelling, rfl⟩ := readsValues_readBare ih hcore
    exact ⟨_, .padded hbefore hspelling hafter, by simp⟩

/-- A text from which a value is read spells this value. -/
theorem spells_of_read? {value : Value} (h : read? text = some value) : Spells value text := by
  rw [read?] at h
  split at h
  next hread =>
    cases h
    obtain ⟨spelling, hspelling, rfl⟩ := readsValues_readValue _ hread
    simpa using hspelling
  next => cases h

/-! ### What is spelled is read -/

theorem startsWithout_space_append (hspace : IsSpaces space)
    (h : StartsWithout goesOnWithNumber rest) :
    StartsWithout goesOnWithNumber (space ++ rest) := by
  cases space with
  | nil => exact h
  | cons c space =>
    intro head hhead
    cases hhead
    have hc := hspace c List.mem_cons_self
    simp only [isSpace, Bool.or_eq_true, decide_eq_true_eq] at hc
    rcases hc with ((rfl | rfl) | rfl) | rfl <;> rfl

/-- What is read stays the same with white space around it. -/
theorem padded_append {read : Reader α} {a : α} {before core after : List Char}
    (hbefore : IsSpaces before) (hafter : IsSpaces after)
    (hcore : ∃ c tail, core = c :: tail ∧ isSpace c = false)
    (h : read (core ++ (after ++ rest)) = some (a, after ++ rest)) :
    padded read (before ++ core ++ after ++ rest) = some (a, skipSpace rest) := by
  obtain ⟨c, tail, rfl, hc⟩ := hcore
  rw [padded, List.append_assoc, List.append_assoc, skipSpace_append hbefore, List.cons_append,
    skipSpace_cons hc, ← List.cons_append, h]
  simp [skipSpace_append hafter]

theorem length_le_length_intercalate (texts : List (List Char)) :
    texts.length ≤ ([','].intercalate texts).length + 1 := by
  induction texts with
  | nil => simp
  | cons text texts ih =>
    cases texts with
    | nil => simp
    | cons text' texts =>
      rw [List.intercalate_cons_cons]
      simp only [List.length_append, List.length_cons, List.length_nil] at ih ⊢
      omega

theorem length_spelling_le_of_mem (spelling : β → List Char) {one : β} {written : List β}
    (h : one ∈ written) :
    (spelling one).length ≤ ([','].intercalate (written.map spelling)).length := by
  induction written with
  | nil => cases h
  | cons first others ih =>
    cases others with
    | nil =>
      cases List.mem_singleton.mp h
      simp
    | cons second others =>
      rw [List.map_cons, List.map_cons, List.intercalate_cons_cons, ← List.map_cons]
      simp only [List.length_append]
      rcases List.mem_cons.mp h with rfl | h
      · omega
      · have := ih h
        omega

/-- The bracket at the end of an array or an object. -/
def IsClosing (close : Char) : Prop := close = ']' ∨ close = '\x7d'

theorem IsClosing.startsWithout {close : Char} (h : IsClosing close) (rest : List Char) :
    StartsWithout goesOnWithNumber (close :: rest) := by
  intro c hc
  cases hc
  rcases h with rfl | rfl <;> rfl

theorem IsClosing.skipSpace_append_cons {close : Char} (h : IsClosing close)
    (hspace : IsSpaces space) : skipSpace (space ++ close :: rest) = close :: rest := by
  rw [skipSpace_append hspace, skipSpace_cons]
  rcases h with rfl | rfl <;> rfl

section Series

variable {read : Reader α} {close : Char} {item : β → α} {spelling : β → List Char}
  {written : List β}

/-- Items are read back if each of them is. -/
theorem readItems_append (hclose : IsClosing close)
    (hread : ∀ one ∈ written, ∀ rest, StartsWithout goesOnWithNumber rest →
      read (spelling one ++ rest) = some (item one, skipSpace rest))
    (hne : written ≠ []) (hspace : IsSpaces space) {steps : Nat} (hsteps : written.length ≤ steps) :
    readItems read close steps
        ([','].intercalate (written.map spelling) ++ (space ++ close :: rest)) =
      some (written.map item, rest) := by
  induction written generalizing steps with
  | nil => exact absurd rfl hne
  | cons one others ih =>
    obtain ⟨hone, hothers⟩ := List.forall_mem_cons.mp hread
    obtain ⟨steps, rfl⟩ : ∃ n, steps = n + 1 := ⟨steps - 1, by simp at hsteps; omega⟩
    -- After an item stands a bracket, maybe with white space before it, or a comma.
    cases others with
    | nil =>
      have hlast := hone (space ++ close :: rest)
        (startsWithout_space_append hspace (hclose.startsWithout rest))
      rw [hclose.skipSpace_append_cons hspace] at hlast
      simp only [List.map_cons, List.map_nil, List.intercalate_singleton]
      unfold readItems
      rw [hlast]
      rcases hclose with rfl | rfl <;> rfl
    | cons two others =>
      have hrest : readItems read close steps _ = _ :=
        ih hothers (by simp) (by simpa using hsteps)
      have hone' := hone (',' :: ([','].intercalate ((two :: others).map spelling) ++
        (space ++ close :: rest))) (fun c hc => by cases hc; rfl)
      rw [skipSpace_cons rfl] at hone'
      rw [List.map_cons, List.map_cons, List.intercalate_cons_cons]
      simp only [List.append_assoc, List.cons_append, List.nil_append]
      unfold readItems
      rw [← List.map_cons, hone']
      simp only [Option.bind_eq_bind, Option.bind_some, hrest]
      rfl

theorem exists_of_readItems_eq_some {steps : Nat} {result : List α × List Char}
    (h : readItems read close steps text = some result) : ∃ first, read text = some first := by
  cases steps with
  | zero => cases h
  | succ steps =>
    obtain ⟨first, hfirst, -⟩ := Option.bind_eq_some_iff.mp h
    exact ⟨first, hfirst⟩

/-- A series is read back if each of its items is, and also if there are none. -/
theorem readSeries_append (hclose : IsClosing close)
    (hread : ∀ one ∈ written, ∀ rest, StartsWithout goesOnWithNumber rest →
      read (spelling one ++ rest) = some (item one, skipSpace rest))
    (hnone : ∀ text, (skipSpace text).head? = some close → read text = none)
    (hspace : IsSpaces space) :
    readSeries read close
        ([','].intercalate (written.map spelling) ++ (space ++ close :: rest)) =
      some (written.map item, rest) := by
  cases written with
  | nil =>
    rw [List.map_nil, List.intercalate_nil, List.nil_append, readSeries,
      hclose.skipSpace_append_cons hspace]
    exact if_pos rfl
  | cons one others =>
    have hlength : (one :: others).length ≤
        ([','].intercalate ((one :: others).map spelling) ++ (space ++ close :: rest)).length := by
      have := length_le_length_intercalate ((one :: others).map spelling)
      rw [List.length_map] at this
      simp only [List.length_append, List.length_cons] at this ⊢
      omega
    have hitems : readItems read close _ (_ ++ (space ++ close :: rest)) = _ :=
      readItems_append hclose hread (by simp) hspace hlength
    -- The first item can be read, so the text does not start with the closing bracket.
    obtain ⟨first, hfirst⟩ := exists_of_readItems_eq_some hitems
    rw [readSeries, if_neg, hitems]
    intro hhead
    cases (hnone _ hhead).symm.trans hfirst

end Series

theorem padded_eq_none {read : Reader α} {c : Char} (hhead : (skipSpace text).head? = some c)
    (h : ∀ rest, read (c :: rest) = none) : padded read text = none := by
  rw [padded, ← List.cons_head?_tail hhead, h]
  rfl

theorem readValue_eq_none (levels : Nat) (hhead : (skipSpace text).head? = some ']') :
    readValue levels text = none := by
  cases levels with
  | zero => rfl
  | succ levels => exact padded_eq_none hhead fun _ => rfl

theorem readMember_eq_none (read : Reader Value) (hhead : (skipSpace text).head? = some '\x7d') :
    readMember read text = none := by
  rw [readMember, padded_eq_none hhead fun _ => rfl]
  rfl

theorem SpellsString.exists_eq_cons {value : String} (h : SpellsString value text) :
    ∃ tail, text = '\x22' :: tail := by
  obtain ⟨-⟩ := h
  exact ⟨_, rfl⟩

/-- A member is read back if its value is. -/
theorem readMember_append {read : Reader Value} {written : WrittenMember}
    (hkey : SpellsKey written.key written.keyText)
    (hvalue : read (written.valueText ++ rest) = some (written.value, skipSpace rest)) :
    readMember read (written.text ++ rest) = some (written.member, skipSpace rest) := by
  obtain ⟨key, value, keyText, valueText⟩ := written
  obtain ⟨hbefore, hspelling, hafter⟩ := hkey
  obtain ⟨tail, rfl⟩ := hspelling.exists_eq_cons
  have hkey : padded readString (_ ++ ':' :: (valueText ++ rest)) = _ :=
    padded_append hbefore hafter ⟨_, _, rfl, rfl⟩ (readString_append hspelling)
  rw [skipSpace_cons rfl] at hkey
  simp only [WrittenMember.text, List.append_assoc, List.cons_append] at hkey hvalue ⊢
  simp [readMember, hkey, hvalue, WrittenMember.member]

theorem Numeral.Valid.exists_eq_cons {numeral : Numeral} (h : numeral.Valid) :
    ∃ c tail, numeral.text = c :: tail ∧ (c = '-' ∨ c.isDigit = true) := by
  rw [Numeral.text]
  cases numeral.negative with
  | true => exact ⟨_, _, rfl, .inl rfl⟩
  | false =>
    obtain ⟨digit, digits, hdigits⟩ := List.exists_cons_of_ne_nil h.whole.1
    exact ⟨digit, _, by rw [hdigits]; rfl, .inr (h.whole.2 digit (by simp [hdigits]))⟩

theorem isSpace_eq_false_of_number {c : Char} (h : c = '-' ∨ c.isDigit = true) :
    isSpace c = false := by
  by_contra hspace
  simp only [isSpace, Bool.not_eq_false, Bool.or_eq_true, decide_eq_true_eq] at hspace
  rcases hspace with ((rfl | rfl) | rfl) | rfl <;> exact absurd h (by decide)

theorem readBare_eq_of_number {read : Reader Value} {c : Char}
    (h : c = '-' ∨ c.isDigit = true) (rest : List Char) :
    readBare read (c :: rest) = do
      let (numeral, rest) ← readNumeral (c :: rest)
      return (.number numeral.value, rest) := by
  rw [readBare.eq_def]
  -- No other pattern starts with a minus sign or a digit.
  split <;> try rfl
  all_goals
    next heq =>
      cases heq
      exact absurd h (by decide)

/-- An array is read back if its items are. -/
theorem readBare_array_append {levels : Nat} {items : List (Value × List Char)}
    (hread : ∀ item ∈ items, ∀ rest, StartsWithout goesOnWithNumber rest →
      readValue levels (item.2 ++ rest) = some (item.1, skipSpace rest))
    (hspace : IsSpaces space) :
    readBare (readValue levels)
        ('[' :: [','].intercalate (items.map Prod.snd) ++ space ++ [']'] ++ rest) =
      some (.array (items.map Prod.fst), rest) := by
  have hseries : readSeries (readValue levels) ']' (_ ++ (space ++ ']' :: rest)) = _ :=
    readSeries_append (.inl rfl) hread (fun _ h => readValue_eq_none levels h) hspace
  simp only [List.cons_append, List.append_assoc, List.nil_append, readBare]
  rw [hseries]
  rfl

/-- An object is read back if its members are. -/
theorem readBare_object_append {read : Reader Value} {members : List WrittenMember}
    (hread : ∀ written ∈ members, ∀ rest, StartsWithout goesOnWithNumber rest →
      readMember read (written.text ++ rest) = some (written.member, skipSpace rest))
    (hspace : IsSpaces space) :
    readBare read
        ('\x7b' :: [','].intercalate (members.map WrittenMember.text) ++ space ++ ['\x7d'] ++
          rest) =
      some (.object (members.map WrittenMember.member), rest) := by
  have hseries : readSeries (readMember read) '\x7d' (_ ++ (space ++ '\x7d' :: rest)) = _ :=
    readSeries_append (.inr rfl) hread (fun _ h => readMember_eq_none read h) hspace
  simp only [List.cons_append, List.append_assoc, List.nil_append, readBare]
  rw [hseries]
  rfl

/-- The recursion is never at its bound if there are more levels than characters. -/
theorem readValue_append_of_bare {value : Value} {levels : Nat} (hlevels : text.length < levels)
    (hhead : ∃ c tail, text = c :: tail ∧ isSpace c = false)
    (h : ∀ inner, text.length ≤ inner →
      readBare (readValue inner) (text ++ rest) = some (value, rest)) :
    readValue levels (text ++ rest) = some (value, skipSpace rest) := by
  obtain ⟨inner, rfl⟩ : ∃ inner, levels = inner + 1 := ⟨levels - 1, by omega⟩
  have hpadded := padded_append isSpaces_nil isSpaces_nil hhead (h inner (by omega))
  rwa [List.nil_append, List.append_nil] at hpadded

theorem readValue_append_of_padded {value : Value} {levels : Nat} {before after : List Char}
    (hbefore : IsSpaces before) (hafter : IsSpaces after)
    (h : readValue levels (text ++ (after ++ rest)) = some (value, skipSpace (after ++ rest))) :
    readValue levels (before ++ text ++ after ++ rest) = some (value, skipSpace rest) := by
  cases levels with
  | zero => cases h
  | succ levels =>
    rw [readValue, padded, List.append_assoc, List.append_assoc, skipSpace_append hbefore]
    rwa [skipSpace_append hafter] at h

/-- A spelling of a value is read, unless the text goes on with a number. -/
theorem readValue_append {value : Value} (h : Spells value text) {levels : Nat}
    (hlevels : text.length < levels) (hrest : StartsWithout goesOnWithNumber rest) :
    readValue levels (text ++ rest) = some (value, skipSpace rest) := by
  -- The induction is on how the value is spelled. A pair of brackets takes one level and two
  -- characters, so the bound is kept.
  induction h generalizing levels rest with
  | padded hbefore _ hafter ih =>
    simp only [List.length_append] at hlevels
    exact readValue_append_of_padded hbefore hafter
      (ih (by omega) (startsWithout_space_append hafter hrest))
  | null => exact readValue_append_of_bare hlevels ⟨_, _, rfl, rfl⟩ fun _ _ => rfl
  | true => exact readValue_append_of_bare hlevels ⟨_, _, rfl, rfl⟩ fun _ _ => rfl
  | false => exact readValue_append_of_bare hlevels ⟨_, _, rfl, rfl⟩ fun _ _ => rfl
  | @number numeral h =>
    obtain ⟨c, tail, htext, hc⟩ := h.exists_eq_cons
    refine readValue_append_of_bare hlevels ⟨c, tail, htext, isSpace_eq_false_of_number hc⟩ ?_
    intro inner _
    have hnumeral : readNumeral (numeral.text ++ rest) = _ := readNumeral_append h hrest
    rw [htext, List.cons_append] at hnumeral ⊢
    rw [readBare_eq_of_number hc, hnumeral]
    rfl
  | @string value text h =>
    have hstring : readString (text ++ rest) = _ := readString_append h
    obtain ⟨tail, rfl⟩ := h.exists_eq_cons
    refine readValue_append_of_bare hlevels ⟨_, _, rfl, rfl⟩ fun inner _ => ?_
    rw [List.cons_append] at hstring ⊢
    rw [readBare, hstring]
    rfl
  | @array items space _ hspace ih =>
    refine readValue_append_of_bare hlevels ⟨_, _, rfl, rfl⟩ fun inner hinner => ?_
    refine readBare_array_append (fun item hitem rest hrest => ?_) hspace
    have hlength := length_spelling_le_of_mem Prod.snd hitem
    simp only [List.length_append, List.length_cons] at hinner
    exact ih item hitem (by omega) hrest
  | @object members space hkey _ hspace ih =>
    refine readValue_append_of_bare hlevels ⟨_, _, rfl, rfl⟩ fun inner hinner => ?_
    refine readBare_object_append (fun written hwritten rest hrest => ?_) hspace
    have hlength := length_spelling_le_of_mem WrittenMember.text hwritten
    simp only [WrittenMember.text, List.length_append, List.length_cons] at hinner hlength
    exact readMember_append (hkey written hwritten) (ih written hwritten (by omega) hrest)

/-- A value is read from every text that spells it. -/
theorem read?_of_spells {value : Value} (h : Spells value text) : read? text = some value := by
  have hread : readValue (text.length + 1) (text ++ []) = some (value, skipSpace []) :=
    readValue_append h (Nat.lt_succ_self _) (fun _ hc => nomatch hc)
  rw [List.append_nil] at hread
  rw [read?, hread]
  rfl

/-- **Reading JSON.** A text is read exactly if it is a JSON text, and gives what it stands for. -/
theorem read?_eq_some_iff {value : Value} : read? text = some value ↔ Spells value text :=
  ⟨spells_of_read?, read?_of_spells⟩

example : read? " [\"\\ud83d\\ude00\", 1.5e1]\n".toList =
    some (.array [.string "😀", .number 15]) := by
  cbv

/-- A text stands for one value only. -/
theorem Spells.unique {value value' : Value} (h : Spells value text) (h' : Spells value' text) :
    value = value' :=
  Option.some.inj ((read?_of_spells h).symm.trans (read?_of_spells h'))

end CucumberExpressions.Json
