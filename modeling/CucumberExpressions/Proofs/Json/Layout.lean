import CucumberExpressions.Json
import CucumberExpressions.Proofs.Json.Grammar
import Mathlib.Data.List.Forall2

/-!
# The layout of a JSON value is JSON

The indented layout of a document is a spelling of what the document stands for, at every depth.
Line breaks and indentation are white space, a character is written as itself unless it has to be
escaped, and an integer is written with its digits.

## Main definitions

* `Json.value` — what a document stands for

## Main results

* `Json.spells_layout`, `Json.spells_render` — the layout of a document spells what it stands for
* `Json.value_injective` — different documents stand for different values
-/

namespace CucumberExpressions.Json

/-! ### What a document stands for -/

theorem sizeOf_lt_of_mem_items {item : Json} {items : List Json} (h : item ∈ items) :
    sizeOf item < sizeOf (Json.array items) := by
  have := List.sizeOf_lt_of_mem h
  rw [array.sizeOf_spec]
  omega

theorem sizeOf_lt_of_mem_members {member : String × Json} {members : List (String × Json)}
    (h : member ∈ members) : sizeOf member.2 < sizeOf (Json.object members) := by
  have hmember : sizeOf member = 1 + sizeOf member.1 + sizeOf member.2 := by
    rw [← Prod.mk.sizeOf_spec]
  have := List.sizeOf_lt_of_mem h
  rw [object.sizeOf_spec]
  omega

/-- What holds of an array and of an object if it holds of the documents inside, and of every string
and number, holds of every document. -/
@[induction_eliminator]
theorem induction {P : Json → Prop} (string : ∀ text, P (.string text))
    (number : ∀ n, P (.number n)) (array : ∀ items, (∀ item ∈ items, P item) → P (.array items))
    (object : ∀ members, (∀ member ∈ members, P member.2) → P (.object members)) :
    ∀ json, P json
  | .string text => string text
  | .number n => number n
  | .array items => array items fun item _ => induction string number array object item
  | .object members =>
    object members fun member _ => induction string number array object member.2
termination_by json => sizeOf json
decreasing_by
  · exact sizeOf_lt_of_mem_items ‹_›
  · exact sizeOf_lt_of_mem_members ‹_›

/-- What a document stands for. -/
def value : Json → Value
  | .string text => .string text
  | .number n => .number n
  | .array items => .array (items.map value)
  | .object members => .object (members.map fun member => (member.1, member.2.value))
termination_by json => sizeOf json
decreasing_by
  · exact sizeOf_lt_of_mem_items ‹_›
  · exact sizeOf_lt_of_mem_members ‹_›

theorem eq_of_map_eq_map {α β : Type} {f : α → β} {first second : List α}
    (h : ∀ a ∈ first, ∀ b ∈ second, f a = f b → a = b) (hmap : first.map f = second.map f) :
    first = second := by
  induction first generalizing second with
  | nil => exact (List.map_eq_nil_iff.mp hmap.symm).symm
  | cons a first ih =>
    obtain ⟨b, second, rfl, hb, hsecond⟩ := List.map_eq_cons_iff.mp hmap.symm
    rw [h a List.mem_cons_self b List.mem_cons_self hb.symm, ih ?_ hsecond.symm]
    exact fun a ha b hb => h a (List.mem_cons_of_mem _ ha) b (List.mem_cons_of_mem _ hb)

/-- Different documents stand for different values. -/
theorem value_injective : Function.Injective value := by
  intro first
  induction first with
  | string text =>
    intro second h
    cases second <;> simp only [value, reduceCtorEq, Value.string.injEq] at h
    rw [h]
  | number n =>
    intro second h
    cases second <;> simp only [value, reduceCtorEq, Value.number.injEq, Rat.intCast_inj] at h
    rw [h]
  | array items ih =>
    intro second h
    cases second <;> simp only [value, reduceCtorEq, Value.array.injEq] at h
    rw [eq_of_map_eq_map (fun item hitem second _ => @ih item hitem second) h]
  | object members ih =>
    intro second h
    cases second <;> simp only [value, reduceCtorEq, Value.object.injEq] at h
    rw [eq_of_map_eq_map ?_ h]
    intro member hmember second _ hsame
    obtain ⟨hkey, hvalue⟩ := Prod.mk.inj hsame
    exact Prod.ext hkey (ih member hmember hvalue)

/-! ### Strings -/

/-- Four hexadecimal digits write the code unit that they are the digits of. -/
theorem exists_hexDigits_four {n : Nat} (h : n < 0x10000) :
    ∃ a b c d, Text.hexDigits 4 n = [a, b, c, d] ∧ codeUnit? a b c d = some n := by
  refine ⟨_, _, _, _, rfl, ?_⟩
  simp only [codeUnit?, Text.hexValue?_digitChar (Nat.mod_lt _ (by decide : 0 < 16)),
    Option.bind_eq_bind, Option.bind_some]
  refine congrArg some ?_
  omega

/-- A character is spelt by what stands for it in a literal. -/
theorem spellsChar_escaped (c : Char) : SpellsChar c (escaped c) := by
  unfold escaped
  split
  next h => rcases h with rfl | rfl <;> exact .letter (by decide)
  next hquote =>
    split
    next h => exact h ▸ .letter (by decide)
    next =>
    split
    next h => exact h ▸ .letter (by decide)
    next =>
    split
    next h => exact h ▸ .letter (by decide)
    next =>
    split
    next h => exact h ▸ .letter (by decide)
    next =>
    split
    next h => exact h ▸ .letter (by decide)
    next =>
    split
    next h =>
      obtain ⟨a, b, c', d, hdigits, hunit⟩ := exists_hexDigits_four (h.trans (by decide))
      rw [hdigits]
      exact .unit hunit
    next h =>
      obtain ⟨hquote, hback⟩ := not_or.mp hquote
      exact .plain (by simp [isPlain, hquote, hback, Nat.le_of_not_lt h])

/-- A text is spelt by its literal. -/
theorem spellsString_stringLiteral (text : String) :
    SpellsString text (stringLiteral text.toList) := by
  have hspelled : List.Forall₂ SpellsChar text.toList (text.toList.map escaped) :=
    List.forall₂_map_right_iff.mpr (List.forall₂_same.mpr fun c _ => spellsChar_escaped c)
  have h := SpellsString.mk hspelled
  rwa [String.ofList_toList, ← List.flatMap_def] at h

/-! ### Integers -/

/-- No zero stands in front of other digits. -/
theorem toDigits_eq_of_head? (n : Nat) (h : (Nat.toDigits 10 n).head? = some '0') :
    Nat.toDigits 10 n = ['0'] := by
  induction n using Nat.strongRecOn with
  | ind n ih =>
    rw [Nat.toDigits_eq_if (by decide)] at h ⊢
    split at h
    next hn =>
      rw [if_pos hn]
      rw [List.head?_cons, Option.some.injEq] at h
      rw [h]
    next hn =>
      -- The first digit is that of the number without its last digit.
      rw [List.head?_append_of_ne_nil _ Nat.toDigits_ne_nil] at h
      have hzero := ih (n / 10) (by omega) h
      have hvalue : n / 10 = 0 := by
        rw [← Nat.ofDigitChars_ten_toDigits (n := n / 10), hzero]
        rfl
      omega

/-- The usual way to write an integer. -/
def Numeral.ofInt (n : Int) : Numeral := ⟨n < 0, Nat.toDigits 10 n.natAbs, [], none⟩

namespace Numeral

/-- An integer makes a number that may be written. -/
theorem valid_ofInt (n : Int) : (ofInt n).Valid where
  whole := ⟨Nat.toDigits_ne_nil, fun _ => Nat.isDigit_of_mem_toDigits (by decide) (by decide)⟩
  zero := toDigits_eq_of_head? n.natAbs
  fraction h := absurd rfl h
  exponent := by simp [ofInt]

/-- The number of an integer is this integer. -/
theorem value_ofInt (n : Int) : (ofInt n).value = n := by
  have hdigits : Nat.ofDigitChars 10 (Nat.toDigits 10 n.natAbs ++ []) 0 = n.natAbs := by
    rw [List.append_nil, Nat.ofDigitChars_ten_toDigits]
  -- Without a fraction and an exponent the digits are not scaled.
  simp only [ofInt, value, hdigits, Option.map_none, Option.getD_none, List.length_nil,
    Nat.cast_zero, sub_zero, zpow_zero, mul_one, decide_eq_true_eq]
  split
  next h =>
    have hn : n = -(n.natAbs : ℤ) := by omega
    conv_rhs => rw [hn]
    rw [Int.cast_neg, Int.cast_natCast]
  next h =>
    have hn : n = (n.natAbs : ℤ) := by omega
    conv_rhs => rw [hn]
    rw [Int.cast_natCast]

/-- It is written as the integer is. -/
theorem text_ofInt (n : Int) : (ofInt n).text = (toString n).toList := by
  have htext : toString n = n.repr := rfl
  simp only [ofInt, text, fractionText, exponentText, if_true, Option.map_none, Option.getD_none,
    List.append_nil, decide_eq_true_eq]
  rw [htext, Int.repr_eq_if]
  by_cases h : 0 ≤ n
  · have habs : n.natAbs = n.toNat := by omega
    rw [if_neg (by omega), if_pos h, Nat.toList_repr, habs]
    rfl
  · have habs : n.natAbs = (-n).toNat := by omega
    rw [if_pos (by omega), if_neg h, String.toList_append, Nat.toList_repr, habs]
    rfl

end Numeral

/-! ### Documents -/

theorem isSpaces_lineStart (depth : Nat) : IsSpaces (lineStart depth) := by
  intro c hc
  rcases List.mem_cons.mp hc with rfl | hc
  · rfl
  · rw [List.eq_of_mem_replicate hc]
    rfl

theorem intercalate_cons (separator : Char) (first : List Char) (others : List (List Char)) :
    [separator].intercalate (first :: others) = first ++ others.flatMap (separator :: ·) := by
  induction others generalizing first with
  | nil => simp
  | cons second others ih =>
    rw [List.intercalate_cons_cons, ih, List.flatMap_cons]
    simp

theorem layoutItems_eq_flatMap (depth : Nat) (items : List Json) :
    layoutItems depth items =
      (items.map fun item => lineStart depth ++ layout depth item).flatMap (',' :: ·) := by
  induction items with
  | nil => rfl
  | cons item items ih => simp [layoutItems, ih]

theorem layoutMembers_eq_flatMap (depth : Nat) (members : List (String × Json)) :
    layoutMembers depth members =
      (members.map fun member => lineStart depth ++ layoutMember depth member).flatMap
        (',' :: ·) := by
  induction members with
  | nil => rfl
  | cons member members ih => simp [layoutMembers, ih]

/-- Items stand on lines of their own, one level deeper, with commas between them. -/
theorem layout_array_cons (depth : Nat) (item : Json) (items : List Json) :
    layout depth (.array (item :: items)) =
      '[' :: [','].intercalate ((item :: items).map fun item =>
        lineStart (depth + 1) ++ layout (depth + 1) item) ++ lineStart depth ++ [']'] := by
  rw [List.map_cons, intercalate_cons, ← layoutItems_eq_flatMap]
  simp [layout]

/-- Members stand on lines of their own, one level deeper, with commas between them. -/
theorem layout_object_cons (depth : Nat) (member : String × Json)
    (members : List (String × Json)) :
    layout depth (.object (member :: members)) =
      '\x7b' :: [','].intercalate ((member :: members).map fun member =>
        lineStart (depth + 1) ++ layoutMember (depth + 1) member) ++ lineStart depth ++
          ['\x7d'] := by
  rw [List.map_cons, intercalate_cons, ← layoutMembers_eq_flatMap]
  simp [layout]

/-- A member of an object as it is laid out at a depth. -/
def writtenMember (depth : Nat) (member : String × Json) : WrittenMember where
  key := member.1
  value := member.2.value
  keyText := lineStart depth ++ stringLiteral member.1.toList
  valueText := ' ' :: layout depth member.2

theorem text_writtenMember (depth : Nat) (member : String × Json) :
    (writtenMember depth member).text = lineStart depth ++ layoutMember depth member := by
  obtain ⟨key, json⟩ := member
  simp [writtenMember, WrittenMember.text, layoutMember]

/-- An array is spelt by its layout if its items are. -/
theorem spells_layout_array {depth : Nat} {items : List Json}
    (h : ∀ item ∈ items, Spells item.value (layout (depth + 1) item)) :
    Spells (value (.array items)) (layout depth (.array items)) := by
  rw [value]
  cases items with
  | nil =>
    have hnil : Spells (.array (([] : List (Value × List Char)).map Prod.fst)) _ :=
      .array (by simp) isSpaces_nil
    exact hnil
  | cons first others =>
    -- Each item starts a line of its own, and so does the closing bracket.
    have hspelled : ∀ written ∈ (first :: others).map fun item : Json =>
        (item.value, lineStart (depth + 1) ++ layout (depth + 1) item),
          Spells written.1 written.2 := by
      intro written hwritten
      obtain ⟨item, hitem, rfl⟩ := List.mem_map.mp hwritten
      exact (h item hitem).indented (isSpaces_lineStart (depth + 1))
    have hcons := Spells.array hspelled (isSpaces_lineStart depth)
    rw [List.map_map, List.map_map] at hcons
    rw [layout_array_cons]
    exact hcons

/-- An object is spelt by its layout if the values of its members are. -/
theorem spells_layout_object {depth : Nat} {members : List (String × Json)}
    (h : ∀ member ∈ members, Spells member.2.value (layout (depth + 1) member.2)) :
    Spells (value (.object members)) (layout depth (.object members)) := by
  rw [value]
  cases members with
  | nil =>
    have hnil : Spells (.object (([] : List WrittenMember).map WrittenMember.member)) _ :=
      .object (by simp) (by simp) isSpaces_nil
    exact hnil
  | cons first others =>
    -- The line break belongs to the key, and the space after the colon to the value.
    have hkey : ∀ written ∈ (first :: others).map (writtenMember (depth + 1)),
        SpellsKey written.key written.keyText := by
      intro written hwritten
      obtain ⟨member, -, rfl⟩ := List.mem_map.mp hwritten
      exact .indented (isSpaces_lineStart (depth + 1)) (spellsString_stringLiteral member.1)
    have hvalue : ∀ written ∈ (first :: others).map (writtenMember (depth + 1)),
        Spells written.value written.valueText := by
      intro written hwritten
      obtain ⟨member, hmember, rfl⟩ := List.mem_map.mp hwritten
      have hspace : IsSpaces [' '] := by simp [IsSpaces, isSpace]
      exact (h member hmember).indented hspace
    have hcons := Spells.object hkey hvalue (isSpaces_lineStart depth)
    rw [List.map_map, List.map_map] at hcons
    rw [layout_object_cons]
    simp only [← text_writtenMember]
    exact hcons

/-- The layout of a document spells what it stands for. -/
theorem spells_layout (json : Json) (depth : Nat) : Spells json.value (json.layout depth) := by
  induction json generalizing depth with
  | string text =>
    rw [value, layout]
    exact .string (spellsString_stringLiteral text)
  | number n =>
    rw [value, layout, ← Numeral.value_ofInt, ← Numeral.text_ofInt]
    exact .number (Numeral.valid_ofInt n)
  | array items ih => exact spells_layout_array fun item hitem => ih item hitem (depth + 1)
  | object members ih =>
    exact spells_layout_object fun member hmember => ih member hmember (depth + 1)

/-- What is written for a value spells it. -/
theorem spells_render (json : Json) : Spells json.value json.render.toList := by
  rw [render, String.toList_ofList]
  exact spells_layout json 0

end CucumberExpressions.Json
