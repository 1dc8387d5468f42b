import CucumberExpressions.Proofs.Except
import CucumberExpressions.Proofs.Line
import CucumberExpressions.Proofs.Utf16

/-!
# Texts with lone surrogates

A text of code points can be encoded exactly if it is a text of characters, and otherwise the error
is about its first surrogate. So the columns of a line are those of the characters at its start, and
they end before the first surrogate.

## Main definitions

* `CodePoint.codeUnits`, `CodePoint.utf16` — the UTF-16 code units of a code point and of a text

## Main results

* `CodePoint.encodable_eq_ok_iff`, `CodePoint.encodable_eq_error_iff` — which texts can be encoded
* `Text.encodedColumn_eq_ok_iff` — which offsets of a line have a column
* `Text.encodedColumn_inj` — the columns of a line tell its offsets apart
* `Text.codeUnits_between_encodedColumns` — what is between the columns of a character
-/

namespace CucumberExpressions

namespace CodePoint

variable {text rest : List CodePoint} {characters : List Char} {lone : LoneSurrogate}
  {position : Nat}

@[simp] theorem map_toChar_map_char (characters : List Char) :
    (characters.map char).map toChar = characters := by
  rw [List.map_map]
  exact List.map_id characters

/-! ### Encoding -/

theorem encodableFrom_cons_char (c : Char) (rest : List CodePoint) (position : Nat) :
    encodableFrom position (char c :: rest) = do
      return c :: (← encodableFrom (position + 1) rest) := by
  rw [encodableFrom]

theorem encodableFrom_map_char (characters : List Char) (position : Nat) :
    encodableFrom position (characters.map char) = .ok characters := by
  induction characters generalizing position with
  | nil => rfl
  | cons c characters ih =>
    rw [List.map_cons, encodableFrom_cons_char, ih]
    rfl

/-- What comes first is encoded first, so an error in it is the error of the whole. -/
theorem encodableFrom_append (text rest : List CodePoint) (position : Nat) :
    encodableFrom position (text ++ rest) = do
      let characters ← encodableFrom position text
      return characters ++ (← encodableFrom (position + text.length) rest) := by
  induction text generalizing position with
  | nil => cases h : encodableFrom position rest <;> simp [encodableFrom, h]
  | cons c text ih =>
    cases c with
    | surrogate n => rfl
    | char c =>
      rw [List.cons_append, encodableFrom_cons_char, encodableFrom_cons_char, ih, List.length_cons,
        Nat.add_assoc, Nat.add_comm 1]
      cases encodableFrom (position + 1) text with
      | error lone => rfl
      | ok characters => cases encodableFrom (position + (text.length + 1)) rest <;> rfl

/-- Any text starts with characters, and then it ends or there is a surrogate. -/
theorem exists_eq_map_char_append (text : List CodePoint) :
    ∃ characters : List Char, text = characters.map char ∨
      ∃ n rest, text = characters.map char ++ surrogate n :: rest := by
  induction text with
  | nil => exact ⟨[], .inl rfl⟩
  | cons c text ih =>
    cases c with
    | surrogate n => exact ⟨[], .inr ⟨n, text, rfl⟩⟩
    | char c =>
      obtain ⟨characters, rfl | ⟨n, rest, rfl⟩⟩ := ih
      · exact ⟨c :: characters, .inl rfl⟩
      · exact ⟨c :: characters, .inr ⟨n, rest, rfl⟩⟩

/-- A text of characters can be encoded, and gives these characters. -/
theorem encodable_map_char (characters : List Char) :
    encodable (characters.map char) = .ok characters :=
  encodableFrom_map_char characters 0

/-- A surrogate after characters is where encoding stops, whatever comes after it. -/
theorem encodable_map_char_append_surrogate (characters : List Char) (n : Fin 0x800)
    (rest : List CodePoint) :
    encodable (characters.map char ++ surrogate n :: rest) = .error ⟨n, characters.length⟩ := by
  rw [encodable, encodableFrom_append, encodableFrom_map_char, List.length_map, Nat.zero_add]
  rfl

/-- A text can be encoded exactly if it is a text of characters. -/
theorem encodable_eq_ok_iff : encodable text = .ok characters ↔ text = characters.map char := by
  constructor
  · intro h
    obtain ⟨start, rfl | ⟨n, rest, rfl⟩⟩ := exists_eq_map_char_append text
    · rw [encodable_map_char] at h
      rw [Except.ok.inj h]
    · rw [encodable_map_char_append_surrogate] at h
      cases h
  · rintro rfl
    exact encodable_map_char characters

/-- Otherwise the error is about the first surrogate, which comes after characters only. -/
theorem encodable_eq_error_iff :
    encodable text = .error lone ↔ ∃ (characters : List Char) (rest : List CodePoint),
      text = characters.map char ++ surrogate lone.surrogate :: rest ∧
        characters.length = lone.position := by
  constructor
  · intro h
    obtain ⟨start, rfl | ⟨n, rest, rfl⟩⟩ := exists_eq_map_char_append text
    · rw [encodable_map_char] at h
      cases h
    · rw [encodable_map_char_append_surrogate] at h
      cases h
      exact ⟨start, rest, rfl, rfl⟩
  · rintro ⟨start, rest, rfl, hposition⟩
    rw [encodable_map_char_append_surrogate, hposition]

/-- What comes after the first surrogate makes no difference. -/
theorem encodable_append_of_eq_error (h : encodable text = .error lone) (rest : List CodePoint) :
    encodable (text ++ rest) = .error lone := by
  obtain ⟨start, behind, rfl, hposition⟩ := encodable_eq_error_iff.mp h
  rw [List.append_assoc, List.cons_append, encodable_map_char_append_surrogate, hposition]

/-! ### Code units -/

/-- The UTF-16 code units of a code point. A surrogate is one by itself. -/
def codeUnits : CodePoint → List UInt16
  | char c => Text.codeUnits c
  | surrogate n => [.ofNat (0xD800 + n)]

/-- The UTF-16 code units of a text. -/
def utf16 (text : List CodePoint) : List UInt16 := text.flatMap codeUnits

theorem utf16_append (text rest : List CodePoint) :
    utf16 (text ++ rest) = utf16 text ++ utf16 rest :=
  List.flatMap_append

/-- The code units of characters are the same if they are taken as code points. -/
theorem utf16_map_char (characters : List Char) :
    utf16 (characters.map char) = Text.utf16 characters := by
  rw [utf16, Text.utf16, List.flatMap_map]
  rfl

end CodePoint

/-! ### Columns -/

namespace Text

variable {line : List CodePoint} {characters : List Char} {i j column : Nat} {lone : LoneSurrogate}

theorem takeInt_natCast {α : Type} (text : List α) (i : Nat) : takeInt text i = text.take i := by
  rw [takeInt, if_pos (Int.natCast_nonneg i), Int.toNat_natCast]

/-- The offsets that have a column are those before which there are characters only. -/
theorem encodedColumn_eq_ok_iff :
    encodedColumn line i = .ok column ↔ ∃ characters : List Char,
      line.take i = characters.map .char ∧ utf16Length characters = column := by
  rw [encodedColumn, takeInt_natCast, bind_eq_ok_iff]
  constructor
  · rintro ⟨characters, hcharacters, ⟨⟩⟩
    exact ⟨characters, CodePoint.encodable_eq_ok_iff.mp hcharacters, rfl⟩
  · rintro ⟨characters, hcharacters, rfl⟩
    exact ⟨characters, CodePoint.encodable_eq_ok_iff.mpr hcharacters, rfl⟩

theorem exists_encodedColumn_eq_ok_iff :
    (∃ column, encodedColumn line i = .ok column) ↔
      ∃ characters : List Char, line.take i = characters.map .char := by
  constructor
  · rintro ⟨column, h⟩
    obtain ⟨characters, htake, -⟩ := encodedColumn_eq_ok_iff.mp h
    exact ⟨characters, htake⟩
  · rintro ⟨characters, htake⟩
    exact ⟨_, encodedColumn_eq_ok_iff.mpr ⟨characters, htake, rfl⟩⟩

/-- Where there are characters only, the columns are those of the characters. -/
theorem encodedColumn_of_take_eq (htake : line.take j = characters.map .char) (h : i ≤ j) :
    encodedColumn line i = .ok (utf16Column characters i) := by
  refine encodedColumn_eq_ok_iff.mpr ⟨characters.take i, ?_, ?_⟩
  · rw [List.map_take, ← htake, List.take_take, Nat.min_eq_left h]
  · rw [utf16Column_natCast]

/-- The error about a column is the one about what stands before it. -/
theorem encodedColumn_of_encodable_eq_error (h : CodePoint.encodable (line.take i) = .error lone) :
    encodedColumn line i = .error lone := by
  rw [encodedColumn, takeInt_natCast, h]
  rfl

/-- Every offset of a line of characters has a column, also one outside of it. -/
theorem encodedColumn_map_char (characters : List Char) (index : Int) :
    encodedColumn (characters.map .char) index = .ok (utf16Column characters index) := by
  have htake : takeInt (characters.map CodePoint.char) index =
      (takeInt characters index).map .char := by
    unfold takeInt
    split <;> simp [List.map_take]
  rw [encodedColumn, htake, CodePoint.encodable_map_char]
  rfl

/-- The columns of a line tell its offsets apart. -/
theorem encodedColumn_inj (hi : i ≤ line.length) (hj : j ≤ line.length)
    (hcolumn : encodedColumn line i = .ok column) (hcolumn' : encodedColumn line j = .ok column) :
    i = j := by
  wlog hle : i ≤ j generalizing i j
  · exact (this hj hi hcolumn' hcolumn (Nat.le_of_not_le hle)).symm
  obtain ⟨characters, htake, -⟩ := encodedColumn_eq_ok_iff.mp hcolumn'
  have hcount : characters.length = j := by
    have h := congrArg List.length htake
    rw [List.length_take, Nat.min_eq_left hj, List.length_map] at h
    exact h.symm
  -- Both offsets are offsets of the characters before the later one.
  rw [encodedColumn_of_take_eq htake hle] at hcolumn
  rw [encodedColumn_of_take_eq htake (Nat.le_refl j)] at hcolumn'
  refine utf16Column_inj (hcount ▸ hle) (Nat.le_of_eq hcount.symm) ?_
  rw [Except.ok.inj hcolumn, Except.ok.inj hcolumn']

/-- The code units of a character are between the columns of its offset and of the next one. -/
theorem codeUnits_between_encodedColumns {text : List CodePoint} {c : Char}
    {start stop : Nat} (hc : text[i]? = some (.char c))
    (hstart : encodedColumn text i = .ok start)
    (hstop : encodedColumn text ((i + 1 : Nat) : Int) = .ok stop) :
    start < stop ∧ stop ≤ (CodePoint.utf16 text).length ∧
      ((CodePoint.utf16 text).take stop).drop start = codeUnits c := by
  obtain ⟨characters, htake, rfl⟩ := encodedColumn_eq_ok_iff.mp hstop
  rw [encodedColumn_of_take_eq htake (Nat.le_succ i)] at hstart
  cases hstart
  have hcharacter : characters[i]? = some c := by
    have h : (text.take (i + 1))[i]? = some (.char c) := by
      rw [List.getElem?_take_of_lt (Nat.lt_succ_self i), hc]
    rw [htake, List.getElem?_map] at h
    obtain ⟨c', hc', ⟨⟩⟩ := Option.map_eq_some_iff.mp h
    exact hc'
  -- There are no more characters than these before the end of the last one.
  have hlength : characters.length = i + 1 := by
    refine Nat.le_antisymm ?_ (List.getElem?_eq_some_iff.mp hcharacter).1
    rw [← @List.length_map _ _ characters CodePoint.char, ← htake]
    exact List.length_take_le (i + 1) text
  have hwhole : utf16Length characters = utf16Column characters ((i + 1 : Nat) : Int) := by
    rw [utf16Column_natCast, ← hlength, List.take_length]
  have hunits : CodePoint.utf16 text = utf16 characters ++ CodePoint.utf16 (text.drop (i + 1)) := by
    rw [← CodePoint.utf16_map_char, ← htake, ← CodePoint.utf16_append, List.take_append_drop]
  have htaken : (CodePoint.utf16 text).take (utf16Length characters) = utf16 characters := by
    rw [hunits, ← length_utf16, List.take_left]
  refine ⟨?_, ?_, ?_⟩
  · rw [hwhole]
    exact utf16Column_lt (Nat.lt_succ_self i) (Nat.le_of_eq hlength.symm)
  · rw [hunits, List.length_append, length_utf16]
    exact Nat.le_add_right _ _
  · rw [htaken, ← codeUnits_between hcharacter, ← hwhole, ← length_utf16, List.take_length]

end Text

end CucumberExpressions
