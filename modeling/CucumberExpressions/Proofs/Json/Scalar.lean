import CucumberExpressions.Proofs.Json.Grammar
import Mathlib.Data.List.Forall2
import Mathlib.Data.List.TakeWhile

/-!
# Reading strings and numbers

The parts of a JSON text that have no parts of their own. A reader takes something from the front of
a text and leaves the rest. Each reader here takes exactly the spellings of what it reads: whatever
it takes is a spelling, and it takes any spelling that is there, provided that the rest of the text
does not go on with it.

## Main definitions

* `Json.Reader` — takes something from the front of a text
* `Json.readString`, `Json.readNumeral` — read a string and a number

## Main results

* `Json.readString_append`, `Json.exists_of_readString` — strings are read from their spellings
* `Json.readNumeral_append`, `Json.of_readNumeral` — numbers are read as they are written
-/

namespace CucumberExpressions.Json

/-- Takes something from the front of a text and leaves the rest. -/
abbrev Reader (α : Type) := List Char → Option (α × List Char)

variable {text rest : List Char}

/-! ### White space -/

/-- The text without the white space at its front. -/
def skipSpace (text : List Char) : List Char := text.dropWhile isSpace

theorem skipSpace_append {space : List Char} (h : IsSpaces space) (text : List Char) :
    skipSpace (space ++ text) = skipSpace text :=
  List.dropWhile_append_of_pos h

theorem skipSpace_cons {c : Char} (h : isSpace c = false) (text : List Char) :
    skipSpace (c :: text) = c :: text := by
  rw [skipSpace, List.dropWhile_cons_of_neg (by simp [h])]

theorem exists_eq_append_skipSpace (text : List Char) :
    ∃ space, IsSpaces space ∧ text = space ++ skipSpace text :=
  ⟨text.takeWhile isSpace, List.all_eq_true.mp List.all_takeWhile,
    List.takeWhile_append_dropWhile.symm⟩

/-! ### Strings -/

/-- Reads a character of a string. -/
def readChar : Reader Char
  | '\\' :: 'u' :: a :: b :: c :: d :: rest => do
    let high ← codeUnit? a b c d
    if high.isValidChar then
      return (Char.ofNat high, rest)
    else
      match rest with
      | '\\' :: 'u' :: a' :: b' :: c' :: d' :: rest =>
        let code ← pairCode? high (← codeUnit? a' b' c' d')
        return (Char.ofNat code, rest)
      | _ => none
  | '\\' :: letter :: rest => do
    return (← letterEscapes.lookup letter, rest)
  | c :: rest => if isPlain c then some (c, rest) else none
  | [] => none

/-- The first code unit of a pair is no character. -/
theorem not_isValidChar_of_pairCode? {high low code : Nat} (h : pairCode? high low = some code) :
    ¬ high.isValidChar := by
  rw [pairCode?] at h
  split at h
  next hpair =>
    rintro (hvalid | ⟨hvalid, -⟩) <;> omega
  next => cases h

/-- A pair of code units makes a character. -/
theorem isValidChar_of_pairCode? {high low code : Nat} (h : pairCode? high low = some code) :
    code.isValidChar := by
  rw [pairCode?] at h
  split at h
  next hpair =>
    have hcode := Option.some.inj h
    exact .inr (by omega)
  next => cases h

/-- A spelling of a character is read, whatever comes after it. -/
theorem readChar_append {char : Char} (h : SpellsChar char text) :
    readChar (text ++ rest) = some (char, rest) := by
  cases h with
  | plain h =>
    -- A plain character is no backslash, so the first two patterns do not match.
    have hback : char ≠ '\\' := by
      rintro rfl
      cases h
    rw [List.singleton_append, readChar.eq_def]
    split
    next heq => exact absurd (List.cons.inj heq).1 hback
    next heq => exact absurd (List.cons.inj heq).1 hback
    next heq =>
      cases heq
      exact if_pos h
    next heq => cases heq
  | letter h =>
    simp only [letterEscapes, List.mem_cons, Prod.mk.injEq, List.not_mem_nil, or_false] at h
    rcases h with ⟨rfl, rfl⟩ | ⟨rfl, rfl⟩ | ⟨rfl, rfl⟩ | ⟨rfl, rfl⟩ | ⟨rfl, rfl⟩ | ⟨rfl, rfl⟩ |
      ⟨rfl, rfl⟩ | ⟨rfl, rfl⟩ <;> rfl
  | unit h =>
    have hvalid : char.toNat.isValidChar := char.valid
    simp only [List.cons_append, List.nil_append, readChar, h, Option.bind_eq_bind,
      Option.bind_some, if_pos hvalid, Char.ofNat_toNat]
    rfl
  | pair hhigh hlow h =>
    simp only [List.cons_append, List.nil_append, readChar, hhigh, hlow, h, Option.bind_eq_bind,
      Option.bind_some, if_neg (not_isValidChar_of_pairCode? h), Char.ofNat_toNat]
    rfl

theorem toNat_ofNat_of_isValidChar {n : Nat} (h : n.isValidChar) : (Char.ofNat n).toNat = n := by
  rw [Char.ofNat, dif_pos h]
  rfl

/-- Only spellings of characters are read. -/
theorem exists_of_readChar {char : Char} (h : readChar text = some (char, rest)) :
    ∃ spelling, SpellsChar char spelling ∧ text = spelling ++ rest := by
  rw [readChar.eq_def] at h
  split at h
  next a b c d after =>
    obtain ⟨high, hhigh, h⟩ := Option.bind_eq_some_iff.mp h
    split at h
    next hvalid =>
      cases h
      refine ⟨_, .unit (a := a) (b := b) (c := c) (d := d) ?_, rfl⟩
      rw [toNat_ofNat_of_isValidChar hvalid, hhigh]
    next =>
      split at h
      next a' b' c' d' after =>
        obtain ⟨low, hlow, h⟩ := Option.bind_eq_some_iff.mp h
        obtain ⟨code, hcode, h⟩ := Option.bind_eq_some_iff.mp h
        cases h
        refine ⟨_, .pair hhigh hlow ?_, rfl⟩
        rw [toNat_ofNat_of_isValidChar (isValidChar_of_pairCode? hcode), hcode]
      next => cases h
  next letter after _ =>
    obtain ⟨c, hletter, h⟩ := Option.bind_eq_some_iff.mp h
    cases h
    obtain ⟨before, others, htable, -⟩ := List.lookup_eq_some_iff.mp hletter
    exact ⟨_, .letter (by simp [htable]), rfl⟩
  next c after _ _ =>
    split at h
    next hplain =>
      cases h
      exact ⟨_, .plain hplain, rfl⟩
    next => cases h
  next => cases h

/-- Reads the characters of a string up to the quotation mark at its end. -/
def readChars : Nat → Reader (List Char)
  | 0, _ => none
  | steps + 1, text =>
    match text with
    | '\x22' :: rest => some ([], rest)
    | _ => do
      let (char, rest) ← readChar text
      let (chars, rest) ← readChars steps rest
      return (char :: chars, rest)

/-- Reads a string. -/
def readString : Reader String
  | '\x22' :: rest => do
    let (chars, rest) ← readChars rest.length rest
    return (String.ofList chars, rest)
  | _ => none

/-- No character is spelled by something that starts with a quotation mark. -/
theorem SpellsChar.exists_eq_cons {char : Char} (h : SpellsChar char text) :
    ∃ head tail, text = head :: tail ∧ head ≠ '\x22' := by
  cases h with
  | plain h =>
    refine ⟨char, [], rfl, ?_⟩
    rintro rfl
    cases h
  | letter => exact ⟨_, _, rfl, by decide⟩
  | unit => exact ⟨_, _, rfl, by decide⟩
  | pair => exact ⟨_, _, rfl, by decide⟩

/-- Characters are read back from any of their spellings. -/
theorem readChars_append {chars : List Char} {spellings : List (List Char)}
    (h : List.Forall₂ SpellsChar chars spellings) {steps : Nat}
    (hsteps : spellings.length < steps) :
    readChars steps (spellings.flatten ++ '\x22' :: rest) = some (chars, rest) := by
  induction h generalizing steps with
  | nil =>
    obtain ⟨steps, rfl⟩ := Nat.exists_eq_add_of_lt hsteps
    rfl
  | @cons char spelling chars spellings hchar _ ih =>
    obtain ⟨steps, rfl⟩ : ∃ n, steps = n + 1 := ⟨steps - 1, by omega⟩
    -- The spelling does not start with a quotation mark, so it does not end the string.
    obtain ⟨head, tail, rfl, hhead⟩ := hchar.exists_eq_cons
    have hstep : readChar (_ ++ (spellings.flatten ++ '\x22' :: rest)) = _ :=
      readChar_append hchar
    have hrest : readChars steps _ = _ := ih (by simpa using hsteps)
    simp only [List.flatten_cons, List.append_assoc]
    rw [List.cons_append] at hstep ⊢
    rw [readChars, hstep]
    · simp [hrest]
    · simpa using hhead

/-- What is read as characters has been spelt. -/
theorem exists_of_readChars {steps : Nat} {chars : List Char}
    (h : readChars steps text = some (chars, rest)) :
    ∃ spellings, List.Forall₂ SpellsChar chars spellings ∧
      text = spellings.flatten ++ '\x22' :: rest := by
  induction steps generalizing text chars with
  | zero => cases h
  | succ steps ih =>
    unfold readChars at h
    split at h
    next =>
      cases h
      exact ⟨[], .nil, rfl⟩
    next =>
      obtain ⟨⟨char, after⟩, hchar, h⟩ := Option.bind_eq_some_iff.mp h
      obtain ⟨⟨chars', after'⟩, hchars, h⟩ := Option.bind_eq_some_iff.mp h
      cases h
      obtain ⟨spelling, hspelling, rfl⟩ := exists_of_readChar hchar
      obtain ⟨spellings, hspellings, rfl⟩ := ih hchars
      exact ⟨spelling :: spellings, .cons hspelling hspellings, by simp⟩

theorem length_le_length_flatten {chars : List Char} {spellings : List (List Char)}
    (h : List.Forall₂ SpellsChar chars spellings) :
    spellings.length ≤ spellings.flatten.length := by
  induction h with
  | nil => simp
  | cons hchar _ ih =>
    obtain ⟨head, tail, rfl, -⟩ := hchar.exists_eq_cons
    simp only [List.flatten_cons, List.length_append, List.length_cons]
    omega

/-- A text is read back from any of its spellings. -/
theorem readString_append {value : String} (h : SpellsString value text) :
    readString (text ++ rest) = some (value, rest) := by
  obtain ⟨hchars⟩ := h
  -- There are no more characters than characters that spell them.
  have hlength := length_le_length_flatten hchars
  simp only [List.cons_append, List.append_assoc, List.nil_append, readString]
  rw [readChars_append hchars (by simp only [List.length_append, List.length_cons]; omega)]
  rfl

/-- What is read as a text has been spelt. -/
theorem exists_of_readString {value : String} (h : readString text = some (value, rest)) :
    ∃ spelling, SpellsString value spelling ∧ text = spelling ++ rest := by
  rw [readString.eq_def] at h
  split at h
  next after =>
    obtain ⟨⟨chars, after'⟩, hchars, h⟩ := Option.bind_eq_some_iff.mp h
    cases h
    obtain ⟨spellings, hspellings, rfl⟩ := exists_of_readChars hchars
    exact ⟨_, .mk hspellings, by simp⟩
  next => cases h

/-! ### Numbers -/

/-- The text does not start with one of the given characters. -/
def StartsWithout (p : Char → Bool) (text : List Char) : Prop := ∀ c ∈ text.head?, p c = false

theorem StartsWithout.mono {p q : Char → Bool} (h : StartsWithout q text)
    (hpq : ∀ c, p c = true → q c = true) : StartsWithout p text := by
  intro c hc
  by_contra hp
  have hq := hpq c (Bool.eq_true_of_not_eq_false hp)
  rw [h c hc] at hq
  cases hq

/-- The characters that go on with the digits before an exponent. -/
def isDigitOrPoint (c : Char) : Bool := c.isDigit || c = '.'

/-- The characters that go on with a number. -/
def goesOnWithNumber (c : Char) : Bool := isDigitOrPoint c || c = 'e' || c = 'E'

theorem isDigitOrPoint_of_isDigit (c : Char) (h : c.isDigit = true) : isDigitOrPoint c = true := by
  simp [isDigitOrPoint, h]

theorem goesOnWithNumber_of_isDigitOrPoint (c : Char) (h : isDigitOrPoint c = true) :
    goesOnWithNumber c = true := by
  simp [goesOnWithNumber, h]

/-- Reads digits, all that there are. -/
def readDigits : Reader (List Char) := fun text =>
  if text.takeWhile Char.isDigit = [] then none
  else some (text.takeWhile Char.isDigit, text.dropWhile Char.isDigit)

/-- Digits are read up to what is no digit. -/
theorem readDigits_append {digits : List Char} (h : IsDigits digits)
    (hrest : StartsWithout Char.isDigit rest) :
    readDigits (digits ++ rest) = some (digits, rest) := by
  have htake : rest.takeWhile Char.isDigit = [] := by
    cases rest with
    | nil => rfl
    | cons c rest => rw [List.takeWhile_cons_of_neg (by simp [hrest c rfl])]
  have hdrop : rest.dropWhile Char.isDigit = rest := by
    cases rest with
    | nil => rfl
    | cons c rest => rw [List.dropWhile_cons_of_neg (by simp [hrest c rfl])]
  rw [readDigits, List.takeWhile_append_of_pos h.2, List.dropWhile_append_of_pos h.2, htake, hdrop,
    List.append_nil, if_neg h.1]

theorem of_readDigits {digits : List Char} (h : readDigits text = some (digits, rest)) :
    IsDigits digits ∧ text = digits ++ rest := by
  rw [readDigits] at h
  split at h
  next => cases h
  next hsome =>
    cases h
    exact ⟨⟨hsome, List.all_eq_true.mp List.all_takeWhile⟩, List.takeWhile_append_dropWhile.symm⟩

/-- Reads a point and the digits after it, if there is a point. -/
def readFraction : Reader (List Char)
  | '.' :: rest => readDigits rest
  | text => some ([], text)

/-- A fraction is read back, and so is one without digits. -/
theorem readFraction_append {fraction : List Char} (h : fraction ≠ [] → IsDigits fraction)
    (hrest : StartsWithout isDigitOrPoint rest) :
    readFraction (Numeral.fractionText fraction ++ rest) = some (fraction, rest) := by
  rw [Numeral.fractionText]
  split
  next hnone =>
    subst hnone
    rw [List.nil_append, readFraction.eq_def]
    split
    next => cases hrest '.' rfl
    next => rfl
  next hsome =>
    rw [List.cons_append, readFraction]
    exact readDigits_append (h hsome) (hrest.mono isDigitOrPoint_of_isDigit)

theorem of_readFraction {fraction : List Char} (h : readFraction text = some (fraction, rest)) :
    (fraction ≠ [] → IsDigits fraction) ∧ text = Numeral.fractionText fraction ++ rest := by
  rw [readFraction.eq_def] at h
  split at h
  next =>
    obtain ⟨hdigits, rfl⟩ := of_readDigits h
    exact ⟨fun _ => hdigits, by simp [Numeral.fractionText, hdigits.1]⟩
  next =>
    cases h
    exact ⟨fun hne => absurd rfl hne, rfl⟩

/-- Reads the sign of an exponent, if there is one. -/
def readSign : Reader (Option Char)
  | '+' :: rest => some (some '+', rest)
  | '-' :: rest => some (some '-', rest)
  | text => some (none, text)

/-- Reads an exponent, if there is one. -/
def readExponent : Reader (Option Exponent)
  | mark :: rest =>
    if mark = 'e' ∨ mark = 'E' then do
      let (sign?, rest) ← readSign rest
      let (digits, rest) ← readDigits rest
      return (some ⟨mark, sign?, digits⟩, rest)
    else some (none, mark :: rest)
  | [] => some (none, [])

theorem readSign_append {sign? : Option Char} (h : ∀ sign ∈ sign?, sign = '+' ∨ sign = '-')
    {digits : List Char} (hdigits : IsDigits digits) :
    readSign (sign?.toList ++ (digits ++ rest)) = some (sign?, digits ++ rest) := by
  cases sign? with
  | some sign => rcases h sign rfl with rfl | rfl <;> rfl
  | none =>
    -- What comes first is a digit, and no sign.
    obtain ⟨digit, digits, rfl⟩ := List.exists_cons_of_ne_nil hdigits.1
    have hdigit := hdigits.2 digit List.mem_cons_self
    simp only [Option.toList_none, List.nil_append, List.cons_append]
    rw [readSign.eq_def]
    split
    next heq =>
      cases heq
      cases hdigit
    next heq =>
      cases heq
      cases hdigit
    next => rfl

theorem of_readSign {sign? : Option Char} (h : readSign text = some (sign?, rest)) :
    (∀ sign ∈ sign?, sign = '+' ∨ sign = '-') ∧ text = sign?.toList ++ rest := by
  rw [readSign.eq_def] at h
  split at h <;> cases h <;> simp

/-- An exponent is read back, and so is none. -/
theorem readExponent_append {exponent? : Option Exponent}
    (h : ∀ exponent ∈ exponent?, exponent.Valid) (hrest : StartsWithout goesOnWithNumber rest) :
    readExponent (Numeral.exponentText exponent? ++ rest) = some (exponent?, rest) := by
  cases exponent? with
  | none =>
    cases rest with
    | nil => rfl
    | cons c rest =>
      have hc := hrest c rfl
      simp only [goesOnWithNumber, Bool.or_eq_false_iff, decide_eq_false_iff_not] at hc
      exact if_neg (not_or.mpr ⟨hc.1.2, hc.2⟩)
  | some exponent =>
    obtain ⟨hmark, hsign, hdigits⟩ := h exponent rfl
    have hend := (hrest.mono goesOnWithNumber_of_isDigitOrPoint).mono isDigitOrPoint_of_isDigit
    simp only [Numeral.exponentText, Option.map_some, Option.getD_some, Exponent.text,
      List.cons_append, List.append_assoc, readExponent, if_pos hmark,
      readSign_append hsign hdigits, Option.bind_eq_bind, Option.bind_some,
      readDigits_append hdigits hend]
    rfl

/-- What is read as an exponent may stand there. -/
theorem of_readExponent {exponent? : Option Exponent}
    (h : readExponent text = some (exponent?, rest)) :
    (∀ exponent ∈ exponent?, exponent.Valid) ∧ text = Numeral.exponentText exponent? ++ rest := by
  rw [readExponent.eq_def] at h
  split at h
  next mark after =>
    split at h
    next hmark =>
      obtain ⟨⟨sign?, after'⟩, hsign, h⟩ := Option.bind_eq_some_iff.mp h
      obtain ⟨⟨digits, after''⟩, hdigits, h⟩ := Option.bind_eq_some_iff.mp h
      cases h
      obtain ⟨hsign', rfl⟩ := of_readSign hsign
      obtain ⟨hdigits', rfl⟩ := of_readDigits hdigits
      refine ⟨?_, by simp [Numeral.exponentText, Exponent.text]⟩
      intro exponent hexponent
      cases hexponent
      exact ⟨hmark, hsign', hdigits'⟩
    next =>
      cases h
      exact ⟨by simp, rfl⟩
  next =>
    cases h
    exact ⟨by simp, rfl⟩

/-- Reads a minus sign, if there is one. -/
def readMinus : List Char → Bool × List Char
  | '-' :: rest => (true, rest)
  | text => (false, text)

theorem readMinus_append {negative : Bool} {digits : List Char} (h : IsDigits digits) :
    readMinus ((if negative then ['-'] else []) ++ (digits ++ rest)) =
      (negative, digits ++ rest) := by
  cases negative with
  | true => rfl
  | false =>
    obtain ⟨digit, digits, rfl⟩ := List.exists_cons_of_ne_nil h.1
    have hdigit := h.2 digit List.mem_cons_self
    simp only [Bool.false_eq_true, if_false, List.nil_append, List.cons_append]
    rw [readMinus.eq_def]
    split
    next heq =>
      cases heq
      cases hdigit
    next => rfl

theorem of_readMinus {negative : Bool} (h : readMinus text = (negative, rest)) :
    text = (if negative then ['-'] else []) ++ rest := by
  rw [readMinus.eq_def] at h
  split at h <;> cases h <;> rfl

/-- Reads a number. -/
def readNumeral : Reader Numeral := fun text => do
  let (negative, text) := readMinus text
  let (whole, text) ← readDigits text
  if whole.head? = some '0' ∧ whole ≠ ['0'] then none
  else
    let (fraction, text) ← readFraction text
    let (exponent?, text) ← readExponent text
    return (⟨negative, whole, fraction, exponent?⟩, text)

theorem startsWithout_exponentText_append {exponent? : Option Exponent}
    (h : ∀ exponent ∈ exponent?, exponent.Valid) (hrest : StartsWithout goesOnWithNumber rest) :
    StartsWithout isDigitOrPoint (Numeral.exponentText exponent? ++ rest) := by
  cases exponent? with
  | none => exact hrest.mono goesOnWithNumber_of_isDigitOrPoint
  | some exponent =>
    intro c hc
    cases hc
    rcases (h exponent rfl).mark with hmark | hmark <;> rw [hmark] <;> rfl

theorem startsWithout_fractionText_append {fraction : List Char}
    (hrest : StartsWithout isDigitOrPoint rest) :
    StartsWithout Char.isDigit (Numeral.fractionText fraction ++ rest) := by
  rw [Numeral.fractionText]
  split
  next => exact hrest.mono isDigitOrPoint_of_isDigit
  next =>
    intro c hc
    cases hc
    rfl

/-- A number is read back, unless the text goes on with it. -/
theorem readNumeral_append {numeral : Numeral} (h : numeral.Valid)
    (hrest : StartsWithout goesOnWithNumber rest) :
    readNumeral (numeral.text ++ rest) = some (numeral, rest) := by
  obtain ⟨negative, whole, fraction, exponent?⟩ := numeral
  obtain ⟨hwhole, hzero, hfraction, hexponent⟩ := h
  -- Each part ends where the next one starts, because no part starts like the rest of another.
  have hafter := startsWithout_exponentText_append hexponent hrest
  simp only [Numeral.text, List.append_assoc, readNumeral, readMinus_append hwhole,
    readDigits_append hwhole (startsWithout_fractionText_append hafter), Option.bind_eq_bind,
    Option.bind_some, readFraction_append hfraction hafter, readExponent_append hexponent hrest]
  rw [if_neg fun h => h.2 (hzero h.1)]
  rfl

/-- What is read as a number is one. -/
theorem of_readNumeral {numeral : Numeral} (h : readNumeral text = some (numeral, rest)) :
    numeral.Valid ∧ text = numeral.text ++ rest := by
  obtain ⟨negative, unsigned, hminus⟩ : ∃ negative unsigned,
    readMinus text = (negative, unsigned) := ⟨_, _, rfl⟩
  simp only [readNumeral, hminus] at h
  obtain ⟨⟨whole, afterWhole⟩, hwhole, h⟩ := Option.bind_eq_some_iff.mp h
  split at h
  next => cases h
  next hzero =>
    obtain ⟨⟨fraction, afterFraction⟩, hfraction, h⟩ := Option.bind_eq_some_iff.mp h
    obtain ⟨⟨exponent?, afterExponent⟩, hexponent, h⟩ := Option.bind_eq_some_iff.mp h
    cases h
    obtain rfl := of_readMinus hminus
    obtain ⟨hwhole', rfl⟩ := of_readDigits hwhole
    obtain ⟨hfraction', rfl⟩ := of_readFraction hfraction
    obtain ⟨hexponent', rfl⟩ := of_readExponent hexponent
    refine ⟨⟨hwhole', ?_, hfraction', hexponent'⟩, by simp [Numeral.text]⟩
    intro hhead
    by_contra hne
    exact hzero ⟨hhead, hne⟩

end CucumberExpressions.Json
