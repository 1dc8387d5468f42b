import CucumberExpressions.Proofs.Line
import CucumberExpressions.Text.Quoted
import Mathlib.Algebra.Ring.Nat
import Mathlib.Data.List.Basic

/-!
# Reading a quoted literal

A quoted literal stands on one line, whatever its text is, and the text can be read off it. The
quote at its front tells which quote ends it, a backslash announces an escape, and the letter behind
the backslash tells how far the escape goes. So it is also known where the literal ends in a text
that goes on behind it.

## Main definitions

* `Text.readEscaped` — the first character of what stands between the quotes

## Main results

* `Text.unbroken_quotedChars` — a quoted literal has no line breaks
* `Text.readEscaped_append` — each character is read off its escape
* `Text.eq_and_eq_of_quotedChars_append_eq` — a quoted literal in front of a text can be told apart
  from it
-/

namespace CucumberExpressions.Text

variable {quote c : Char} {n width : Nat} {a b rest rest' : List Char}

/-! ### Hexadecimal digits -/

/-- The number with the given hexadecimal digits. -/
def hexNumber (digits : List Char) : Nat :=
  digits.foldl (fun n digit => 16 * n + (hexValue? digit).getD 0) 0

theorem length_hexDigits (width n : Nat) : (hexDigits width n).length = width := by
  induction width generalizing n with
  | zero => rfl
  | succ width ih => rw [hexDigits, List.length_append, ih, List.length_singleton]

theorem exists_of_mem_hexDigits (h : c ∈ hexDigits width n) :
    ∃ digit < 16, c = Nat.digitChar digit := by
  induction width generalizing n with
  | zero => cases h
  | succ width ih =>
    rcases List.mem_append.mp h with h | h
    · exact ih h
    · exact ⟨n % 16, Nat.mod_lt _ (by decide), List.mem_singleton.mp h⟩

/-- Digits write the number that they are the last digits of, if it has no more. -/
theorem hexNumber_hexDigits (h : n < 16 ^ width) : hexNumber (hexDigits width n) = n := by
  induction width generalizing n with
  | zero =>
    rw [Nat.pow_zero] at h
    exact (Nat.lt_one_iff.mp h).symm
  | succ width ih =>
    have hdiv : n / 16 < 16 ^ width := Nat.div_lt_of_lt_mul (by rwa [Nat.pow_succ'] at h)
    have hdigits : hexNumber (hexDigits (width + 1) n) =
        16 * hexNumber (hexDigits width (n / 16)) + n % 16 := by
      rw [hexDigits, hexNumber, List.foldl_concat, hexValue?_digitChar (Nat.mod_lt n (by decide))]
      rfl
    rw [hdigits, ih hdiv]
    exact Nat.div_add_mod n 16

/-! ### One line -/

/-- No break of a line is printable, so all of them are escaped. -/
theorem isPrintable_of_isLineBreak (h : isLineBreak c = true) : isPrintable c = false := by
  have hall : lineBreaks.all (fun c => !isPrintable c) = true := by decide +kernel
  simpa using List.all_eq_true.mp hall c (List.contains_iff_mem.mp h)

theorem unbroken_hexDigits (width n : Nat) : Unbroken (hexDigits width n) := by
  have hall : ∀ digit < 16, isLineBreak (Nat.digitChar digit) = false := by decide
  intro c hc
  obtain ⟨digit, hdigit, rfl⟩ := exists_of_mem_hexDigits hc
  exact hall digit hdigit

/-- What is escaped is no line break any more. -/
theorem unbroken_escaped (hquote : isLineBreak quote = false) (c : Char) :
    Unbroken (escaped quote c) := by
  have hbackslash : isLineBreak '\\' = false := rfl
  unfold escaped
  split_ifs with hself htab hfeed hreturn hprintable hshort hmiddle
  · rcases hself with rfl | rfl
    · exact unbroken_cons.mpr ⟨hbackslash, unbroken_singleton.mpr hquote⟩
    · exact unbroken_cons.mpr ⟨hbackslash, unbroken_singleton.mpr hbackslash⟩
  · decide
  · decide
  · decide
  · -- A line break is not printable, and so it is not written as it is.
    refine unbroken_singleton.mpr (Bool.eq_false_iff.mpr fun hbreak => ?_)
    rw [isPrintable_of_isLineBreak hbreak] at hprintable
    cases hprintable
  all_goals exact unbroken_cons.mpr ⟨hbackslash, unbroken_cons.mpr ⟨rfl, unbroken_hexDigits _ _⟩⟩

/-- There are two quotes. -/
theorem quoteOf_eq (text : List Char) : quoteOf text = '\x27' ∨ quoteOf text = '\x22' := by
  unfold quoteOf
  split
  · exact .inr rfl
  · exact .inl rfl

theorem isLineBreak_quoteOf (text : List Char) : isLineBreak (quoteOf text) = false := by
  rcases quoteOf_eq text with h | h <;> rw [h] <;> rfl

/-- A quoted literal stands on one line. -/
theorem unbroken_quotedChars (text : List Char) : Unbroken (quotedChars text) := by
  have hquote := isLineBreak_quoteOf text
  refine unbroken_append.mpr ⟨unbroken_cons.mpr ⟨hquote, ?_⟩, unbroken_singleton.mpr hquote⟩
  intro d hd
  obtain ⟨c, -, hc⟩ := List.mem_flatMap.mp hd
  exact unbroken_escaped hquote c d hc

/-! ### Reading -/

/-- The number of digits behind a letter that announces the code of a character. -/
def codeWidth? : Char → Option Nat
  | 'x' => some 2
  | 'u' => some 4
  | 'U' => some 8
  | _ => none

/-- What any other character behind a backslash stands for. -/
def letterMeaning : Char → Char
  | 't' => '\t'
  | 'n' => '\n'
  | 'r' => '\r'
  | c => c

/-- The first character of what stands between the quotes, and what comes behind it. -/
def readEscaped : List Char → Option (Char × List Char)
  | '\\' :: letter :: rest =>
    match codeWidth? letter with
    | some width => some (Char.ofNat (hexNumber (rest.take width)), rest.drop width)
    | none => some (letterMeaning letter, rest)
  | c :: rest => some (c, rest)
  | [] => none

/-- What is no backslash stands for itself. -/
theorem readEscaped_plain (hc : c ≠ '\\') (rest : List Char) :
    readEscaped (c :: rest) = some (c, rest) := by
  rw [readEscaped]
  exact fun _ _ h _ => hc h

/-- The digits of a code are read back. -/
theorem readEscaped_code {letter : Char} (hletter : codeWidth? letter = some width)
    (hc : c.toNat < 16 ^ width) (rest : List Char) :
    readEscaped ('\\' :: letter :: hexDigits width c.toNat ++ rest) = some (c, rest) := by
  have hlength := length_hexDigits width c.toNat
  rw [List.cons_append, List.cons_append, readEscaped, hletter]
  dsimp only
  rw [List.take_left' hlength, List.drop_left' hlength, hexNumber_hexDigits hc, Char.ofNat_toNat]

/-- Each character is read off its escape, whatever comes behind it. -/
theorem readEscaped_append (hquote : quote = '\x27' ∨ quote = '\x22') (c : Char)
    (rest : List Char) : readEscaped (escaped quote c ++ rest) = some (c, rest) := by
  unfold escaped
  split_ifs with hself htab hfeed hreturn hprintable hshort hmiddle
  · rcases hself with rfl | rfl
    · rcases hquote with rfl | rfl <;> rfl
    · rfl
  · rw [htab]
    rfl
  · rw [hfeed]
    rfl
  · rw [hreturn]
    rfl
  · exact readEscaped_plain (fun hc => hself (.inr hc)) rest
  · exact readEscaped_code rfl hshort rest
  · exact readEscaped_code rfl hmiddle rest
  · have hvalid : c.toNat < 0x110000 := by
      rcases c.valid with h | ⟨-, h⟩
      · exact Nat.lt_trans h (by decide)
      · exact h
    exact readEscaped_code rfl (Nat.lt_trans hvalid (by decide)) rest

/-- No escape starts with the quote that ends the literal. -/
theorem head?_escaped_ne (hquote : quote = '\x27' ∨ quote = '\x22') (c : Char)
    (rest : List Char) : (escaped quote c ++ rest).head? ≠ some quote := by
  have hback : some '\\' ≠ some quote := by rcases hquote with rfl | rfl <;> decide
  unfold escaped
  split_ifs with hself
  case pos => exact hback
  all_goals first
    | exact hback
    | exact fun h => hself (.inl (Option.some.inj h))

/-- Where the quote stands that ends the literal, and what stands before it. -/
theorem eq_and_eq_of_flatMap_escaped_append_eq (hquote : quote = '\x27' ∨ quote = '\x22')
    (h : a.flatMap (escaped quote) ++ quote :: rest = b.flatMap (escaped quote) ++ quote :: rest') :
    a = b ∧ rest = rest' := by
  induction a generalizing b with
  | nil =>
    cases b with
    | nil => exact ⟨rfl, (List.cons.inj h).2⟩
    | cons d b =>
      rw [List.flatMap_cons, List.append_assoc] at h
      exact absurd (congrArg List.head? h).symm (head?_escaped_ne hquote d _)
  | cons c a ih =>
    cases b with
    | nil =>
      rw [List.flatMap_cons, List.append_assoc] at h
      exact absurd (congrArg List.head? h) (head?_escaped_ne hquote c _)
    | cons d b =>
      have hread := congrArg readEscaped h
      rw [List.flatMap_cons, List.flatMap_cons, List.append_assoc, List.append_assoc,
        readEscaped_append hquote, readEscaped_append hquote, Option.some_inj, Prod.mk.injEq]
        at hread
      obtain ⟨rfl, hrest⟩ := hread
      obtain ⟨rfl, hbehind⟩ := ih hrest
      exact ⟨rfl, hbehind⟩

/-- A quoted literal in front of a text can be told apart from it. -/
theorem eq_and_eq_of_quotedChars_append_eq (h : quotedChars a ++ rest = quotedChars b ++ rest') :
    a = b ∧ rest = rest' := by
  simp only [quotedChars, List.cons_append, List.append_assoc, List.nil_append,
    List.cons.injEq] at h
  obtain ⟨hquote, h⟩ := h
  rw [← hquote] at h
  exact eq_and_eq_of_flatMap_escaped_append_eq (quoteOf_eq a) h

end CucumberExpressions.Text
