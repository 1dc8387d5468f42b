import CucumberExpressions.Proofs.Kind
import CucumberExpressions.Proofs.Quoted
import CucumberExpressions.Token.Dump

/-!
# Dumps of tokens lose nothing

A dump has one line for each token, even if the texts of the tokens have line breaks in them, or
look like the end of a line of the dump. The tokens can be read off the lines: the name of the kind
goes up to the bracket, the quoted text ends where its literal does, and the first offset ends at
the points. So different lists of tokens have different dumps.

## Main definitions

* `Text.intOf` — the integer that is written with decimal digits

## Main results

* `Token.splitLines_dump` — the lines of a dump
* `Token.describe_injective` — a token can be read off its line
* `Token.dump_loses_nothing` — a dump has a line for each token, and it tells the tokens
-/

namespace CucumberExpressions

namespace Text

/-- What stands before the first `d`, and what stands behind it. -/
theorem eq_and_eq_of_append_cons_eq {α : Type*} {d : α} {a b rest rest' : List α} (ha : d ∉ a)
    (hb : d ∉ b) (h : a ++ d :: rest = b ++ d :: rest') : a = b ∧ rest = rest' := by
  induction a generalizing b with
  | nil =>
    cases b with
    | nil => exact ⟨rfl, (List.cons.inj h).2⟩
    | cons y b => exact absurd (List.cons.inj h).1 (List.ne_of_not_mem_cons hb)
  | cons x a ih =>
    cases b with
    | nil => exact absurd (List.cons.inj h).1.symm (List.ne_of_not_mem_cons ha)
    | cons y b =>
      obtain ⟨rfl, htail⟩ := List.cons.inj h
      obtain ⟨rfl, hrest⟩ :=
        ih (List.not_mem_of_not_mem_cons ha) (List.not_mem_of_not_mem_cons hb) htail
      exact ⟨rfl, hrest⟩

/-! ### Offsets -/

/-- An integer is written in decimal, with a dash before it if it is negative. -/
theorem toList_toString (n : Int) :
    (toString n).toList =
      if 0 ≤ n then Nat.toDigits 10 n.toNat else '-' :: Nat.toDigits 10 (-n).toNat := by
  have htext : toString n = n.repr := rfl
  rw [htext, Int.repr_eq_if]
  split
  · rw [Nat.toList_repr]
  · rw [String.toList_append, Nat.toList_repr]
    rfl

theorem eq_dash_or_isDigit_of_mem_toString {n : Int} {c : Char} (h : c ∈ (toString n).toList) :
    c = '-' ∨ c.isDigit = true := by
  have hdigits : ∀ m : Nat, c ∈ Nat.toDigits 10 m → c.isDigit = true := fun _ hm =>
    Nat.isDigit_of_mem_toDigits (by decide) (by decide) hm
  rw [toList_toString] at h
  split at h
  · exact .inr (hdigits _ h)
  · rcases List.mem_cons.mp h with h | h
    · exact .inl h
    · exact .inr (hdigits _ h)

theorem point_notMem_toString (n : Int) : '.' ∉ (toString n).toList := by
  intro h
  rcases eq_dash_or_isDigit_of_mem_toString h with h | h <;> exact absurd h (by decide)

/-- Integers are written on one line. -/
theorem unbroken_toString (n : Int) : Unbroken (toString n).toList := by
  have hbreaks : lineBreaks.all (fun c => c ≠ '-' && !c.isDigit) = true := by decide
  intro c hc
  refine Bool.eq_false_iff.mpr fun hbreak => ?_
  have hother := List.all_eq_true.mp hbreaks c (List.contains_iff_mem.mp hbreak)
  rcases eq_dash_or_isDigit_of_mem_toString hc with rfl | hdigit
  · cases hother
  · simp [hdigit] at hother

/-- The integer that is written with decimal digits, perhaps with a dash in front of them. -/
def intOf : List Char → Int
  | '-' :: digits => -(Nat.ofDigitChars 10 digits 0 : Int)
  | digits => (Nat.ofDigitChars 10 digits 0 : Int)

/-- An integer can be read off its digits. -/
theorem intOf_toString (n : Int) : intOf (toString n).toList = n := by
  rw [toList_toString]
  split
  next h =>
    have hdash : ∀ digits, Nat.toDigits 10 n.toNat = '-' :: digits → False := by
      intro digits hdigits
      have hdigit : '-'.isDigit = true := Nat.isDigit_of_mem_toDigits (b := 10) (n := n.toNat)
        (by decide) (by decide) (by rw [hdigits]; exact List.mem_cons_self)
      exact absurd hdigit (by decide)
    rw [intOf.eq_2 _ hdash, Nat.ofDigitChars_ten_toDigits]
    omega
  next h =>
    rw [intOf, Nat.ofDigitChars_ten_toDigits]
    omega

/-- Integers are told apart by how they are written. -/
theorem toString_injective : Function.Injective (toString : Int → String) := by
  intro n m h
  rw [← intOf_toString n, h, intOf_toString]

end Text

open Text

/-! ### Lines -/

namespace Kind

/-- No name of a kind has a bracket in it, so the first bracket ends the name. -/
theorem bracket_notMem_name (kind : Kind) : '(' ∉ kind.name.toList := by
  cases kind <;> decide

theorem unbroken_name (kind : Kind) : Unbroken kind.name.toList := by
  cases kind <;> decide

end Kind

namespace Token

/-- The parts of a line of the dump: a name, a quoted literal in brackets, and two offsets. -/
theorem toList_describe (token : Token) :
    token.describe.toList = token.kind.name.toList ++ '(' :: (quotedChars token.text.toList ++
      ')' :: '@' :: ((toString token.start).toList ++
        '.' :: '.' :: (toString token.stop).toList)) := by
  simp [describe, quoted]

/-- A token can be read off its text form. -/
theorem describe_injective : Function.Injective describe := by
  intro first second h
  have hchars := congrArg String.toList h
  rw [toList_describe, toList_describe] at hchars
  obtain ⟨hkind, hchars⟩ := eq_and_eq_of_append_cons_eq first.kind.bracket_notMem_name
    second.kind.bracket_notMem_name hchars
  obtain ⟨htext, hchars⟩ := eq_and_eq_of_quotedChars_append_eq hchars
  obtain ⟨hstart, hstop⟩ := eq_and_eq_of_append_cons_eq (point_notMem_toString first.start)
    (point_notMem_toString second.start) (List.cons.inj (List.cons.inj hchars).2).2
  cases first
  cases second
  cases Kind.name_injective (String.toList_inj.mp hkind)
  cases String.toList_inj.mp htext
  cases toString_injective (String.toList_inj.mp hstart)
  cases toString_injective (String.toList_inj.mp (List.cons.inj hstop).2)
  rfl

/-- A token is described on one line. -/
theorem unbroken_describe (token : Token) : Unbroken token.describe.toList := by
  rw [toList_describe]
  refine unbroken_append.mpr ⟨token.kind.unbroken_name, unbroken_cons.mpr ⟨rfl, ?_⟩⟩
  refine unbroken_append.mpr ⟨unbroken_quotedChars _, ?_⟩
  refine unbroken_cons.mpr ⟨rfl, unbroken_cons.mpr ⟨rfl, ?_⟩⟩
  refine unbroken_append.mpr ⟨unbroken_toString token.start, ?_⟩
  exact unbroken_cons.mpr ⟨rfl, unbroken_cons.mpr ⟨rfl, unbroken_toString token.stop⟩⟩

/-- A dump has a line for each token. -/
theorem splitLines_dump (tokens : List Token) :
    splitLines (dump tokens).toList = tokens.map fun token => ("  " ++ token.describe).toList := by
  induction tokens with
  | nil => rfl
  | cons token tokens ih =>
    have hline : Unbroken ("  " ++ token.describe).toList := by
      rw [String.toList_append]
      exact unbroken_append.mpr ⟨by decide, token.unbroken_describe⟩
    have hdump : (dump (token :: tokens)).toList =
        ("  " ++ token.describe).toList ++ '\n' :: (dump tokens).toList := by
      simp [dump, dumpLine]
    rw [hdump, splitLines_append_lineFeed hline, ih, List.map_cons]

/-- **A dump loses nothing.** Its lines are those of the tokens, one for each and in their order,
whatever the texts of the tokens are. Two lists of tokens have the same dump only if they are the
same. There is no bound on the offsets here; an interpreter may refuse to write an integer of more
than 4300 digits in decimal, which is more than any offset into an expression has. -/
theorem dump_loses_nothing (tokens : List Token) :
    splitLines (dump tokens).toList =
        tokens.map (fun token => ("  " ++ token.describe).toList) ∧
      (splitLines (dump tokens).toList).length = tokens.length ∧
      ∀ tokens', dump tokens = dump tokens' ↔ tokens = tokens' := by
  refine ⟨splitLines_dump tokens, ?_, fun tokens' => ⟨fun h => ?_, fun h => by rw [h]⟩⟩
  · rw [splitLines_dump, List.length_map]
  · -- The lines are the same, and each of them tells its token.
    have hlines := splitLines_dump tokens
    rw [h, splitLines_dump] at hlines
    refine Function.Injective.list_map (fun first second hline => ?_) hlines.symm
    exact describe_injective ((String.append_right_inj _).mp (String.toList_inj.mp hline))

/-- The text of the token has the rest of its line in it, and a line break. -/
example : dump [⟨.text, "a')@0..1\n", 0, 9⟩] = "  TEXT(\"a')@0..1\\n\")@0..9\n" := by
  decide +kernel

end Token

end CucumberExpressions
