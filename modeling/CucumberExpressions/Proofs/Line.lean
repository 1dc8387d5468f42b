import CucumberExpressions.Text.Line
import Mathlib.Tactic.Basic

/-!
# Lines and the spellings of a line break

A carriage return, a line feed, and the two of them as a pair are three spellings of one line break.
Which of them a text uses makes no difference to its lines. A text can be cut behind any break, as
long as the cut does not go through a pair: the lines are those of the two parts. All this depends
only on the characters for which the members of the text stand.

## Main definitions

* `Text.IsClosed` — a text whose last line is ended by a break
* `Text.Unbroken` — a text without line breaks
* `Text.BreakSpelling` — the ways to write one line break

## Main results

* `Text.splitLinesBy_induction` — induction on a text, by what its first character is to the lines
* `Text.splitLinesBy_map` — the lines of what stands for something else
* `Text.splitLinesBy_append` — the lines of two texts after each other
* `Text.splitLines_unifyBreaks` — the lines stay the same if every break is spelt as a line feed
* `Text.exists_of_getElem?_splitLines` — where in the text a line stands
-/

namespace CucumberExpressions.Text

/-! ### The first character -/

section SplitLinesBy

variable {α β : Type} {char : α → Char} {c d : α} {rest text a b : List α}

theorem splitLinesBy_nil : splitLinesBy char [] = [] := by
  rw [splitLinesBy]

theorem splitLinesBy_singleton (c : α) :
    splitLinesBy char [c] = if isLineBreak (char c) then [[]] else [[c]] := by
  rw [splitLinesBy]

theorem splitLinesBy_pair (hc : char c = '\r') (hd : char d = '\n') (rest : List α) :
    splitLinesBy char (c :: d :: rest) = [] :: splitLinesBy char rest := by
  rw [splitLinesBy, if_pos ⟨hc, hd⟩]

/-- A break ends an empty line, unless it is the first half of a pair. -/
theorem splitLinesBy_cons_of_isLineBreak (hc : isLineBreak (char c) = true)
    (hpair : char c = '\r' → (rest.map char).head? ≠ some '\n') :
    splitLinesBy char (c :: rest) = [] :: splitLinesBy char rest := by
  cases rest with
  | nil => rw [splitLinesBy_singleton, if_pos hc, splitLinesBy_nil]
  | cons d rest =>
    have hno : ¬ (char c = '\r' ∧ char d = '\n') :=
      fun h => hpair h.1 (congrArg some h.2)
    rw [splitLinesBy, if_neg hno, if_pos hc]

/-- Any other character stands at the start of the first line. -/
theorem splitLinesBy_cons_of_not_isLineBreak (hc : isLineBreak (char c) = false) (rest : List α) :
    splitLinesBy char (c :: rest) =
      match splitLinesBy char rest with
      | [] => [[c]]
      | line :: lines => (c :: line) :: lines := by
  have hbreak : ¬ isLineBreak (char c) = true := by simp [hc]
  cases rest with
  | nil => rw [splitLinesBy_singleton, if_neg hbreak, splitLinesBy_nil]
  | cons d rest =>
    have hno : ¬ (char c = '\r' ∧ char d = '\n') := by
      rintro ⟨h, -⟩
      rw [h] at hc
      cases hc
    rw [splitLinesBy]
    exact (if_neg hno).trans (if_neg hbreak)

/-- Induction on a text, by what its first character is to the lines: it may start a pair, be a
break of its own, or belong to the first line. -/
theorem splitLinesBy_induction (char : α → Char) {motive : List α → Prop} (nil : motive [])
    (pair : ∀ c d rest, char c = '\r' → char d = '\n' → motive rest → motive (c :: d :: rest))
    (single : ∀ c rest, isLineBreak (char c) = true →
      (char c = '\r' → (rest.map char).head? ≠ some '\n') → motive rest → motive (c :: rest))
    (inner : ∀ c rest, isLineBreak (char c) = false → motive rest → motive (c :: rest))
    (text : List α) : motive text := by
  fun_induction splitLinesBy char text with
  | case1 => exact nil
  | case2 c hc => exact single c [] hc nofun nil
  | case3 c hc => exact inner c [] (by simpa using hc) nil
  | case4 c d rest hpair ih => exact pair c d rest hpair.1 hpair.2 ih
  | case5 c d rest hpair hc ih =>
    exact single c (d :: rest) hc (fun hreturn h => hpair ⟨hreturn, Option.some.inj h⟩) ih
  | case6 c d rest _ hc _ ih | case7 c d rest _ hc _ _ _ ih =>
    exact inner c (d :: rest) (by simpa using hc) ih

/-- The lines of what stands for something else are the lines of this, member by member. -/
theorem splitLinesBy_map (f : β → Char) (g : α → β) (text : List α) :
    splitLinesBy f (text.map g) = (splitLinesBy (f ∘ g) text).map (List.map g) := by
  induction text using splitLinesBy_induction (f ∘ g) with
  | nil => rfl
  | pair c d rest hc hd ih =>
    have hc' : f (g c) = '\r' := hc
    have hd' : f (g d) = '\n' := hd
    rw [splitLinesBy_pair hc hd, List.map_cons, List.map_cons, splitLinesBy_pair hc' hd', ih]
    rfl
  | single c rest hc hpair ih =>
    have hc' : isLineBreak (f (g c)) = true := hc
    rw [splitLinesBy_cons_of_isLineBreak hc hpair, List.map_cons,
      splitLinesBy_cons_of_isLineBreak hc' (by rwa [List.map_map]), ih]
    rfl
  | inner c rest hc ih =>
    have hc' : isLineBreak (f (g c)) = false := hc
    rw [splitLinesBy_cons_of_not_isLineBreak hc, List.map_cons,
      splitLinesBy_cons_of_not_isLineBreak hc', ih]
    cases splitLinesBy (f ∘ g) rest <;> rfl

/-- Only the empty text has no lines. -/
theorem splitLinesBy_eq_nil_iff : splitLinesBy char text = [] ↔ text = [] := by
  induction text using splitLinesBy_induction char with
  | nil => exact iff_of_true rfl rfl
  | pair c d rest hc hd => simp [splitLinesBy_pair hc hd]
  | single c rest hc hpair => simp [splitLinesBy_cons_of_isLineBreak hc hpair]
  | inner c rest hc =>
    rw [splitLinesBy_cons_of_not_isLineBreak hc]
    cases splitLinesBy char rest <;> simp

end SplitLinesBy

/-! ### Texts after each other -/

variable {c : Char} {text rest a b line spelling : List Char} {n : Nat}

/-- A text whose last line is ended by a break, so that what is added to it starts a new line. The
empty text is one. -/
def IsClosed (text : List Char) : Prop := ∀ c, text.getLast? = some c → isLineBreak c = true

theorem getLast?_cons_of_eq_some {x : Char} (h : rest.getLast? = some x) :
    (c :: rest).getLast? = some x := by
  rw [List.getLast?_cons, h, Option.getD_some]

theorem IsClosed.of_cons (h : IsClosed (c :: rest)) : IsClosed rest :=
  fun x hx => h x (getLast?_cons_of_eq_some hx)

theorem IsClosed.cons (h : IsClosed rest) (hc : rest = [] → isLineBreak c = true) :
    IsClosed (c :: rest) := by
  intro x hx
  rw [List.getLast?_cons] at hx
  cases hlast : rest.getLast? with
  | none =>
    rw [hlast] at hx
    exact Option.some.inj hx ▸ hc (List.getLast?_eq_none_iff.mp hlast)
  | some y =>
    rw [hlast] at hx
    exact Option.some.inj hx ▸ h y hlast

/-- A break at the end closes a text. -/
theorem isClosed_concat (hc : isLineBreak c = true) (text : List Char) :
    IsClosed (text ++ [c]) := by
  intro x hx
  rw [List.getLast?_concat] at hx
  exact Option.some.inj hx ▸ hc

/-- A character that is not the first half of a pair does not become one by what is added behind,
unless it stands at the seam. -/
theorem head?_append_ne (hpair : c = '\r' → rest.head? ≠ some '\n')
    (hseam : c = '\r' → rest = [] → b.head? ≠ some '\n') :
    c = '\r' → (rest ++ b).head? ≠ some '\n' := by
  intro hc
  cases rest with
  | nil => exact hseam hc rfl
  | cons x rest => exact hpair hc

section SplitLinesBy

variable {α : Type} {char : α → Char} {feed : α} {xs ys : List α}

/-- After a text whose last line is ended the lines are counted anew, unless the seam lies inside a
pair. -/
theorem splitLinesBy_append (hclosed : IsClosed (xs.map char))
    (hseam : (xs.map char).getLast? = some '\r' → (ys.map char).head? ≠ some '\n') :
    splitLinesBy char (xs ++ ys) = splitLinesBy char xs ++ splitLinesBy char ys := by
  induction xs using splitLinesBy_induction char with
  | nil => rfl
  | pair c d rest hc hd ih =>
    have hrest := ih hclosed.of_cons.of_cons fun h =>
      hseam (getLast?_cons_of_eq_some (getLast?_cons_of_eq_some h))
    rw [List.cons_append, List.cons_append, splitLinesBy_pair hc hd, splitLinesBy_pair hc hd, hrest,
      List.cons_append]
  | single c rest hc hpair ih =>
    have hrest := ih hclosed.of_cons fun h => hseam (getLast?_cons_of_eq_some h)
    have hpair' := head?_append_ne hpair (b := ys.map char) fun hreturn hnil =>
      hseam (by rw [List.map_cons, hreturn, hnil]; rfl)
    rw [← List.map_append] at hpair'
    rw [List.cons_append, splitLinesBy_cons_of_isLineBreak hc hpair',
      splitLinesBy_cons_of_isLineBreak hc hpair, hrest, List.cons_append]
  | inner c rest hc ih =>
    have hrest := ih hclosed.of_cons fun h => hseam (getLast?_cons_of_eq_some h)
    rw [List.cons_append, splitLinesBy_cons_of_not_isLineBreak hc,
      splitLinesBy_cons_of_not_isLineBreak hc, hrest]
    cases hlines : splitLinesBy char rest with
    | nil =>
      -- The text ends here, but not in a break.
      obtain rfl := splitLinesBy_eq_nil_iff.mp hlines
      exact absurd (hclosed (char c) rfl) (by simp [hc])
    | cons line lines => rfl

/-- A line feed at the end of a text ends its last line. If this line has been ended before, there
is an empty line more. -/
theorem splitLinesBy_concat_lineFeed (hfeed : char feed = '\n') (text : List α) :
    splitLinesBy char (text ++ [feed]) = splitLinesBy char text ∨
      splitLinesBy char (text ++ [feed]) = splitLinesBy char text ++ [[]] := by
  have hbreak : isLineBreak (char feed) = true := by rw [hfeed]; rfl
  induction text using splitLinesBy_induction char with
  | nil =>
    right
    rw [List.nil_append, splitLinesBy_singleton, if_pos hbreak, splitLinesBy_nil]
    rfl
  | pair c d rest hc hd ih =>
    rw [List.cons_append, List.cons_append, splitLinesBy_pair hc hd, splitLinesBy_pair hc hd]
    exact ih.imp (congrArg _) (congrArg _)
  | single c rest hc hpair ih =>
    by_cases hreturn : char c = '\r' ∧ rest = []
    · -- The line feed is the second half of a pair.
      obtain ⟨hreturn, rfl⟩ := hreturn
      left
      rw [List.singleton_append, splitLinesBy_pair hreturn hfeed, splitLinesBy_nil,
        splitLinesBy_singleton, if_pos hc]
    · have hpair' := head?_append_ne hpair (b := [feed].map char) fun hc hnil =>
        absurd ⟨hc, List.map_eq_nil_iff.mp hnil⟩ hreturn
      rw [← List.map_append] at hpair'
      rw [List.cons_append, splitLinesBy_cons_of_isLineBreak hc hpair',
        splitLinesBy_cons_of_isLineBreak hc hpair]
      exact ih.imp (congrArg _) (congrArg _)
  | inner c rest hc ih =>
    rw [List.cons_append, splitLinesBy_cons_of_not_isLineBreak hc,
      splitLinesBy_cons_of_not_isLineBreak hc]
    cases hlines : splitLinesBy char rest with
    | nil =>
      -- The line feed ends the line of this one character.
      obtain rfl := splitLinesBy_eq_nil_iff.mp hlines
      left
      rw [List.nil_append, splitLinesBy_singleton, if_pos hbreak]
    | cons line lines =>
      rw [hlines] at ih
      rcases ih with ih | ih
      · left
        rw [ih]
      · right
        rw [ih]
        rfl

/-- A line that is ended by a break is one line, even if it is empty. -/
theorem splitLinesBy_concat_of_isLineBreak (hline : ∀ x ∈ xs, isLineBreak (char x) = false)
    (hfeed : isLineBreak (char feed) = true) : splitLinesBy char (xs ++ [feed]) = [xs] := by
  induction xs with
  | nil => rw [List.nil_append, splitLinesBy_singleton, if_pos hfeed]
  | cons x xs ih =>
    rw [List.cons_append, splitLinesBy_cons_of_not_isLineBreak (hline x List.mem_cons_self),
      ih fun y hy => hline y (List.mem_cons_of_mem _ hy)]

end SplitLinesBy

/-! ### Texts of characters -/

theorem splitLines_pair (rest : List Char) :
    splitLines ('\r' :: '\n' :: rest) = [] :: splitLines rest :=
  @splitLinesBy_pair Char id '\r' '\n' rfl rfl rest

theorem splitLines_cons_of_isLineBreak (hc : isLineBreak c = true)
    (hpair : c = '\r' → rest.head? ≠ some '\n') :
    splitLines (c :: rest) = [] :: splitLines rest :=
  @splitLinesBy_cons_of_isLineBreak Char id c rest hc (by rwa [List.map_id])

theorem splitLines_cons_of_not_isLineBreak (hc : isLineBreak c = false) (rest : List Char) :
    splitLines (c :: rest) =
      match splitLines rest with
      | [] => [[c]]
      | line :: lines => (c :: line) :: lines := by
  rw [splitLines, splitLines, @splitLinesBy_cons_of_not_isLineBreak Char id c hc rest]
  cases splitLinesBy id rest <;> rfl

theorem splitLines_eq_nil_iff : splitLines text = [] ↔ text = [] := splitLinesBy_eq_nil_iff

theorem splitLines_append (ha : IsClosed a) (hseam : a.getLast? = some '\r' → b.head? ≠ some '\n') :
    splitLines (a ++ b) = splitLines a ++ splitLines b :=
  splitLinesBy_append (by rwa [List.map_id]) (by rwa [List.map_id, List.map_id])

theorem splitLines_concat_of_isLineBreak (hline : ∀ x ∈ line, isLineBreak x = false)
    (hc : isLineBreak c = true) : splitLines (line ++ [c]) = [line] :=
  splitLinesBy_concat_of_isLineBreak hline hc

/-- Induction on a text of characters, by what its first one is to the lines. -/
theorem splitLines_induction {motive : List Char → Prop} (nil : motive [])
    (pair : ∀ rest, motive rest → motive ('\r' :: '\n' :: rest))
    (single : ∀ c rest, isLineBreak c = true → (c = '\r' → rest.head? ≠ some '\n') → motive rest →
      motive (c :: rest))
    (inner : ∀ c rest, isLineBreak c = false → motive rest → motive (c :: rest))
    (text : List Char) : motive text := by
  induction text using splitLinesBy_induction id with
  | nil => exact nil
  | pair c d rest hc hd ih =>
    obtain rfl : c = '\r' := hc
    obtain rfl : d = '\n' := hd
    exact pair rest ih
  | single c rest hc hpair ih => exact single c rest hc (by rwa [List.map_id] at hpair) ih
  | inner c rest hc ih => exact inner c rest hc ih

/-- The lines stay the same if every break is spelt as a line feed. -/
theorem splitLines_unifyBreaks (text : List Char) :
    splitLines (unifyBreaks text) = splitLines text := by
  fun_induction unifyBreaks text with
  | case1 => rfl
  | case2 rest ih =>
    rw [splitLines_pair, splitLines_cons_of_isLineBreak rfl (fun h => absurd h (by decide)), ih]
  | case3 c rest hpair ih =>
    have hpair' : c = '\r' → rest.head? ≠ some '\n' := by
      rintro hreturn h
      obtain ⟨rest', rfl⟩ := List.head?_eq_some_iff.mp h
      exact hpair rest' hreturn rfl
    by_cases hreturn : c = '\r'
    · -- The line feed in its place cannot be taken for the first half of a pair.
      subst hreturn
      rw [if_pos rfl, splitLines_cons_of_isLineBreak rfl (fun h => absurd h (by decide)),
        splitLines_cons_of_isLineBreak rfl hpair', ih]
    · rw [if_neg hreturn]
      cases hc : isLineBreak c with
      | true =>
        rw [splitLines_cons_of_isLineBreak hc (fun h => absurd h hreturn),
          splitLines_cons_of_isLineBreak hc (fun h => absurd h hreturn), ih]
      | false =>
        rw [splitLines_cons_of_not_isLineBreak hc, splitLines_cons_of_not_isLineBreak hc, ih]

/-! ### Single lines -/

/-- The ways to write one line break: a character that ends a line, or the pair of a carriage return
and a line feed. -/
inductive BreakSpelling : List Char → Prop
  | single {c : Char} (h : isLineBreak c = true) : BreakSpelling [c]
  | pair : BreakSpelling ['\r', '\n']

/-- A text without line breaks. -/
def Unbroken (line : List Char) : Prop := ∀ c ∈ line, isLineBreak c = false

instance (line : List Char) : Decidable (Unbroken line) :=
  List.decidableBAll (fun c => isLineBreak c = false) line

theorem unbroken_cons : Unbroken (c :: line) ↔ isLineBreak c = false ∧ Unbroken line :=
  List.forall_mem_cons

theorem unbroken_singleton : Unbroken [c] ↔ isLineBreak c = false :=
  List.forall_mem_singleton

theorem unbroken_append : Unbroken (a ++ b) ↔ Unbroken a ∧ Unbroken b :=
  List.forall_mem_append

/-- A text without breaks is one line, if it is not empty. -/
theorem splitLines_of_unbroken (h : Unbroken line) (hne : line ≠ []) :
    splitLines line = [line] := by
  induction line with
  | nil => exact absurd rfl hne
  | cons c line ih =>
    obtain ⟨hc, hline⟩ := unbroken_cons.mp h
    rw [splitLines_cons_of_not_isLineBreak hc]
    by_cases hnil : line = []
    · rw [hnil]
      rfl
    · rw [ih hline hnil]

/-- A line is ended by any spelling of a break. -/
theorem splitLines_append_spelling (h : Unbroken line) (hspelling : BreakSpelling spelling) :
    splitLines (line ++ spelling) = [line] := by
  cases hspelling with
  | single hc => exact splitLines_concat_of_isLineBreak h hc
  | pair =>
    induction line with
    | nil => rfl
    | cons c line ih =>
      obtain ⟨hc, hline⟩ := unbroken_cons.mp h
      rw [List.cons_append, splitLines_cons_of_not_isLineBreak hc, ih hline]

/-- Any spelling of a break at the end closes a text. -/
theorem BreakSpelling.isClosed_append (h : BreakSpelling spelling) (line : List Char) :
    IsClosed (line ++ spelling) := by
  cases h with
  | single hc => exact isClosed_concat hc line
  | pair =>
    rw [List.append_cons]
    exact isClosed_concat rfl (line ++ ['\r'])

/-- The first line of a text that has one and a line feed behind it. -/
theorem splitLines_append_lineFeed (h : Unbroken line) (text : List Char) :
    splitLines (line ++ '\n' :: text) = line :: splitLines text := by
  have hseam : (line ++ ['\n']).getLast? = some '\r' → text.head? ≠ some '\n' := by
    rw [List.getLast?_concat]
    exact fun h => absurd h (by decide)
  rw [List.append_cons, splitLines_append (isClosed_concat rfl line) hseam,
    splitLines_concat_of_isLineBreak h rfl]
  rfl

/-! ### The place of a line -/

/-- A line stands after closed text with as many lines as its number says, and has no breaks. -/
theorem exists_of_getElem?_splitLines (h : (splitLines text)[n]? = some line) :
    ∃ before after, text = before ++ line ++ after ∧ IsClosed before ∧
      (splitLines before).length = n ∧ ∀ c ∈ line, isLineBreak c = false := by
  induction text using splitLines_induction generalizing n line with
  | nil => cases h
  | pair rest ih =>
    rw [splitLines_pair] at h
    cases n with
    | zero =>
      cases h
      exact ⟨[], '\r' :: '\n' :: rest, rfl, nofun, rfl, by simp⟩
    | succ n =>
      obtain ⟨before, after, rfl, hclosed, hlength, hline⟩ := ih h
      refine ⟨'\r' :: '\n' :: before, after, rfl, (hclosed.cons fun _ => rfl).cons fun _ => rfl, ?_,
        hline⟩
      rw [splitLines_pair, List.length_cons, hlength]
  | single c rest hc hpair ih =>
    rw [splitLines_cons_of_isLineBreak hc hpair] at h
    cases n with
    | zero =>
      cases h
      exact ⟨[], c :: rest, rfl, nofun, rfl, by simp⟩
    | succ n =>
      obtain ⟨before, after, rfl, hclosed, hlength, hline⟩ := ih h
      have hpair' : c = '\r' → before.head? ≠ some '\n' := by
        intro hreturn hhead
        obtain ⟨before', rfl⟩ := List.head?_eq_some_iff.mp hhead
        exact hpair hreturn rfl
      refine ⟨c :: before, after, rfl, hclosed.cons fun _ => hc, ?_, hline⟩
      rw [splitLines_cons_of_isLineBreak hc hpair', List.length_cons, hlength]
  | inner c rest hc ih =>
    rw [splitLines_cons_of_not_isLineBreak hc] at h
    cases hlines : splitLines rest with
    | nil =>
      obtain rfl := splitLines_eq_nil_iff.mp hlines
      cases n with
      | zero =>
        cases h
        exact ⟨[], [], rfl, nofun, rfl, by simpa using hc⟩
      | succ n => cases h
    | cons first lines =>
      rw [hlines] at h
      cases n with
      | zero =>
        cases h
        obtain ⟨before, after, rfl, -, hlength, hline⟩ := ih (by rw [hlines]; rfl : _[0]? = _)
        -- Nothing comes before the first line.
        obtain rfl := splitLines_eq_nil_iff.mp (List.length_eq_zero_iff.mp hlength)
        exact ⟨[], after, rfl, nofun, rfl, by simpa using ⟨hc, hline⟩⟩
      | succ n =>
        obtain ⟨before, after, rfl, hclosed, hlength, hline⟩ :=
          ih (by rw [hlines]; exact h : _[n + 1]? = _)
        -- The character goes in front of the first line, which is not this one.
        have hne : before ≠ [] := by
          rintro rfl
          cases hlength
        refine ⟨c :: before, after, rfl, hclosed.cons fun h => absurd h hne, ?_, hline⟩
        rw [splitLines_cons_of_not_isLineBreak hc]
        cases hbefore : splitLines before with
        | nil => exact absurd (splitLines_eq_nil_iff.mp hbefore) hne
        | cons => simpa [hbefore] using hlength

end CucumberExpressions.Text
