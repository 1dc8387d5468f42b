import CucumberExpressions.ExpressionList
import CucumberExpressions.Proofs.Line
import Mathlib.Data.List.TakeWhile

/-!
# Writing and reading a list of expressions

A list of expressions is written to a file by giving each of them a line of its own. The lines can
be ended by any break, and lines that are blank or hold a comment can stand between them. Reading
the file gives back the list, as long as the expressions can stand on a line. Every text is such a
list, so reading a file gives nothing but expressions of this form.

A carriage return at the end of a line can meet a line feed in front of the next one. The two are
one break then, and an empty line is lost, which holds no expression anyway.

## Main definitions

* `ExpressionList.Admissible` — the expressions that can stand on a line of their own
* `ExpressionList.IsFiller` — the lines that hold no expression
* `ExpressionList.Lists` — a text lists expressions

## Main results

* `ExpressionList.ofText_append_break` — what is read line by line
* `ExpressionList.lists_iff_ofText_eq` — a text lists the expressions that are read from it
* `ExpressionList.ofBytes?_reads_what_lists` — so does a file
-/

namespace CucumberExpressions

/-! ### The text of a file -/

/-- A text is read back from its bytes. -/
theorem fromUTF8?_toUTF8 (text : String) : String.fromUTF8? text.toUTF8 = some text := by
  unfold String.fromUTF8?
  rw [String.toUTF8_eq_toByteArray, dif_pos text.isValidUTF8]
  rfl

theorem toUTF8_of_fromUTF8?_eq_some {content : ByteArray} {text : String}
    (h : String.fromUTF8? content = some text) : text.toUTF8 = content := by
  unfold String.fromUTF8? at h
  split at h
  · cases h
    rfl
  · cases h

/-- The expressions of a file are those of its text, however the breaks are spelt in it. -/
theorem ExpressionList.ofBytes?_toUTF8 (text : String) :
    ofBytes? text.toUTF8 = some (ofText text.toList) := by
  rw [ofBytes?, fromUTF8?_toUTF8, Option.map_some, ofText, Text.splitLines_unifyBreaks]
  rfl

namespace Text

/-- The first character that is not blank. -/
def firstNotBlank? (line : List Char) : Option Char := line.find? fun c => !isBlank c

end Text

namespace ExpressionList

open Text

/-! ### What is read line by line -/

variable {text line spelling : List Char} {expression : String} {expressions : List String}

/-- A line is skipped if a number sign is all that it can start with. -/
theorem isSkipped_iff :
    isSkipped line = true ↔ ∀ c, firstNotBlank? line = some c → c = '#' := by
  rw [isSkipped, firstNotBlank?, List.find?_not_eq_head?_dropWhile, ← trimStart]
  cases trimStart line <;> simp

theorem ofText_of_splitLines_eq_append {a b : List Char}
    (h : splitLines text = splitLines a ++ splitLines b) : ofText text = ofText a ++ ofText b := by
  rw [ofText, h, List.filter_append, List.map_append]
  rfl

theorem ofText_of_splitLines_eq_singleton (h : splitLines text = [line]) :
    ofText text = if isSkipped line then [] else [String.ofList line] := by
  rw [ofText, h]
  cases hskipped : isSkipped line <;> simp [hskipped]

theorem ofText_line (h : Unbroken line) :
    ofText line = if isSkipped line then [] else [String.ofList line] := by
  by_cases hne : line = []
  · subst hne
    rfl
  · exact ofText_of_splitLines_eq_singleton (splitLines_of_unbroken h hne)

/-- The break behind a line makes no difference to what is read from it. -/
theorem ofText_append_spelling (h : Unbroken line) (hspelling : BreakSpelling spelling) :
    ofText (line ++ spelling) = ofText line := by
  rw [ofText_line h,
    ofText_of_splitLines_eq_singleton (splitLines_append_spelling h hspelling)]

/-- An empty line at the start holds no expression. -/
theorem ofText_cons_lineFeed (text : List Char) : ofText ('\n' :: text) = ofText text :=
  ofText_of_splitLines_eq_append (a := ['\n'])
    (splitLines_cons_of_isLineBreak rfl fun h => absurd h (by decide))

/-- A line and its break can be read apart from what comes after them. -/
theorem ofText_append_of_seam (h : Unbroken line) (hspelling : BreakSpelling spelling)
    (hseam : (line ++ spelling).getLast? = some '\r' → text.head? ≠ some '\n') :
    ofText (line ++ spelling ++ text) = ofText line ++ ofText text := by
  rw [← ofText_append_spelling h hspelling]
  exact ofText_of_splitLines_eq_append (splitLines_append (hspelling.isClosed_append line) hseam)

/-- A line and what comes behind its break are read one after the other. -/
theorem ofText_append_break (h : Unbroken line) (hspelling : BreakSpelling spelling)
    (text : List Char) : ofText (line ++ spelling ++ text) = ofText line ++ ofText text := by
  have hpair : ∀ rest, ofText (line ++ ['\r', '\n'] ++ rest) = ofText line ++ ofText rest := by
    intro rest
    refine ofText_append_of_seam h .pair fun hlast => ?_
    simp at hlast
  cases hspelling with
  | pair => exact hpair text
  | @single c hc =>
    by_cases hseam : c = '\r' ∧ text.head? = some '\n'
    · -- The two make one break, and the line feed in front of the text goes with the line.
      obtain ⟨rfl, hhead⟩ := hseam
      obtain ⟨rest, rfl⟩ := List.head?_eq_some_iff.mp hhead
      rw [ofText_cons_lineFeed, ← hpair rest]
      simp
    · refine ofText_append_of_seam h (.single hc) fun hreturn hhead => hseam ⟨?_, hhead⟩
      simpa using hreturn

/-! ### Texts that list expressions -/

/-- The expressions that can stand on a line of their own: they have no line break, and their first
character that is not blank is there and does not start a comment. -/
structure Admissible (expression : String) : Prop where
  unbroken : Unbroken expression.toList
  exists_first : ∃ c, firstNotBlank? expression.toList = some c ∧ c ≠ '#'

/-- The lines that hold no expression: they are blank, or hold a comment. -/
structure IsFiller (line : List Char) : Prop where
  unbroken : Unbroken line
  first_eq : ∀ c, firstNotBlank? line = some c → c = '#'

/-- A text lists expressions: they stand on lines of their own, in their order, and any number of
fillers stands between the lines. Each line is ended by some break, except that there may be none
behind the last one. Behind the last break there is a filler, which may be empty, or an
expression. -/
inductive Lists : List Char → List String → Prop
  | ending {line : List Char} (h : IsFiller line) : Lists line []
  | last {expression : String} (h : Admissible expression) :
    Lists expression.toList [expression]
  | filler {line spelling text : List Char} {expressions : List String} (h : IsFiller line)
    (hspelling : BreakSpelling spelling) (htext : Lists text expressions) :
    Lists (line ++ spelling ++ text) expressions
  | expression {expression : String} {spelling text : List Char} {expressions : List String}
    (h : Admissible expression) (hspelling : BreakSpelling spelling)
    (htext : Lists text expressions) :
    Lists (expression.toList ++ spelling ++ text) (expression :: expressions)

/-- A filler holds no expression. -/
theorem IsFiller.ofText_eq (h : IsFiller line) : ofText line = [] := by
  rw [ofText_line h.unbroken, if_pos (isSkipped_iff.mpr h.first_eq)]

/-- An expression that may be listed is read from its line as it stands. -/
theorem Admissible.ofText_eq (h : Admissible expression) :
    ofText expression.toList = [expression] := by
  have hskipped : ¬ isSkipped expression.toList = true := by
    obtain ⟨c, hfirst, hc⟩ := h.exists_first
    exact fun hskipped => hc (isSkipped_iff.mp hskipped c hfirst)
  rw [ofText_line h.unbroken, if_neg hskipped, String.ofList_toList]

/-- A line without a break is a filler, or an expression. -/
theorem isFiller_or_admissible (h : Unbroken line) :
    IsFiller line ∨ Admissible (String.ofList line) := by
  by_cases hfirst : ∀ c, firstNotBlank? line = some c → c = '#'
  · exact .inl ⟨h, hfirst⟩
  · simp only [not_forall] at hfirst
    obtain ⟨c, hfirst, hc⟩ := hfirst
    refine .inr ⟨?_, c, ?_, hc⟩
    · rwa [String.toList_ofList]
    · rwa [String.toList_ofList]

/-- What a text lists is what is read from it. -/
theorem Lists.ofText_eq (h : Lists text expressions) : ofText text = expressions := by
  induction h with
  | ending h => exact h.ofText_eq
  | last h => exact h.ofText_eq
  | filler h hspelling _ ih => rw [ofText_append_break h.unbroken hspelling, h.ofText_eq, ih]; rfl
  | expression h hspelling _ ih =>
    rw [ofText_append_break h.unbroken hspelling, h.ofText_eq, ih]
    rfl

/-- Only what may stand on a line of its own is listed. -/
theorem Lists.admissible (h : Lists text expressions) :
    ∀ expression ∈ expressions, Admissible expression := by
  induction h with
  | ending => exact fun _ h => absurd h List.not_mem_nil
  | last h => exact List.forall_mem_singleton.mpr h
  | filler _ _ _ ih => exact ih
  | expression h _ _ ih => exact List.forall_mem_cons.mpr ⟨h, ih⟩

/-- Every text lists some expressions. -/
theorem exists_lists (text : List Char) : ∃ expressions, Lists text expressions := by
  -- The first line goes up to the first break, and the text behind the break is shorter.
  induction hlength : text.length using Nat.strongRecOn generalizing text with
  | ind n ih =>
    have hline : Unbroken (text.takeWhile fun c => !isLineBreak c) := fun c hc => by
      simpa using List.mem_takeWhile_imp hc
    have hsplit := List.takeWhile_append_dropWhile (p := fun c => !isLineBreak c) (l := text)
    cases hrest : text.dropWhile fun c => !isLineBreak c with
    | nil =>
      rw [hrest, List.append_nil] at hsplit
      rw [hsplit] at hline
      rcases isFiller_or_admissible hline with h | h
      · exact ⟨_, .ending h⟩
      · exact ⟨_, by simpa using Lists.last h⟩
    | cons c rest =>
      have hc : isLineBreak c = true := by
        have hhead :=
          List.head_dropWhile_not (fun c => !isLineBreak c) (l := text) (by simp [hrest])
        simpa [hrest] using hhead
      have hshorter : rest.length < n := by
        have hle := List.length_dropWhile_le (fun c => !isLineBreak c) text
        rw [hrest, List.length_cons] at hle
        omega
      obtain ⟨expressions, htext⟩ := ih rest.length hshorter rest rfl
      rw [hrest, List.append_cons] at hsplit
      rw [← hsplit]
      rcases isFiller_or_admissible hline with h | h
      · exact ⟨_, .filler h (.single hc) htext⟩
      · exact ⟨_, by simpa using Lists.expression h (.single hc) htext⟩

/-- A text lists the expressions that are read from it, and no others. -/
theorem lists_iff_ofText_eq : Lists text expressions ↔ ofText text = expressions := by
  constructor
  · exact Lists.ofText_eq
  · rintro rfl
    obtain ⟨expressions, h⟩ := exists_lists text
    rwa [h.ofText_eq]

/-! ### Files that list expressions -/

/-- **Reading undoes writing.** From a file whose text lists expressions exactly these expressions
are read, character by character and in their order. What is read from any file can stand on lines
of their own, and the text of the file lists it. -/
theorem ofBytes?_reads_what_lists :
    (∀ (text : String) (expressions : List String), Lists text.toList expressions →
      ofBytes? text.toUTF8 = some expressions) ∧
    ∀ (content : ByteArray) (expressions : List String), ofBytes? content = some expressions →
      (∀ expression ∈ expressions, Admissible expression) ∧
        ∃ text : String, content = text.toUTF8 ∧ Lists text.toList expressions := by
  constructor
  · intro text expressions h
    rw [ofBytes?_toUTF8, h.ofText_eq]
  · intro content expressions h
    obtain ⟨text, htext, -⟩ := Option.map_eq_some_iff.mp h
    obtain rfl := toUTF8_of_fromUTF8?_eq_some htext
    rw [ofBytes?_toUTF8, Option.some_inj, ← lists_iff_ofText_eq] at h
    exact ⟨h.admissible, text, rfl, h⟩

/-- The separator in front of the comment is blank but ends no line. The carriage return and the
line feed are one break, or they enclose an empty line. A byte order mark is not blank, so what is
behind it is no comment. -/
theorem ofBytes?_of_mixed_breaks :
    ofBytes? "\x1f# c\x0b a\t\r\n\ufeff#x".toUTF8 = some [" a\t", "\ufeff#x"] := by
  have htext : "\x1f# c\x0b a\t\r\n\ufeff#x".toList =
      "\x1f# c".toList ++ ['\x0b'] ++ (" a\t".toList ++ ['\r'] ++
        ([] ++ ['\n'] ++ "\ufeff#x".toList)) := by decide
  have hcomment : IsFiller "\x1f# c".toList := ⟨by decide, fun c hc => by cases hc; rfl⟩
  have hempty : IsFiller [] := ⟨by decide, fun c hc => by cases hc⟩
  have hblanks : Admissible " a\t" := ⟨by decide, 'a', rfl, by decide⟩
  have hmark : Admissible "\ufeff#x" := ⟨by decide, '\ufeff', rfl, by decide⟩
  refine ofBytes?_reads_what_lists.1 _ _ ?_
  rw [htext]
  exact .filler hcomment (.single rfl)
    (.expression hblanks (.single rfl) (.filler hempty (.single rfl) (.last hmark)))

end ExpressionList

end CucumberExpressions
