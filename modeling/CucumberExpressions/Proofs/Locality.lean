import CucumberExpressions.Proofs.Diagnostic

/-!
# Diagnostics are local

What is said about a line depends on this line alone; only its number depends on the lines before
it. So a document that is put together from two texts has the diagnostics of both, those of the
second one moved down, and edits in the first text can only move them. But the diagnostics of a
document come all together or not at all: with a line in the first text whose error cannot be marked
those of the second text are lost too.

The texts have to meet at a line break. If something stands before a line feed, the line feed always
ends a line, but it need not be a line of its own: it may be the second half of a pair.

## Main definitions

* `Diagnostic.moveDown`, `Diagnostic.moveAllDown` — the same diagnostics, some lines below
* `Diagnostic.join` — the diagnostics of two parts, if both have theirs
* `Diagnostic.height` — how many lines a text takes in a document that goes on

## Main results

* `Diagnostic.ofSource_append` — the diagnostics of two texts after each other
* `Diagnostic.ofSource_local` — what edits of one part of a document do to its diagnostics
* `Diagnostic.not_forall_ofSource_append` — an edit after which the other part has lost its own
-/

namespace CucumberExpressions.Diagnostic

variable {diagnostic : Diagnostic} {above below diagnostics : List Diagnostic}
  {a b line : List CodePoint} {lone : LoneSurrogate}

/-- The same diagnostic, some lines below. -/
def moveDown (count : Nat) (diagnostic : Diagnostic) : Diagnostic :=
  { diagnostic with
    start := { diagnostic.start with line := diagnostic.start.line + count }
    stop := { diagnostic.stop with line := diagnostic.stop.line + count } }

theorem moveDown_comp_moveDown (m n : Nat) : moveDown m ∘ moveDown n = moveDown (n + m) := by
  funext diagnostic
  simp [moveDown, Nat.add_assoc]

/-- The same diagnostics, if there are any, some lines below. -/
def moveAllDown (count : Nat) (result : Except LoneSurrogate (List Diagnostic)) :
    Except LoneSurrogate (List Diagnostic) :=
  result.map (List.map (moveDown count))

theorem moveAllDown_ok (count : Nat) (diagnostics : List Diagnostic) :
    moveAllDown count (.ok diagnostics) = .ok (diagnostics.map (moveDown count)) := rfl

/-- Moving down twice is moving down by the sum. -/
theorem moveAllDown_moveAllDown (m n : Nat) (result : Except LoneSurrogate (List Diagnostic)) :
    moveAllDown m (moveAllDown n result) = moveAllDown (n + m) result := by
  cases result with
  | error lone => rfl
  | ok diagnostics =>
    rw [moveAllDown_ok, moveAllDown_ok, moveAllDown_ok, List.map_map, moveDown_comp_moveDown]

theorem moveAllDown_eq_error_iff {count : Nat} {result : Except LoneSurrogate (List Diagnostic)} :
    moveAllDown count result = .error lone ↔ result = .error lone := by
  cases result <;> simp [moveAllDown, Except.map]

/-- The diagnostics of two parts after each other, if both have theirs. -/
def join (upper lower : Except LoneSurrogate (List Diagnostic)) :
    Except LoneSurrogate (List Diagnostic) := do
  let above ← upper
  let below ← lower
  return above ++ below

section Join

variable {upper lower : Except LoneSurrogate (List Diagnostic)}

theorem join_nil (upper : Except LoneSurrogate (List Diagnostic)) :
    join upper (.ok []) = upper := by
  cases upper with
  | error lone => rfl
  | ok above => exact congrArg Except.ok (List.append_nil above)

theorem nil_join (lower : Except LoneSurrogate (List Diagnostic)) :
    join (.ok []) lower = lower := by
  cases lower <;> rfl

theorem join_eq_ok_iff : join upper lower = .ok diagnostics ↔
    ∃ above below, upper = .ok above ∧ lower = .ok below ∧ diagnostics = above ++ below := by
  rw [join, bind_eq_ok_iff]
  constructor
  · rintro ⟨above, habove, h⟩
    obtain ⟨below, hbelow, ⟨⟩⟩ := bind_eq_ok_iff.mp h
    exact ⟨above, below, habove, hbelow, rfl⟩
  · rintro ⟨above, below, habove, hbelow, rfl⟩
    exact ⟨above, habove, bind_eq_ok_iff.mpr ⟨below, hbelow, rfl⟩⟩

/-- The error of two parts is that of the upper one, or else that of the lower one. -/
theorem join_eq_error_iff : join upper lower = .error lone ↔
    upper = .error lone ∨ (∃ above, upper = .ok above) ∧ lower = .error lone := by
  rw [join, bind_eq_error_iff]
  refine or_congr_right ⟨?_, ?_⟩
  · rintro ⟨above, habove, h⟩
    rcases bind_eq_error_iff.mp h with hbelow | ⟨_, _, ⟨⟩⟩
    exact ⟨⟨above, habove⟩, hbelow⟩
  · rintro ⟨⟨above, habove⟩, hbelow⟩
    exact ⟨above, habove, bind_eq_error_iff.mpr (.inl hbelow)⟩

end Join

/-! ### Diagnostics of lines -/

/-- What is said about a line depends on its number by the lines of the diagnostic only. -/
theorem ofLine_add (number count : Nat) (line : List CodePoint) :
    ofLine (number + count) line = (ofLine number line).map (Option.map (moveDown count)) := by
  by_cases hfails : ∃ error, Fails line error
  · obtain ⟨error, hfails⟩ := hfails
    obtain ⟨i, hindex, -⟩ := hfails.exists_index_lt
    rw [hfails.ofLine_eq hindex, hfails.ofLine_eq hindex]
    cases CodePoint.encodable (line.take (i + 1)) <;> rfl
  · rw [ofLine_of_not_fails (not_exists.mp hfails), ofLine_of_not_fails (not_exists.mp hfails)]
    rfl

theorem ofLines_add (number count : Nat) (lines : List (List CodePoint)) :
    ofLines (number + count) lines = moveAllDown count (ofLines number lines) := by
  induction lines generalizing number with
  | nil => rfl
  | cons line lines ih =>
    rw [ofLines, ofLines, Nat.add_right_comm, ih, ofLine_add]
    cases ofLine number line with
    | error lone => rfl
    | ok found =>
      cases ofLines (number + 1) lines with
      | error lone => rfl
      | ok rest => cases found <;> rfl

/-- What comes of two groups of lines is told by what comes of each. -/
theorem ofLines_append (number : Nat) (lines lines' : List (List CodePoint)) :
    ofLines number (lines ++ lines') =
      join (ofLines number lines) (ofLines (number + lines.length) lines') := by
  induction lines generalizing number with
  | nil => exact (nil_join _).symm
  | cons line lines ih =>
    rw [List.cons_append, ofLines, ofLines, ih, List.length_cons, Nat.add_right_comm, Nat.add_assoc]
    cases ofLine number line with
    | error lone => rfl
    | ok found =>
      cases ofLines (number + 1) lines with
      | error lone => rfl
      | ok above =>
        cases ofLines (number + (lines.length + 1)) lines' with
        | error lone => rfl
        | ok below => exact congrArg Except.ok (List.append_assoc found.toList above below).symm

theorem ofLines_singleton_of_isSkipped (number : Nat)
    (h : ExpressionList.isSkipped (line.map CodePoint.toChar) = true) :
    ofLines number [line] = .ok [] := by
  rw [ofLines, ofLine, if_pos h]
  rfl

/-! ### Diagnostics of documents -/

/-- The diagnostics of a closed text are not touched by what comes after it, and what comes after it
is only moved down. -/
theorem ofSource_append (ha : Text.IsClosed (a.map CodePoint.toChar))
    (hseam : (a.map CodePoint.toChar).getLast? = some '\r' →
      (b.map CodePoint.toChar).head? ≠ some '\n') :
    ofSource (a ++ b) = join (ofSource a)
      (moveAllDown (Text.splitLinesBy CodePoint.toChar a).length (ofSource b)) := by
  rw [ofSource, Text.splitLinesBy_append ha hseam, ofLines_append, ofLines_add]
  rfl

/-- A line feed at the end of a document changes nothing. -/
theorem ofSource_concat_lineFeed (a : List CodePoint) :
    ofSource (a ++ [.char '\n']) = ofSource a := by
  have hfeed : (CodePoint.char '\n').toChar = '\n' := rfl
  rcases Text.splitLinesBy_concat_lineFeed hfeed a with h | h
  · rw [ofSource, h, ofSource]
  · rw [ofSource, h, ofLines_append, ofLines_singleton_of_isSkipped _ rfl, join_nil, ofSource]

/-- How many lines a text takes in a document that goes on after a line feed. -/
def height (text : List CodePoint) : Nat :=
  (Text.splitLinesBy CodePoint.toChar (text ++ [.char '\n'])).length

/-- A line feed can always be added to a text to close it, whatever the text ends with. -/
theorem ofSource_append_lineFeed (a b : List CodePoint) :
    ofSource (a ++ .char '\n' :: b) =
      join (ofSource a) (moveAllDown (height a) (ofSource b)) := by
  have hclosed : Text.IsClosed ((a ++ [CodePoint.char '\n']).map CodePoint.toChar) := by
    rw [List.map_append]
    exact Text.isClosed_concat rfl _
  -- The line feed stands before the seam, so no pair is cut.
  have hseam : ((a ++ [CodePoint.char '\n']).map CodePoint.toChar).getLast? = some '\r' →
      (b.map CodePoint.toChar).head? ≠ some '\n' := by
    rw [List.map_append, List.map_singleton, List.getLast?_concat]
    exact fun h => absurd h (by decide)
  rw [List.append_cons, ofSource_append hclosed hseam, ofSource_concat_lineFeed, height]

/-- A line that is skipped has no diagnostics. -/
theorem ofSource_of_isSkipped (hline : ∀ c ∈ line, Text.isLineBreak c.toChar = false)
    (h : ExpressionList.isSkipped (line.map CodePoint.toChar) = true) : ofSource line = .ok [] := by
  rw [← ofSource_concat_lineFeed, ofSource, Text.splitLinesBy_concat_of_isLineBreak hline rfl,
    ofLines_singleton_of_isSkipped 0 h]

/-- The diagnostics of a text stay on its own lines. -/
theorem line_lt_height (h : ofSource a = .ok above) (hmem : diagnostic ∈ above) :
    diagnostic.start.line < height a := by
  rw [← ofSource_concat_lineFeed] at h
  obtain ⟨line, hline, -⟩ := (mem_ofSource_iff h).mp hmem
  exact (List.getElem?_eq_some_iff.mp hline).1

/-- The diagnostics of the two parts can be told apart by their lines. -/
theorem filter_append_map_moveDown (h : ofSource a = .ok above) (below : List Diagnostic) :
    let diagnostics := above ++ below.map (moveDown (height a))
    diagnostics.filter (·.start.line < height a) = above ∧
      diagnostics.filter (height a ≤ ·.start.line) = below.map (moveDown (height a)) := by
  intro diagnostics
  have hbefore : ∀ d ∈ above, d.start.line < height a := fun d => line_lt_height h
  have hafter : ∀ d ∈ below.map (moveDown (height a)), height a ≤ d.start.line := by
    intro d hd
    obtain ⟨d, -, rfl⟩ := List.mem_map.mp hd
    exact Nat.le_add_left (height a) d.start.line
  -- Each filter keeps one of the two parts and drops the other.
  rw [List.filter_append, List.filter_append]
  constructor
  · rw [List.filter_eq_self.mpr (by simpa using hbefore),
      List.filter_eq_nil_iff.mpr (by simpa using hafter), List.append_nil]
  · rw [List.filter_eq_nil_iff.mpr (by simpa using hbefore),
      List.filter_eq_self.mpr (by simpa using hafter), List.nil_append]

/-- Above the height of the first text there are its diagnostics, and below those of the second. -/
theorem exists_of_ofSource_append_lineFeed (h : ofSource (a ++ .char '\n' :: b) = .ok diagnostics) :
    ∃ above below, ofSource a = .ok above ∧ ofSource b = .ok below ∧
      diagnostics.filter (·.start.line < height a) = above ∧
        diagnostics.filter (height a ≤ ·.start.line) = below.map (moveDown (height a)) := by
  rw [ofSource_append_lineFeed] at h
  obtain ⟨above, moved, habove, hmoved, rfl⟩ := join_eq_ok_iff.mp h
  cases hbelow : ofSource b with
  | error lone =>
    rw [hbelow] at hmoved
    cases hmoved
  | ok below =>
    rw [hbelow] at hmoved
    cases hmoved
    exact ⟨above, below, habove, rfl, filter_append_map_moveDown habove below⟩

/-- **Locality.** Two texts with a line feed between them have the diagnostics of the first one and
then those of the second one, moved down by the lines of the first one. There is an error about them
exactly if there is one about the first text, or none about the first but one about the second;
without lone surrogates there is none. So whatever is done to the first text, the diagnostics on
the lines of the second one are only moved up or down, as long as there are any. A blank line or a
comment that is put between them, before them or behind them has no diagnostic and changes no other
one, except that what is below it is moved down by one line. -/
theorem ofSource_local (a b : List CodePoint) :
    let feed := CodePoint.char '\n'
    let onLower (text : List CodePoint) (diagnostics : List Diagnostic) :=
      diagnostics.filter (height text ≤ ·.start.line)
    ofSource (a ++ feed :: b) = join (ofSource a) (moveAllDown (height a) (ofSource b)) ∧
      (∀ lone, ofSource (a ++ feed :: b) = .error lone ↔
        ofSource a = .error lone ∨
          (∃ above, ofSource a = .ok above) ∧ ofSource b = .error lone) ∧
      ((∀ n, CodePoint.surrogate n ∉ a ∧ CodePoint.surrogate n ∉ b) →
        ∃ above below, ofSource a = .ok above ∧ ofSource b = .ok below) ∧
      (∀ a' diagnostics diagnostics', ofSource (a ++ feed :: b) = .ok diagnostics →
        ofSource (a' ++ feed :: b) = .ok diagnostics' →
          ∃ below, ofSource b = .ok below ∧
            onLower a diagnostics = below.map (moveDown (height a)) ∧
            onLower a' diagnostics' = below.map (moveDown (height a')) ∧
            (onLower a' diagnostics').map (moveDown (height a)) =
              (onLower a diagnostics).map (moveDown (height a'))) ∧
      ∀ line, (∀ c ∈ line, Text.isLineBreak c.toChar = false) →
        ExpressionList.isSkipped (line.map CodePoint.toChar) = true →
          ofSource (a ++ feed :: (line ++ feed :: b)) =
              join (ofSource a) (moveAllDown (height a + 1) (ofSource b)) ∧
            ofSource (line ++ feed :: b) = moveAllDown 1 (ofSource b) ∧
            ofSource (a ++ feed :: line) = ofSource a := by
  intro feed onLower
  refine ⟨ofSource_append_lineFeed a b, fun lone => ?_, fun h => ?_,
    fun a' diagnostics diagnostics' h h' => ?_, fun line hline hskipped => ?_⟩
  · rw [ofSource_append_lineFeed, join_eq_error_iff, moveAllDown_eq_error_iff]
  · obtain ⟨above, habove⟩ := exists_ofSource_eq_ok fun n => (h n).1
    obtain ⟨below, hbelow⟩ := exists_ofSource_eq_ok fun n => (h n).2
    exact ⟨above, below, habove, hbelow⟩
  · obtain ⟨-, below, -, hbelow, -, hlower⟩ := exists_of_ofSource_append_lineFeed h
    obtain ⟨-, below', -, hbelow', -, hlower'⟩ := exists_of_ofSource_append_lineFeed h'
    obtain rfl := Except.ok.inj (hbelow.symm.trans hbelow')
    refine ⟨below, hbelow, hlower, hlower', ?_⟩
    -- Both are the diagnostics of the second text, moved down by the two heights in turn.
    dsimp only [onLower]
    rw [hlower, hlower', List.map_map, List.map_map, moveDown_comp_moveDown,
      moveDown_comp_moveDown, Nat.add_comm]
  · have hempty := ofSource_of_isSkipped hline hskipped
    have hheight : height line = 1 := by
      rw [height, Text.splitLinesBy_concat_of_isLineBreak hline rfl]
      rfl
    have hbefore : ofSource (line ++ feed :: b) = moveAllDown 1 (ofSource b) := by
      rw [ofSource_append_lineFeed, hempty, hheight, nil_join]
    refine ⟨?_, hbefore, ?_⟩
    · rw [ofSource_append_lineFeed, hbefore, moveAllDown_moveAllDown, Nat.add_comm]
    · rw [ofSource_append_lineFeed, hempty, moveAllDown_ok, List.map_nil, join_nil]

/-- So edits of the first text can do more than move the diagnostics of the second one: with a lone
surrogate before a bad escape in the first text they are lost. -/
theorem not_forall_ofSource_append :
    ¬ ∀ (a b : List CodePoint) (below : List Diagnostic), ofSource b = .ok below →
      ∃ above, ofSource (a ++ .char '\n' :: b) =
        .ok (above ++ below.map (moveDown (height a))) := by
  intro h
  let diagnostic : Diagnostic :=
    { start := ⟨0, 0⟩, stop := ⟨0, 1⟩, message := "The end of line can not be escaped" }
  have hbelow : ofSource [.char '\\'] = .ok [diagnostic] := by decide +kernel
  have hraises : ofSource [.surrogate 0, .char '\\', .char '\n', .char '\\'] = .error ⟨0, 0⟩ := by
    decide +kernel
  obtain ⟨above, hok⟩ := h [.surrogate 0, .char '\\'] [.char '\\'] _ hbelow
  rw [List.cons_append, List.singleton_append, hraises] at hok
  cases hok

end CucumberExpressions.Diagnostic
