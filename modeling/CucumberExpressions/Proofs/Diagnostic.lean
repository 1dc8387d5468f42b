import CucumberExpressions.Diagnostic
import CucumberExpressions.Proofs.CodePoint
import CucumberExpressions.Proofs.FirstError

/-!
# What diagnostics mark

A document has one diagnostic for each line that holds an expression with an error, in the order of
the lines. It marks one character, the one that the error points at, and it marks all of it, also
if the character takes two columns. If a lone surrogate stands before this character, or in its
place, there is no column to mark it at. Then the whole document has no diagnostics, but an error
about the first line with which this is so.

## Main definitions

* `Diagnostic.Fails` — a line holds an expression with an error
* `Diagnostic.Unmarkable` — the error of a line cannot be marked
* `Diagnostic.About`, `Diagnostic.Marks` — the line, the error and the character that a diagnostic
  is about, in a document of characters and in any document

## Main results

* `Diagnostic.Fails.map_rejected?` — the message of a diagnostic names what the error is about
* `Diagnostic.ofLines_eq_error_iff`, `Diagnostic.mem_ofLines_iff` — what comes of some lines
* `Diagnostic.ofSource_map_char` — documents of characters always have their diagnostics
* `Diagnostic.exists_about`, `Diagnostic.exists_marks` — every diagnostic is about a character
* `Diagnostic.ofSource_marks_single_codePoints` — what the diagnostics of a document mark
-/

namespace CucumberExpressions

namespace Diagnostic

variable {line : List CodePoint} {lines : List (List CodePoint)} {error : ExpressionError}
  {lone : LoneSurrogate} {number i : Nat} {diagnostic : Diagnostic} {diagnostics : List Diagnostic}

/-! ### Single lines -/

/-- A line is neither blank nor a comment, and the expression that it holds has this error. -/
structure Fails (line : List CodePoint) (error : ExpressionError) : Prop where
  isSkipped_eq : ExpressionList.isSkipped (line.map CodePoint.toChar) = false
  tokenize_eq : tokenize (String.ofList (line.map CodePoint.toChar)) = .error error

/-- The error of a line cannot be marked: a lone surrogate stands before its place, or there. -/
def Unmarkable (line : List CodePoint) (lone : LoneSurrogate) : Prop :=
  ∃ error, ∃ i : Nat, Fails line error ∧ error.index = i ∧
    CodePoint.encodable (line.take (i + 1)) = .error lone

/-- The error of a line points at one of its code points. -/
theorem Fails.exists_index_lt (h : Fails line error) :
    ∃ i : Nat, error.index = i ∧ i < line.length := by
  obtain ⟨atoms, hfirst⟩ := exists_firstError h.tokenize_eq
  obtain ⟨i, hindex, hlt⟩ := hfirst.exists_index_lt
  rw [String.length_ofList, List.length_map] at hlt
  exact ⟨i, hindex, hlt⟩

/-- A line has at most one error. -/
theorem Fails.unique {error' : ExpressionError} (h : Fails line error) (h' : Fails line error') :
    error = error' :=
  Except.error.inj (h.tokenize_eq.symm.trans h'.tokenize_eq)

/-- Nothing comes of a line that does not fail. -/
theorem ofLine_of_not_fails (h : ∀ error, ¬ Fails line error) (number : Nat) :
    ofLine number line = .ok none := by
  unfold ofLine
  dsimp only
  cases hskipped : ExpressionList.isSkipped (line.map CodePoint.toChar) with
  | true => rfl
  | false =>
    cases htokens : tokenize (String.ofList (line.map CodePoint.toChar)) with
    | ok tokens => rfl
    | error error => exact absurd ⟨hskipped, htokens⟩ (h error)

/-- The start of the diagnostic comes before its end, so an error about the start is one about what
comes before the end. -/
theorem Fails.ofLine_eq (h : Fails line error) (hindex : error.index = i) (number : Nat) :
    ofLine number line = do
      let characters ← CodePoint.encodable (line.take (i + 1))
      return some
        { start := ⟨number, Text.utf16Column characters i⟩
          stop := ⟨number, Text.utf16Length characters⟩
          message := messageOf line error } := by
  have hsteps : ofLine number line = do
      let start ← Text.encodedColumn line i
      let stop ← Text.encodedColumn line ((i + 1 : Nat) : Int)
      return some
        { start := ⟨number, start⟩, stop := ⟨number, stop⟩, message := messageOf line error } := by
    simp only [ofLine, h.isSkipped_eq, h.tokenize_eq, hindex]
    rfl
  rw [hsteps]
  cases htake : CodePoint.encodable (line.take (i + 1)) with
  | ok characters =>
    have hcharacters := CodePoint.encodable_eq_ok_iff.mp htake
    rw [Text.encodedColumn_of_take_eq hcharacters (Nat.le_succ i),
      Text.encodedColumn_eq_ok_iff.mpr ⟨characters, hcharacters, rfl⟩]
    rfl
  | error lone =>
    rw [Text.encodedColumn_of_encodable_eq_error htake]
    cases hstart : CodePoint.encodable (line.take i) with
    | error lone' =>
      -- The same surrogate is in the way of both columns.
      have hsame := CodePoint.encodable_append_of_eq_error hstart ((line.take (i + 1)).drop i)
      have hshorter : line.take i = (line.take (i + 1)).take i := by
        rw [List.take_take, Nat.min_eq_left (Nat.le_succ i)]
      rw [hshorter, List.take_append_drop, htake] at hsame
      cases hsame
      rw [Text.encodedColumn_of_encodable_eq_error hstart]
      rfl
    | ok characters =>
      have hcharacters := CodePoint.encodable_eq_ok_iff.mp hstart
      rw [Text.encodedColumn_eq_ok_iff.mpr ⟨characters, hcharacters, rfl⟩]
      rfl

/-- There is an error about a line exactly if its own error cannot be marked. -/
theorem ofLine_eq_error_iff : ofLine number line = .error lone ↔ Unmarkable line lone := by
  constructor
  · intro h
    by_cases hfails : ∃ error, Fails line error
    · obtain ⟨error, hfails⟩ := hfails
      obtain ⟨i, hindex, -⟩ := hfails.exists_index_lt
      rw [hfails.ofLine_eq hindex] at h
      rcases bind_eq_error_iff.mp h with htake | ⟨_, _, ⟨⟩⟩
      exact ⟨error, i, hfails, hindex, htake⟩
    · rw [ofLine_of_not_fails (not_exists.mp hfails)] at h
      cases h
  · rintro ⟨error, i, hfails, hindex, htake⟩
    rw [hfails.ofLine_eq hindex, htake]
    rfl

/-- A diagnostic marks the character at the place of the error. -/
theorem ofLine_eq_some_iff :
    ofLine number line = .ok (some diagnostic) ↔
      ∃ error, ∃ i : Nat, ∃ characters : List Char, Fails line error ∧ error.index = i ∧
        line.take (i + 1) = characters.map .char ∧
          diagnostic =
            { start := ⟨number, Text.utf16Column characters i⟩
              stop := ⟨number, Text.utf16Length characters⟩
              message := messageOf line error } := by
  constructor
  · intro h
    by_cases hfails : ∃ error, Fails line error
    · obtain ⟨error, hfails⟩ := hfails
      obtain ⟨i, hindex, -⟩ := hfails.exists_index_lt
      rw [hfails.ofLine_eq hindex] at h
      obtain ⟨characters, htake, ⟨⟩⟩ := bind_eq_ok_iff.mp h
      exact ⟨error, i, characters, hfails, hindex, CodePoint.encodable_eq_ok_iff.mp htake, rfl⟩
    · rw [ofLine_of_not_fails (not_exists.mp hfails)] at h
      cases h
  · rintro ⟨error, i, characters, hfails, hindex, htake, rfl⟩
    rw [hfails.ofLine_eq hindex, CodePoint.encodable_eq_ok_iff.mpr htake]
    rfl

theorem line_start_of_ofLine_eq_some (h : ofLine number line = .ok (some diagnostic)) :
    diagnostic.start.line = number := by
  obtain ⟨-, -, -, -, -, -, rfl⟩ := ofLine_eq_some_iff.mp h
  rfl

/-- A line of which something comes has a diagnostic exactly if it fails. -/
theorem exists_ofLine_eq_some_iff {found : Option Diagnostic} (h : ofLine number line = .ok found) :
    (∃ diagnostic, found = some diagnostic) ↔ ∃ error, Fails line error := by
  constructor
  · rintro ⟨diagnostic, rfl⟩
    obtain ⟨error, -, -, hfails, -⟩ := ofLine_eq_some_iff.mp h
    exact ⟨error, hfails⟩
  · rintro ⟨error, hfails⟩
    obtain ⟨i, hindex, -⟩ := hfails.exists_index_lt
    rw [hfails.ofLine_eq hindex] at h
    obtain ⟨characters, -, ⟨⟩⟩ := bind_eq_ok_iff.mp h
    exact ⟨_, rfl⟩

/-! ### The messages -/

/-- What is rejected stands in the line. -/
theorem mem_of_rejected? {d : CodePoint} (h : rejected? line = some d) : d ∈ line := by
  fun_induction rejected? line with
  | case1 => cases h
  | case2 => cases h
  | case3 c d' rest hc hd ih => exact List.mem_cons_of_mem c (List.mem_cons_of_mem d' (ih h))
  | case4 c d' rest hc hd =>
    cases h
    exact List.mem_cons_of_mem c List.mem_cons_self
  | case5 c d' rest hc ih => exact List.mem_cons_of_mem c (ih h)

/-- In a line of characters the message is that of the error. -/
theorem messageOf_map_char (text : List Char) (error : ExpressionError) :
    messageOf (text.map .char) error = error.message := by
  unfold messageOf
  split
  · rename_i n hrejected
    -- All of the line are characters.
    obtain ⟨c, -, ⟨⟩⟩ := List.mem_map.mp (mem_of_rejected? hrejected)
  · rfl

/-- Atoms at the start of a line have nothing that is rejected. -/
theorem rejected?_append (atoms : List Atom) {start rest : List CodePoint}
    (hstart : start.map CodePoint.toChar = Atom.written atoms) :
    rejected? (start ++ rest) = rejected? rest := by
  induction atoms generalizing start with
  | nil =>
    obtain rfl := List.map_eq_nil_iff.mp hstart
    rfl
  | cons a atoms ih =>
    rw [Atom.written_cons] at hstart
    cases a with
    | plain c hc =>
      obtain ⟨c', start, rfl, rfl, hrest⟩ := List.map_eq_cons_iff.mp hstart
      rw [List.cons_append, ← ih hrest]
      cases start ++ rest with
      | nil => rfl
      | cons d rest => rw [rejected?, if_neg hc]
    | escaped c hc =>
      rw [Atom.source, List.cons_append, List.singleton_append] at hstart
      obtain ⟨b, behind, rfl, hb, hbehind⟩ := List.map_eq_cons_iff.mp hstart
      obtain ⟨c', start, rfl, rfl, hrest⟩ := List.map_eq_cons_iff.mp hbehind
      have hescapable : isEscapable c'.toChar = true := by rwa [isEscapable_eq_isSpecial]
      rw [List.cons_append, List.cons_append, rejected?, if_pos hb, if_pos hescapable, ih hrest]

/-- What is rejected in a line is what its error is about. -/
theorem Fails.map_rejected? (h : Fails line error) :
    (rejected? line).map (fun d => String.singleton d.toChar) =
      (Outcome.error error).rejected? := by
  obtain ⟨atoms, hfirst⟩ := exists_firstError h.tokenize_eq
  cases hfirst with
  | dangling hline =>
    rw [String.toList_ofList] at hline
    obtain ⟨start, rest, rfl, hstart, hrest⟩ := List.map_eq_append_iff.mp hline
    obtain ⟨b, rfl, -⟩ := List.map_eq_singleton_iff.mp hrest
    rw [rejected?_append atoms hstart]
    rfl
  | invalid hline hc =>
    rw [String.toList_ofList] at hline
    obtain ⟨start, rest, rfl, hstart, hrest⟩ := List.map_eq_append_iff.mp hline
    obtain ⟨b, behind, rfl, hb, hbehind⟩ := List.map_eq_cons_iff.mp hrest
    obtain ⟨c', rest, rfl, rfl, -⟩ := List.map_eq_cons_iff.mp hbehind
    have hescapable : ¬ isEscapable c'.toChar = true := by
      rw [isEscapable_eq_isSpecial, hc]
      exact Bool.false_ne_true
    rw [rejected?_append atoms hstart, rejected?, if_pos hb, if_neg hescapable]
    rfl

/-! ### Lines after each other -/

theorem ofLines_cons_eq_ok_iff :
    ofLines number (line :: lines) = .ok diagnostics ↔
      ∃ found rest, ofLine number line = .ok found ∧ ofLines (number + 1) lines = .ok rest ∧
        diagnostics = found.toList ++ rest := by
  rw [ofLines, bind_eq_ok_iff]
  constructor
  · rintro ⟨found, hfound, h⟩
    obtain ⟨rest, hrest, ⟨⟩⟩ := bind_eq_ok_iff.mp h
    exact ⟨found, rest, hfound, hrest, rfl⟩
  · rintro ⟨found, rest, hfound, hrest, rfl⟩
    exact ⟨found, hfound, bind_eq_ok_iff.mpr ⟨rest, hrest, rfl⟩⟩

/-- There is an error about some lines exactly if there is a line with an error that cannot be
marked, and it is about the first one of them. -/
theorem ofLines_eq_error_iff :
    ofLines number lines = .error lone ↔
      ∃ before line after, lines = before ++ line :: after ∧ Unmarkable line lone ∧
        ∀ earlier ∈ before, ∀ lone', ¬ Unmarkable earlier lone' := by
  induction lines generalizing number with
  | nil => simp [ofLines, pure, Except.pure]
  | cons first lines ih =>
    rw [ofLines, bind_eq_error_iff, ofLine_eq_error_iff]
    constructor
    · rintro (hfirst | ⟨found, hfound, h⟩)
      · exact ⟨[], first, lines, rfl, hfirst, by simp⟩
      · rcases bind_eq_error_iff.mp h with h | ⟨_, _, ⟨⟩⟩
        obtain ⟨before, line, after, rfl, hline, hbefore⟩ := ih.mp h
        refine ⟨first :: before, line, after, rfl, hline, List.forall_mem_cons.mpr ⟨?_, hbefore⟩⟩
        intro lone' hfirst
        rw [← @ofLine_eq_error_iff _ _ number, hfound] at hfirst
        cases hfirst
    · rintro ⟨before, line, after, hlines, hline, hbefore⟩
      cases before with
      | nil =>
        cases hlines
        exact .inl hline
      | cons earlier before =>
        cases hlines
        obtain ⟨hfirst, hbefore⟩ := List.forall_mem_cons.mp hbefore
        cases hfound : ofLine number first with
        | error lone' => exact absurd (ofLine_eq_error_iff.mp hfound) (hfirst lone')
        | ok found =>
          refine .inr ⟨found, rfl, bind_eq_error_iff.mpr (.inl (ih.mpr ?_))⟩
          exact ⟨before, line, after, rfl, hline, hbefore⟩

theorem exists_ofLine_eq_ok (h : ofLines number lines = .ok diagnostics)
    (hline : lines[i]? = some line) : ∃ found, ofLine (number + i) line = .ok found := by
  induction lines generalizing number i diagnostics with
  | nil => cases hline
  | cons first lines ih =>
    obtain ⟨found, rest, hfound, hrest, -⟩ := ofLines_cons_eq_ok_iff.mp h
    cases i with
    | zero =>
      cases hline
      exact ⟨found, hfound⟩
    | succ i =>
      obtain ⟨found', hfound'⟩ := ih hrest hline
      exact ⟨found', by rwa [Nat.add_assoc, Nat.add_comm 1] at hfound'⟩

/-- The diagnostics of some lines are those of the single lines, by their numbers. -/
theorem mem_ofLines_iff (h : ofLines number lines = .ok diagnostics) :
    diagnostic ∈ diagnostics ↔
      ∃ i line, lines[i]? = some line ∧ ofLine (number + i) line = .ok (some diagnostic) := by
  induction lines generalizing number diagnostics with
  | nil =>
    cases h
    simp
  | cons first lines ih =>
    obtain ⟨found, rest, hfound, hrest, rfl⟩ := ofLines_cons_eq_ok_iff.mp h
    rw [List.mem_append, Option.mem_toList, ih hrest]
    constructor
    · rintro (rfl | ⟨i, line, hline, hdiagnostic⟩)
      · exact ⟨0, first, rfl, hfound⟩
      · exact ⟨i + 1, line, hline, by rwa [← Nat.add_assoc, Nat.add_right_comm]⟩
    · rintro ⟨i, line, hline, hdiagnostic⟩
      cases i with
      | zero =>
        cases hline
        exact .inl (Except.ok.inj (hfound.symm.trans hdiagnostic))
      | succ i => exact .inr ⟨i, line, hline, by rwa [Nat.add_assoc, Nat.add_comm 1]⟩

theorem le_line_of_mem_ofLines (h : ofLines number lines = .ok diagnostics)
    (hmem : diagnostic ∈ diagnostics) : number ≤ diagnostic.start.line := by
  obtain ⟨i, line, -, hdiagnostic⟩ := (mem_ofLines_iff h).mp hmem
  rw [line_start_of_ofLine_eq_some hdiagnostic]
  exact Nat.le_add_right number i

/-- Each line has one diagnostic at most, and they come in the order of the lines. -/
theorem pairwise_line_ofLines (h : ofLines number lines = .ok diagnostics) :
    diagnostics.Pairwise fun d d' => d.start.line < d'.start.line := by
  induction lines generalizing number diagnostics with
  | nil =>
    cases h
    exact .nil
  | cons line lines ih =>
    obtain ⟨found, rest, hfound, hrest, rfl⟩ := ofLines_cons_eq_ok_iff.mp h
    refine List.pairwise_append.mpr ⟨?_, ih hrest, fun d hd d' hd' => ?_⟩
    -- The first line has at most one diagnostic, and it comes before those of the others.
    · cases found <;> simp
    · obtain rfl := Option.mem_toList.mp hd
      rw [line_start_of_ofLine_eq_some hfound]
      exact le_line_of_mem_ofLines hrest hd'

/-! ### Documents -/

theorem splitLinesBy_map_char (text : List Char) :
    Text.splitLinesBy CodePoint.toChar (text.map .char) =
      (Text.splitLines text).map (List.map .char) :=
  Text.splitLinesBy_map CodePoint.toChar .char text

/-- The diagnostics of a document come from its lines. -/
theorem mem_ofSource_iff {source : List CodePoint} (h : ofSource source = .ok diagnostics) :
    diagnostic ∈ diagnostics ↔
      ∃ line, (Text.splitLinesBy CodePoint.toChar source)[diagnostic.start.line]? = some line ∧
        ofLine diagnostic.start.line line = .ok (some diagnostic) := by
  rw [mem_ofLines_iff h]
  constructor
  · rintro ⟨i, line, hline, hdiagnostic⟩
    rw [Nat.zero_add] at hdiagnostic
    obtain rfl := line_start_of_ofLine_eq_some hdiagnostic
    exact ⟨line, hline, hdiagnostic⟩
  · rintro ⟨line, hline, hdiagnostic⟩
    exact ⟨_, line, hline, by rwa [Nat.zero_add]⟩

/-- If no lone surrogate is in a document it has its diagnostics. -/
theorem exists_ofSource_eq_ok {source : List CodePoint}
    (h : ∀ n, CodePoint.surrogate n ∉ source) :
    ∃ diagnostics, ofSource source = .ok diagnostics := by
  cases hresult : ofSource source with
  | ok diagnostics => exact ⟨diagnostics, rfl⟩
  | error lone =>
    obtain ⟨text, rfl | ⟨n, rest, rfl⟩⟩ := CodePoint.exists_eq_map_char_append source
    · rw [ofSource, splitLinesBy_map_char] at hresult
      obtain ⟨before, line, after, hlines, hline, -⟩ := ofLines_eq_error_iff.mp hresult
      -- A line of characters can be encoded, and so can its start.
      obtain ⟨characters, -, rfl⟩ : ∃ characters ∈ Text.splitLines text,
          characters.map CodePoint.char = line := by
        rw [← List.mem_map, hlines]
        exact List.mem_append_right before List.mem_cons_self
      obtain ⟨error, i, -, -, htake⟩ := hline
      rw [← List.map_take, CodePoint.encodable_map_char] at htake
      cases htake
    · exact absurd (List.mem_append_right _ List.mem_cons_self) (h n)

/-- A document has no diagnostics exactly if none of its lines fails. -/
theorem ofSource_eq_nil_iff {source : List CodePoint} :
    ofSource source = .ok [] ↔
      ∀ line ∈ Text.splitLinesBy CodePoint.toChar source, ∀ error, ¬ Fails line error := by
  have hlines : ∀ number lines, ofLines number lines = .ok [] ↔
      ∀ line ∈ lines, ∀ error, ¬ Fails line error := by
    intro number lines
    induction lines generalizing number with
    | nil => simp [ofLines, pure, Except.pure]
    | cons line lines ih =>
      rw [ofLines_cons_eq_ok_iff, List.forall_mem_cons]
      constructor
      · rintro ⟨found, rest, hfound, hrest, hnil⟩
        obtain ⟨hnone, rfl⟩ := List.append_eq_nil_iff.mp hnil.symm
        refine ⟨fun error hfails => ?_, (ih (number + 1)).mp hrest⟩
        obtain ⟨diagnostic, rfl⟩ := (exists_ofLine_eq_some_iff hfound).mpr ⟨error, hfails⟩
        cases hnone
      · rintro ⟨hline, hlines⟩
        exact ⟨none, [], ofLine_of_not_fails hline number, (ih (number + 1)).mpr hlines, rfl⟩
  exact hlines 0 _

/-! ### Documents of characters -/

/-- The diagnostic of an error of a line of characters. -/
def ofError (number : Nat) (line : List Char) (error : ExpressionError) : Diagnostic where
  start := ⟨number, Text.utf16Column line error.index⟩
  stop := ⟨number, Text.utf16Column line (error.index + 1)⟩
  message := error.message

/-- A line of characters fails if its expression is wrong and it is not skipped. -/
theorem fails_map_char_iff {text : List Char} :
    Fails (text.map .char) error ↔
      ExpressionList.isSkipped text = false ∧ tokenize (String.ofList text) = .error error := by
  constructor
  · rintro ⟨hkept, herror⟩
    rw [CodePoint.map_toChar_map_char] at hkept herror
    exact ⟨hkept, herror⟩
  · rintro ⟨hkept, herror⟩
    constructor
    · rwa [CodePoint.map_toChar_map_char]
    · rwa [CodePoint.map_toChar_map_char]

/-- In a line of characters every error can be marked. -/
theorem ofLine_map_char {text : List Char} (hkept : ExpressionList.isSkipped text = false)
    (herror : tokenize (String.ofList text) = .error error) (number : Nat) :
    ofLine number (text.map .char) = .ok (some (ofError number text error)) := by
  simp only [ofLine, CodePoint.map_toChar_map_char, hkept, herror, Text.encodedColumn_map_char,
    messageOf_map_char]
  rfl

/-- A document of characters always has its diagnostics. -/
theorem ofSource_map_char (text : List Char) :
    ofSource (text.map .char) = .ok (ofDocument text) := by
  have hcharacters : ∀ n, CodePoint.surrogate n ∉ text.map CodePoint.char := by simp
  obtain ⟨diagnostics, h⟩ := exists_ofSource_eq_ok hcharacters
  rw [ofDocument, h]
  rfl

variable {source text : List Char}

/-- The diagnostics of a document come from its lines. -/
theorem mem_ofDocument_iff :
    diagnostic ∈ ofDocument source ↔
      ∃ line error, (Text.splitLines source)[diagnostic.start.line]? = some line ∧
        ExpressionList.isSkipped line = false ∧ tokenize (String.ofList line) = .error error ∧
          diagnostic = ofError diagnostic.start.line line error := by
  rw [mem_ofSource_iff (ofSource_map_char source), splitLinesBy_map_char]
  constructor
  · rintro ⟨line, hline, hdiagnostic⟩
    rw [List.getElem?_map] at hline
    obtain ⟨text, htext, rfl⟩ := Option.map_eq_some_iff.mp hline
    obtain ⟨error, -, -, hfails, -⟩ := ofLine_eq_some_iff.mp hdiagnostic
    obtain ⟨hkept, herror⟩ := fails_map_char_iff.mp hfails
    rw [ofLine_map_char hkept herror] at hdiagnostic
    exact ⟨text, error, htext, hkept, herror, (Option.some.inj (Except.ok.inj hdiagnostic)).symm⟩
  · rintro ⟨text, error, htext, hkept, herror, heq⟩
    refine ⟨text.map .char, ?_, ?_⟩
    · rw [List.getElem?_map, htext]
      rfl
    · rw [ofLine_map_char hkept herror, ← heq]

/-- The diagnostic is about the error of the line of the source on which it starts. The error points
at a character of this line. -/
structure About (source : List Char) (diagnostic : Diagnostic) (expression : List Char)
    (error : ExpressionError) (i : Nat) (c : Char) : Prop where
  line_eq : (Text.splitLines source)[diagnostic.start.line]? = some expression
  isSkipped_eq : ExpressionList.isSkipped expression = false
  error_eq : tokenize (String.ofList expression) = .error error
  index_eq : error.index = i
  char_eq : expression[i]? = some c
  diagnostic_eq : diagnostic = ofError diagnostic.start.line expression error

/-- Every diagnostic is about a character of a line. -/
theorem exists_about (h : diagnostic ∈ ofDocument source) :
    ∃ line error i c, About source diagnostic line error i c := by
  obtain ⟨line, error, hline, hkept, herror, heq⟩ := mem_ofDocument_iff.mp h
  obtain ⟨i, hindex, hlt⟩ := (fails_map_char_iff.mpr ⟨hkept, herror⟩).exists_index_lt
  rw [List.length_map] at hlt
  exact ⟨line, error, i, _, hline, hkept, herror, hindex, List.getElem?_eq_getElem hlt, heq⟩

theorem About.character_start {c : Char} (h : About source diagnostic text error i c) :
    diagnostic.start.character = Text.utf16Column text i := by
  rw [h.diagnostic_eq, ← h.index_eq]
  rfl

/-! ### What is marked -/

/-- The diagnostic is about the error of a line of the source, which points at a character of this
line. Before this character, and up to its end, there are as many code units as the diagnostic
says. -/
structure Marks (source : List CodePoint) (diagnostic : Diagnostic) (expression : List CodePoint)
    (error : ExpressionError) (i : Nat) (c : Char) : Prop where
  line_eq : (Text.splitLinesBy CodePoint.toChar source)[diagnostic.start.line]? = some expression
  fails : Fails expression error
  index_eq : error.index = i
  char_eq : expression[i]? = some (.char c)
  start_eq : Text.encodedColumn expression i = .ok diagnostic.start.character
  stop_eq : Text.encodedColumn expression ((i + 1 : Nat) : Int) = .ok diagnostic.stop.character
  line_stop : diagnostic.stop.line = diagnostic.start.line
  message_eq : diagnostic.message = messageOf expression error

/-- Every diagnostic marks a character of a line. -/
theorem exists_marks {source : List CodePoint} (h : ofSource source = .ok diagnostics)
    (hmem : diagnostic ∈ diagnostics) :
    ∃ expression error i c, Marks source diagnostic expression error i c := by
  obtain ⟨expression, hline, hdiagnostic⟩ := (mem_ofSource_iff h).mp hmem
  obtain ⟨error, i, characters, hfails, hindex, htake, heq⟩ := ofLine_eq_some_iff.mp hdiagnostic
  obtain ⟨i', hindex', hlt⟩ := hfails.exists_index_lt
  obtain rfl := Int.ofNat.inj (hindex.symm.trans hindex')
  -- The character at the place of the error is one of those that can be encoded.
  have hchar : expression[i] ∈ expression.take (i + 1) :=
    List.mem_take_iff_getElem.mpr ⟨i, by omega, rfl⟩
  obtain ⟨c, -, hc⟩ := List.mem_map.mp (htake ▸ hchar)
  refine ⟨expression, error, i, c, hline, hfails, hindex, ?_, ?_, ?_, ?_, ?_⟩
  · rw [hc, List.getElem?_eq_getElem hlt]
  · rw [Text.encodedColumn_of_take_eq htake (Nat.le_succ i), heq]
  · rw [Text.encodedColumn_eq_ok_iff.mpr ⟨characters, htake, rfl⟩, heq]
  · rw [heq]
  · rw [heq]

/-- **What diagnostics mark.** There is an error about a document exactly if the error of one of its
lines cannot be marked, since a lone surrogate stands before its place, or there; it is about the
first such line. Without lone surrogates there is none. Otherwise the diagnostics come in the order
of the lines, and each line has one diagnostic at most: it has one exactly if it is neither blank
nor a comment and its expression is wrong. A diagnostic starts and ends on its line, and marks a
stretch of it that is not empty. The code units in this stretch are those of one character, the one
that the error points at; they are two exactly if it is above U+FFFF. The offsets of a line that
have a column are those without a lone surrogate before them, and no two of them have the same. -/
theorem ofSource_marks_single_codePoints (source : List CodePoint) :
    let lines := Text.splitLinesBy CodePoint.toChar source
    (∀ lone, ofSource source = .error lone ↔
      ∃ before line after, lines = before ++ line :: after ∧ Unmarkable line lone ∧
        ∀ earlier ∈ before, ∀ lone', ¬ Unmarkable earlier lone') ∧
      ((∀ n, CodePoint.surrogate n ∉ source) → ∃ diagnostics, ofSource source = .ok diagnostics) ∧
      (∀ diagnostics, ofSource source = .ok diagnostics →
        (diagnostics.Pairwise fun d d' => d.start.line < d'.start.line) ∧
          (∀ number line, lines[number]? = some line →
            ((∃ d ∈ diagnostics, d.start.line = number) ↔ ∃ error, Fails line error)) ∧
          ∀ d ∈ diagnostics, ∃ line error i c, Marks source d line error i c ∧
            d.stop.line = d.start.line ∧ d.start.character < d.stop.character ∧
              d.stop.character ≤ (CodePoint.utf16 line).length ∧
              ((CodePoint.utf16 line).take d.stop.character).drop d.start.character =
                Text.codeUnits c ∧
              ((Text.codeUnits c).length = 2 ↔ 0xFFFF < c.toNat)) ∧
      ∀ (line : List CodePoint) (i : Nat), i ≤ line.length →
        ((∃ column, Text.encodedColumn line i = .ok column) ↔
          ∃ characters : List Char, line.take i = characters.map .char) ∧
        ∀ j column, j ≤ line.length → Text.encodedColumn line i = .ok column →
          Text.encodedColumn line j = .ok column → i = j := by
  intro lines
  refine ⟨fun lone => ofLines_eq_error_iff, exists_ofSource_eq_ok, fun diagnostics h => ?_,
    fun line i hi => ⟨Text.exists_encodedColumn_eq_ok_iff,
      fun j column hj => Text.encodedColumn_inj hi hj⟩⟩
  refine ⟨pairwise_line_ofLines h, fun number line hline => ⟨?_, ?_⟩, fun d hd => ?_⟩
  · rintro ⟨d, hd, rfl⟩
    obtain ⟨line', hline', hdiagnostic⟩ := (mem_ofSource_iff h).mp hd
    obtain rfl := Option.some.inj (hline.symm.trans hline')
    obtain ⟨error, -, -, hfails, -⟩ := ofLine_eq_some_iff.mp hdiagnostic
    exact ⟨error, hfails⟩
  · intro hfails
    -- Something has come of the line, so this is a diagnostic.
    obtain ⟨found, hfound⟩ := exists_ofLine_eq_ok h hline
    rw [Nat.zero_add] at hfound
    obtain ⟨d, rfl⟩ := (exists_ofLine_eq_some_iff hfound).mpr hfails
    obtain rfl := line_start_of_ofLine_eq_some hfound
    exact ⟨d, (mem_ofSource_iff h).mpr ⟨line, hline, hfound⟩, rfl⟩
  · obtain ⟨line, error, i, c, hmarks⟩ := exists_marks h hd
    obtain ⟨hlt, hle, hunits⟩ :=
      Text.codeUnits_between_encodedColumns hmarks.char_eq hmarks.start_eq hmarks.stop_eq
    exact ⟨line, error, i, c, hmarks, hmarks.line_stop, hlt, hle, hunits,
      Text.length_codeUnits_eq_two_iff⟩

/-- So a line that fails need not have a diagnostic: with a lone surrogate before its bad escape
there are none. -/
theorem not_forall_exists_diagnostic :
    ¬ ∀ source : List CodePoint, ∃ diagnostics, ofSource source = .ok diagnostics ∧
      ∀ number line, (Text.splitLinesBy CodePoint.toChar source)[number]? = some line →
        ((∃ d ∈ diagnostics, d.start.line = number) ↔ ∃ error, Fails line error) := by
  intro h
  have hraises : ofSource [.surrogate 0, .char '\\'] = .error ⟨0, 0⟩ := by decide +kernel
  obtain ⟨diagnostics, hok, -⟩ := h [.surrogate 0, .char '\\']
  rw [hraises] at hok
  cases hok

end Diagnostic

end CucumberExpressions
