import CucumberExpressions.Proofs.Diagnostic

/-!
# Where an editor shows a diagnostic

An editor divides a document into lines at line feeds, carriage returns and pairs of them, and at
nothing else. Diagnostics are numbered by lines that also end at eight other characters. So an
editor does not find a diagnostic at its character if one of these eight stands somewhere above it:
for each of them the diagnostic is a line too far down, and it may even lie below the last line of
the document. If none stands above it, the editor finds its character.

## Main definitions

* `Text.isForeignBreak` — the characters that end a line, but not for an editor
* `Text.editorLines` — the lines into which an editor divides a document
* `Position.OnCharacter` — what an editor finds at a position
* `Position.ofOffset` — the position at which an editor shows an offset of a document

## Main results

* `Text.exists_editorLines_eq_of_isClosed` — how far the two ways to count lines differ
* `Diagnostic.start_eq_ofOffset_iff` — when a diagnostic is where an editor shows its character
* `Diagnostic.not_forall_start_onCharacter` — a diagnostic below the last line of its document
-/

namespace CucumberExpressions

namespace Text

variable {c : Char} {text rest : List Char}

/-- The characters at which an editor ends a line. -/
def isEditorBreak (c : Char) : Bool := c = '\n' || c = '\r'

/-- The characters that end a line, but not for an editor. -/
def isForeignBreak (c : Char) : Bool := isLineBreak c && !isEditorBreak c

/-- The lines into which an editor divides a document, without their breaks. A break at the end
opens one more line, and the empty document has one line. -/
def editorLines (text : List Char) : List (List Char) := (unifyBreaks text).splitOn '\n'

/-- What ends no line does not end one for an editor either. -/
theorem isEditorBreak_eq_false (hc : isLineBreak c = false) : isEditorBreak c = false := by
  rw [isEditorBreak, Bool.or_eq_false_iff, decide_eq_false_iff_not, decide_eq_false_iff_not]
  constructor <;> (rintro rfl; cases hc)

theorem editorLines_pair (rest : List Char) :
    editorLines ('\r' :: '\n' :: rest) = [] :: editorLines rest := by
  rw [editorLines, unifyBreaks, List.splitOn, List.splitOnP_cons_eq_if_modifyHead]
  rfl

/-- A break ends an empty line, unless it is the first half of a pair. -/
theorem editorLines_cons_of_isEditorBreak (hc : isEditorBreak c = true)
    (hpair : c = '\r' → rest.head? ≠ some '\n') :
    editorLines (c :: rest) = [] :: editorLines rest := by
  have hfeed : (if c = '\r' then '\n' else c) = '\n' := by
    simpa [isEditorBreak, or_iff_not_imp_right] using hc
  rw [editorLines, unifyBreaks, hfeed, List.splitOn, List.splitOnP_cons_eq_if_modifyHead]
  · rfl
  · rintro rest' hreturn rfl
    exact hpair hreturn rfl

/-- Any other character stands at the start of the first line. -/
theorem editorLines_cons_of_not_isEditorBreak (hc : isEditorBreak c = false) (rest : List Char) :
    editorLines (c :: rest) = (editorLines rest).modifyHead (c :: ·) := by
  obtain ⟨hfeed, hreturn⟩ : c ≠ '\n' ∧ c ≠ '\r' := by simpa [isEditorBreak] using hc
  rw [editorLines, unifyBreaks, if_neg hreturn, List.splitOn, List.splitOnP_cons_eq_if_modifyHead,
    if_neg (by simpa using hfeed)]
  · rfl
  · exact fun rest' h => absurd h hreturn

/-- What is added to a text continues its last line, unless it starts with the second half of a
pair. -/
theorem exists_editorLines_append (text : List Char) :
    ∃ lines last, editorLines text = lines ++ [last] ∧ ∀ more : List Char, more.head? ≠ some '\n' →
      editorLines (text ++ more) = lines ++ (editorLines more).modifyHead (last ++ ·) := by
  fun_induction unifyBreaks text with
  | case1 =>
    refine ⟨[], [], rfl, fun more _ => ?_⟩
    rw [List.nil_append, List.nil_append]
    cases editorLines more <;> rfl
  | case2 rest ih =>
    obtain ⟨lines, last, hlines, hmore⟩ := ih
    refine ⟨[] :: lines, last, by rw [editorLines_pair, hlines]; rfl, fun more h => ?_⟩
    rw [List.cons_append, List.cons_append, editorLines_pair, hmore more h]
    rfl
  | case3 c rest hpair ih =>
    obtain ⟨lines, last, hlines, hmore⟩ := ih
    have hpair : c = '\r' → rest.head? ≠ some '\n' := by
      intro hreturn h
      obtain ⟨rest', rfl⟩ := List.head?_eq_some_iff.mp h
      exact hpair rest' hreturn rfl
    by_cases hc : isEditorBreak c = true
    · refine ⟨[] :: lines, last, ?_, fun more h => ?_⟩
      · rw [editorLines_cons_of_isEditorBreak hc hpair, hlines]
        rfl
      · have hpair' := head?_append_ne hpair fun _ _ => h
        rw [List.cons_append, editorLines_cons_of_isEditorBreak hc hpair', hmore more h]
        rfl
    · have hc : isEditorBreak c = false := by simpa using hc
      simp only [List.cons_append, editorLines_cons_of_not_isEditorBreak hc]
      -- The character belongs to the last line if there is no line before it.
      cases lines with
      | nil =>
        refine ⟨[], c :: last, by rw [hlines]; rfl, fun more h => ?_⟩
        rw [hmore more h, List.nil_append, List.modifyHead_modifyHead]
        rfl
      | cons first lines =>
        refine ⟨(c :: first) :: lines, last, by rw [hlines]; rfl, fun more h => ?_⟩
        rw [hmore more h]
        rfl

/-- For an editor every document has a line. -/
theorem exists_editorLines_eq_cons (text : List Char) :
    ∃ line lines, editorLines text = line :: lines := by
  obtain ⟨lines, last, hlines, -⟩ := exists_editorLines_append text
  rw [hlines]
  cases lines with
  | nil => exact ⟨last, [], rfl⟩
  | cons line lines => exact ⟨line, lines ++ [last], rfl⟩

/-- For an editor a text without breaks is one line. -/
theorem editorLines_of_forall_not_isEditorBreak (h : ∀ c ∈ text, isEditorBreak c = false) :
    editorLines text = [text] := by
  induction text with
  | nil => rfl
  | cons c rest ih =>
    rw [editorLines_cons_of_not_isEditorBreak (h c List.mem_cons_self),
      ih fun x hx => h x (List.mem_cons_of_mem _ hx)]
    rfl

/-- A change of the first line leaves the last one, unless there is only one. -/
theorem exists_modifyHead_concat (f : List Char → List Char) (lines : List (List Char))
    (last : List Char) :
    ∃ lines' last', (lines ++ [last]).modifyHead f = lines' ++ [last'] ∧
      lines'.length = lines.length ∧ (lines ≠ [] → last' = last) := by
  cases lines with
  | nil => exact ⟨[], f last, rfl, rfl, fun h => absurd rfl h⟩
  | cons first lines => exact ⟨f first :: lines, last, rfl, rfl, fun _ => rfl⟩

/-- A closed text has as many ended lines for an editor as it has lines, less the breaks that an
editor does not know. If it knows all of them, nothing has been added to the last line. -/
theorem exists_editorLines_eq_of_isClosed (h : IsClosed text) :
    ∃ lines last, editorLines text = lines ++ [last] ∧
      lines.length + text.countP isForeignBreak = (splitLines text).length ∧
        (text.countP isForeignBreak = 0 → last = []) := by
  induction text using splitLines_induction with
  | nil => exact ⟨[], [], rfl, rfl, fun _ => rfl⟩
  | pair rest ih =>
    obtain ⟨lines, last, hlines, hlength, hlast⟩ := ih h.of_cons.of_cons
    have hcount : ('\r' :: '\n' :: rest).countP isForeignBreak = rest.countP isForeignBreak := by
      rw [List.countP_cons_of_neg (by decide), List.countP_cons_of_neg (by decide)]
    refine ⟨[] :: lines, last, by rw [editorLines_pair, hlines]; rfl, ?_, hcount ▸ hlast⟩
    rw [splitLines_pair, hcount, List.length_cons, List.length_cons]
    omega
  | single c rest hc hpair ih =>
    rw [splitLines_cons_of_isLineBreak hc hpair]
    obtain ⟨lines, last, hlines, hlength, hlast⟩ := ih h.of_cons
    by_cases heditor : isEditorBreak c = true
    · have hcount : (c :: rest).countP isForeignBreak = rest.countP isForeignBreak :=
        List.countP_cons_of_neg (by simp [isForeignBreak, heditor])
      refine ⟨[] :: lines, last, ?_, ?_, hcount ▸ hlast⟩
      · rw [editorLines_cons_of_isEditorBreak heditor hpair, hlines]
        rfl
      · rw [hcount, List.length_cons, List.length_cons]
        omega
    · -- The line ends, but for the editor its first line goes on.
      have heditor : isEditorBreak c = false := by simpa using heditor
      have hcount : (c :: rest).countP isForeignBreak = rest.countP isForeignBreak + 1 :=
        List.countP_cons_of_pos (by simp [isForeignBreak, heditor, hc])
      obtain ⟨lines', last', hlines', hlength', -⟩ := exists_modifyHead_concat (c :: ·) lines last
      refine ⟨lines', last', ?_, ?_, fun hzero => absurd hzero (by omega)⟩
      · rw [editorLines_cons_of_not_isEditorBreak heditor, hlines, hlines']
      · rw [hcount, List.length_cons]
        omega
  | inner c rest hc ih =>
    obtain ⟨lines, last, hlines, hlength, hlast⟩ := ih h.of_cons
    have hcount : (c :: rest).countP isForeignBreak = rest.countP isForeignBreak :=
      List.countP_cons_of_neg (by simp [isForeignBreak, hc])
    obtain ⟨lines', last', hlines', hlength', hlast'⟩ :=
      exists_modifyHead_concat (c :: ·) lines last
    rw [splitLines_cons_of_not_isLineBreak hc]
    cases hothers : splitLines rest with
    | nil =>
      -- The text ends here, but not in a break.
      obtain rfl := splitLines_eq_nil_iff.mp hothers
      exact absurd (h c rfl) (by simp [hc])
    | cons line others =>
      rw [hothers, List.length_cons] at hlength
      refine ⟨lines', last', ?_, ?_, fun hzero => ?_⟩
      · rw [editorLines_cons_of_not_isEditorBreak (isEditorBreak_eq_false hc), hlines, hlines']
      · rw [hcount, List.length_cons]
        omega
      · -- The rest of the text has lines, and an editor knows their breaks.
        rw [hcount] at hzero
        rw [hlast' (List.ne_nil_of_length_pos (by omega)), hlast hzero]

end Text

namespace Position

/-- What an editor finds at a position: the character of the line there that has the given number
of UTF-16 code units before it. -/
def OnCharacter (position : Position) (source : List Char) (c : Char) : Prop :=
  ∃ line before after, (Text.editorLines source)[position.line]? = some line ∧
    line = before ++ c :: after ∧ Text.utf16Length before = position.character

/-- The position at which an editor shows an offset of a document: on the line at which the text
before it ends, and after this part of the line. -/
def ofOffset (source : List Char) (offset : Nat) : Position :=
  let lines := Text.editorLines (source.take offset)
  ⟨lines.length - 1, Text.utf16Length (lines.getLastD [])⟩

variable {source before line : List Char} {c : Char} {i k : Nat}

theorem ofOffset_eq {lines : List (List Char)} {last : List Char}
    (h : Text.editorLines (source.take k) = lines ++ [last]) :
    ofOffset source k = ⟨lines.length, Text.utf16Length last⟩ := by
  simp [ofOffset, h]

/-- Where an editor shows an offset, it finds the character there. -/
theorem onCharacter_ofOffset (h : source[k]? = some c) (hc : Text.isEditorBreak c = false) :
    (ofOffset source k).OnCharacter source c := by
  obtain ⟨lines, last, hlines, hmore⟩ := Text.exists_editorLines_append (source.take k)
  obtain ⟨hk, rfl⟩ := List.getElem?_eq_some_iff.mp h
  obtain ⟨line, others, hline⟩ := Text.exists_editorLines_eq_cons (source.drop (k + 1))
  have hhead : (source[k] :: source.drop (k + 1)).head? ≠ some '\n' := by
    rintro heq
    rw [Option.some.inj heq] at hc
    cases hc
  -- The lines of the whole source, with the character behind the last line of what comes before.
  have hsource := hmore _ hhead
  rw [← List.drop_eq_getElem_cons hk, List.take_append_drop, List.drop_eq_getElem_cons hk,
    Text.editorLines_cons_of_not_isEditorBreak hc, hline] at hsource
  rw [ofOffset_eq hlines]
  refine ⟨last ++ source[k] :: line, last, line, ?_, rfl, rfl⟩
  rw [hsource, List.getElem?_append_right (Nat.le_refl _), Nat.sub_self]
  rfl

/-- An editor shows an offset of a line as many lines further up as there are breaks above it that
the editor does not know. -/
theorem ofOffset_of_line (hsource : source.take (before.length + i) = before ++ line.take i)
    (hbefore : Text.IsClosed before) (hline : ∀ x ∈ line, Text.isLineBreak x = false) :
    (ofOffset source (before.length + i)).line + before.countP Text.isForeignBreak =
        (Text.splitLines before).length ∧
      (before.countP Text.isForeignBreak = 0 →
        (ofOffset source (before.length + i)).character = Text.utf16Column line i) := by
  have hprefix : ∀ x ∈ line.take i, Text.isEditorBreak x = false := fun x hx =>
    Text.isEditorBreak_eq_false (hline x (List.mem_of_mem_take hx))
  have hhead : (line.take i).head? ≠ some '\n' := by
    intro h
    cases hprefix _ (List.mem_of_mem_head? h)
  obtain ⟨lines, last, hlines, hlength, hlast⟩ := Text.exists_editorLines_eq_of_isClosed hbefore
  obtain ⟨lines', last', hlines', hmore⟩ := Text.exists_editorLines_append before
  -- Both speak of the same last line.
  obtain ⟨rfl, heq⟩ := List.append_inj' (hlines'.symm.trans hlines) rfl
  obtain rfl : last' = last := List.singleton_inj.mp heq
  have hplace := hmore _ hhead
  rw [Text.editorLines_of_forall_not_isEditorBreak hprefix, List.modifyHead_cons, ← hsource]
    at hplace
  rw [ofOffset_eq hplace]
  refine ⟨hlength, fun hzero => ?_⟩
  rw [hlast hzero, List.nil_append, Text.utf16Column_natCast]

end Position

namespace Diagnostic

variable {source : List Char} {diagnostic : Diagnostic}

/-- **Where an editor shows a diagnostic.** A diagnostic is about a character of a line, and an
editor shows this character as many lines further up as there are breaks above the line that the
editor does not know. The diagnostic starts where the editor shows the character exactly if there
are no such breaks. Then its line is one of the lines of the editor, and what the editor finds at
its start is the character. -/
theorem start_eq_ofOffset_iff (h : diagnostic ∈ ofDocument source) :
    ∃ line error i c before after, About source diagnostic line error i c ∧
      source = before ++ line ++ after ∧
      (Text.splitLines before).length = diagnostic.start.line ∧
        let place := Position.ofOffset source (before.length + i)
        let foreign := before.countP Text.isForeignBreak
        place.OnCharacter source c ∧ place.line + foreign = diagnostic.start.line ∧
          (diagnostic.start = place ↔ foreign = 0) ∧
          (foreign = 0 → diagnostic.start.line < (Text.editorLines source).length ∧
            diagnostic.start.OnCharacter source c) := by
  obtain ⟨line, error, i, c, habout⟩ := exists_about h
  obtain ⟨before, after, hsource, hbefore, hlength, hline⟩ :=
    Text.exists_of_getElem?_splitLines habout.line_eq
  obtain ⟨hi, hc⟩ := List.getElem?_eq_some_iff.mp habout.char_eq
  have hcharacter : source[before.length + i]? = some c := by
    rw [hsource, List.append_assoc, List.getElem?_append_right (Nat.le_add_right _ _),
      Nat.add_sub_cancel_left, List.getElem?_append_left hi, habout.char_eq]
  have htake : source.take (before.length + i) = before ++ line.take i := by
    rw [hsource, List.append_assoc, List.take_length_add_append,
      List.take_append_of_le_length hi.le]
  obtain ⟨hplace, hcolumn⟩ := Position.ofOffset_of_line htake hbefore hline
  -- The character is no break, so an editor finds it where it shows its offset.
  have hbreak := Text.isEditorBreak_eq_false (hline c (List.mem_of_getElem? habout.char_eq))
  have hshown := Position.onCharacter_ofOffset hcharacter hbreak
  have hstart : diagnostic.start = Position.ofOffset source (before.length + i) ↔
      before.countP Text.isForeignBreak = 0 := by
    constructor
    · intro hstart
      rw [hlength, hstart] at hplace
      omega
    · intro hzero
      have hnumber : diagnostic.start.line =
          (Position.ofOffset source (before.length + i)).line := by
        rw [← hlength, ← hplace, hzero, Nat.add_zero]
      exact congrArg₂ Position.mk hnumber (habout.character_start.trans (hcolumn hzero).symm)
  refine ⟨line, error, i, c, before, after, habout, hsource, hlength, hshown, hlength ▸ hplace,
    hstart, fun hzero => ?_⟩
  rw [hstart.mpr hzero]
  obtain ⟨shown, front, back, hshown', -⟩ := id hshown
  exact ⟨(List.getElem?_eq_some_iff.mp hshown').1, hshown⟩

/-- The escape character behind a form feed has a diagnostic on the second line. -/
theorem mem_ofDocument_form_feed :
    { start := ⟨1, 0⟩, stop := ⟨1, 1⟩, message := "The end of line can not be escaped" } ∈
      ofDocument ['\x0c', '\\'] := by
  decide +kernel

/-- A form feed above a line ends a line, but not for an editor. -/
theorem start_behind_form_feed :
    ∃ place : Position, place.OnCharacter ['\x0c', '\\'] '\\' ∧ place.line + 1 = 1 ∧
      (⟨1, 0⟩ : Position) ≠ place := by
  obtain ⟨line, error, i, c, before, after, habout, hsource, hlength, hshown, hplace, hstart, -⟩ :=
    start_eq_ofOffset_iff mem_ofDocument_form_feed
  obtain rfl : ['\\'] = line := Option.some.inj habout.line_eq
  obtain rfl : c = '\\' := List.mem_singleton.mp (List.mem_of_getElem? habout.char_eq)
  -- One line comes before, so it is the form feed.
  cases before with
  | nil => cases hlength
  | cons first before =>
    obtain ⟨rfl, hrest⟩ := List.cons.inj hsource
    obtain rfl : before = [] := by
      have hshort : 1 = before.length + (after.length + 1) := by
        simpa using congrArg List.length hrest
      exact List.length_eq_zero_iff.mp (by omega)
    have hforeign : ['\x0c'].countP Text.isForeignBreak = 1 := by decide
    rw [hforeign] at hplace hstart
    exact ⟨_, hshown, hplace, fun h => absurd (hstart.mp h) (by decide)⟩

/-- So not every diagnostic is found by an editor: the document of a form feed and an escape
character has one line for an editor, but a diagnostic on the line below. -/
theorem not_forall_start_onCharacter :
    ¬ ∀ (source : List Char) (diagnostic : Diagnostic), diagnostic ∈ ofDocument source →
      ∀ line error i c, About source diagnostic line error i c →
        diagnostic.start.line < (Text.editorLines source).length ∧
          diagnostic.start.OnCharacter source c := by
  intro h
  obtain ⟨line, error, i, c, habout⟩ := exists_about mem_ofDocument_form_feed
  have hshort := (h _ _ mem_ofDocument_form_feed line error i c habout).1
  exact absurd hshort (by decide +kernel)

end Diagnostic

end CucumberExpressions
