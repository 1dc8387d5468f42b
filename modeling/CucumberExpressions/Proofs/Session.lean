import CucumberExpressions.Proofs.Diagnostic
import CucumberExpressions.Session

/-!
# The documents of a session

After each notice a session publishes the diagnostics of one document, for the text that the
document was given last, as long as the store keeps this text. The texts of other documents play no
part in it, so what is published for a document is told by the notices about this document alone.
Nothing is published for a text whose diagnostics cannot be told, and the session goes on.

Of the store it is asked only that it keeps the last text of each document that has been opened.
What it does with a document that was changed without having been opened is left to it.

## Main definitions

* `Notice.about` — the notices about a document
* `Notice.lastText?` — the text that a document was given last
* `Notice.OpenedFirst` — every document is opened before it is changed
* `DocumentStore.KeepsLastTexts` — what is asked of a store
* `DocumentStore.publishedFor` — what is published after the notices about a document

## Main results

* `DocumentStore.KeepsLastTexts.text_after` — a store has the last text of every document
* `DocumentStore.publishedFor_run` — what is published for a document is told by the notices about
  it
* `DocumentStore.run_publishes_last_texts` — both for the run of a session
* `DocumentStore.not_forall_publishes` — a notice after which nothing is published
-/

namespace CucumberExpressions

variable {Uri State : Type}

/-! ### Notices -/

namespace Notice

/-- Whether a notice opens its document. -/
def isOpened : Notice Uri → Bool
  | opened _ _ => true
  | changed _ _ => false

/-- The text that a notice gives to its document. The last of several counts; a change may give
none. -/
def text? : Notice Uri → Option (List CodePoint)
  | opened _ text => some text
  | changed _ texts => texts.getLast?

/-- A document has been opened. -/
def IsOpen (uri : Uri) (notices : List (Notice Uri)) : Prop :=
  ∃ notice ∈ notices, notice.isOpened = true ∧ notice.uri = uri

/-- Every document is opened before it is changed. -/
def OpenedFirst (notices : List (Notice Uri)) : Prop :=
  ∀ n, ∀ _ : n < notices.length,
    notices[n].isOpened = true ∨ IsOpen notices[n].uri (notices.take n)

variable {uri : Uri} {notice : Notice Uri} {notices : List (Notice Uri)}

theorem isSome_text?_of_isOpened (h : notice.isOpened = true) : notice.text?.isSome = true := by
  cases notice with
  | opened uri text => rfl
  | changed uri texts => cases h

/-- If every document is opened first, this is so up to any notice. -/
theorem OpenedFirst.take (h : OpenedFirst notices) (k : Nat) : OpenedFirst (notices.take k) := by
  intro n hn
  rw [List.length_take] at hn
  have htake : (notices.take k).take n = notices.take n := by
    rw [List.take_take, Nat.min_eq_left (by omega)]
  rw [List.getElem_take, htake]
  exact h n (by omega)

theorem OpenedFirst.of_append {later : List (Notice Uri)} (h : OpenedFirst (notices ++ later)) :
    OpenedFirst notices := by
  have htake := h.take notices.length
  rwa [List.take_left] at htake

/-- The last notice opens its document, or the document is open before. -/
theorem OpenedFirst.isOpened_or (h : OpenedFirst (notices ++ [notice])) :
    notice.isOpened = true ∨ IsOpen notice.uri notices := by
  have hlast := h notices.length (by simp)
  rwa [List.getElem_concat_length rfl, List.take_left] at hlast

/-- After a notice its document is open. -/
theorem OpenedFirst.isOpen (h : OpenedFirst (notices ++ [notice])) :
    IsOpen notice.uri (notices ++ [notice]) := by
  rcases h.isOpened_or with hopened | ⟨earlier, hmem, hopened⟩
  · exact ⟨notice, List.mem_append_right notices List.mem_cons_self, hopened, rfl⟩
  · exact ⟨earlier, List.mem_append_left [notice] hmem, hopened⟩

section LastText

variable [DecidableEq Uri]

instance (uri : Uri) (notices : List (Notice Uri)) : Decidable (IsOpen uri notices) :=
  inferInstanceAs (Decidable (∃ notice ∈ notices, notice.isOpened = true ∧ notice.uri = uri))

instance (notices : List (Notice Uri)) : Decidable (OpenedFirst notices) :=
  inferInstanceAs (Decidable (∀ n, ∀ _ : n < notices.length,
    notices[n].isOpened = true ∨ IsOpen notices[n].uri (notices.take n)))

/-- The notices about a document. -/
def about (uri : Uri) (notices : List (Notice Uri)) : List (Notice Uri) :=
  notices.filter fun notice => notice.uri = uri

/-- The text that notices have given to a document last. -/
def lastText? (uri : Uri) (notices : List (Notice Uri)) : Option (List CodePoint) :=
  ((about uri notices).filterMap text?).getLast?

/-- A notice gives a text to no document but its own. -/
theorem lastText?_concat (uri : Uri) (notices : List (Notice Uri)) (notice : Notice Uri) :
    lastText? uri (notices ++ [notice]) =
      (if notice.uri = uri then notice.text? else none).or (lastText? uri notices) := by
  rw [lastText?, about, List.filter_append, List.filterMap_append, List.getLast?_append, lastText?,
    about]
  by_cases h : notice.uri = uri
  · rw [if_pos h, List.filter_cons_of_pos (by simpa using h)]
    cases htext : notice.text? <;> simp [htext]
  · rw [if_neg h, List.filter_cons_of_neg (by simpa using h)]
    rfl

/-- A document that is open has got a text. -/
theorem IsOpen.exists_lastText? (h : IsOpen uri notices) :
    ∃ text, lastText? uri notices = some text := by
  obtain ⟨notice, hmem, hopened, huri⟩ := h
  obtain ⟨text, htext⟩ := Option.isSome_iff_exists.mp (isSome_text?_of_isOpened hopened)
  have habout : notice ∈ about uri notices := List.mem_filter.mpr ⟨hmem, by simpa using huri⟩
  have hne : (about uri notices).filterMap text? ≠ [] :=
    List.ne_nil_of_mem (List.mem_filterMap.mpr ⟨notice, habout, htext⟩)
  exact ⟨_, List.getLast?_eq_some_getLast hne⟩

/-- A document that has got a text is open. -/
theorem OpenedFirst.isOpen_of_lastText? {text : List CodePoint} (h : OpenedFirst notices)
    (htext : lastText? uri notices = some text) : IsOpen uri notices := by
  obtain ⟨notice, habout, -⟩ := List.mem_filterMap.mp (List.mem_of_getLast? htext)
  obtain ⟨hmem, huri⟩ := List.mem_filter.mp habout
  obtain rfl : notice.uri = uri := by simpa using huri
  obtain ⟨n, hn, rfl⟩ := List.getElem_of_mem hmem
  rcases h n hn with hopened | ⟨earlier, hearlier, hopened⟩
  · exact ⟨_, List.getElem_mem hn, hopened, rfl⟩
  · exact ⟨earlier, List.mem_of_mem_take hearlier, hopened⟩

end LastText

end Notice

open Notice

namespace DocumentStore

variable {store : DocumentStore Uri State} {uri : Uri} {notice : Notice Uri}
  {notices : List (Notice Uri)} {text : List CodePoint}

/-! ### The store -/

/-- What is kept after notices. -/
def after (store : DocumentStore Uri State) (notices : List (Notice Uri)) : State :=
  notices.foldl store.note store.empty

theorem after_concat (store : DocumentStore Uri State) (notices : List (Notice Uri))
    (notice : Notice Uri) :
    store.after (notices ++ [notice]) = store.note (store.after notices) notice :=
  List.foldl_concat store.note store.empty notice notices

/-- What is asked of a store: a document that is opened, or that is open, gets the text that a
notice about it gives, and an open document keeps its text otherwise. -/
structure KeepsLastTexts (store : DocumentStore Uri State) : Prop where
  text_given : ∀ history notice text, notice.isOpened = true ∨ IsOpen notice.uri history →
    notice.text? = some text →
      store.text (store.after (history ++ [notice])) notice.uri = text
  text_kept : ∀ history notice uri, IsOpen uri history →
    (notice.uri = uri → notice.text? = none) →
      store.text (store.after (history ++ [notice])) uri = store.text (store.after history) uri

/-! ### What is published -/

/-- Each notice has one answer. -/
theorem length_run (store : DocumentStore Uri State) (state : State)
    (notices : List (Notice Uri)) : (store.run state notices).length = notices.length := by
  induction notices generalizing state with
  | nil => rfl
  | cons notice notices ih => rw [run, step, List.length_cons, List.length_cons, ih]

/-- The first notice is answered, and then the others, with the first one added to the history. -/
theorem run_after_cons (store : DocumentStore Uri State) (history : List (Notice Uri))
    (notice : Notice Uri) (notices : List (Notice Uri)) :
    store.run (store.after history) (notice :: notices) =
      Publication.ofText notice.uri
          (store.text (store.after (history ++ [notice])) notice.uri) ::
        store.run (store.after (history ++ [notice])) notices := by
  rw [run, step, after_concat]

/-- A notice is answered for the text that its document has after it. -/
theorem getElem?_run (store : DocumentStore Uri State) (history : List (Notice Uri)) {n : Nat}
    (h : n < notices.length) :
    (store.run (store.after history) notices)[n]? =
      some (Publication.ofText notices[n].uri
        (store.text (store.after (history ++ notices.take (n + 1))) notices[n].uri)) := by
  induction notices generalizing history n with
  | nil => exact absurd h (Nat.not_lt_zero n)
  | cons notice notices ih =>
    rw [run_after_cons]
    cases n with
    | zero => rfl
    | succ n =>
      have htail := ih (history ++ [notice]) (Nat.lt_of_succ_lt_succ h)
      rwa [List.append_assoc, List.singleton_append] at htail

variable [DecidableEq Uri]

/-- A store has the last text of every document. -/
theorem KeepsLastTexts.text_after (h : store.KeepsLastTexts) (hopened : OpenedFirst notices)
    (htext : lastText? uri notices = some text) : store.text (store.after notices) uri = text := by
  induction notices using List.reverseRecOn with
  | nil => cases htext
  | append_singleton notices notice ih =>
    rw [lastText?_concat, Option.or_eq_some_iff] at htext
    rcases htext with hgiven | ⟨hnone, hlast⟩
    · -- The text is that of the last notice.
      rw [Option.ite_none_right_eq_some] at hgiven
      obtain ⟨rfl, hgiven⟩ := hgiven
      exact h.text_given notices notice text hopened.isOpened_or hgiven
    · have hbefore := hopened.of_append
      rw [h.text_kept notices notice uri (hbefore.isOpen_of_lastText? hlast)
        (fun huri => by rwa [if_pos huri] at hnone)]
      exact ih hbefore hlast

/-- What is published after the notices about a document. -/
def publishedFor (uri : Uri) (notices : List (Notice Uri))
    (published : List (Except LoneSurrogate (List (Publication Uri)))) :
    List (Except LoneSurrogate (List (Publication Uri))) :=
  ((notices.zip published).filter fun pair => pair.1.uri = uri).map Prod.snd

/-- What is published for a document that has a text, after notices about nothing else. -/
def publishedAlone (uri : Uri) (text : List CodePoint) :
    List (Notice Uri) → List (Except LoneSurrogate (List (Publication Uri)))
  | [] => []
  | notice :: notices =>
    let text := notice.text?.getD text
    Publication.ofText uri text :: publishedAlone uri text notices

/-- What is published for a document is what would be published without the other documents. -/
theorem publishedFor_run (h : store.KeepsLastTexts) (uri : Uri) (history : List (Notice Uri))
    (hopened : OpenedFirst (history ++ notices)) :
    publishedFor uri notices (store.run (store.after history) notices) =
      publishedAlone uri ((lastText? uri history).getD []) (about uri notices) := by
  induction notices generalizing history with
  | nil => rfl
  | cons notice notices ih =>
    rw [List.append_cons] at hopened
    have htail := ih (history ++ [notice]) hopened
    rw [publishedFor, about] at htail
    rw [run_after_cons, publishedFor, List.zip_cons_cons, about]
    by_cases huri : notice.uri = uri
    · subst huri
      obtain ⟨text, htext⟩ := hopened.of_append.isOpen.exists_lastText?
      -- The text after the notice is the one it gives, or the one from before.
      have hgiven : (notice.text?.getD ((lastText? notice.uri history).getD [])) = text := by
        rw [lastText?_concat, if_pos rfl] at htext
        cases hnotice : notice.text? with
        | none =>
          rw [hnotice, Option.none_or] at htext
          rw [htext]
          rfl
        | some given =>
          rw [hnotice] at htext
          exact Option.some.inj htext
      rw [List.filter_cons_of_pos (by simp), List.filter_cons_of_pos (by simp), List.map_cons,
        htail, htext, h.text_after hopened.of_append htext, publishedAlone, hgiven]
      rfl
    · rw [lastText?_concat, if_neg huri, Option.none_or] at htail
      rw [List.filter_cons_of_neg (by simpa using huri),
        List.filter_cons_of_neg (by simpa using huri), htail]

/-- **Sessions.** Let a store keep the last texts, and let every document be opened before it is
changed. Then each notice is answered for the last text of its document: exactly one list of
diagnostics is published, those of this text, and if they cannot be told there is the error about
them instead, which takes a lone surrogate in the text. A text of which no line fails has an empty
list published. What is published for a document is the same in every other session with the same
notices about it. -/
theorem run_publishes_last_texts (h : store.KeepsLastTexts) (hopened : OpenedFirst notices) :
    let published := store.run store.empty notices
    published.length = notices.length ∧
      (∀ n, ∀ _ : n < notices.length, ∃ text,
        lastText? notices[n].uri (notices.take (n + 1)) = some text ∧
          (∀ diagnostics, Diagnostic.ofSource text = .ok diagnostics →
            published[n]? = some (.ok [⟨notices[n].uri, diagnostics⟩])) ∧
          (∀ lone, Diagnostic.ofSource text = .error lone →
            published[n]? = some (.error lone)) ∧
          ((∀ m, CodePoint.surrogate m ∉ text) →
            ∃ diagnostics, published[n]? = some (.ok [⟨notices[n].uri, diagnostics⟩])) ∧
          ((∀ line ∈ Text.splitLinesBy CodePoint.toChar text, ∀ error,
            ¬ Diagnostic.Fails line error) →
              published[n]? = some (.ok [⟨notices[n].uri, []⟩]))) ∧
      ∀ uri notices', OpenedFirst notices' → about uri notices' = about uri notices →
        publishedFor uri notices' (store.run store.empty notices') =
          publishedFor uri notices published := by
  intro published
  refine ⟨length_run store store.empty notices, fun n hn => ?_,
    fun uri notices' hopened' habout => ?_⟩
  · have hconcat : notices.take (n + 1) = notices.take n ++ [notices[n]] :=
      List.take_succ_eq_append_getElem hn
    have hbefore : OpenedFirst (notices.take n ++ [notices[n]]) := hconcat ▸ hopened.take (n + 1)
    obtain ⟨text, htext⟩ := hbefore.isOpen.exists_lastText?
    have hanswer : published[n]? = some (Publication.ofText notices[n].uri text) := by
      have hrun := getElem?_run store [] hn
      rwa [List.nil_append, hconcat, h.text_after hbefore htext] at hrun
    have hok : ∀ diagnostics, Diagnostic.ofSource text = .ok diagnostics →
        published[n]? = some (.ok [⟨notices[n].uri, diagnostics⟩]) := by
      intro diagnostics hdiagnostics
      rw [hanswer, Publication.ofText, hdiagnostics]
      rfl
    refine ⟨text, hconcat ▸ htext, hok, fun lone hlone => ?_, fun hcharacters => ?_,
      fun hlines => hok [] (Diagnostic.ofSource_eq_nil_iff.mpr hlines)⟩
    · rw [hanswer, Publication.ofText, hlone]
      rfl
    · obtain ⟨diagnostics, hdiagnostics⟩ := Diagnostic.exists_ofSource_eq_ok hcharacters
      exact ⟨diagnostics, hok diagnostics hdiagnostics⟩
  · -- Both come to what is published if there are no notices about other documents.
    have hrun' := publishedFor_run h uri [] hopened'
    rw [habout] at hrun'
    exact hrun'.trans (publishedFor_run h uri [] hopened).symm

/-! ### A store of texts -/

/-- A store that keeps one text for each document. -/
def texts : DocumentStore Uri (Uri → List CodePoint) where
  empty := fun _ => []
  note := fun state notice =>
    match notice.text? with
    | none => state
    | some text => fun uri => if uri = notice.uri then text else state uri
  text := fun state uri => state uri

/-- Such a store does what is asked of it. -/
theorem keepsLastTexts_texts : (texts : DocumentStore Uri _).KeepsLastTexts where
  text_given history notice text _ htext := by
    simp [after_concat, texts, htext]
  text_kept history notice uri _ hother := by
    rw [after_concat]
    cases htext : notice.text? with
    | none => simp [texts, htext]
    | some text =>
      have hne : uri ≠ notice.uri := by
        rintro rfl
        rw [hother rfl] at htext
        cases htext
      simp [texts, htext, hne]

/-- Two documents by turns; a change without texts leaves a text, and the last of several texts
counts. -/
theorem run_of_two_documents :
    let text (text : String) := text.toList.map CodePoint.char
    let published := texts.run texts.empty [.opened "file:///a" (text "\\"),
      .opened "file:///c" (text "x\n\\q"), .changed "file:///a" [],
      .changed "file:///c" [text "\\", text "ok"]]
    published[2]? = some (.ok [⟨"file:///a",
        [{ start := ⟨0, 0⟩, stop := ⟨0, 1⟩, message := "The end of line can not be escaped" }]⟩]) ∧
      published[3]? = some (.ok [⟨"file:///c", []⟩]) := by
  intro text published
  have hopened : OpenedFirst [.opened "file:///a" (text "\\"), .opened "file:///c" (text "x\n\\q"),
      .changed "file:///a" [], .changed "file:///c" [text "\\", text "ok"]] := by
    decide +kernel
  obtain ⟨-, hpublished, -⟩ := run_publishes_last_texts keepsLastTexts_texts hopened
  constructor
  · obtain ⟨last, hlast, hok, -⟩ := hpublished 2 (by decide)
    obtain rfl : text "\\" = last := Option.some_inj.mp (Eq.trans (by decide +kernel) hlast)
    exact hok _ (by decide +kernel)
  · obtain ⟨last, hlast, -, -, -, hrepaired⟩ := hpublished 3 (by decide)
    obtain rfl : text "ok" = last := Option.some_inj.mp (Eq.trans (by decide +kernel) hlast)
    exact hrepaired (Diagnostic.ofSource_eq_nil_iff.mp (by decide +kernel))

/-- So not every notice has a list published: nothing is published for a text with a lone surrogate
before a bad escape. -/
theorem not_forall_publishes :
    ¬ ∀ store : DocumentStore String (String → List CodePoint), store.KeepsLastTexts →
      ∀ notices, OpenedFirst notices → ∀ n < notices.length,
        ∃ publication, (store.run store.empty notices)[n]? = some (.ok [publication]) := by
  intro h
  obtain ⟨publication, hpublished⟩ := h texts keepsLastTexts_texts
    [.opened "file:///a" [.surrogate 0, .char '\\']] (by decide +kernel) 0 (by decide)
  have hrun : (texts.run texts.empty [.opened "file:///a" [.surrogate 0, .char '\\']])[0]? =
      some (.error ⟨0, 0⟩) := by
    decide +kernel
  cases hrun.symm.trans hpublished

end DocumentStore

end CucumberExpressions
