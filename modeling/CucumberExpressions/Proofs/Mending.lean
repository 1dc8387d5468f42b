import CucumberExpressions.Proofs.Scanner.History
import Mathlib.Data.List.TakeWhile

/-!
# Mended expressions

An escape character that stands before a character that cannot be escaped is mended by leaving this
character out, and those after it up to the next special character. A scanner does the same: it
reports the character and goes on as if it had not been there, so that the escape character before
it waits for the next one.

## Main definitions

* `mend` — a text without the characters that are rejected after an escape character
* `discarded` — these characters
* `Outcome.rejected?` — the character that an error on the way is about
* `Scanner.Recovers` — what a scanner gives on a text that lacks some of its characters

## Main results

* `exists_mend_eq` — a mended text is made of atoms, up to an escape character at its end
* `Scanner.recovers_mend` — errors on the way leave the scanner as it is on the mended text
* `Scanner.feedAll_of_mend_eq` — what a scanner has read is told by the atoms of the mended text
-/

namespace CucumberExpressions

open Atom

/-! ### Mended texts -/

/-- Whether `c` is rejected after an escape character. -/
def isRejected (c : Char) : Bool := !isSpecial c

theorem length_lt_of_dropWhile_eq_cons {p : Char → Bool} {cs rest : List Char} {d : Char}
    (h : cs.dropWhile p = d :: rest) : rest.length < cs.length := by
  have hlength := List.length_dropWhile_le p cs
  rw [h, List.length_cons] at hlength
  omega

/-- The text without the characters that are rejected after an escape character: those between it
and the next special character, or the end of the text. -/
def mend : List Char → List Char
  | [] => []
  | c :: rest =>
    if c = escapeCharacter then
      match _h : rest.dropWhile isRejected with
      | [] => [c]
      | d :: rest' => c :: d :: mend rest'
    else
      c :: mend rest
termination_by cs => cs.length
decreasing_by
  · exact Nat.lt_succ_of_lt (length_lt_of_dropWhile_eq_cons _h)
  · exact Nat.lt_succ_self _

/-- The characters that the mended text lacks, in their order. -/
def discarded : List Char → List Char
  | [] => []
  | c :: rest =>
    if c = escapeCharacter then
      rest.takeWhile isRejected ++
        match _h : rest.dropWhile isRejected with
        | [] => []
        | _ :: rest' => discarded rest'
    else
      discarded rest
termination_by cs => cs.length
decreasing_by
  · exact Nat.lt_succ_of_lt (length_lt_of_dropWhile_eq_cons _h)
  · exact Nat.lt_succ_self _

variable {cs rejected rest : List Char} {c d : Char}

@[simp] theorem mend_nil : mend [] = [] := by rw [mend]

@[simp] theorem discarded_nil : discarded [] = [] := by rw [discarded]

theorem mend_plain (hc : c ≠ escapeCharacter) (rest : List Char) :
    mend (c :: rest) = c :: mend rest := by
  rw [mend, if_neg hc]

theorem discarded_plain (hc : c ≠ escapeCharacter) (rest : List Char) :
    discarded (c :: rest) = discarded rest := by
  rw [discarded, if_neg hc]

theorem mend_dangling (h : ∀ c ∈ rejected, isRejected c = true) :
    mend (escapeCharacter :: rejected) = [escapeCharacter] := by
  have hdrop : rejected.dropWhile isRejected = [] := List.dropWhile_eq_nil_iff.mpr h
  rw [mend, if_pos rfl]
  split <;> simp_all

theorem discarded_dangling (h : ∀ c ∈ rejected, isRejected c = true) :
    discarded (escapeCharacter :: rejected) = rejected := by
  have hdrop : rejected.dropWhile isRejected = [] := List.dropWhile_eq_nil_iff.mpr h
  have htake : rejected.takeWhile isRejected = rejected := List.takeWhile_eq_self_iff.mpr h
  rw [discarded, if_pos rfl, htake]
  split <;> simp_all

/-- A special character makes an escape whole; what was rejected before it is gone. -/
theorem mend_escaped (h : ∀ c ∈ rejected, isRejected c = true) (hd : isSpecial d = true)
    (rest : List Char) :
    mend (escapeCharacter :: (rejected ++ d :: rest)) = escapeCharacter :: d :: mend rest := by
  have hdrop : (rejected ++ d :: rest).dropWhile isRejected = d :: rest := by
    rw [List.dropWhile_append_of_pos h, List.dropWhile_cons_of_neg (by simp [isRejected, hd])]
  rw [mend, if_pos rfl]
  split <;> simp_all

/-- What is rejected in an escape is discarded, and then what is discarded after it. -/
theorem discarded_escaped (h : ∀ c ∈ rejected, isRejected c = true) (hd : isSpecial d = true)
    (rest : List Char) :
    discarded (escapeCharacter :: (rejected ++ d :: rest)) = rejected ++ discarded rest := by
  have hdrop : (rejected ++ d :: rest).dropWhile isRejected = d :: rest := by
    rw [List.dropWhile_append_of_pos h, List.dropWhile_cons_of_neg (by simp [isRejected, hd])]
  have htake : (rejected ++ d :: rest).takeWhile isRejected = rejected := by
    rw [List.takeWhile_append_of_pos h, List.takeWhile_cons_of_neg (by simp [isRejected, hd]),
      List.append_nil]
  rw [discarded, if_pos rfl, htake]
  split <;> simp_all

/-- A text is empty, or it starts with a plain character, or with an escape and what is rejected
in it. -/
theorem mend_induction {motive : List Char → Prop} (nil : motive [])
    (plain : ∀ c rest, c ≠ escapeCharacter → motive rest → motive (c :: rest))
    (dangling : ∀ rejected : List Char, (∀ c ∈ rejected, isRejected c = true) →
      motive (escapeCharacter :: rejected))
    (escaped : ∀ (rejected : List Char) (d : Char) (rest : List Char),
      (∀ c ∈ rejected, isRejected c = true) → isSpecial d = true → motive rest →
        motive (escapeCharacter :: (rejected ++ d :: rest)))
    (cs : List Char) : motive cs := by
  induction cs using mend.induct with
  | case1 => exact nil
  | case2 rest hdrop => exact dangling rest (List.dropWhile_eq_nil_iff.mp hdrop)
  | case3 rest d rest' hdrop ih =>
    -- The first character that is not rejected is the one that is escaped.
    have hsplit := List.takeWhile_append_dropWhile (p := isRejected) (l := rest)
    have hd : isSpecial d = true := by
      have hhead := List.head_dropWhile_not isRejected (l := rest) (by simp [hdrop])
      simpa [hdrop, isRejected] using hhead
    rw [hdrop] at hsplit
    rw [← hsplit]
    exact escaped _ d rest' (fun c hc => List.mem_takeWhile_imp hc) hd ih
  | case4 c rest hc ih => exact plain c rest hc ih

/-- Every character is kept or discarded. -/
theorem length_mend_add_length_discarded (cs : List Char) :
    (mend cs).length + (discarded cs).length = cs.length := by
  induction cs using mend_induction with
  | nil => simp
  | plain c rest hc ih =>
    rw [mend_plain hc, discarded_plain hc, List.length_cons, List.length_cons]
    omega
  | dangling rejected h =>
    rw [mend_dangling h, discarded_dangling h, List.length_singleton, List.length_cons]
    omega
  | escaped rejected d rest h hd ih =>
    rw [mend_escaped h hd, discarded_escaped h hd]
    simp only [List.length_cons, List.length_append]
    omega

/-- The escape character that waits after a text, if there is one. -/
def waiting (pending : Bool) : List Char := if pending then [escapeCharacter] else []

/-- A mended text is made of atoms, up to an escape character that is left at its end. -/
theorem exists_mend_eq (cs : List Char) :
    ∃ atoms pending, mend cs = written atoms ++ waiting pending := by
  induction cs using mend_induction with
  | nil => exact ⟨[], false, mend_nil⟩
  | plain c rest hc ih =>
    obtain ⟨atoms, pending, ih⟩ := ih
    exact ⟨.plain c hc :: atoms, pending, by rw [mend_plain hc, ih]; rfl⟩
  | dangling rejected h => exact ⟨[], true, mend_dangling h⟩
  | escaped rejected d rest h hd ih =>
    obtain ⟨atoms, pending, ih⟩ := ih
    exact ⟨.escaped d hd :: atoms, pending, by rw [mend_escaped h hd, ih]; rfl⟩

/-- Such a text is mended already. -/
theorem mend_written_append_waiting (atoms : List Atom) (pending : Bool) :
    mend (written atoms ++ waiting pending) = written atoms ++ waiting pending ∧
      discarded (written atoms ++ waiting pending) = [] := by
  have hnone : ∀ c ∈ ([] : List Char), isRejected c = true := fun _ hc => by cases hc
  induction atoms with
  | nil =>
    cases pending with
    | false => exact ⟨mend_nil, discarded_nil⟩
    | true => exact ⟨mend_dangling hnone, discarded_dangling hnone⟩
  | cons a atoms ih =>
    rw [written_cons, List.append_assoc]
    cases a with
    | plain c hc =>
      rw [source, List.singleton_append, mend_plain hc, discarded_plain hc, ih.1]
      exact ⟨rfl, ih.2⟩
    | escaped d hd =>
      have hmend := mend_escaped hnone hd (written atoms ++ waiting pending)
      have hdiscarded := discarded_escaped hnone hd (written atoms ++ waiting pending)
      rw [ih.1] at hmend
      rw [ih.2] at hdiscarded
      exact ⟨hmend, hdiscarded⟩

/-! ### Errors on the way -/

/-- The character that an error on the way is about. -/
def Outcome.rejected? : Outcome → Option String
  | .error ⟨_, _, .cannotEscape character⟩ => some character
  | _ => none

namespace Scanner

/-- On `cs` a scanner gives what it gives on `cs'`, interspersed with errors about the characters
that are missing there, and it ends in the same state. -/
structure Recovers (s : Scanner) (cs cs' missing : List Char) : Prop where
  kept : (s.feedAll cs').1 = (s.feedAll cs).1.filter (·.rejected?.isNone)
  errors : (s.feedAll cs).1.filterMap Outcome.rejected? = missing.map String.singleton
  state : (s.feedAll cs').2 = (s.feedAll cs).2

variable {s : Scanner} {cs' missing : List Char}

theorem Recovers.nil (s : Scanner) : s.Recovers [] [] [] := ⟨rfl, rfl, rfl⟩

/-- A character that is read without an error is read in both texts. -/
theorem Recovers.accept (h : ∀ o ∈ (s.feed c).1, o.rejected? = none)
    (hrest : (s.feed c).2.Recovers cs cs' missing) :
    s.Recovers (c :: cs) (c :: cs') missing := by
  have hnone : ∀ o ∈ (s.feed c).1.toList, o.rejected? = none := fun o ho =>
    h o (Option.mem_toList.mp ho)
  have hkept : (s.feed c).1.toList.filter (·.rejected?.isNone) = (s.feed c).1.toList :=
    List.filter_eq_self.mpr fun o ho => by rw [hnone o ho]; rfl
  have herrors : (s.feed c).1.toList.filterMap Outcome.rejected? = [] :=
    List.filterMap_eq_nil_iff.mpr hnone
  constructor
  · rw [feedAll, feedAll, hrest.kept, List.filter_append, hkept]
  · rw [feedAll, List.filterMap_append, herrors, hrest.errors, List.nil_append]
  · exact hrest.state

/-- A rejected character leaves the scanner as it is. -/
theorem Recovers.reject (h : s.pending = true) (hc : isRejected c = true)
    (hrest : s.Recovers cs cs' missing) : s.Recovers (c :: cs) cs' (c :: missing) := by
  have hc' : isSpecial c = false := by simpa [isRejected] using hc
  have hfeed : s.feed c = (some (.error ⟨s.expression, s.start + s.escapes,
      .cannotEscape (String.singleton c)⟩), s) := by
    simp [feed, h, isEscapable_eq_isSpecial, hc']
  constructor
  · rw [feedAll, hfeed, hrest.kept]
    rfl
  · rw [feedAll, hfeed, List.map_cons, ← hrest.errors]
    rfl
  · rw [feedAll, hfeed, hrest.state]

/-- Characters that are rejected one after another leave the scanner as it is. -/
theorem Recovers.rejectAll (h : s.pending = true) (hrejected : ∀ c ∈ rejected, isRejected c = true)
    (hrest : s.Recovers cs cs' missing) :
    s.Recovers (rejected ++ cs) cs' (rejected ++ missing) := by
  induction rejected with
  | nil => exact hrest
  | cons c rejected ih =>
    obtain ⟨hc, hrejected⟩ := List.forall_mem_cons.mp hrejected
    exact .reject h hc (ih hrejected)

/-- An escape character is read without giving anything, and waits. -/
theorem Recovers.escape (h : s.pending = false)
    (hrest : ∀ {s : Scanner}, s.pending = true → s.Recovers cs cs' missing) :
    s.Recovers (escapeCharacter :: cs) (escapeCharacter :: cs') missing := by
  have hfeed : s.feed escapeCharacter =
      (none, { s with escapes := s.escapes + 1, pending := true }) := by
    simp [feed, h]
  refine .accept ?_ ?_
  · rw [hfeed]
    exact fun o ho => by cases ho
  · rw [hfeed]
    exact hrest rfl

/-- A character whose meaning is settled is read without an error, and nothing waits after it. -/
theorem Recovers.char (a : Atom) (h : s.pending = a.isEscaped)
    (hrest : ∀ {s : Scanner}, s.pending = false → s.Recovers cs cs' missing) :
    s.Recovers (a.char :: cs) (a.char :: cs') missing := by
  have hfeed := feed_char_eq s a h
  -- A token may be cut off or not; nothing waits afterwards in either case.
  by_cases hsplits : s.last.splits a.kind = true
  · rw [if_pos hsplits] at hfeed
    refine .accept ?_ ?_
    · rw [hfeed]
      exact fun o ho => by obtain rfl := Option.some_inj.mp ho; rfl
    · rw [hfeed]
      exact hrest rfl
  · rw [if_neg hsplits] at hfeed
    refine .accept ?_ ?_
    · rw [hfeed]
      exact fun o ho => by cases ho
    · rw [hfeed]
      exact hrest rfl

/-- Errors on the way are about the discarded characters, and leave the scanner as it is on the
mended text. -/
theorem recovers_mend (h : s.pending = false) (cs : List Char) :
    s.Recovers cs (mend cs) (discarded cs) := by
  -- Reading changes the scanner, so this is shown for every scanner with nothing pending.
  induction cs using mend_induction generalizing s with
  | nil =>
    rw [mend_nil, discarded_nil]
    exact .nil s
  | plain c rest hc ih =>
    rw [mend_plain hc, discarded_plain hc]
    exact .char (.plain c hc) h ih
  | dangling rejected hrejected =>
    rw [mend_dangling hrejected, discarded_dangling hrejected]
    refine .escape h fun hpending => ?_
    simpa using Recovers.rejectAll hpending hrejected (.nil _)
  | escaped rejected d rest hrejected hd ih =>
    rw [mend_escaped hrejected hd, discarded_escaped hrejected hd]
    refine .escape h fun hpending => .rejectAll hpending hrejected ?_
    exact .char (.escaped d hd) hpending ih

/-! ### What has been read -/

variable {expression : String} {atoms : List Atom} {pending : Bool}

/-- On atoms a scanner gives the tokens of the runs that are closed, and keeps the last one. -/
theorem feedAll_written_append_waiting (expression : String) (atoms : List Atom) (pending : Bool) :
    (started expression).feedAll (written atoms ++ waiting pending) =
      ((Token.ofRuns (closedRuns atoms)).map .token, after expression atoms pending) := by
  rw [feedAll_append, feedAll_written]
  cases pending with
  | false => simp [waiting, feedAll]
  | true => simp [waiting, feedAll, feed_escapeCharacter]

/-- What a scanner has read is told by the atoms of the mended text: besides the errors it has given
the tokens of their closed runs. -/
theorem feedAll_of_mend_eq (expression : String)
    (h : mend cs = written atoms ++ waiting pending) :
    ((started expression).feedAll cs).1.filter (·.rejected?.isNone) =
        (Token.ofRuns (closedRuns atoms)).map .token ∧
      ((started expression).feedAll cs).2 = after expression atoms pending := by
  -- The scanner ends as it does on the mended text, which is written out in full.
  have hrecovers := recovers_mend (s := started expression) rfl cs
  have hmended := feedAll_written_append_waiting expression atoms pending
  rw [← h] at hmended
  constructor
  · rw [← hrecovers.kept, hmended]
  · rw [← hrecovers.state, hmended]

end Scanner

end CucumberExpressions
