import CucumberExpressions.Proofs.Encoding
import CucumberExpressions.Proofs.Scanner.Course

/-!
# The bookkeeping of a scanner

A scanner does not keep the text that it has read. It keeps the offset of the next token, the
characters collected for it, and the number of escape characters that no token has been charged
with. However often it is asked, and wherever a request stands, every character that it has read
either counts in one of these three or has been the character of an error. As long as there are
characters to read, the escape characters that it keeps are those of the collected characters and
the one that waits, so outside of texts there is no other.

A request that reads takes one character in each turn. What holds between turns holds between
requests, and wherever a token is given.

## Main definitions

* `Scanner.turn`, `Scanner.Within` — one turn of a request, and the scanner during a request
* `Scanner.tally` — the characters that a scanner accounts for
* `Scanner.Stands` — where the scanner of an expression can stand
* `Scanner.previous?` — the kind that the next character is compared with
* `Scanner.Gives` — a token and where its kind and its text come from
* `Scanner.Consistent` — the three counters and the kind tell what has been read

## Main results

* `Scanner.tally_turn`, `Scanner.tally_afterRequests` — no character is lost
* `Scanner.Stands.turn`, `Scanner.Stands.afterRequests` — the ways to stand are kept
* `Scanner.exists_consistent_of_within` — the books are right at any time
-/

namespace CucumberExpressions

open Atom

namespace Scanner

variable {expression : String} {s s' t : Scanner} {c : Char} {cs consumed rest : List Char}
  {o : Outcome} {token : Token}

/-! ### The turns of a request -/

/-- One turn of a request. A scanner that reads takes one character; if this brings nothing out, the
request goes on. Any other turn is the whole request. -/
def turn (s : Scanner) : Option Outcome × Scanner :=
  match s.phase, s.rest with
  | .reading, c :: rest => ((s.feed c).1, { (s.feed c).2 with rest })
  | _, _ => (some s.next.1, s.next.2)

/-- The scanner `t` is met during a request to `s`, before it gives anything: the request has just
been made, or its first turn has brought nothing out. -/
inductive Within : Scanner → Scanner → Prop
  | refl (s : Scanner) : Within s s
  | turn {s s' t : Scanner} (hturn : s.turn = (none, s')) (h : Within s' t) : Within s t

theorem with_rest_eq (h : s.rest = cs) : { s with rest := cs } = s := by
  subst h
  rfl

/-- While there is something to read, a turn reads one character. -/
theorem turn_of_reading (hphase : s.phase = .reading) (hrest : s.rest = c :: cs) :
    s.turn = ((s.feed c).1, { (s.feed c).2 with rest := cs }) := by
  rw [turn]
  simp only [hphase, hrest]

theorem turn_of_not_reading (h : s.phase = .reading → s.rest = []) :
    s.turn = (some s.next.1, s.next.2) := by
  rw [turn]
  split
  case h_1 hphase hrest => rw [h hphase] at hrest; cases hrest
  case h_2 => rfl

theorem turn_with_rest (hphase : s.phase = .reading) (c : Char) (cs : List Char) :
    { s with rest := c :: cs }.turn = ((s.feed c).1, { (s.feed c).2 with rest := cs }) := by
  rw [turn_of_reading (s := { s with rest := c :: cs }) hphase rfl, feed_with_rest]

/-- A turn reads a character, or it is the whole request. -/
theorem turn_cases (s : Scanner) :
    (∃ c cs, s.phase = .reading ∧ s.rest = c :: cs) ∨ (s.phase = .reading → s.rest = []) := by
  cases hrest : s.rest with
  | nil => exact Or.inr fun _ => rfl
  | cons c cs =>
    by_cases hphase : s.phase = .reading
    · exact Or.inl ⟨c, cs, hphase, rfl⟩
    · exact Or.inr fun h => absurd h hphase

/-- A turn that brings something out ends the request. -/
theorem next_of_turn_eq_some (h : s.turn = (some o, s')) : s.next = (o, s') := by
  rcases s.turn_cases with ⟨c, cs, hphase, hrest⟩ | hwhole
  · rw [turn_of_reading hphase hrest] at h
    obtain ⟨hfeed, rfl⟩ := Prod.mk.inj h
    have hnext : { s with rest := c :: cs }.next = _ :=
      next_of_feed_eq_some hphase (Prod.ext hfeed rfl)
    rwa [with_rest_eq hrest] at hnext
  · rw [turn_of_not_reading hwhole] at h
    obtain ⟨ho, rfl⟩ := Prod.mk.inj h
    exact Prod.ext (Option.some_inj.mp ho) rfl

/-- A turn that brings nothing out leaves the request to the turns after it. -/
theorem next_of_turn_eq_none (h : s.turn = (none, s')) : s.next = s'.next := by
  rcases s.turn_cases with ⟨c, cs, hphase, hrest⟩ | hwhole
  · rw [turn_of_reading hphase hrest] at h
    obtain ⟨hfeed, rfl⟩ := Prod.mk.inj h
    have hnext : { s with rest := c :: cs }.next = _ :=
      next_of_feed_eq_none hphase (Prod.ext hfeed rfl)
    rwa [with_rest_eq hrest] at hnext
  · rw [turn_of_not_reading hwhole] at h
    cases h

theorem next_of_read_up (hphase : s.phase = .reading) (hrest : s.rest = []) :
    s.next = s.finish := by
  rw [next_of_reading hphase, hrest, advance, with_rest_eq hrest]

theorem length_rest_of_turn_eq_none (h : s.turn = (none, s')) :
    s'.rest.length < s.rest.length := by
  rcases s.turn_cases with ⟨c, cs, hphase, hrest⟩ | hwhole
  · rw [turn_of_reading hphase hrest] at h
    obtain ⟨-, rfl⟩ := Prod.mk.inj h
    rw [hrest]
    exact Nat.lt_succ_self _
  · rw [turn_of_not_reading hwhole] at h
    cases h

/-- A request consists of turns that bring nothing out, and a last one that does. -/
theorem exists_within_turn_eq (s : Scanner) :
    ∃ t, s.Within t ∧ t.turn = (some s.next.1, s.next.2) := by
  match hturn : s.turn with
  | (some o, s') => exact ⟨s, .refl s, by rw [next_of_turn_eq_some hturn, hturn]⟩
  | (none, s') =>
    obtain ⟨t, hwithin, hlast⟩ := exists_within_turn_eq s'
    exact ⟨t, .turn hturn hwithin, by rw [next_of_turn_eq_none hturn, hlast]⟩
termination_by s.rest.length
decreasing_by exact length_rest_of_turn_eq_none hturn

/-! ### No character is lost -/

/-- The number of errors about a character. -/
def rejectionsIn (outcomes : List Outcome) : Nat := outcomes.countP (·.rejected?.isSome)

/-- The number of errors about a character in the first requests. -/
def rejections (s : Scanner) (n : Nat) : Nat := rejectionsIn ((List.range n).map s.outcome)

/-- The characters that a scanner accounts for: those before the next token, those collected for it,
the escape characters that no token has been charged with, and those that have not been read. -/
def tally (s : Scanner) : Nat := s.start + s.collected.length + s.escapes + s.rest.length

theorem rejections_succ (s : Scanner) (n : Nat) :
    s.rejections (n + 1) = rejectionsIn [s.next.1] + s.next.2.rejections n := by
  rw [rejections, List.range_succ_eq_map, List.map_cons, List.map_map, rejectionsIn,
    ← List.singleton_append, List.countP_append]
  rfl

/-- A token takes its characters, and a text its escape characters, from the one counter to the
other. -/
theorem tally_cut (s : Scanner) (kind : Kind) : (s.cut kind).2.tally = s.tally := by
  by_cases hkind : kind = .text <;> simp [cut, tally, hkind]

/-- A character that is read is collected or counted, unless it is the character of an error. As it
is still in the rest, it is accounted for twice. -/
theorem tally_feed (s : Scanner) (c : Char) :
    (s.feed c).2.tally + rejectionsIn (s.feed c).1.toList = s.tally + 1 := by
  have hquiet : rejectionsIn (none : Option Outcome).toList = 0 := rfl
  unfold feed
  split
  · simp only [tally, hquiet]
    omega
  · split
    · simp [rejectionsIn, Outcome.rejected?]
    · -- The character is collected, with or without those before it.
      have hcut := s.tally_cut s.last
      have hempty : (s.cut s.last).2.collected = "" := rfl
      have hgiven : rejectionsIn (some (Outcome.token (s.cut s.last).1)).toList = 0 := rfl
      generalize (if s.pending = true then Kind.text else Kind.ofChar c) = kind
      dsimp only
      split
      · simp only [tally, hempty, hgiven, String.length_empty, String.length_singleton] at hcut ⊢
        omega
      · simp only [tally, hquiet, String.length_push]
        omega

/-- Closing a scanner keeps its tally. -/
theorem tally_close (s : Scanner) : s.close.2.tally + rejectionsIn [s.close.1] = s.tally := by
  cases hpending : s.pending with
  | true =>
    rw [close_of_pending hpending]
    rfl
  | false =>
    rw [close_of_not_pending hpending]
    exact s.tally_cut .endOfLine

/-- Finishing keeps the tally of a scanner. -/
theorem tally_finish (s : Scanner) : s.finish.2.tally + rejectionsIn [s.finish.1] = s.tally := by
  cases hcollected : s.collected.isEmpty with
  | true =>
    rw [finish_of_isEmpty hcollected]
    exact s.tally_close
  | false =>
    rw [finish_of_not_isEmpty hcollected]
    exact s.tally_cut s.last

/-- What a turn takes from the rest is accounted for, unless it is the character of an error. -/
theorem tally_turn (s : Scanner) :
    s.turn.2.tally + rejectionsIn s.turn.1.toList = s.tally := by
  rcases s.turn_cases with ⟨c, cs, hphase, hrest⟩ | hwhole
  · have hfeed := s.tally_feed c
    rw [turn_of_reading hphase hrest]
    simp only [tally, rest_feed, hrest, List.length_cons] at hfeed ⊢
    omega
  · rw [turn_of_not_reading hwhole]
    cases hphase : s.phase with
    | fresh =>
      rw [next_of_fresh hphase]
      exact s.tally_cut .startOfLine
    | reading =>
      rw [next_of_read_up hphase (hwhole hphase)]
      exact s.tally_finish
    | emptied =>
      rw [next_of_emptied hphase]
      exact s.tally_close
    | closed =>
      rw [next_of_closed hphase]
      rfl

/-- The tally stays the same during a request. -/
theorem Within.tally_eq (h : s.Within t) : t.tally = s.tally := by
  induction h with
  | refl => rfl
  | @turn s s' t hturn _ ih =>
    have hkept := s.tally_turn
    rw [hturn] at hkept
    exact ih.trans hkept

/-- A request keeps the tally, but for a character that is rejected. -/
theorem tally_next (s : Scanner) : s.next.2.tally + rejectionsIn [s.next.1] = s.tally := by
  obtain ⟨t, hwithin, hlast⟩ := exists_within_turn_eq s
  have hkept := t.tally_turn
  rw [hlast, hwithin.tally_eq] at hkept
  exact hkept

/-- After any number of requests every character is accounted for, apart from those of errors. -/
theorem tally_afterRequests (s : Scanner) (n : Nat) :
    (s.afterRequests n).tally + s.rejections n = s.tally := by
  induction n generalizing s with
  | zero => rfl
  | succ n ih =>
    have hnext := s.tally_next
    have hrest := ih s.next.2
    rw [afterRequests, rejections_succ]
    omega

/-! ### Where a scanner can stand -/

/-- Where the scanner of an expression can stand, also during a request: it has not been asked, it
has read a part of the expression, perhaps all of it, or it has given the last characters, and
perhaps the end of the line. -/
inductive Stands (expression : String) : Scanner → Prop
  | fresh : Stands expression (ofExpression expression)
  | reading {consumed rest : List Char} (split : expression.toList = consumed ++ rest) :
    Stands expression { ((started expression).feedAll consumed).2 with rest }
  | ended {s : Scanner} (phase : s.phase = .emptied ∨ s.phase = .closed) (rest : s.rest = [])
    (collected : s.collected = "") : Stands expression s

theorem phase_feedAll (s : Scanner) (cs : List Char) : (s.feedAll cs).2.phase = s.phase := by
  induction cs generalizing s with
  | nil => rfl
  | cons c cs ih => exact (ih _).trans (s.phase_feed c)

/-- A scanner that closes the line stays where it is, or has come to the end. -/
theorem close_snd_cases (s : Scanner) :
    s.close.2 = s ∨ s.close.2.phase = .closed ∧ s.close.2.rest = s.rest ∧
      s.close.2.collected = "" := by
  cases hpending : s.pending with
  | true =>
    rw [close_of_pending hpending]
    exact Or.inl rfl
  | false =>
    rw [close_of_not_pending hpending]
    exact Or.inr ⟨rfl, rfl, rfl⟩

theorem Stands.close (h : Stands expression s) (hrest : s.rest = []) :
    Stands expression s.close.2 := by
  rcases s.close_snd_cases with hsame | ⟨hphase, hrest', hcollected⟩
  · rwa [hsame]
  · exact .ended (Or.inr hphase) (hrest'.trans hrest) hcollected

theorem Stands.finish (h : Stands expression s) (hrest : s.rest = []) :
    Stands expression s.finish.2 := by
  cases hcollected : s.collected.isEmpty with
  | true =>
    rw [finish_of_isEmpty hcollected]
    exact h.close hrest
  | false =>
    rw [finish_of_not_isEmpty hcollected]
    exact .ended (Or.inl rfl) hrest rfl

/-- Every turn leads from one way to stand to another. -/
theorem Stands.turn (h : Stands expression s) : Stands expression s.turn.2 := by
  cases h with
  | fresh =>
    rw [turn_of_not_reading (fun hphase => by cases hphase), next_of_fresh rfl]
    have hsplit : expression.toList = [] ++ expression.toList := rfl
    exact .reading hsplit
  | @reading consumed rest split =>
    have hphase : ((started expression).feedAll consumed).2.phase = .reading :=
      phase_feedAll (started expression) consumed
    cases rest with
    | cons c rest =>
      have hstands : Stands expression
          { ((started expression).feedAll (consumed ++ [c])).2 with rest } :=
        .reading (by rw [split, List.append_assoc, List.singleton_append])
      rw [feedAll_append] at hstands
      rw [turn_with_rest hphase]
      exact hstands
    | nil =>
      have hstands :
          Stands expression { ((started expression).feedAll consumed).2 with rest := [] } :=
        .reading split
      have hnext : Scanner.next { ((started expression).feedAll consumed).2 with rest := [] } =
          Scanner.finish { ((started expression).feedAll consumed).2 with rest := [] } :=
        next_of_read_up hphase rfl
      rw [turn_of_not_reading fun _ => rfl, hnext]
      exact hstands.finish rfl
  | ended phase rest collected =>
    have hstands : Stands expression s := .ended phase rest collected
    rcases phase with phase | phase
    · rw [turn_of_not_reading (fun _ => rest), next_of_emptied phase]
      exact hstands.close rest
    · rw [turn_of_not_reading (fun _ => rest), next_of_closed phase]
      exact hstands

/-- A scanner stands where it can also during a request. -/
theorem Stands.within (h : Stands expression s) (hwithin : s.Within t) : Stands expression t := by
  induction hwithin with
  | refl => exact h
  | turn hturn _ ih =>
    have hstands := h.turn
    rw [hturn] at hstands
    exact ih hstands

/-- A scanner stands where it can after a request, too. -/
theorem Stands.next (h : Stands expression s) : Stands expression s.next.2 := by
  obtain ⟨t, hwithin, hlast⟩ := exists_within_turn_eq s
  have hstands := (h.within hwithin).turn
  rwa [hlast] at hstands

/-- Any number of requests leads from one way to stand to another. -/
theorem Stands.afterRequests (h : Stands expression s) (n : Nat) :
    Stands expression (s.afterRequests n) := by
  induction n generalizing s with
  | zero => exact h
  | succ n ih => exact ih h.next

/-! ### What has been read -/

/-- The kind that the next character is compared with. There is none as long as nothing has been
given, and none between the last characters and the end of the line. -/
def previous? (s : Scanner) : Option Kind :=
  match s.phase with
  | .fresh | .emptied => none
  | .reading => some s.last
  | .closed => some .endOfLine

@[simp] theorem previous?_ofExpression (expression : String) :
    (ofExpression expression).previous? = none := rfl

/-- The start of the line is the first to be compared with. -/
@[simp] theorem previous?_next_ofExpression (expression : String) :
    (ofExpression expression).next.2.previous? = some .startOfLine := rfl

/-- A character that is collected takes the place of the one before it. An escape character that
starts to wait does not, nor does a character that cannot be escaped. -/
theorem previous?_feed (hphase : s.phase = .reading) (c : Char) :
    (s.feed c).2.previous? =
      if (!s.pending && c = escapeCharacter) || (s.pending && !isEscapable c) then s.previous?
      else some (if s.pending then .text else Kind.ofChar c) := by
  have hafter : (s.feed c).2.previous? = some (s.feed c).2.last := by
    simp only [previous?, phase_feed, hphase]
  have hbefore : s.previous? = some s.last := by
    simp only [previous?, hphase]
  rw [hafter, hbefore]
  by_cases hwaits : (!s.pending && c = escapeCharacter) = true
  · rw [feed, if_pos hwaits, if_pos (by simp [hwaits])]
  · by_cases hwrong : (s.pending && !isEscapable c) = true
    · rw [feed, if_neg hwaits, if_pos hwrong, if_pos (by simp [hwrong])]
    · have hcollects : ¬ ((!s.pending && c = escapeCharacter) ||
          (s.pending && !isEscapable c)) = true := by
        rw [Bool.or_eq_true]
        exact not_or.mpr ⟨hwaits, hwrong⟩
      rw [if_neg hcollects, feed, if_neg hwaits, if_neg hwrong]
      dsimp only
      generalize (if s.pending = true then Kind.text else Kind.ofChar c) = kind
      -- The character is collected, with or without a token before it.
      split <;> rfl

/-- After the last characters there is nothing to compare with. -/
theorem previous?_finish (hcollected : s.collected.isEmpty = false) :
    s.finish.2.previous? = none := by
  rw [finish_of_not_isEmpty hcollected]
  rfl

/-- Only if the end of the line is given does it become what is compared with. -/
theorem previous?_close (s : Scanner) :
    s.close.2.previous? = if s.pending then s.previous? else some .endOfLine := by
  cases hpending : s.pending with
  | true =>
    rw [close_of_pending hpending]
    rfl
  | false =>
    rw [close_of_not_pending hpending]
    rfl

/-- Where the kind and the text of a token come from. Only the sentinels have a kind of their own,
and only they are empty. Any other token has the text that has been collected, and the kind that
goes with it. -/
inductive Gives (s : Scanner) (token : Token) : Prop
  | startOfLine (phase : s.phase = .fresh) (kind : token.kind = .startOfLine)
    (text : token.text = "")
  | endOfLine (rest : s.rest = []) (kind : token.kind = .endOfLine) (text : token.text = "")
  | collected (kind : s.previous? = some token.kind) (text : token.text = s.collected)
    (ne_empty : s.collected ≠ "")

/-- What a scanner keeps tells what it has read, apart from the characters of errors: every
character is counted once, what has been collected makes a token of its kind, and the next character
is compared with this kind. The escape characters that are kept are those of the collected
characters and the one that waits, so there is at most one of them outside of texts. -/
structure Consistent (errors : Nat) (consumed : List Char) (s : Scanner) : Prop where
  counted : consumed.length = s.start + s.collected.length + s.escapes + errors
  valid : s.collected ≠ "" → ∃ kind, s.previous? = some kind ∧ kind.isSentinel = false ∧
    Lexeme.Valid ⟨kind, s.collected⟩
  escaped : s.rest ≠ [] → ∃ before held : List Atom,
    mend consumed = written (before ++ held) ++ waiting s.pending ∧
      s.collected = String.ofList (held.map char) ∧
      s.escapes = held.countP isEscaped + s.pending.toNat
  escapes_le : s.rest ≠ [] → (s.collected = "" ∨ s.previous? ≠ some .text) → s.escapes ≤ 1
  compared : s.phase ≠ .fresh → s.rest ≠ [] → s.previous? = some s.last
  gives : ∀ {token}, s.turn.1 = some (.token token) → s.Gives token

/-- Feeding brings out what has been collected, and never on the first character. -/
theorem feed_fst_eq_token (h : (s.feed c).1 = some (.token token)) :
    token = (s.cut s.last).1 ∧ s.last ≠ .startOfLine := by
  unfold feed at h
  dsimp only at h
  split at h
  · cases h
  · split at h
    · cases h
    · generalize (if s.pending = true then Kind.text else Kind.ofChar c) = kind at h
      split at h
      · rename_i hsplits
        cases h
        refine ⟨rfl, fun hlast => ?_⟩
        rw [hlast] at hsplits
        cases hsplits
      · cases h

theorem close_fst_eq_token (h : s.close.1 = .token token) :
    token.kind = .endOfLine ∧ token.text = s.collected := by
  cases hpending : s.pending with
  | true =>
    rw [close_of_pending hpending] at h
    cases h
  | false =>
    rw [close_of_not_pending hpending] at h
    cases h
    exact ⟨rfl, rfl⟩

theorem finish_fst_eq_token (h : s.finish.1 = .token token) :
    token.kind = .endOfLine ∧ token.text = "" ∨
      token = (s.cut s.last).1 ∧ s.collected ≠ "" := by
  cases hcollected : s.collected.isEmpty with
  | true =>
    rw [finish_of_isEmpty hcollected] at h
    obtain ⟨hkind, htext⟩ := close_fst_eq_token h
    exact Or.inl ⟨hkind, htext.trans (String.isEmpty_iff.mp hcollected)⟩
  | false =>
    rw [finish_of_not_isEmpty hcollected] at h
    cases h
    exact Or.inr ⟨rfl, by simpa [String.isEmpty_iff] using hcollected⟩

/-- A reading scanner gives what it has collected, and there is something. -/
theorem gives_of_reading (hphase : s.phase = .reading)
    (hlast : s.collected = "" → s.last = .startOfLine) (h : s.turn.1 = some (.token token)) :
    s.Gives token := by
  have hprevious : s.previous? = some s.last := by
    rw [previous?]
    simp only [hphase]
  rcases s.turn_cases with ⟨c, cs, -, hrest⟩ | hwhole
  · rw [turn_of_reading hphase hrest] at h
    obtain ⟨rfl, hne⟩ := feed_fst_eq_token h
    exact .collected hprevious rfl fun hempty => hne (hlast hempty)
  · rw [turn_of_not_reading hwhole, next_of_read_up hphase (hwhole hphase)] at h
    rcases finish_fst_eq_token (Option.some_inj.mp h) with ⟨hkind, htext⟩ | ⟨rfl, hne⟩
    · exact .endOfLine (hwhole hphase) hkind htext
    · exact .collected hprevious rfl hne

variable {atoms : List Atom} {pending : Bool} {errors : Nat}

theorem counted_of_tally (hsplit : expression.toList = consumed ++ s.rest)
    (htally : s.tally + errors = expression.length) :
    consumed.length = s.start + s.collected.length + s.escapes + errors := by
  have hlength := congrArg List.length hsplit
  rw [String.length_toList, List.length_append] at hlength
  rw [tally] at htally
  omega

/-- A scanner that has read a list of atoms keeps those of the last run. -/
theorem consistent_after (hsplit : expression.toList = consumed ++ rest)
    (hmend : mend consumed = written atoms ++ waiting pending)
    (htally : tally { after expression atoms pending with rest } + errors = expression.length) :
    Consistent errors consumed { after expression atoms pending with rest } := by
  have hempty_iff : String.ofList ((openRun atoms).map char) = "" ↔ openRun atoms = [] := by simp
  refine ⟨counted_of_tally hsplit htally, fun hcollected => ?_, fun _ => ?_, fun _ houtside => ?_,
    fun _ _ => rfl, gives_of_reading rfl fun hempty => ?_⟩
  · have hne : openRun atoms ≠ [] := mt hempty_iff.mpr hcollected
    exact ⟨kindOf (openRun atoms), rfl, isSentinel_kindOf hne,
      Lexeme.valid_iff.mpr ⟨openRun atoms, rfl, hne, isChain_openRun atoms⟩⟩
  · refine ⟨(closedRuns atoms).flatten, openRun atoms, ?_, rfl, rfl⟩
    rw [flatten_closedRuns_append_openRun]
    exact hmend
  · -- None of the collected characters is escaped.
    have hnone : (openRun atoms).countP isEscaped = 0 := by
      rcases houtside with hempty | hkind
      · rw [hempty_iff.mp hempty]
        rfl
      · exact countP_isEscaped_eq_zero (isChain_openRun atoms) fun htext =>
          hkind (congrArg some htext)
    change (openRun atoms).countP isEscaped + pending.toNat ≤ 1
    rw [hnone, Nat.zero_add]
    exact pending.toNat_le
  · exact congrArg kindOf (hempty_iff.mp hempty)

/-- Where a scanner can stand, what it keeps is consistent with what it has read. -/
theorem Stands.exists_consistent (h : Stands expression s)
    (htally : s.tally + errors = expression.length) :
    ∃ consumed, expression.toList = consumed ++ s.rest ∧ Consistent errors consumed s := by
  cases h with
  | fresh =>
    refine ⟨[], rfl, counted_of_tally rfl htally, fun h => absurd rfl h, fun _ => ?_,
      fun _ _ => Nat.zero_le 1, fun h => absurd rfl h, fun {token} h => ?_⟩
    · exact ⟨[], [], mend_nil, rfl, rfl⟩
    · rw [turn_of_not_reading (fun hphase => by cases hphase), next_of_fresh rfl] at h
      cases h
      exact .startOfLine rfl rfl rfl
  | @reading consumed rest split =>
    obtain ⟨atoms, pending, hmend⟩ := exists_mend_eq consumed
    have hstate := (feedAll_of_mend_eq expression hmend).2
    rw [hstate] at htally ⊢
    exact ⟨consumed, split, consistent_after split hmend htally⟩
  | ended phase rest collected =>
    have hsplit : expression.toList = expression.toList ++ s.rest := by
      rw [rest, List.append_nil]
    refine ⟨expression.toList, hsplit, counted_of_tally hsplit htally,
      fun h => absurd collected h, fun h => absurd rest h, fun h => absurd rest h,
      fun _ h => absurd rest h, fun {token} h => ?_⟩
    rw [turn_of_not_reading fun _ => rest] at h
    rcases phase with phase | phase
    · rw [next_of_emptied phase] at h
      obtain ⟨hkind, htext⟩ := close_fst_eq_token (Option.some_inj.mp h)
      exact .endOfLine rest hkind (htext.trans collected)
    · rw [next_of_closed phase] at h
      cases h

/-- **Bookkeeping.** However often the scanner of an expression has been asked, also after errors,
and wherever a request stands, it is consistent with the part of the expression that it has read and
the errors about a character that it has given. -/
theorem exists_consistent_of_within {n : Nat}
    (h : ((ofExpression expression).afterRequests n).Within t) :
    ∃ consumed, expression.toList = consumed ++ t.rest ∧
      Consistent ((ofExpression expression).rejections n) consumed t := by
  have hstands : Stands expression t := (Stands.fresh.afterRequests n).within h
  refine hstands.exists_consistent ?_
  rw [h.tally_eq, tally_afterRequests]
  simp [tally, ofExpression, String.length_toList]

/-- The second request to the scanner of `a\b(c)` gives an error about `b`. During the third one the
parenthesis is collected as text. -/
theorem exists_consistent_of_within_third_request :
    ∃ t, ((ofExpression "a\\b(c)").afterRequests 2).Within t ∧
      t.collected = "a(" ∧ t.escapes = 1 ∧ (ofExpression "a\\b(c)").rejections 2 = 1 ∧
        ∃ consumed, "a\\b(c)".toList = consumed ++ t.rest ∧
          Consistent ((ofExpression "a\\b(c)").rejections 2) consumed t :=
  have h : ((ofExpression "a\\b(c)").afterRequests 2).Within _ := .turn rfl (.refl _)
  ⟨_, h, rfl, rfl, by decide, exists_consistent_of_within h⟩

end Scanner

end CucumberExpressions
