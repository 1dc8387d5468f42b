import CucumberExpressions.Proofs.Atom
import Mathlib.Data.List.SplitBy

/-!
# Runs of atoms

Neighbouring atoms of text belong to one token, and so do neighbouring blank atoms; every other atom
is a token of its own. A list of atoms is cut into runs, as long as possible, one for each token.
While the atoms are still being read, only the last run can grow.

## Main definitions

* `Atom.joins` — whether two neighbouring atoms belong to one token
* `Atom.runs` — the runs of a list of atoms
* `Atom.kindOf` — the kind of token that a run makes
* `Atom.closedRuns`, `Atom.openRun` — the last run, and the runs before it
* `Atom.continues` — whether an atom continues the last run of the atoms before it

## Main results

* `Atom.kind_eq_kindOf` — the atoms of a run are of one kind
* `Atom.runs_append_of_merges`, `Atom.runs_append_of_not_merges` — the runs of two lists that are
  put together
* `Atom.closedRuns_append_of_continues`, `Atom.openRun_append_of_continues` and
  `Atom.closedRuns_append_of_not_continues`, `Atom.openRun_append_of_not_continues` — what one more
  atom does to the runs
-/

namespace CucumberExpressions.Atom

/-- Whether two neighbouring atoms belong to one token: both are text, or both are blank. -/
def joins (a b : Atom) : Bool := a.kind.merges b.kind

/-- The runs of a list of atoms, each of them as long as possible. -/
def runs (atoms : List Atom) : List (List Atom) := atoms.splitBy joins

/-- The kind of token that a run makes. A run without atoms stands for the start of the line. -/
def kindOf (run : List Atom) : Kind := (run.head?.map kind).getD .startOfLine

/-- The runs of a list of atoms without the last one. -/
def closedRuns (atoms : List Atom) : List (List Atom) := (runs atoms).dropLast

/-- The last run of a list of atoms. -/
def openRun (atoms : List Atom) : List Atom := (runs atoms).getLastD []

/-- Whether `a` continues the last run of the atoms before it. If there are none, it does. -/
def continues (atoms : List Atom) (a : Atom) : Bool := atoms.getLast?.all (joins · a)

variable {atoms run : List Atom} {a b : Atom}

theorem kind_eq_of_joins (h : joins a b = true) : a.kind = b.kind := Kind.eq_of_merges h

/-! ### Single runs -/

/-- The atoms of a run are of one kind. -/
theorem kind_eq_kindOf (h : run.IsChain (joins · ·)) (ha : a ∈ run) : a.kind = kindOf run := by
  induction run with
  | nil => exact absurd ha List.not_mem_nil
  | cons b rest ih =>
    rcases List.mem_cons.mp ha with rfl | ha
    · rfl
    · cases rest with
      | nil => exact absurd ha List.not_mem_nil
      | cons c rest =>
        rw [List.isChain_cons_cons] at h
        calc
          a.kind = kindOf (c :: rest) := ih h.2 ha
          _ = b.kind := (kind_eq_of_joins h.1).symm

theorem isSentinel_kindOf (h : run ≠ []) : (kindOf run).isSentinel = false := by
  cases run with
  | nil => exact absurd rfl h
  | cons a rest => exact isSentinel_kind a

/-- Only runs of text have escape characters. -/
theorem countP_isEscaped_eq_zero (h : run.IsChain (joins · ·)) (hkind : kindOf run ≠ .text) :
    run.countP isEscaped = 0 := by
  rw [List.countP_eq_zero]
  intro a ha
  rw [isEscaped_eq_false_of_kind_ne_text (kind_eq_kindOf h ha ▸ hkind)]
  exact Bool.false_ne_true

/-- Atoms of one kind join, if this kind makes runs or there is only one of them. -/
theorem isChain_of_kind_eq {run : List Atom} {kind : Kind} (hkind : ∀ a ∈ run, a.kind = kind)
    (h : kind.isRun = true ∨ run.length = 1) : run.IsChain (joins · ·) := by
  rcases h with h | h
  · refine (List.pairwise_of_forall_mem_list fun a ha b hb => ?_).isChain
    simp [joins, Kind.merges, hkind a ha, hkind b hb, h]
  · obtain ⟨a, rfl⟩ := List.length_eq_one_iff.mp h
    exact List.isChain_singleton a

theorem length_eq_one_of_isRun_kindOf {run : List Atom} (hne : run ≠ [])
    (hchain : run.IsChain (joins · ·)) (h : (kindOf run).isRun = false) : run.length = 1 := by
  match run with
  | [a] => rfl
  | a :: b :: rest =>
    rw [List.isChain_cons_cons] at hchain
    -- The second atom joins the first one, so tokens of this kind do run on.
    have hjoins : joins a b = true := hchain.1
    exact absurd ((Kind.isRun_of_merges hjoins).symm.trans h) Bool.false_ne_true.symm

/-! ### The runs of a list -/

/-- The runs hold all atoms, in their order. -/
theorem flatten_runs (atoms : List Atom) : (runs atoms).flatten = atoms :=
  List.flatten_splitBy _ _

/-- Inside a run each atom joins the one before it. -/
theorem isChain_of_mem_runs (h : run ∈ runs atoms) : run.IsChain (joins · ·) :=
  List.isChain_of_mem_splitBy h

theorem ne_nil_of_mem_runs (h : run ∈ runs atoms) : run ≠ [] :=
  List.ne_nil_of_mem_splitBy h

/-- Neighbouring runs do not belong to one token. -/
theorem isChain_kindOf_runs (atoms : List Atom) :
    (runs atoms).IsChain fun run run' => (kindOf run).merges (kindOf run') = false := by
  -- Runs are told apart at their ends, but all atoms of a run are of the same kind.
  refine List.IsChain.imp_of_mem_imp ?_ (List.isChain_getLast_head_splitBy joins atoms)
  rintro run run' hrun hrun' ⟨hne, hne', hjoins⟩
  rw [← kind_eq_kindOf (isChain_of_mem_runs hrun) (List.getLast_mem hne),
    ← kind_eq_kindOf (isChain_of_mem_runs hrun') (List.head_mem hne')]
  exact hjoins

/-- Written one after another, runs that do not belong to one token are the runs of their atoms. -/
theorem runs_flatten {list : List (List Atom)} (hne : ∀ run ∈ list, run ≠ [])
    (hchain : ∀ run ∈ list, run.IsChain (joins · ·))
    (hbetween : list.IsChain fun run run' => (kindOf run).merges (kindOf run') = false) :
    runs list.flatten = list := by
  refine List.splitBy_flatten (fun hmem => hne [] hmem rfl) hchain ?_
  refine List.IsChain.imp_of_mem_imp ?_ hbetween
  intro run run' hrun hrun' hmerges
  refine ⟨hne run hrun, hne run' hrun', ?_⟩
  rw [joins, kind_eq_kindOf (hchain run hrun) (List.getLast_mem _),
    kind_eq_kindOf (hchain run' hrun') (List.head_mem _)]
  exact hmerges

/-- The last run may still grow; the others are closed. -/
theorem closedRuns_append_openRun (h : atoms ≠ []) :
    closedRuns atoms ++ [openRun atoms] = runs atoms := by
  have hne : runs atoms ≠ [] := List.splitBy_ne_nil.mpr h
  rw [openRun, List.getLastD_eq_getLast?, List.getLast?_eq_some_getLast hne]
  exact List.dropLast_append_getLast hne

theorem openRun_mem_runs (h : atoms ≠ []) : openRun atoms ∈ runs atoms := by
  rw [← closedRuns_append_openRun h]
  exact List.mem_append_right _ (List.mem_singleton_self _)

theorem openRun_ne_nil (h : atoms ≠ []) : openRun atoms ≠ [] :=
  ne_nil_of_mem_runs (openRun_mem_runs h)

theorem isChain_openRun (atoms : List Atom) : (openRun atoms).IsChain (joins · ·) := by
  by_cases h : atoms = []
  · rw [h]
    exact List.isChain_nil
  · exact isChain_of_mem_runs (openRun_mem_runs h)

theorem flatten_closedRuns_append_openRun (atoms : List Atom) :
    (closedRuns atoms).flatten ++ openRun atoms = atoms := by
  by_cases h : atoms = []
  · rw [h]
    rfl
  · have hflatten := flatten_runs atoms
    rwa [← closedRuns_append_openRun h, List.flatten_append, List.flatten_singleton] at hflatten

theorem getLast?_openRun (atoms : List Atom) : (openRun atoms).getLast? = atoms.getLast? := by
  by_cases h : atoms = []
  · rw [h]
    rfl
  · conv_rhs => rw [← flatten_closedRuns_append_openRun atoms]
    rw [List.getLast?_append_of_ne_nil _ (openRun_ne_nil h)]

/-! ### Lists put together -/

/-- The first atom of a run tells its kind. -/
theorem kindOf_append {run' : List Atom} (h : run ≠ []) : kindOf (run ++ run') = kindOf run := by
  rw [kindOf, kindOf, List.head?_append_of_ne_nil _ h]

/-- The first run has the kind of the whole list, which is that of its first atom. -/
theorem kindOf_of_runs_eq_cons {first : List Atom} {rest : List (List Atom)}
    (h : runs atoms = first :: rest) : kindOf first = kindOf atoms := by
  have hne : first ≠ [] := ne_nil_of_mem_runs (h ▸ List.mem_cons_self)
  rw [← flatten_runs atoms, h, List.flatten_cons, kindOf_append hne]

/-- If what comes next does not go on with the last run, the runs of both lists stay as they are. -/
theorem runs_append_of_not_merges {atoms' : List Atom}
    (h : (kindOf (openRun atoms)).merges (kindOf atoms') = false) :
    runs (atoms ++ atoms') = runs atoms ++ runs atoms' := by
  refine List.splitBy_append fun a ha b hb => ?_
  rw [Option.mem_def] at ha hb
  have hmem : a ∈ openRun atoms := List.mem_of_getLast? ((getLast?_openRun atoms).trans ha)
  have hkind : b.kind = kindOf atoms' := by simp [kindOf, hb]
  rwa [joins, kind_eq_kindOf (isChain_openRun atoms) hmem, hkind]

/-- Runs whose kinds merge are one run. -/
theorem isChain_append_of_merges {run' : List Atom} (hrun : run.IsChain (joins · ·))
    (hrun' : run'.IsChain (joins · ·)) (h : (kindOf run).merges (kindOf run') = true) :
    (run ++ run').IsChain (joins · ·) := by
  refine isChain_of_kind_eq (fun a ha => ?_) (Or.inl (Kind.isRun_of_merges h))
  rcases List.mem_append.mp ha with ha | ha
  · exact kind_eq_kindOf hrun ha
  · exact (kind_eq_kindOf hrun' ha).trans (Kind.eq_of_merges h).symm

section Seam

variable {atoms' first : List Atom} {rest : List (List Atom)}

/-- A run in the place of the last run of the one list and the first run of the other does not
belong to its neighbours if it is of the kind of both. -/
theorem isChain_kindOf_seam (hne : atoms ≠ []) (hruns : runs atoms' = first :: rest)
    (hkind : kindOf run = kindOf (openRun atoms)) (hkind' : kindOf run = kindOf first) :
    (closedRuns atoms ++ run :: rest).IsChain fun run run' =>
      (kindOf run).merges (kindOf run') = false := by
  have hkinds : ∀ list, ((runs list).map kindOf).IsChain fun kind kind' =>
      kind.merges kind' = false := fun list =>
    (List.isChain_map kindOf).mpr (isChain_kindOf_runs list)
  -- The kinds of the runs are those of the one list and of the other, which overlap at the seam.
  have hleft := hkinds atoms
  have hright := hkinds atoms'
  rw [← closedRuns_append_openRun hne, List.map_append, List.map_singleton, ← hkind] at hleft
  rw [hruns, List.map_cons, ← hkind'] at hright
  have hall := hleft.append_overlap hright (List.cons_ne_nil _ _)
  rw [List.append_assoc, List.singleton_append, ← List.map_cons, ← List.map_append] at hall
  exact (List.isChain_map kindOf).mp hall

/-- If it does go on, the last run of the one list and the first run of the other become one. -/
theorem runs_append_of_merges (hruns : runs atoms' = first :: rest)
    (h : (kindOf (openRun atoms)).merges (kindOf atoms') = true) :
    runs (atoms ++ atoms') = closedRuns atoms ++ (openRun atoms ++ first) :: rest := by
  have hne : atoms ≠ [] := by
    rintro rfl
    exact absurd (Kind.isRun_of_merges h) Bool.false_ne_true
  have hopen := openRun_mem_runs hne
  have hfirst : first ∈ runs atoms' := hruns ▸ List.mem_cons_self
  rw [← kindOf_of_runs_eq_cons hruns] at h
  have hkind : kindOf (openRun atoms ++ first) = kindOf (openRun atoms) :=
    kindOf_append (ne_nil_of_mem_runs hopen)
  have hlist : ∀ run ∈ closedRuns atoms ++ (openRun atoms ++ first) :: rest,
      run ≠ [] ∧ run.IsChain (joins · ·) := by
    intro run hrun
    rw [List.mem_append, List.mem_cons] at hrun
    rcases hrun with hrun | rfl | hrun
    · have hmem : run ∈ runs atoms := (List.dropLast_sublist _).subset hrun
      exact ⟨ne_nil_of_mem_runs hmem, isChain_of_mem_runs hmem⟩
    · exact ⟨List.append_ne_nil_of_left_ne_nil (ne_nil_of_mem_runs hopen) _,
        isChain_append_of_merges (isChain_of_mem_runs hopen) (isChain_of_mem_runs hfirst) h⟩
    · have hmem : run ∈ runs atoms' := hruns ▸ List.mem_cons_of_mem _ hrun
      exact ⟨ne_nil_of_mem_runs hmem, isChain_of_mem_runs hmem⟩
  have hflatten : (closedRuns atoms ++ (openRun atoms ++ first) :: rest).flatten =
      atoms ++ atoms' := by
    conv_rhs => rw [← flatten_closedRuns_append_openRun atoms, ← flatten_runs atoms', hruns]
    simp
  rw [← hflatten]
  exact runs_flatten (fun run hrun => (hlist run hrun).1) (fun run hrun => (hlist run hrun).2)
    (isChain_kindOf_seam hne hruns hkind (hkind.trans (Kind.eq_of_merges h)))

end Seam

/-! ### One more atom -/

/-- An atom after the first one continues the last run exactly if the kinds of both merge. -/
theorem merges_kindOf_openRun (h : atoms ≠ []) (a : Atom) :
    (kindOf (openRun atoms)).merges (kindOf [a]) = continues atoms a := by
  have hlast : atoms.getLast? = some (atoms.getLast h) := List.getLast?_eq_some_getLast h
  have hmem : atoms.getLast h ∈ openRun atoms :=
    List.mem_of_getLast? ((getLast?_openRun atoms).trans hlast)
  rw [continues, hlast, ← kind_eq_kindOf (isChain_openRun atoms) hmem]
  rfl

/-- An atom that does not continue the last run starts a run of its own. -/
theorem runs_append_of_not_continues (h : continues atoms a = false) :
    runs (atoms ++ [a]) = runs atoms ++ [[a]] := by
  have hne : atoms ≠ [] := by
    rintro rfl
    cases h
  exact runs_append_of_not_merges ((merges_kindOf_openRun hne a).trans h)

/-- An atom that continues the last run is added to it. -/
theorem runs_append_of_continues (h : continues atoms a = true) :
    runs (atoms ++ [a]) = closedRuns atoms ++ [openRun atoms ++ [a]] := by
  by_cases hne : atoms = []
  · subst hne
    rfl
  · exact runs_append_of_merges rfl ((merges_kindOf_openRun hne a).trans h)

theorem closedRuns_append_of_continues (h : continues atoms a = true) :
    closedRuns (atoms ++ [a]) = closedRuns atoms := by
  rw [closedRuns, runs_append_of_continues h, List.dropLast_concat]

theorem openRun_append_of_continues (h : continues atoms a = true) :
    openRun (atoms ++ [a]) = openRun atoms ++ [a] := by
  rw [openRun, runs_append_of_continues h, List.getLastD_concat]

theorem closedRuns_append_of_not_continues (h : continues atoms a = false) :
    closedRuns (atoms ++ [a]) = closedRuns atoms ++ [openRun atoms] := by
  have hne : atoms ≠ [] := by
    rintro rfl
    simp [continues] at h
  rw [closedRuns, runs_append_of_not_continues h, List.dropLast_concat,
    closedRuns_append_openRun hne]

theorem openRun_append_of_not_continues (h : continues atoms a = false) :
    openRun (atoms ++ [a]) = [a] := by
  rw [openRun, runs_append_of_not_continues h, List.getLastD_concat]

/-- A token ends before an atom exactly if the atom does not continue the last run. -/
theorem splits_kindOf_openRun (atoms : List Atom) (a : Atom) :
    (kindOf (openRun atoms)).splits a.kind = !continues atoms a := by
  cases hlast : atoms.getLast? with
  | none =>
    obtain rfl := List.getLast?_eq_none_iff.mp hlast
    rfl
  | some b =>
    have hmem : b ∈ openRun atoms :=
      List.mem_of_getLast? ((getLast?_openRun atoms).trans hlast)
    -- The last run has the kind of its last atom, and this is no sentinel.
    have hstart : b.kind ≠ .startOfLine := by
      intro h
      have := b.isSentinel_kind
      rw [h] at this
      exact absurd this.symm Bool.false_ne_true
    rw [← kind_eq_kindOf (isChain_openRun atoms) hmem]
    by_cases hkind : a.kind = b.kind
    · simp [Kind.splits, Kind.merges, continues, joins, hlast, hkind, hstart]
    · simp [Kind.splits, Kind.merges, continues, joins, hlast, hkind, Ne.symm hkind, hstart]

end CucumberExpressions.Atom
