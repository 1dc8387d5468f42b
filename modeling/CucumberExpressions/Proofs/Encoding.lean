import CucumberExpressions.Proofs.Scanner.History
import Mathlib.Data.Set.Function

/-!
# Writing lexemes as an expression

A list of lexemes can be written as an expression, with an escape character before each special
character of a text. If the lexemes can be told apart, reading this expression gives them back: the
lists of this form and the expressions that have tokens correspond to each other.

## Main definitions

* `Lexeme.Valid` — a lexeme that a token of an expression can have
* `Lexeme.WellFormed` — valid lexemes, neighbours of which would not be one token
* `Lexeme.encode` — the expression that a list of lexemes is written as
* `lexemes` — the lexemes of an expression

## Main results

* `Lexeme.valid_iff` — the valid lexemes are those of runs of atoms
* `Lexeme.wellFormed_iff` — the well-formed lists are those of the runs of a list of atoms
* `tokenize_encode_and_bijOn_lexemes` — reading undoes writing, and writing undoes reading
-/

namespace CucumberExpressions

open Atom

/-- If every member of a list has a preimage of some form, the list is the image of a list of such
preimages. -/
theorem exists_map_eq {α β : Type*} {f : α → β} {p : α → Prop} {list : List β}
    (h : ∀ b ∈ list, ∃ a, f a = b ∧ p a) :
    ∃ list' : List α, list'.map f = list ∧ ∀ a ∈ list', p a := by
  induction list with
  | nil => exact ⟨[], rfl, fun _ h => absurd h List.not_mem_nil⟩
  | cons b list ih =>
    obtain ⟨⟨a, rfl, ha⟩, hlist⟩ := List.forall_mem_cons.mp h
    obtain ⟨list', rfl, hlist'⟩ := ih hlist
    exact ⟨a :: list', rfl, List.forall_mem_cons.mpr ⟨ha, hlist'⟩⟩

namespace Lexeme

/-- The lexemes that a token of an expression can have: a text that is not empty, one or more blank
characters, or a structural kind with its symbol. -/
inductive Valid : Lexeme → Prop
  | text {text : String} (ne_empty : text ≠ "") : Valid ⟨.text, text⟩
  | whiteSpace {text : String} (ne_empty : text ≠ "")
      (blank : ∀ c ∈ text.toList, Text.isBlank c = true) : Valid ⟨.whiteSpace, text⟩
  | symbol {kind : Kind} {c : Char} (h : kind.symbol? = some c) :
      Valid ⟨kind, String.singleton c⟩

/-- Valid lexemes, neighbours of which are not both texts and not both blank. -/
def WellFormed (list : List Lexeme) : Prop :=
  (∀ lexeme ∈ list, lexeme.Valid) ∧
    list.IsChain fun lexeme lexeme' =>
      ¬ (lexeme.kind = .text ∧ lexeme'.kind = .text) ∧
        ¬ (lexeme.kind = .whiteSpace ∧ lexeme'.kind = .whiteSpace)

/-- The expression that a list of lexemes is written as. -/
def encode (list : List Lexeme) : String := String.ofList (list.flatMap written)

variable {lexeme : Lexeme} {list : List Lexeme} {run : List Atom}

/-! ### Lexemes of runs -/

/-- Characters that can be written as atoms of one kind are the text of a run, if there is only one
of them or tokens of this kind run on. -/
theorem exists_ofRun_eq {kind : Kind} {cs : List Char} (hne : cs ≠ [])
    (hatoms : ∀ c ∈ cs, ∃ a : Atom, a.char = c ∧ a.kind = kind)
    (h : kind.isRun = true ∨ cs.length = 1) :
    ∃ run, ofRun run = ⟨kind, String.ofList cs⟩ ∧ run ≠ [] ∧ run.IsChain (joins · ·) := by
  obtain ⟨run, rfl, hkind⟩ := exists_map_eq hatoms
  have hne' : run ≠ [] := fun hnil => hne (by rw [hnil]; rfl)
  rw [List.length_map] at h
  have hchain := isChain_of_kind_eq hkind h
  refine ⟨run, ?_, hne', hchain⟩
  rw [ofRun, ← kind_eq_kindOf hchain (List.head_mem hne'), hkind _ (List.head_mem hne')]

theorem text_ofRun_ne_empty (h : run ≠ []) : String.ofList (run.map char) ≠ "" := by
  simpa using h

/-- The valid lexemes are those of runs of atoms. -/
theorem valid_iff :
    lexeme.Valid ↔ ∃ run, ofRun run = lexeme ∧ run ≠ [] ∧ run.IsChain (joins · ·) := by
  constructor
  · rintro (@⟨text, hne⟩ | @⟨text, hne, hblank⟩ | @⟨kind, c, hsymbol⟩)
    · have hne' : text.toList ≠ [] := by simpa using hne
      have hrun := exists_ofRun_eq hne' (fun c _ => exists_text c) (Or.inl rfl)
      rwa [String.ofList_toList] at hrun
    · have hne' : text.toList ≠ [] := by simpa using hne
      have hrun := exists_ofRun_eq hne' (fun c hc => exists_whiteSpace (hblank c hc)) (Or.inl rfl)
      rwa [String.ofList_toList] at hrun
    · refine exists_ofRun_eq (List.cons_ne_nil c []) (fun d hd => ?_) (Or.inr rfl)
      rw [List.mem_singleton.mp hd]
      exact exists_of_symbol?_eq_some hsymbol
  · -- All atoms of a run are of the kind of the first one.
    rintro ⟨run, rfl, hne, hchain⟩
    have hkind := kind_eq_kindOf hchain (List.head_mem hne)
    rcases (run.head hne).kind_cases with htext | ⟨hwhite, -⟩ | hsymbol
    · rw [ofRun, ← hkind, htext]
      exact .text (text_ofRun_ne_empty hne)
    · rw [ofRun, ← hkind, hwhite]
      refine .whiteSpace (text_ofRun_ne_empty hne) fun c hc => ?_
      rw [String.toList_ofList] at hc
      obtain ⟨a, ha, rfl⟩ := List.mem_map.mp hc
      refine isBlank_char_of_kind_eq_whiteSpace ?_
      rw [kind_eq_kindOf hchain ha, ← hkind, hwhite]
    · have hlength := length_eq_one_of_isRun_kindOf hne hchain
        (by rw [← hkind]; exact Kind.isRun_of_symbol?_eq_some hsymbol)
      obtain ⟨a, rfl⟩ := List.length_eq_one_iff.mp hlength
      exact .symbol hsymbol

/-- The well-formed lists of lexemes are those of the runs of a list of atoms. -/
theorem wellFormed_iff : WellFormed list ↔ ∃ atoms, (runs atoms).map ofRun = list := by
  constructor
  · rintro ⟨hvalid, hbetween⟩
    obtain ⟨runs', rfl, hruns'⟩ :=
      exists_map_eq fun lexeme hlexeme => valid_iff.mp (hvalid lexeme hlexeme)
    -- Neighbouring lexemes are told apart, so these runs are the runs of all their atoms.
    have hbetween' := (List.isChain_map ofRun).mp hbetween
    refine ⟨runs'.flatten, ?_⟩
    rw [runs_flatten (fun run hrun => (hruns' run hrun).1) (fun run hrun => (hruns' run hrun).2)]
    exact hbetween'.imp fun run run' h => Kind.merges_eq_false_iff.mpr h
  · rintro ⟨atoms, rfl⟩
    refine ⟨fun lexeme hlexeme => ?_, ?_⟩
    · obtain ⟨run, hrun, rfl⟩ := List.mem_map.mp hlexeme
      exact valid_iff.mpr ⟨run, rfl, ne_nil_of_mem_runs hrun, isChain_of_mem_runs hrun⟩
    · refine (List.isChain_map ofRun).mpr ((isChain_kindOf_runs atoms).imp fun run run' h => ?_)
      exact Kind.merges_eq_false_iff.mp h

/-- The lexemes of the runs of a list of atoms are written as these atoms. -/
theorem toList_encode_map_ofRun (atoms : List Atom) :
    (encode ((runs atoms).map ofRun)).toList = Atom.written atoms := by
  rw [encode, String.toList_ofList, flatMap_written_map_ofRun]

end Lexeme

/-- The lexemes of an expression, without the sentinels. An expression without tokens has none. -/
def lexemes (expression : String) : List Lexeme :=
  match tokenize expression with
  | .ok tokens => (Token.visible false tokens).map Token.lexeme
  | .error _ => []

open Lexeme

/-- The lexemes of an expression are those of the runs of its atoms. -/
theorem lexemes_of_written {expression : String} {atoms : List Atom}
    (h : expression.toList = Atom.written atoms) :
    lexemes expression = (runs atoms).map ofRun := by
  rw [lexemes, tokenize_of_written h]
  dsimp only
  rw [Token.visible_framed_ofRuns, Token.map_lexeme_ofRuns]

/-- The tokens of runs of atoms are laid out by what their lexemes are written as. -/
theorem ofRuns_eq_place (atoms : List Atom) :
    Token.ofRuns (runs atoms) =
      Token.place id Lexeme.width 0 ((runs atoms).map ofRun) := by
  have hwidth : ∀ run ∈ runs atoms, (ofRun run).width = totalWidth run :=
    fun run hrun => width_ofRun (isChain_of_mem_runs hrun)
  exact (Token.place_id_map 0 hwidth).symm

/-- **Reading and writing.** A well-formed list of lexemes is read back from the expression that it
is written as: the tokens between the sentinels have these lexemes, and are laid out by what the
lexemes are written as. In this way the expressions that have tokens and the well-formed lists
correspond to each other. -/
theorem tokenize_encode_and_bijOn_lexemes :
    (∀ list, WellFormed list → tokenize (encode list) =
      .ok (Token.framed (encode list).length
        (Token.place id Lexeme.width 0 list))) ∧
      Set.InvOn encode lexemes {expression | ∃ tokens, tokenize expression = .ok tokens}
        {list | WellFormed list} ∧
      Set.BijOn lexemes {expression | ∃ tokens, tokenize expression = .ok tokens}
        {list | WellFormed list} := by
  have htokenize : ∀ list, WellFormed list → tokenize (encode list) =
      .ok (Token.framed (encode list).length
        (Token.place id Lexeme.width 0 list)) := by
    intro list hlist
    obtain ⟨atoms, rfl⟩ := wellFormed_iff.mp hlist
    rw [tokenize_of_written (toList_encode_map_ofRun atoms), ofRuns_eq_place]
  -- Both ways round the atoms stay the same: those of the expression are those of its lexemes.
  have hinv : Set.InvOn encode lexemes {expression | ∃ tokens, tokenize expression = .ok tokens}
      {list | WellFormed list} := by
    constructor
    · rintro expression ⟨tokens, htokens⟩
      obtain ⟨atoms, hatoms, -⟩ := tokenize_eq_ok_iff.mp htokens
      rw [lexemes_of_written hatoms, ← String.toList_inj, toList_encode_map_ofRun, hatoms]
    · intro list hlist
      obtain ⟨atoms, rfl⟩ := wellFormed_iff.mp hlist
      exact lexemes_of_written (toList_encode_map_ofRun atoms)
  refine ⟨htokenize, hinv, hinv.bijOn ?_ ?_⟩
  · rintro expression ⟨tokens, htokens⟩
    obtain ⟨atoms, hatoms, -⟩ := tokenize_eq_ok_iff.mp htokens
    exact wellFormed_iff.mpr ⟨atoms, (lexemes_of_written hatoms).symm⟩
  · intro list hlist
    exact ⟨_, htokenize list hlist⟩

/-- Texts of special characters only, next to a symbol and to blank characters. -/
theorem tokenize_encode_special :
    tokenize "\\\\\\(/  \\ " =
      .ok [⟨.startOfLine, "", 0, 0⟩, ⟨.text, "\\(", 0, 4⟩, ⟨.alternation, "/", 4, 5⟩,
        ⟨.whiteSpace, "  ", 5, 7⟩, ⟨.text, " ", 7, 9⟩, ⟨.endOfLine, "", 9, 9⟩] := by
  have hlist : WellFormed [⟨.text, "\\("⟩, ⟨.alternation, String.singleton '/'⟩,
      ⟨.whiteSpace, "  "⟩, ⟨.text, " "⟩] := by
    refine ⟨?_, by decide⟩
    intro lexeme hlexeme
    simp only [List.mem_cons, List.not_mem_nil, or_false] at hlexeme
    rcases hlexeme with rfl | rfl | rfl | rfl
    · exact .text (by decide)
    · exact .symbol rfl
    · refine .whiteSpace (by decide) fun c hc => ?_
      obtain rfl : c = ' ' := by simpa using hc
      rfl
    · exact .text (by decide)
  exact tokenize_encode_and_bijOn_lexemes.1 _ hlist

end CucumberExpressions
