import CucumberExpressions.Proofs.Atom.Run
import CucumberExpressions.Token.Dump

/-!
# Lexemes and their places

A lexeme is what a token says apart from its place: a kind and a text. Lexemes that are written one
after another become tokens whose stretches follow each other without a gap; with the two sentinels
around them, these are the tokens of the whole expression.

## Main definitions

* `Lexeme` — a kind and a text
* `Lexeme.written`, `Lexeme.width` — the characters that a lexeme is written with, and their number
* `Lexeme.ofRun` — the lexeme of a run of atoms
* `Token.place` — the tokens of a list of items that are written one after another
* `Token.ofRuns` — the tokens of a list of runs of atoms
* `Token.framed` — tokens with the sentinels around them
* `Token.Tiles` — tokens that follow each other without a gap

## Main results

* `Lexeme.written_ofRun` — the lexeme of a run is written as the run is
* `Token.tiles_place` — tokens of items that are written one after another leave no gap
* `Token.isChain_ofRuns`, `Token.isSentinel_of_mem_ofRuns` — the tokens of the runs of a list of
  atoms cannot be put together any further, and are no sentinels
-/

namespace CucumberExpressions

/-- What a token says apart from its place: its kind, and its characters without escape
characters. -/
structure Lexeme where
  kind : Kind
  text : String
  deriving DecidableEq, Repr

namespace Lexeme

/-- The characters that a character of a text is written with: a special one needs an escape
character. -/
def escape (c : Char) : List Char :=
  if isSpecial c then [escapeCharacter, c] else [c]

/-- The characters that a lexeme is written with. Only in a text there is anything to escape. -/
def written (lexeme : Lexeme) : List Char :=
  if lexeme.kind = .text then lexeme.text.toList.flatMap escape else lexeme.text.toList

/-- The number of characters that a lexeme is written with. -/
def width (lexeme : Lexeme) : Nat := lexeme.written.length

/-- Each character of a text counts once, and so does each escape character that it needs. -/
theorem width_of_kind_eq_text {lexeme : Lexeme} (h : lexeme.kind = .text) :
    lexeme.width = lexeme.text.length + lexeme.text.toList.countP isSpecial := by
  have hescape : ∀ cs : List Char,
      (cs.flatMap escape).length = cs.length + cs.countP isSpecial := by
    intro cs
    induction cs with
    | nil => rfl
    | cons c cs ih =>
      rw [List.flatMap_cons, List.length_append, ih, escape, List.countP_cons, List.length_cons]
      cases isSpecial c <;> simp <;> omega
  rw [width, written, if_pos h, hescape, String.length_toList]

/-- The lexeme of a run of atoms. -/
def ofRun (run : List Atom) : Lexeme :=
  ⟨Atom.kindOf run, String.ofList (run.map Atom.char)⟩

/-- The lexeme of a run is written as the run is. -/
theorem written_ofRun {run : List Atom} (h : run.IsChain (Atom.joins · ·)) :
    (ofRun run).written = Atom.written run := by
  by_cases hkind : Atom.kindOf run = .text
  · -- In a text exactly the special characters are escaped, both in the run and in the lexeme.
    have hkind' : (ofRun run).kind = .text := hkind
    rw [written, if_pos hkind', ofRun, String.toList_ofList, List.flatMap_map]
    refine List.flatMap_congr fun a ha => ?_
    have hspecial := Atom.isEscaped_eq_isSpecial_of_kind_eq_text
      ((Atom.kind_eq_kindOf h ha).trans hkind)
    rw [escape, ← hspecial]
    cases a <;> rfl
  · -- No atom of any other run is escaped.
    have hkind' : (ofRun run).kind ≠ .text := hkind
    rw [written, if_neg hkind', ofRun, String.toList_ofList, ← List.flatMap_singleton' (run.map _),
      List.flatMap_map]
    refine List.flatMap_congr fun a ha => ?_
    have hescaped := Atom.isEscaped_eq_false_of_kind_ne_text (Atom.kind_eq_kindOf h ha ▸ hkind)
    cases a with
    | plain => rfl
    | escaped => cases hescaped

/-- A run is as wide as its atoms are together. -/
theorem width_ofRun {run : List Atom} (h : run.IsChain (Atom.joins · ·)) :
    (ofRun run).width = Atom.totalWidth run := by
  rw [width, written_ofRun h, Atom.length_written]

/-- Written one after another, the lexemes of the runs of a list of atoms are these atoms. -/
theorem flatMap_written_map_ofRun (atoms : List Atom) :
    ((Atom.runs atoms).map ofRun).flatMap written = Atom.written atoms := by
  rw [List.flatMap_map]
  conv_rhs => rw [← Atom.flatten_runs atoms, Atom.written_flatten]
  exact List.flatMap_congr fun run hrun => written_ofRun (Atom.isChain_of_mem_runs hrun)

end Lexeme

namespace Token

/-- What a token says apart from its place. -/
def lexeme (token : Token) : Lexeme := ⟨token.kind, token.text⟩

variable {α : Type*} {content : α → Lexeme} {width : α → Nat}

/-- The tokens of a list of items that are written one after another, from the offset `start` on.
Each item has a lexeme, and a width with which it is written. -/
def place (content : α → Lexeme) (width : α → Nat) : Nat → List α → List Token
  | _, [] => []
  | start, item :: items =>
    ⟨(content item).kind, (content item).text, start, (start + width item : Nat)⟩ ::
      place content width (start + width item) items

/-- The tokens of runs of atoms that are written one after another. -/
def ofRuns (runs : List (List Atom)) : List Token :=
  place Lexeme.ofRun Atom.totalWidth 0 runs

/-- The sentinel at the start of an expression. -/
def startOfLine : Token := ⟨.startOfLine, "", 0, 0⟩

/-- The sentinel at the end of an expression of the given length. -/
def endOfLine (length : Nat) : Token := ⟨.endOfLine, "", length, length⟩

/-- Tokens with the sentinels of an expression of the given length around them. -/
def framed (length : Nat) (tokens : List Token) : List Token :=
  startOfLine :: (tokens ++ [endOfLine length])

/-- Tokens that follow each other without a gap, from the offset `start` to the offset `stop`. -/
def Tiles (start stop : Int) : List Token → Prop
  | [] => start = stop
  | token :: tokens => token.start = start ∧ Tiles token.stop stop tokens

/-- Items that come later start where those before them end. -/
theorem place_append (start : Nat) (items items' : List α) :
    place content width start (items ++ items') =
      place content width start items ++
        place content width (start + (items.map width).sum) items' := by
  induction items generalizing start with
  | nil => rfl
  | cons item items ih => simp [place, ih, Nat.add_assoc]

theorem map_lexeme_place (start : Nat) (items : List α) :
    (place content width start items).map Token.lexeme = items.map content := by
  induction items generalizing start with
  | nil => rfl
  | cons item items ih => simp [place, ih, Token.lexeme]

/-- The items are laid out as their lexemes are, if these have the same widths. -/
theorem place_id_map {width' : Lexeme → Nat} (start : Nat) {items : List α}
    (hwidth : ∀ item ∈ items, width' (content item) = width item) :
    place id width' start (items.map content) = place content width start items := by
  induction items generalizing start with
  | nil => rfl
  | cons item items ih =>
    obtain ⟨hitem, hitems⟩ := List.forall_mem_cons.mp hwidth
    rw [List.map_cons, place, place, hitem, ih _ hitems]
    rfl

/-- Tokens of items that are written one after another leave no gap. -/
theorem tiles_place (start : Nat) (items : List α) :
    Tiles start (start + (items.map width).sum : Nat) (place content width start items) := by
  induction items generalizing start with
  | nil => simp [Tiles, place]
  | cons item items ih =>
    refine ⟨rfl, ?_⟩
    have h := ih (start + width item)
    rwa [Nat.add_assoc, ← List.sum_cons, ← List.map_cons] at h

/-- A token of items that are written one after another stands after the widths of the items
before its own. -/
theorem exists_of_mem_place {start : Nat} {items : List α} {token : Token}
    (h : token ∈ place content width start items) :
    ∃ items₁ item items₂, items = items₁ ++ item :: items₂ ∧ token.lexeme = content item ∧
      token.start = (start + (items₁.map width).sum : Nat) ∧
      token.stop = (start + (items₁.map width).sum + width item : Nat) := by
  induction items generalizing start with
  | nil => exact absurd h List.not_mem_nil
  | cons item items ih =>
    rcases List.mem_cons.mp h with rfl | h
    · exact ⟨[], item, items, rfl, rfl, rfl, rfl⟩
    · obtain ⟨items₁, item', items₂, rfl, hlexeme, hstart, hstop⟩ := ih h
      refine ⟨item :: items₁, item', items₂, rfl, hlexeme, ?_, ?_⟩
      · rw [hstart, List.map_cons, List.sum_cons, Nat.add_assoc]
      · rw [hstop, List.map_cons, List.sum_cons, Nat.add_assoc start]

/-- Stretches that meet can be put together. -/
theorem tiles_append {start middle stop : Int} {tokens tokens' : List Token}
    (h : Tiles start middle tokens) (h' : Tiles middle stop tokens') :
    Tiles start stop (tokens ++ tokens') := by
  induction tokens generalizing start with
  | nil => rwa [show start = middle from h]
  | cons token tokens ih => exact ⟨h.1, ih h.2⟩

/-! ### Tokens of runs -/

variable {atoms : List Atom} {tokens : List Token} {token : Token} {length : Nat}

theorem map_lexeme_ofRuns (runs : List (List Atom)) :
    (ofRuns runs).map Token.lexeme = runs.map Lexeme.ofRun :=
  map_lexeme_place 0 runs

/-- The tokens of an expression spell it. -/
theorem flatMap_written_ofRuns (atoms : List Atom) :
    ((ofRuns (Atom.runs atoms)).flatMap fun token => token.lexeme.written) =
      Atom.written atoms := by
  rw [← List.flatMap_map, map_lexeme_ofRuns, Lexeme.flatMap_written_map_ofRun]

theorem tiles_ofRuns (atoms : List Atom) :
    Tiles 0 (Atom.totalWidth atoms) (ofRuns (Atom.runs atoms)) := by
  have htiles : Tiles (0 : Nat) _ (ofRuns (Atom.runs atoms)) := tiles_place 0 (Atom.runs atoms)
  rwa [Nat.zero_add, ← Atom.totalWidth_flatten, Atom.flatten_runs] at htiles

theorem isSentinel_of_mem_ofRuns (h : token ∈ ofRuns (Atom.runs atoms)) :
    token.kind.isSentinel = false := by
  have hlexeme : token.lexeme ∈ (Atom.runs atoms).map Lexeme.ofRun := by
    rw [← map_lexeme_ofRuns]
    exact List.mem_map_of_mem h
  obtain ⟨run, hrun, hkind⟩ := List.mem_map.mp hlexeme
  rw [show token.kind = Atom.kindOf run from congrArg Lexeme.kind hkind.symm]
  exact Atom.isSentinel_kindOf (Atom.ne_nil_of_mem_runs hrun)

/-- Neighbouring tokens of the runs of a list of atoms would not be one token. -/
theorem isChain_ofRuns (atoms : List Atom) :
    (ofRuns (Atom.runs atoms)).IsChain fun token token' =>
      token.kind.merges token'.kind = false := by
  have hruns : ((Atom.runs atoms).map Lexeme.ofRun).IsChain fun lexeme lexeme' =>
      lexeme.kind.merges lexeme'.kind = false :=
    (List.isChain_map _).mpr (Atom.isChain_kindOf_runs atoms)
  rw [← map_lexeme_ofRuns] at hruns
  exact (List.isChain_map _).mp hruns

/-! ### Sentinels -/

theorem tail_dropLast_framed (length : Nat) (tokens : List Token) :
    (framed length tokens).tail.dropLast = tokens := by
  rw [framed, List.tail_cons, List.dropLast_concat]

/-- Without the sentinels, the tokens between them remain. -/
theorem visible_false_framed (length : Nat)
    (h : ∀ token ∈ tokens, token.kind.isSentinel = false) :
    visible false (framed length tokens) = tokens := by
  have hfilter : tokens.filter (fun token => !token.kind.isSentinel) = tokens :=
    List.filter_eq_self.mpr fun token hmem => by rw [h token hmem, Bool.not_false]
  rw [visible, if_neg Bool.false_ne_true, framed, List.filter_cons_of_neg (by decide),
    List.filter_append, hfilter, List.filter_cons_of_neg (by exact Bool.false_ne_true),
    List.filter_nil, List.append_nil]

/-- The tokens of runs are those between the sentinels. -/
theorem visible_framed_ofRuns (length : Nat) (atoms : List Atom) :
    visible false (framed length (ofRuns (Atom.runs atoms))) = ofRuns (Atom.runs atoms) :=
  visible_false_framed length fun _ => isSentinel_of_mem_ofRuns

theorem tiles_framed (h : Tiles 0 length tokens) : Tiles 0 length (framed length tokens) :=
  ⟨rfl, tiles_append h ⟨rfl, rfl⟩⟩

/-- The sentinels run on with nothing. -/
theorem isChain_framed (length : Nat)
    (h : tokens.IsChain fun token token' => token.kind.merges token'.kind = false) :
    (framed length tokens).IsChain fun token token' =>
      token.kind.merges token'.kind = false := by
  -- Sentinels are neither text nor blank, so they run on with nothing.
  have hstart : ∀ kind : Kind, Kind.startOfLine.merges kind = false := by
    intro kind
    cases kind <;> rfl
  have hend : ∀ kind : Kind, kind.merges .endOfLine = false := by
    intro kind
    cases kind <;> rfl
  refine List.isChain_cons.mpr ⟨fun token _ => hstart token.kind, ?_⟩
  refine List.isChain_append.mpr ⟨h, List.isChain_singleton _, ?_⟩
  intro token _ token' htoken'
  obtain rfl : endOfLine length = token' := by simpa using htoken'
  exact hend token.kind

end Token

end CucumberExpressions
