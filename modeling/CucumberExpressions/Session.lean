import CucumberExpressions.Diagnostic

/-!
# Sessions of an editor

An editor opens documents and changes them. After each of these steps the text of the document is
asked for, and its diagnostics are published. The texts themselves are kept by a store, of which
nothing is said here but how it is used.

## Main definitions

* `Notice` — a document has been opened or changed
* `DocumentStore` — what keeps the texts of documents
* `Publication` — the diagnostics of one document
* `DocumentStore.step`, `DocumentStore.run` — what is published after one notice and after each of
  several
-/

namespace CucumberExpressions

/-- What an editor tells about a document: it has been opened with a text, or it has got new texts,
one after the other. -/
inductive Notice (Uri : Type)
  | opened (uri : Uri) (text : List CodePoint)
  | changed (uri : Uri) (texts : List (List CodePoint))
  deriving DecidableEq, Repr

/-- The document that a notice is about. -/
def Notice.uri {Uri : Type} : Notice Uri → Uri
  | opened uri _ => uri
  | changed uri _ => uri

/-- What keeps the texts of documents: it takes notices in, starting from when no document has been
opened, and is asked for texts. -/
structure DocumentStore (Uri State : Type) where
  empty : State
  note : State → Notice Uri → State
  text : State → Uri → List CodePoint

/-- The diagnostics of one document. -/
structure Publication (Uri : Type) where
  uri : Uri
  diagnostics : List Diagnostic
  deriving DecidableEq, Repr

/-- What is published for a document with a text; nothing is if its diagnostics cannot be told. -/
def Publication.ofText {Uri : Type} (uri : Uri) (text : List CodePoint) :
    Except LoneSurrogate (List (Publication Uri)) := do
  let diagnostics ← Diagnostic.ofSource text
  return [⟨uri, diagnostics⟩]

namespace DocumentStore

variable {Uri State : Type}

/-- What is kept after a notice, and what is published. An error does not end the session. -/
def step (store : DocumentStore Uri State) (state : State) (notice : Notice Uri) :
    State × Except LoneSurrogate (List (Publication Uri)) :=
  let state := store.note state notice
  (state, Publication.ofText notice.uri (store.text state notice.uri))

/-- What is published after each of several notices. -/
def run (store : DocumentStore Uri State) (state : State) :
    List (Notice Uri) → List (Except LoneSurrogate (List (Publication Uri)))
  | [] => []
  | notice :: notices =>
    let (state, published) := store.step state notice
    published :: store.run state notices

end DocumentStore

end CucumberExpressions
