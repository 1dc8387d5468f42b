import CucumberExpressions.FileTree
import CucumberExpressions.Options
import CucumberExpressions.Toml.Document

/-!
# Settings

A settings file is a TOML document. Its table `output` may hold the format of the report and
whether the sentinels are shown; everything else in the file is ignored. A path at which there is
no regular file gives the empty table; that no file is there must be known, though, so a path that
cannot be looked at is an error.

## Main definitions

* `Settings.LoadError` — why a settings file cannot be loaded
* `Settings.load` — the table of a settings file
* `Settings` — the format and the sentinels that a table asks for
* `Settings.ofTable` — the settings in a table
-/

namespace CucumberExpressions

/-- The settings that a file gives: the format, and whether the sentinels are shown. -/
structure Settings where
  format : Option Format := none
  sentinels : Option Bool := none
  deriving DecidableEq, Repr

namespace Settings

/-- Why a settings file cannot be loaded: its path is too long, it may not be opened, or its
content is no TOML document. A path is shown in its shortest spelling. -/
inductive LoadError
  | pathTooLong (path : String)
  | permissionDenied (path : String)
  | document (error : Toml.ReadError)
  deriving DecidableEq, Repr

/-- The name of the settings file that is looked for in a directory. -/
def defaultName : String := "cukexp.toml"

/-- The path of the settings file: the one that is named, or the usual one in a directory. -/
def path (named : Option String) (directory : String) : String :=
  named.getD (joinPath directory defaultName)

/-- The table of a settings file. -/
def load (view : FileView) (path : String) : Except LoadError Toml.Table :=
  match view path with
  | .ok content => (Toml.parseBytes content).mapError .document
  | .error .nameTooLong => .error (.pathTooLong (normalizePath path))
  | .error .permissionDenied => .error (.permissionDenied (normalizePath path))
  | .error .notFound | .error .isDirectory | .error .notDirectory | .error .embeddedNull => .ok []

/-- A value that a setting cannot have: a format that is none of the formats, or something else
than a truth value for whether the sentinels are shown. -/
inductive ValueError
  | format (value : Toml.Value)
  | sentinels (value : Toml.Value)
  deriving Repr

/-- The format in the table `output`. -/
def formatOf (output : Toml.Table) : Except ValueError (Option Format) :=
  match output.lookup "format" with
  | none => .ok none
  | some (.string name) =>
    match Format.ofName? name with
    | some format => .ok (some format)
    | none => .error (.format (.string name))
  | some value => .error (.format value)

/-- Whether the table `output` asks for the sentinels. -/
def sentinelsOf (output : Toml.Table) : Except ValueError (Option Bool) :=
  match output.lookup "sentinels" with
  | none => .ok none
  | some (.boolean value) => .ok (some value)
  | some value => .error (.sentinels value)

/-- The settings in a table. -/
def ofTable (table : Toml.Table) : Except ValueError Settings :=
  match table.lookup "output" with
  | some (.table output) => do return ⟨← formatOf output, ← sentinelsOf output⟩
  | _ => .ok {}

end Settings

end CucumberExpressions
