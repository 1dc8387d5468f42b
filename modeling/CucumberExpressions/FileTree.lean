/-!
# Files

A program sees files through a view: a path gives the content of a regular file, or the reason why
there is none to read. All files stand in one tree, and a path is followed in it component by
component, from the root or from the directory in which the program runs. Empty components and
single dots are dropped, two dots lead back to the directory above, and a path without components
leads to where it starts.

## Main definitions

* `PathError` — why a path gives no content
* `FileView` — what the paths give
* `FileTree` — a file or a directory with what is in it
* `FileSystem` — the tree of all files, and the directory in which the program runs
* `FileSystem.view` — what the paths give there
-/

namespace CucumberExpressions

/-- Why a path gives no content. A path is no directory if one of the components before its last
one is a file, and its name is too long if one of its components is, or the whole path. -/
inductive PathError
  | notFound | isDirectory | notDirectory | nameTooLong | permissionDenied | embeddedNull
  deriving DecidableEq, Repr

/-- The reason in words. -/
def PathError.message : PathError → String
  | notFound => "No such file or directory"
  | isDirectory => "Is a directory"
  | notDirectory => "Not a directory"
  | nameTooLong => "File name too long"
  | permissionDenied => "Permission denied"
  | embeddedNull => "embedded null byte"

/-- What the paths give. -/
abbrev FileView := String → Except PathError ByteArray

/-! ### Paths -/

/-- The components of a path. -/
def pathComponents (path : String) : List String :=
  (path.splitOn "/").filter fun component => component ≠ "" ∧ component ≠ "."

/-- Whether a path starts from the root of all directories. -/
def isAbsolutePath (path : String) : Bool := path.startsWith "/"

/-- The slashes that stay at the start of a path: two if there are exactly two, and otherwise at
most one. -/
def rootOf (path : String) : String :=
  if path.startsWith "//" && !path.startsWith "///" then "//"
  else if isAbsolutePath path then "/"
  else ""

/-- The shortest spelling of a path with the same components. -/
def normalizePath (path : String) : String :=
  let spelling := rootOf path ++ String.intercalate "/" (pathComponents path)
  if spelling.isEmpty then "." else spelling

/-- The path of a file in a directory. -/
def joinPath (directory name : String) : String :=
  if directory.isEmpty then name else directory ++ "/" ++ name

/-- The greatest number of bytes of a path. -/
def longestPath : Nat := 4095

/-- The greatest number of bytes of a component. -/
def longestComponent : Nat := 255

/-! ### Trees -/

/-- A file, which may be closed to the program, or a directory. -/
inductive FileTree
  | file (content : ByteArray)
  | closed
  | directory (entries : List (String × FileTree))

namespace FileTree

/-- What is in a directory, under its name. -/
abbrev Entries := List (String × FileTree)

/-- The entries with a tree under a name, in the place of a former one. -/
def put (entries : Entries) (name : String) (tree : FileTree) : Entries :=
  (name, tree) :: entries.filter fun entry => entry.1 ≠ name

/-- The entries with a file or an empty directory at the end of a path. Directories on the way are
made as needed. -/
def insert (tree : FileTree) : List String → Entries → Entries
  | [], entries => entries
  | [name], entries =>
    match tree, entries.lookup name with
    | .directory [], some (.directory _) => entries
    | tree, _ => put entries name tree
  | name :: names, entries =>
    match entries.lookup name with
    | some (.directory inner) => put entries name (.directory (insert tree names inner))
    | _ => put entries name (.directory (insert tree names []))

/-- The entries of a directory with the given files and empty directories. -/
def ofPaths (paths : List (String × FileTree)) : Entries :=
  paths.foldl (fun entries (path, tree) => insert tree (pathComponents path) entries) []

/-- Follows the components of a path from a directory, given the directories above it. There is
nothing above the root, so there two dots lead nowhere else. -/
def follow (here : Entries) (above : List Entries) : List String → Except PathError ByteArray
  | [] => .error .isDirectory
  | component :: components =>
    if component = ".." then
      match above with
      | [] => follow here [] components
      | parent :: above => follow parent above components
    else if component.utf8ByteSize > longestComponent then
      .error .nameTooLong
    else
      match here.lookup component with
      | none => .error .notFound
      | some (.directory inner) => follow inner (here :: above) components
      | some (.file content) =>
        if components.isEmpty then .ok content else .error .notDirectory
      | some .closed =>
        if components.isEmpty then .error .permissionDenied else .error .notDirectory

end FileTree

/-- All files, by what is in the root, and the way from the root to the directory in which the
program runs. -/
structure FileSystem where
  root : FileTree.Entries
  workingDirectory : List String

namespace FileSystem

/-- The way from the root to where a path leads. -/
def resolve (files : FileSystem) (path : String) : List String :=
  if isAbsolutePath path then pathComponents path
  else files.workingDirectory ++ pathComponents path

/-- What the paths give. -/
def view (files : FileSystem) : FileView := fun path =>
  if path.contains '\x00' then
    .error .embeddedNull
  else if (normalizePath path).utf8ByteSize > longestPath then
    .error .nameTooLong
  else
    FileTree.follow files.root [] (files.resolve path)

/-- The files where a program runs in the root, with the given entries. -/
def inRoot (entries : FileTree.Entries) : FileSystem := ⟨entries, []⟩

end FileSystem

end CucumberExpressions
