import CucumberExpressions.CommandLine.Arguments
import CucumberExpressions.ExpressionList
import CucumberExpressions.Settings

/-!
# From arguments to options

The arguments of the command line, the settings file and the files with expressions together give
the options of a run. What the command line asks for comes before what the settings ask for. The
settings are checked even where the command line overrides them, and before any file with
expressions is read.

Some failures are refused with a message; others are not foreseen and end the program.

## Main definitions

* `Refusal` — a failure that is refused with a message
* `Fault` — a failure that is not foreseen
* `Options.resolve` — the options of a run
-/

namespace CucumberExpressions

/-- A failure that is refused with a message: the settings file breaks the rules of TOML, one of the
settings in it is wrong, or a file with expressions cannot be read. -/
inductive Refusal
  | malformedSettings
  | wrongFormat (shown : String)
  | wrongSentinels (shown : String)
  | cannotRead (name : String) (reason : PathError)
  deriving DecidableEq, Repr

/-- The message of a refusal. -/
def Refusal.message : Refusal → String
  | malformedSettings => "invalid config file: <toml>"
  | wrongFormat shown => "invalid output format in config: " ++ shown
  | wrongSentinels shown =>
    "invalid sentinels value in config (expected true or false): " ++ shown
  | cannotRead name reason => "cannot read " ++ name ++ ": " ++ reason.message

/-- A failure that is not foreseen. A file may be no text in UTF-8; the flag for files with
expressions may be given nothing, or a name with a null character; the settings file may have a path
that is too long, or be closed to the program, or hold an integer of more digits than can be read or
shown. -/
inductive Fault
  | notUtf8
  | unnamedFile
  | embeddedNull
  | pathTooLong (path : String)
  | permissionDenied (path : String)
  | integerTooLong (digits : Nat)
  | integerTooLongToShow
  deriving DecidableEq, Repr

/-- Why there are no options. -/
inductive Failure
  | refusal (refusal : Refusal)
  | fault (fault : Fault)
  deriving DecidableEq, Repr

/-- The failure to load a settings file. -/
def Settings.LoadError.failure : Settings.LoadError → Failure
  | .pathTooLong path => .fault (.pathTooLong path)
  | .permissionDenied path => .fault (.permissionDenied path)
  | .document .notUtf8 => .fault .notUtf8
  | .document .malformed => .refusal .malformedSettings
  | .document (.integerTooLong digits) => .fault (.integerTooLong digits)

/-- The failure because of a wrong value in the settings. -/
def Settings.ValueError.failure : Settings.ValueError → Failure
  | .format value =>
    match value.show? with
    | some shown => .refusal (.wrongFormat shown)
    | none => .fault .integerTooLongToShow
  | .sentinels value =>
    match value.show? with
    | some shown => .refusal (.wrongSentinels shown)
    | none => .fault .integerTooLongToShow

/-- The expressions of the file with the given name. -/
def ExpressionList.load (view : FileView) (name : String) : Except Failure (List String) :=
  match view name with
  | .error .embeddedNull => .error (.fault .embeddedNull)
  | .error reason => .error (.refusal (.cannotRead name reason))
  | .ok content =>
    match ExpressionList.ofBytes? content with
    | some expressions => .ok expressions
    | none => .error (.fault .notUtf8)

/-- The expressions that a flag for files asks for. -/
def ExpressionList.loadGiven (view : FileView) :
    CommandLine.Given String → Except Failure (List String)
  | .nothing => .error (.fault .unnamedFile)
  | .value name => ExpressionList.load view name

/-- The path of the settings file that arguments ask for. An empty name counts as none. -/
def CommandLine.Arguments.settingsPath (arguments : CommandLine.Arguments) (directory : String) :
    String :=
  Settings.path ((arguments.config.bind Given.toOption).filter fun name => !name.isEmpty)
    directory

namespace Options

/-- The format that arguments and settings give. A flag that is given nothing leaves none. -/
def mergeFormat (asked : Option (CommandLine.Given Format)) (settings : Option Format) :
    Option Format :=
  match asked with
  | some given => given.toOption
  | none => some (settings.getD .text)

/-- The options that arguments and settings give, with the expressions of files after those among
the arguments. -/
def merge (arguments : CommandLine.Arguments) (settings : Settings) (listed : List String) :
    Options where
  expressions := arguments.expressions ++ listed
  format := mergeFormat arguments.format settings.format
  sentinels := if arguments.noSentinels then false else settings.sentinels.getD true
  verbose := arguments.verbose

/-- The options of a run, given what loading the settings file gives. -/
def resolveLoaded (view : FileView) (arguments : CommandLine.Arguments)
    (loaded : Except Settings.LoadError Toml.Table) : Except Failure Options := do
  let table ← loaded.mapError (·.failure)
  let settings ← (Settings.ofTable table).mapError (·.failure)
  let lists ← arguments.files.mapM (ExpressionList.loadGiven view)
  return merge arguments settings lists.flatten

/-- The options of a run. The usual settings file is looked for in the given directory. -/
def resolve (view : FileView) (arguments : CommandLine.Arguments) (directory : String) :
    Except Failure Options :=
  resolveLoaded view arguments (Settings.load view (arguments.settingsPath directory))

end Options

end CucumberExpressions
