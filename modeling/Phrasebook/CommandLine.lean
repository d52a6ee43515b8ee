import Phrasebook.Bundle.Run

/-!
# The command line

What the program is asked for by its arguments, and what it prints.

Options may stand anywhere among the names of files, until two hyphens that stand alone.  Short
options can share one hyphen, and the value of an option may follow directly, behind an equals
sign, or as the next argument.
-/

namespace Phrasebook.CommandLine

/-- What the program is asked for. -/
inductive Command where
  /-- Print the version. -/
  | version
  /-- Print how the program is used. -/
  | help
  /-- Find and compile files. -/
  | compile (settings : Bundle.Settings) (quiet : Bool)

/-- Why arguments make no sense. -/
inductive ArgumentError where
  | unknown (argument : String)
  | noValue (option : String)
  | unwantedValue (option : String)
  | repeated (option : String)
  deriving DecidableEq, Repr

/-- The words for an error. -/
def ArgumentError.message : ArgumentError → String
  | .unknown argument => s!"unexpected argument '{argument}' found"
  | .noValue option => s!"a value is required for '{option}' but none was supplied"
  | .unwantedValue option => s!"unexpected value for '{option}' found"
  | .repeated option => s!"the argument '{option}' cannot be used multiple times"

/-- What the arguments so far ask for. -/
structure Given where
  files : List String := []
  directory : Option String := none
  quiet : Bool := false

/-- The command that given arguments make. -/
def Given.command (given : Given) : Command :=
  let patterns := if given.files.isEmpty then [Bundle.defaultPattern] else given.files
  .compile ⟨patterns, given.directory.map Path.mk⟩ given.quiet

/-- What one argument does: it adds to what is given, asks for something else altogether, or needs
the next argument as its value. -/
inductive Step where
  | given (given : Given)
  | command (command : Command)
  | wantsDirectory (given : Given)

/-- Ask for no output. -/
def Given.beQuiet (given : Given) : Except ArgumentError Given :=
  if given.quiet then .error (.repeated "--quiet") else .ok { given with quiet := true }

/-- Ask for a directory. -/
def Given.useDirectory (given : Given) (directory : String) : Except ArgumentError Given :=
  if given.directory.isSome then .error (.repeated "--out-dir <DIR>")
  else .ok { given with directory := some directory }

/-- A long option, from behind its hyphens: its name and the value behind an equals sign. -/
def readLong (given : Given) (text : List Char) : Except ArgumentError Step :=
  let name := String.ofList (text.takeWhile (· != '='))
  match name, text.dropWhile (· != '=') with
  | "quiet", [] => given.beQuiet.map .given
  | "version", [] => .ok (.command .version)
  | "help", [] => .ok (.command .help)
  | "out-dir", [] => .ok (.wantsDirectory given)
  | "out-dir", _ :: value => (given.useDirectory (String.ofList value)).map .given
  | _, value =>
      if name ∈ ["quiet", "version", "help"] ∧ value ≠ [] then .error (.unwantedValue s!"--{name}")
      else .error (.unknown s!"--{name}")

/-- Short options that share one hyphen, from behind it. -/
def readShort (given : Given) : List Char → Except ArgumentError Step
  | [] => .ok (.given given)
  | 'q' :: rest => do readShort (← given.beQuiet) rest
  | 'V' :: _ => .ok (.command .version)
  | 'h' :: _ => .ok (.command .help)
  | ['o'] => .ok (.wantsDirectory given)
  | 'o' :: '=' :: value => (given.useDirectory (String.ofList value)).map .given
  | 'o' :: value => (given.useDirectory (String.ofList value)).map .given
  | c :: _ => .error (.unknown s!"-{c}")

/-- One argument. -/
def readArgument (given : Given) (argument : String) : Except ArgumentError Step :=
  match argument.toList with
  | '-' :: '-' :: text => readLong given text
  | '-' :: c :: text => readShort given (c :: text)
  | _ => .ok (.given { given with files := given.files ++ [argument] })

/-- Whether an argument can be the value of an option. -/
def isValue (argument : String) : Bool :=
  argument.toList.head? != some '-' || argument = "-"

/-- The command that is left to read behind what is given. -/
def readArguments (given : Given) : List String → Except ArgumentError Command
  | [] => .ok given.command
  | "--" :: files => .ok { given with files := given.files ++ files }.command
  | argument :: arguments => do
      match ← readArgument given argument with
      | .given given => readArguments given arguments
      | .command command => .ok command
      | .wantsDirectory given =>
          match arguments with
          | [] => .error (.noValue "--out-dir <DIR>")
          | value :: arguments =>
              if isValue value then readArguments (← given.useDirectory value) arguments
              else .error (.noValue "--out-dir <DIR>")

/-- The command that arguments ask for. -/
def Command.ofArguments (arguments : List String) : Except ArgumentError Command :=
  readArguments {} arguments

/-! ## Output -/

/-- What the program prints, and the status it ends with. -/
structure Outcome where
  status : UInt8 := 0
  output : String := ""
  errors : String := ""
  deriving DecidableEq, Repr

/-- Lines of text. -/
def lines (texts : List String) : String :=
  String.join (texts.map (· ++ "\n"))

/-- The line for a module that was stored. -/
def emittedLine (emitted : Bundle.Emitted) : String :=
  s!"{emitted.input.text} -> {emitted.output.text}"

/-- What is printed about a run. -/
def Outcome.ofReport (report : Bundle.Report) (quiet : Bool) : Outcome where
  status := if report.isSuccess then 0 else 1
  output := if quiet then "" else lines (report.emitted.map emittedLine)
  errors :=
    (if quiet then "" else lines (report.warnings.map fun w => "Warning: " ++ w.message)) ++
      lines (report.failures.map fun f => "Error: " ++ f.message)

/-- How the program is used. -/
def usage : String :=
  lines ["Precompile i18n message files into ES modules", "",
    "Usage: i18nc [OPTIONS] [FILES_OR_GLOBS]...", "",
    "  -o, --out-dir <DIR>  Write modules into DIR instead of next to their inputs",
    "  -q, --quiet          Only report errors",
    "  -h, --help           Print help",
    "  -V, --version        Print version"]

variable {m : Type → Type} [Monad m] [Storage m]

/-- Do what the program is asked for. -/
def Command.run : Command → m Outcome
  | .version => return { output := "i18nc 0.1.0\n" }
  | .help => return { output := usage }
  | .compile settings quiet => do
      match ← Bundle.run settings with
      | .ok report => return .ofReport report quiet
      | .error error => return { status := 1, errors := lines ["Error: " ++ error.message] }

/-- Do what arguments ask for. -/
def run (arguments : List String) : m Outcome := do
  match Command.ofArguments arguments with
  | .ok command => command.run
  | .error error => return { status := 2, errors := lines ["error: " ++ error.message] }

end Phrasebook.CommandLine
