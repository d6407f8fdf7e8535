import Isolate.Log
import Isolate.Path.Basic

/-!
# Arguments

The program takes the path of a project file and options. Arguments are read in order: the first that
cannot be used is reported, and one that asks for help or for the version ends the reading. A long
option has its value behind `=` or in the next argument, which must not look like an option itself.
Nothing may be given twice, and behind `--` there are only paths.
-/

namespace Isolate.CommandLine

/-- How a project is to be run. -/
structure Invocation where
  project : Path := ⟨"workerbox.json"⟩
  /-- Whether the paths that the imports referred to are printed. -/
  listReferenced : Bool := false
  /-- Whether failures of the worker are printed as reports in JSON. -/
  jsonErrors : Bool := false
  logLevel : String := "warn"
  linkerLogLevel : Option String := none
  logFormat : Log.Format := .compact
  logFile : Option Path := none
  deriving Repr

/-- What the program is asked to do. -/
inductive Request where
  | run (invocation : Invocation)
  | help (long : Bool)
  | version
  deriving Repr

inductive Parameter where
  | project
  | listReferenced
  | jsonErrors
  | logLevel
  | linkerLogLevel
  | logFormat
  | logFile
  deriving Repr, DecidableEq

def Parameter.usage : Parameter → String
  | project => "[PROJECT]"
  | listReferenced => "--list-referenced"
  | jsonErrors => "--json-errors"
  | logLevel => "--log-level <LOG_LEVEL>"
  | linkerLogLevel => "--linker-log-level <LINKER_LOG_LEVEL>"
  | logFormat => "--log-format <LOG_FORMAT>"
  | logFile => "--log-file <LOG_FILE>"

/-- Why arguments cannot be used. -/
inductive Misuse where
  | unexpected (argument : String)
  | repeated (parameter : Parameter)
  | missingValue (parameter : Parameter)
  /-- A value for an option that takes none. -/
  | needlessValue (option value : String)
  | unknownFormat (name : String)
  deriving Repr, DecidableEq

def Misuse.message : Misuse → String
  | unexpected argument => s!"unexpected argument '{argument}' found"
  | repeated parameter =>
    s!"the argument '{parameter.usage}' cannot be used multiple times"
  | missingValue parameter =>
    s!"a value is required for '{parameter.usage}' but none was supplied"
  | needlessValue option value =>
    s!"unexpected value '{value}' for '{option}' found; no more were expected"
  | unknownFormat name =>
    s!"invalid value '{name}' for '{Parameter.logFormat.usage}'\n"
      ++ "  [possible values: pretty, compact, json]"

/-- What a long option does. -/
inductive Effect where
  /-- It stands for itself. -/
  | flag (parameter : Parameter)
  /-- It takes a value. -/
  | value (parameter : Parameter)
  | help
  | version
  deriving Repr, DecidableEq

def Effect.ofName? : String → Option Effect
  | "list-referenced" => some (flag .listReferenced)
  | "json-errors" => some (flag .jsonErrors)
  | "log-level" => some (value .logLevel)
  | "linker-log-level" => some (value .linkerLogLevel)
  | "log-format" => some (value .logFormat)
  | "log-file" => some (value .logFile)
  | "help" => some help
  | "version" => some version
  | _ => none

/-- One argument by its first characters. -/
inductive Word where
  /-- The argument `--`. -/
  | separator
  /-- An option with a name, and the value behind `=`. -/
  | long (name : String) (value : Option String)
  /-- An option with one letter. -/
  | short (letter : Char)
  | plain (text : String)
  deriving Repr, DecidableEq

/-- The class of an argument; a lone dash is plain. -/
def Word.ofText (argument : String) : Word :=
  match argument.toList with
  | ['-', '-'] => separator
  | '-' :: '-' :: text =>
    let name := text.takeWhile (· ≠ '=')
    let value :=
      match text.dropWhile (· ≠ '=') with
      | [] => none
      | _ :: value => some (String.ofList value)
    long (String.ofList name) value
  | '-' :: letter :: _ => short letter
  | _ => plain argument

/-- What the arguments read so far give. -/
structure Draft where
  invocation : Invocation := {}
  given : List Parameter := []

namespace Draft

/-- Put a parameter's value in its place. The path of a file must not be empty. -/
def put (invocation : Invocation) (parameter : Parameter) (value : String) :
    Except Misuse Invocation :=
  match parameter with
  | .project =>
    if value.isEmpty then .error (.missingValue .project)
    else .ok { invocation with project := ⟨value⟩ }
  | .listReferenced => .ok { invocation with listReferenced := true }
  | .jsonErrors => .ok { invocation with jsonErrors := true }
  | .logLevel => .ok { invocation with logLevel := value }
  | .linkerLogLevel => .ok { invocation with linkerLogLevel := some value }
  | .logFormat =>
    match Log.Format.ofName? value with
    | some format => .ok { invocation with logFormat := format }
    | none => .error (.unknownFormat value)
  | .logFile =>
    if value.isEmpty then .error (.missingValue .logFile)
    else .ok { invocation with logFile := some ⟨value⟩ }

/-- Take a parameter's value; of the project, a second one has no place at all. -/
def take (draft : Draft) (parameter : Parameter) (value : String) : Except Misuse Draft :=
  if draft.given.contains parameter then
    .error (if parameter = .project then .unexpected value else .repeated parameter)
  else
    match put draft.invocation parameter value with
    | .ok invocation => .ok ⟨invocation, parameter :: draft.given⟩
    | .error misuse => .error misuse

def readPaths (draft : Draft) : List String → Except Misuse Request
  | [] => .ok (.run draft.invocation)
  | argument :: rest =>
    match draft.take .project argument with
    | .ok draft => readPaths draft rest
    | .error misuse => .error misuse

def isValue (argument : String) : Bool :=
  match Word.ofText argument with
  | .plain _ => true
  | _ => false

def read (draft : Draft) : List String → Except Misuse Request
  | [] => .ok (.run draft.invocation)
  | argument :: rest =>
    match Word.ofText argument with
    | .separator => draft.readPaths rest
    | .short 'h' => .ok (.help false)
    | .short 'V' => .ok .version
    | .short _ => .error (.unexpected argument)
    | .plain text =>
      match draft.take .project text with
      | .ok draft => draft.read rest
      | .error misuse => .error misuse
    | .long name value =>
      match Effect.ofName? name, value with
      | none, _ => .error (.unexpected ("--" ++ name))
      | some .help, none => .ok (.help true)
      | some .version, none => .ok .version
      | some .help, some value => .error (.needlessValue "--help" value)
      | some .version, some value => .error (.needlessValue "--version" value)
      | some (.flag parameter), some value => .error (.needlessValue parameter.usage value)
      | some (.flag parameter), none =>
        match draft.take parameter "" with
        | .ok draft => draft.read rest
        | .error misuse => .error misuse
      | some (.value parameter), some value =>
        match draft.take parameter value with
        | .ok draft => draft.read rest
        | .error misuse => .error misuse
      | some (.value parameter), none =>
        match rest with
        | [] => .error (.missingValue parameter)
        | value :: rest =>
          if isValue value then
            match draft.take parameter value with
            | .ok draft => draft.read rest
            | .error misuse => .error misuse
          else .error (.missingValue parameter)

end Draft

def Request.ofArguments (arguments : List String) : Except Misuse Request :=
  Draft.read {} arguments

end Isolate.CommandLine
