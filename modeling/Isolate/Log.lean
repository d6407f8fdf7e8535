/-!
# Log levels

Messages have a level and a target. A level is set for all targets, and three of the targets can be
given a level of their own.
-/

namespace Isolate.Log

inductive Level where
  | error
  | warn
  | info
  | debug
  | trace
  deriving Repr, DecidableEq

def Level.name : Level → String
  | error => "ERROR"
  | warn => "WARN"
  | info => "INFO"
  | debug => "DEBUG"
  | trace => "TRACE"

/-- The level that a name asks for, in any letter case; `silent` still lets errors through. No letter
beyond ASCII becomes one of these names in lower case. -/
def Level.ofName? (name : String) : Option Level :=
  match String.ofList (name.toList.map Char.toLower) with
  | "silent" => some error
  | "error" => some error
  | "warn" => some warn
  | "info" => some info
  | "debug" => some debug
  | "trace" => some trace
  | _ => none

/-- How messages are written. -/
inductive Format where
  | pretty
  | compact
  | json
  deriving Repr, DecidableEq

def Format.ofName? : String → Option Format
  | "pretty" => some pretty
  | "compact" => some compact
  | "json" => some json
  | _ => none

/-- The parts of the sandbox that log. -/
inductive Target where
  | blueprint
  | linker
  | loader
  | cli
  deriving Repr, DecidableEq

def Target.all : List Target := [.blueprint, .linker, .loader, .cli]

def Target.name : Target → String
  | blueprint => "workerbox::blueprint"
  | linker => "workerbox::linker"
  | loader => "workerbox::loader"
  | cli => "workerbox::cli"

/-- The level for all targets and those of single targets. -/
structure Settings where
  overall : Level := .warn
  blueprint : Option Level := none
  linker : Option Level := none
  loader : Option Level := none
  deriving Repr

def Settings.levelFor (settings : Settings) : Target → Level
  | .blueprint => settings.blueprint.getD settings.overall
  | .linker => settings.linker.getD settings.overall
  | .loader => settings.loader.getD settings.overall
  | .cli => settings.overall

def Settings.levelForName (settings : Settings) (name : String) : Level :=
  match Target.all.find? (·.name == name) with
  | some target => settings.levelFor target
  | none => settings.overall

end Isolate.Log
