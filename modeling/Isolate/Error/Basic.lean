import Isolate.Location
import Isolate.Store.Error

/-!
# Failures of building and running a worker

Every failure has a kind and a phase. Those that come from a worker's code carry a location, and
those that concern a file carry its path.
-/

namespace Isolate

/-- A failure of a worker. -/
inductive Error where
  /-- A string would have been compiled under a policy that forbids it. -/
  | codeGenerationDisallowed (location : Location)
  /-- A unit without a file imported something. -/
  | importFromNonFile (specifier : String)
  /-- A specifier that names no file. -/
  | unresolvableSpecifier (specifier referrer : String)
  | noMatchingRule (path : Path)
  | unsupportedKind (kind : String) (path : Path)
  | read (path : Path) (source : Store.Error)
  | compile (message : String) (location : Location)
  | runtime (message : String) (location : Location)
  | wasm (path : Path) (message : String)
  /-- An export was asked for before a run succeeded. -/
  | exportsUnavailable
  /-- A session was asked to build a second module. -/
  | linkerReused
  | engine (message : String)
  deriving Repr, DecidableEq

/-- The stage that a failure belongs to. -/
inductive Error.Phase where
  | policy
  | link
  | load
  | compile
  | runtime
  | host
  deriving Repr, DecidableEq

def Error.Phase.name : Error.Phase → String
  | policy => "policy"
  | link => "link"
  | load => "load"
  | compile => "compile"
  | runtime => "runtime"
  | host => "host"

namespace Error

def refusalText : String := "Code generation from strings disallowed for this context"

def kindName : Error → String
  | codeGenerationDisallowed _ => "CodeGenerationDisallowed"
  | importFromNonFile _ => "ImportFromNonFileScript"
  | unresolvableSpecifier _ _ => "UnresolvableSpecifier"
  | noMatchingRule _ => "NoMatchingModuleRule"
  | unsupportedKind _ _ => "UnsupportedModuleKind"
  | read _ _ => "Read"
  | compile _ _ => "Compile"
  | runtime _ _ => "Runtime"
  | wasm _ _ => "Wasm"
  | exportsUnavailable => "ExportsUnavailable"
  | linkerReused => "LinkerReused"
  | engine _ => "Engine"

def phase : Error → Phase
  | codeGenerationDisallowed _ => .policy
  | importFromNonFile _ => .link
  | unresolvableSpecifier _ _ => .link
  | noMatchingRule _ => .link
  | unsupportedKind _ _ => .link
  | linkerReused => .link
  | read _ _ => .load
  | wasm _ _ => .load
  | compile _ _ => .compile
  | runtime _ _ => .runtime
  | exportsUnavailable => .host
  | engine _ => .host

def location? : Error → Option Location
  | codeGenerationDisallowed location => some location
  | compile _ location => some location
  | runtime _ location => some location
  | _ => none

def mapLocation (f : Location → Location) : Error → Error
  | codeGenerationDisallowed location => codeGenerationDisallowed (f location)
  | compile message location => compile message (f location)
  | runtime message location => runtime message (f location)
  | e => e

def path? : Error → Option Path
  | noMatchingRule path => some path
  | unsupportedKind _ path => some path
  | read path _ => some path
  | wasm path _ => some path
  | _ => none

def describe : Error → String
  | codeGenerationDisallowed location =>
    s!"EvalError: {refusalText}\n    at {location.describe}"
  | importFromNonFile specifier =>
    s!"imports unsupported with string script (importing \"{specifier}\")"
  | unresolvableSpecifier specifier referrer =>
    s!"cannot resolve \"{specifier}\" from {referrer}"
  | noMatchingRule path => s!"no matching module rules for {path.text}"
  | unsupportedKind kind path => s!"{kind} modules are unsupported ({path.text})"
  | read _ source => s!"failed to read module: {source.message}"
  | compile message location => s!"{message}\n    at {location.describe}"
  | runtime message location => s!"{message}\n    at {location.describe}"
  | wasm path message => s!"failed to compile WebAssembly module {path.text}: {message}"
  | exportsUnavailable => "module exports are only available after a successful run()"
  | linkerReused => "linker session is already bound to another module build"
  | engine message => s!"engine error: {message}"

end Error
end Isolate
