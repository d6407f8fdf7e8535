/-!
# Outlines of WebAssembly modules

What a WebAssembly module takes from outside and what it offers, without its code.
-/

namespace Isolate.Wasm

/-- The kind of a thing that is imported or exported. -/
inductive ExternKind where
  | function | table | memory | global
  deriving Repr, DecidableEq

def ExternKind.name : ExternKind → String
  | function => "function"
  | table => "table"
  | memory => "memory"
  | global => "global"

/-- A thing that a module takes from outside. -/
structure Import where
  module : String
  name : String
  kind : ExternKind
  deriving Repr, DecidableEq

/-- A thing that a module offers. -/
structure Export where
  name : String
  kind : ExternKind
  deriving Repr, DecidableEq

/-- The imports and exports of a module, in the order of its sections. -/
structure Outline where
  imports : List Import
  exports : List Export
  deriving Repr, DecidableEq, Inhabited

end Isolate.Wasm
