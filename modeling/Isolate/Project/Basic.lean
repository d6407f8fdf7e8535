import Isolate.Kind

/-!
# Project files

A project file names the entry of a worker and describes how to run it: as a module or as a script,
by which module rules, under which policy and within which limits.
-/

namespace Isolate

/-- A declared module rule: files whose path matches one of the patterns are of this kind. Any kind
name may be declared. -/
structure Rule where
  kind : String
  patterns : List String
  deriving Repr, DecidableEq

/-- What a worker may do beyond computing. -/
structure Policy where
  /-- Whether code may be compiled from strings. -/
  allowCodeGeneration : Bool := false
  deriving Repr, DecidableEq

/-- How much a worker may use. -/
structure Limits where
  /-- The number of rounds that the loops of one call may make. -/
  loopIterations : Nat := Nat.pow 2 64 - 1
  /-- The number of calls inside each other. -/
  recursionDepth : Nat := 512
  /-- The number of values on the stack. -/
  stackSize : Nat := 10240
  deriving Repr, DecidableEq

/-- The content of a project file. -/
structure Project where
  /-- The entry, relative to the project file. -/
  entry : String
  /-- Whether the entry is a module. -/
  modules : Bool := true
  /-- The rules that come before the default rules. -/
  rules : List Rule := []
  policy : Policy := {}
  limits : Limits := {}
  deriving Repr, DecidableEq

/-- The rules that come last: `.mjs` files are modules, `.js` and `.cjs` files are CommonJS. -/
def Rule.defaults : List Rule :=
  [⟨"ESModule", ["**/*.mjs"]⟩, ⟨"CommonJS", ["**/*.js", "**/*.cjs"]⟩]

def Project.effectiveRules (project : Project) : List Rule := project.rules ++ Rule.defaults

end Isolate
