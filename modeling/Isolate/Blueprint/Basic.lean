import Isolate.Location
import Isolate.Project.Basic
import Isolate.Worker.Jobs

/-!
# Blueprints

A blueprint is source text with the place that it comes from, and what its code may do and use. Every
build of it starts with a new world in which the host's global names are bound.
-/

namespace Isolate
open Script

/-- Source text to be built. -/
structure Blueprint where
  source : String
  origin : Origin
  policy : Policy := {}
  limits : Limits := {}
  deriving Repr, DecidableEq

namespace Blueprint

/-- The label under which failures name the code. -/
def label (blueprint : Blueprint) : String := blueprint.origin.label

def newWorld (blueprint : Blueprint) (globals : Globals) : Except Error World :=
  match globals.install (World.initial blueprint.limits blueprint.policy.allowCodeGeneration) with
  | .ok _ w => .ok w
  | .error abrupt w => .error (.engine (w.describeFailure abrupt))

end Blueprint

def Origin.codeOrigin : Origin → CodeOrigin
  | .anonymous => .unnamed
  | .file path => .file path

end Isolate
