import Isolate.Blueprint.Basic

/-!
# Building and running scripts

A script is compiled when it is built and runs as often as it is asked to, each time in the world that
the runs before have left.
-/

namespace Isolate
open Script

structure BuiltScript where
  world : World
  unit : Nat
  label : String

namespace Blueprint

def buildScript (blueprint : Blueprint) (globals : Globals) : Except Error BuiltScript :=
  match blueprint.newWorld globals with
  | .error e => .error e
  | .ok w =>
    let text := blueprint.source.toList
    match Grammar.readSoundScript text false with
    | .error fault => .error (.ofFault fault blueprint.label)
    | .ok tree =>
      let unit : CodeUnit :=
        { origin := blueprint.origin.codeOrigin, functions := (tree.code text).functions
          referrer := blueprint.origin }
      .ok ⟨{ w with units := w.units.push unit }, w.units.size, blueprint.label⟩

end Blueprint

namespace BuiltScript

/-- Run a script and all that it leaves to do. A script has no files; its imports are refused. -/
def program (script : BuiltScript) : Hosted Store.Recording Value := do
  let value ← Hosted.lift (runProgram script.unit)
  Hosted.drain
  pure value

def run (script : BuiltScript) : Except Error Value × BuiltScript :=
  let refused := script.world.refusals.length
  match script.program { world := script.world, session := none, store := ⟨⟨[]⟩, []⟩ } with
  | .ok value worker => (.ok value, { script with world := worker.world })
  | .error abrupt worker =>
    (.error (.ofFailure worker.world abrupt script.label refused),
      { script with world := { worker.world with calls := [], here := none } })

end BuiltScript
end Isolate
