import Isolate.Script.Machine

/-!
# Running scripts

A script declares its names globally and then runs in the global scope.
-/

namespace Isolate.Script

/-- Declare what a script declares. A name that is bound lexically already stays as it is. -/
def declareGlobals (unit : Nat) (code : FunctionCode) : Action PUnit := do
  code.vars.forM (declareVar globalScope false)
  bindFunctions unit globalScope Intrinsic.global.value code.functions
    (declareFunction globalScope false)
  code.lexicals.forM fun (name, kind) => do
    if !((← get).scope globalScope).bindings.any (·.1 = name) then
      bind globalScope name (.held none kind)

/-- Run a script. The result is the value of its last statement. -/
def runProgram (unit : Nat) : Action Value := do
  let found := (← get).units[unit]?
  let code := (found.bind (·.functions.back?)).getD {}
  declareGlobals unit code
  let outcome ← deeper (perform stepLimit (.run
    { unit, code, origin := (found.map (·.origin)).getD .unnamed, scope := globalScope
      this := Intrinsic.global.value }))
  pure outcome.toValue

end Isolate.Script
