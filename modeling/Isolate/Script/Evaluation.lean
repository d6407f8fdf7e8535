import Isolate.Error.Basic
import Isolate.Script.Closure
import Isolate.Script.Emit

/-!
# Code from strings

Code that running code compiles from strings. The host may forbid it; it then remembers where it
refused, and with which error.
-/

namespace Isolate.Script

/-- A way to run a call of code that is ready to run. -/
abbrev Run := Activation → Action Value

def refuse {α : Type} : Action α := do
  let error ← newFailure .eval Error.refusalText
  modify fun w => { w with refusals := ⟨w.here, error⟩ :: w.refusals }
  fail error

def addUnit (unit : CodeUnit) : Action Nat := do
  let w ← get
  set { w with units := w.units.push unit }
  pure w.units.size

/-- Fail because a string is no code. -/
def failSyntax {α : Type} (fault : Grammar.Fault) : Action α :=
  match fault.place with
  | some place =>
    failWith .syntaxError s!"unexpected token at line {place.line}, col {place.column}"
  | none => failWith .syntaxError "abrupt end"

def UnitCode.main (unit : UnitCode) : FunctionCode := unit.functions.back?.getD {}

/-- Compile a string. The result is the number of the new unit and its own code. -/
def compileText (origin : CodeOrigin) (text : Text.Units) (isStrict : Bool) :
    Action (Nat × FunctionCode) := do
  match Text.Units.toList? text with
  | none => failSyntax ⟨none⟩
  | some text =>
    match Grammar.readSoundScript text isStrict with
    | .error fault => failSyntax fault
    | .ok tree => do
      let w ← get
      let referrer := (w.units[w.running]?.map (·.referrer)).getD .anonymous
      let code := tree.code text
      let unit ← addUnit { origin, functions := code.functions, referrer }
      pure (unit, code.main)

/-- Run a compiled string: in the scope of the call that asked for it, or in the global scope. -/
def runText (run : Run) (asker : Option Activation) (origin : CodeOrigin) (unit : Nat)
    (code : FunctionCode) : Action Value := do
  let w ← get
  let base := (asker.map (·.scope)).getD globalScope
  let this := (asker.map (·.this)).getD Intrinsic.global.value
  let lexicals := code.lexicals.map fun (name, kind) => (name, Binding.held none kind)
  let scope ← newScope { parent := some base, bindings := lexicals, isFunction := code.isStrict }
  let varScope := if code.isStrict then scope else w.functionScope (w.scopes.size + 1) base
  code.vars.forM (declareVar varScope true)
  bindFunctions unit scope this code.functions (declareFunction varScope true)
  run { unit, origin, code, scope, this, outer := w.here }

def evalValue (run : Run) (asker : Option Activation) (value : Value) : Action Value := do
  match value with
  | .string text => do
    if !(← get).allowsCodeGeneration then refuse
    let isStrict := (asker.map (·.code.isStrict)).getD false
    let (unit, code) ← compileText .evaluated text isStrict
    runText run asker .evaluated unit code
  | value => pure value

def functionKeyword : Builtin → String
  | .asyncFunctionConstructor => "async function"
  | .generatorConstructor => "function*"
  | .asyncGeneratorConstructor => "async function*"
  | _ => "function"

def Builtin.makesFunctions : Builtin → Bool
  | functionConstructor => true
  | asyncFunctionConstructor => true
  | generatorConstructor => true
  | asyncGeneratorConstructor => true
  | _ => false

/-- A function made from strings: its parameters and then its body. -/
def makeFunction (call : Invoke) (run : Run) (builtin : Builtin) (args : List Value) :
    Action Value := do
  let params ← args.dropLast.mapM (toText call)
  let body ←
    match args.getLast? with
    | some body => toText call body
    | none => pure []
  if !(← get).allowsCodeGeneration then refuse
  let text := Text.Units.ofString ("(" ++ functionKeyword builtin ++ " anonymous(")
    ++ List.intercalate [0x2c] params ++ Text.Units.ofString "\n) \x7b\n" ++ body
    ++ Text.Units.ofString "\n\x7d)"
  let (unit, code) ← compileText .unnamed text false
  runText run none .unnamed unit code

end Isolate.Script
