import Isolate.Script.Conversion

/-!
# Promises

A promise is settled once. What waits for it is not run at once but becomes a job for when the running
code has finished.
-/

namespace Isolate.Script

def newPromise : Action ObjectId :=
  allocate { proto := some Intrinsic.promisePrototype.id, nature := .promise (.pending []) }

def enqueue (job : Job) : Action PUnit := modify fun w => { w with jobs := w.jobs ++ [job] }

def World.promiseState? (w : World) (id : ObjectId) : Option PromiseState :=
  match (w.object id).nature with
  | .promise state => some state
  | _ => none

def PromiseState.ofOutcome : Except Value Value → PromiseState
  | .ok value => .fulfilled value
  | .error reason => .rejected reason

def settleNew (id : ObjectId) (outcome : Except Value Value) : Action PUnit :=
  modify fun w => w.modifyObject id fun o => { o with nature := .promise (.ofOutcome outcome) }

def settle (id : ObjectId) (outcome : Except Value Value) : Action PUnit := do
  match (← get).promiseState? id with
  | some (.pending reactions) => do
    settleNew id outcome
    reactions.forM fun reaction => enqueue (.react reaction outcome)
  | _ => pure ()

def subscribe (id : ObjectId) (reaction : Reaction) : Action PUnit := do
  match (← get).promiseState? id with
  | some (.pending reactions) =>
    modify fun w => w.modifyObject id fun o =>
      { o with nature := .promise (.pending (reactions ++ [reaction])) }
  | some (.fulfilled value) => enqueue (.react reaction (.ok value))
  | some (.rejected reason) => enqueue (.react reaction (.error reason))
  | none => pure ()

/-- Run an action; a failure of the code in it is part of the result. -/
def attempt {α : Type} (action : Action α) : Action (Except Value α) := fun w =>
  match action w with
  | .ok value w => .ok (.ok value) w
  | .error (.thrown reason _) w => .ok (.error reason) (w.expose reason)
  | .error abrupt w => .error abrupt w

def resolvePromise (id : ObjectId) (value : Value) : Action PUnit := do
  match value with
  | .object o =>
    if o = id then
      settle id (.error (← newError .type "cannot resolve promise to itself"))
    else
      match ← attempt (getMember value (Text.Units.ofString "then")) with
      | .error reason => settle id (.error reason)
      | .ok method =>
        if ← isCallable method then enqueue (.follow id value method) else settle id (.ok value)
  | value => settle id (.ok value)

def resolveWith (id : ObjectId) : Except Value Value → Action PUnit
  | .ok value => resolvePromise id value
  | .error reason => settle id (.error reason)

def newFunction (callable : Callable) (name : Text.Units) (length : Nat) : Action Value := do
  let id ← allocate
    { proto := some Builtin.functionPrototype.id, nature := .function callable
      properties := Builtin.functionMembers name length }
  pure (.object id)

/-- The functions that resolve and reject a promise; only the first call of one of them counts. -/
def resolvingFunctions (id : ObjectId) : Action (Value × Value) := do
  let guard ← allocate { proto := none, nature := .flag false }
  pure (← newFunction (.settle id guard false) [] 1, ← newFunction (.settle id guard true) [] 1)

def settleOnce (id guard : ObjectId) (rejects : Bool) (value : Value) : Action PUnit := do
  match ((← get).object guard).nature with
  | .flag false => do
    modify fun w => w.modifyObject guard fun o => { o with nature := .flag true }
    resolveWith id (if rejects then .error value else .ok value)
  | _ => pure ()

def promiseOf (value : Value) : Action ObjectId := do
  let fresh : Action ObjectId := do
    let id ← newPromise
    resolvePromise id value
    pure id
  match value with
  | .object id =>
    if ((← get).promiseState? id).isSome then
      let maker ← getMember value (Text.Units.ofString "constructor")
      if maker.strictEq Builtin.promiseConstructor.value then pure id else fresh
    else fresh
  | _ => fresh

/-- Let functions wait for a promise. The result is a promise for their outcome. -/
def promiseThen (id : ObjectId) (onFulfilled onRejected : Value) : Action Value := do
  let result ← newPromise
  subscribe id (.functions onFulfilled onRejected (some result))
  pure (.object result)

def runFunctions (call : Invoke) (onFulfilled onRejected : Value) (result : Option ObjectId)
    (outcome : Except Value Value) : Action PUnit := do
  let handler := match outcome with
    | .ok _ => onFulfilled
    | .error _ => onRejected
  let outcome ←
    if ← isCallable handler then
      attempt (call handler .undefined [match outcome with
        | .ok value => value
        | .error reason => reason])
    else pure outcome
  match result with
  | some id => resolveWith id outcome
  | none => pure ()

def runFollow (call : Invoke) (id : ObjectId) (object method : Value) : Action PUnit := do
  let (resolve, reject) ← resolvingFunctions id
  match ← attempt (call method object [resolve, reject]) with
  | .ok _ => pure ()
  | .error reason => do
    let _ ← attempt (call reject .undefined [reason])

end Isolate.Script
