import Isolate.Script.Evaluation

/-!
# Running code

A call runs instruction by instruction. `Activation.step` is what one instruction does, given the means
to call functions; `perform` runs calls, functions inside functions, for as many steps as it is given.
A failure goes to the innermost guard of the call that it happens in, and from a call without one to
the call that made it.
-/

namespace Isolate.Script

/-- Where an instruction leads. -/
inductive Step where
  | next (activation : Activation)
  | done (value : Value)
  /-- Wait for a value before going on. -/
  | wait (value : Value) (activation : Activation)

/-- The means that instructions have to run other code. -/
structure Means where
  call : Invoke
  construct : Value → List Value → Action Value
  run : Run

namespace Activation

def site (a : Activation) : Option Site :=
  match a.code.places[a.next]? with
  | some (some place) => some ⟨a.origin, place⟩
  | _ => a.outer

/-- The number of values that a call keeps: what it was called with, its names and its stack. -/
def kept (a : Activation) : Nat :=
  2 + a.args.length + a.code.params.length + a.code.vars.length + a.code.lexicals.length
    + a.stack.length

def push (a : Activation) (value : Value) : Step := .next { a with stack := value :: a.stack }

/-- Put what an action makes of the topmost value in its place. -/
def onTop (a : Activation) (f : Value → Action Value) : Action Step := do
  match a.stack with
  | x :: rest => do
    let value ← f x
    pure (.next { a with stack := value :: rest })
  | [] => pure (.done .undefined)

/-- Put what an action makes of the two topmost values in their place. -/
def onTwo (a : Activation) (f : Value → Value → Action Value) : Action Step := do
  match a.stack with
  | y :: x :: rest => do
    let value ← f x y
    pure (.next { a with stack := value :: rest })
  | _ => pure (.done .undefined)

def taking (a : Activation) (f : Value → Action PUnit) : Action Step := do
  match a.stack with
  | x :: rest => do
    f x
    pure (.next { a with stack := rest })
  | [] => pure (.done .undefined)

def jump (a : Activation) (target : Nat) : Activation := { a with next := target }

def rearrange (a : Activation) (f : List Value → List Value) : Action Step :=
  pure (.next { a with stack := f a.stack })

def inScope (a : Activation) (scope : ScopeId) : Step := .next { a with scope }

def caught? (a : Activation) (value : Value) (site : Option Site) : Option Activation :=
  match a.handlers with
  | [] => none
  | guard :: rest =>
    some
      { a with
        next := guard.target, stack := value :: guard.stack, scope := guard.scope, handlers := rest
        pending := if guard.passesOn then site :: guard.pending else guard.pending }

def guarded (a : Activation) (target : Nat) (passesOn : Bool) : Action Step :=
  pure (.next
    { a with
      handlers := ⟨target, a.stack, a.scope, a.pending, passesOn⟩ :: a.handlers })

end Activation

def memberName (call : Invoke) (value : Value) : Action Text.Units := toText call value

/-- The elements of a value that can be taken apart as a list. -/
def spreadItems (value : Value) : Action Value := do
  let w ← get
  match value with
  | .object id =>
    match (w.object id).nature with
    | .array _ => pure value
    | .arguments => pure value
    | _ => failWith .type "value with type `object` is not iterable"
  | .string s => do
    let parts := (Text.Units.pieces s).map fun
      | .char c => Value.string (Text.Units.ofChar c)
      | .lone u => Value.string [u]
    pure (.object (← newArray parts))
  | value =>
    let kind := w.typeName value
    failWith .type s!"value with type `{kind}` is not iterable"

def nameFunction (value : Value) (name : Text.Units) : Action PUnit := do
  match value with
  | .object id => putOwn id (Text.Units.ofString "name") (.fixed (.string name))
  | _ => pure ()

def takeArguments (count : Nat) (stack : List Value) : List Value × List Value :=
  ((stack.take count).reverse, stack.drop count)

/-- Ask the host to load a module. The result is a promise for its namespace. -/
def requestImport (call : Invoke) (unit : Nat) (specifier : Value) : Action Value := do
  let result ← newPromise
  match ← attempt (toText call specifier) with
  | .error reason => settle result (.error reason)
  | .ok specifier =>
    modify fun w =>
      let referrer := (w.units[unit]?.map (·.referrer)).getD .anonymous
      { w with requests := w.requests ++ [{ referrer, specifier, result }] }
  pure (.object result)

/-- The name that a module's scope binds to the object of what is known about the module. No name in code
is spelled like it. -/
def metaName : String := "import.meta"

def World.unitScope (w : World) : (fuel : Nat) → ScopeId → ScopeId
  | 0, id => id
  | fuel + 1, id =>
    match (w.scope id).parent with
    | some parent => if parent = globalScope then id else w.unitScope fuel parent
    | none => id

/-- The object of what is known about the module whose code is in a scope. It is made when it is
first asked for. -/
def importMeta (scope : ScopeId) : Action Value := do
  match ← findName? scope metaName with
  | some (.bound _ _ (some value) _) => pure value
  | _ => do
    let value := Value.object (← allocate { proto := none })
    let w ← get
    bind (w.unitScope (w.scopes.size + 1) scope) metaName (.held (some value) .constant)
    pure value

namespace Activation

/-- What an instruction does to a call that has already gone past it. -/
def step (means : Means) (a : Activation) (instr : Instr) : Action Step := do
  let isStrict := a.code.isStrict
  match instr with
  | .push value => pure (a.push value.toValue)
  | .pop => a.rearrange (·.drop 1)
  | .dup => a.rearrange fun
    | x :: rest => x :: x :: rest
    | s => s
  | .dupPair => a.rearrange fun
    | y :: x :: rest => y :: x :: y :: x :: rest
    | s => s
  | .swap => a.rearrange fun
    | y :: x :: rest => x :: y :: rest
    | s => s
  | .rotate => a.rearrange fun
    | z :: y :: x :: rest => y :: x :: z :: rest
    | s => s
  | .rotateFour => a.rearrange fun
    | z :: y :: x :: t :: rest => y :: x :: t :: z :: rest
    | s => s
  | .loadName name => do pure (a.push (← loadName a.scope name))
  | .loadNameIfBound name => do
    pure (a.push ((← loadNameIfBound a.scope name).getD .undefined))
  | .storeName name => a.taking (storeName isStrict a.scope name)
  | .initName name => a.taking (initName a.scope name)
  | .deleteName name => do pure (a.push (.bool (← deleteName a.scope name)))
  | .loadThis => pure (a.push a.this)
  | .loadArgument index => pure (a.push (argument a.args index))
  | .getMember name => a.onTop (getMember · name)
  | .getMethod name =>
    match a.stack with
    | o :: _ => do pure (a.push (← getMember o name))
    | [] => pure (.done .undefined)
  | .getIndex => a.onTwo fun o k => do
    if o.isNothing then failNoObject
    getMember o (← memberName means.call k)
  | .getIndexMethod => a.onTwo fun o k => do
    if o.isNothing then failNoObject
    getMember o (← memberName means.call k)
  | .getIndexKeep =>
    match a.stack with
    | k :: o :: rest => do
      if o.isNothing then failNoObject
      let name ← memberName means.call k
      let value ← getMember o name
      pure (.next { a with stack := value :: .string name :: o :: rest })
    | _ => pure (.done .undefined)
  | .setMember name => a.onTwo fun o value => do
    setMember isStrict o name value
    pure value
  | .setIndex =>
    match a.stack with
    | value :: k :: o :: rest => do
      if o.isNothing then failNoObject
      setMember isStrict o (← memberName means.call k) value
      pure (.next { a with stack := value :: rest })
    | _ => pure (.done .undefined)
  | .deleteMember name => a.onTop fun o => do pure (.bool (← deleteMember isStrict o name))
  | .deleteIndex => a.onTwo fun o k => do
    if o.isNothing then failNoObject
    pure (.bool (← deleteMember isStrict o (← memberName means.call k)))
  | .newObject => do pure (a.push (.object (← newObject)))
  | .newArray => do pure (a.push (.object (← newArray [])))
  | .appendItem => a.onTwo fun array item => do
    match array with
    | .object id =>
      match ((← get).object id).nature with
      | .array length => defineMember id (indexName length) item
      | _ => pure ()
    | _ => pure ()
    pure array
  | .appendHole => a.onTop fun array => do
    match array with
    | .object id =>
      match ((← get).object id).nature with
      | .array length => setLength id (length + 1)
      | _ => pure ()
    | _ => pure ()
    pure array
  | .defineMember name named => a.onTwo fun o value => do
    if named then nameFunction value name
    match o with
    | .object id => defineMember id name value
    | _ => pure ()
    pure o
  | .defineIndex named =>
    match a.stack with
    | value :: k :: o :: rest => do
      let name ← memberName means.call k
      if named then nameFunction value name
      match o with
      | .object id => defineMember id name value
      | _ => pure ()
      pure (.next { a with stack := o :: rest })
    | _ => pure (.done .undefined)
  | .setPrototype => a.onTwo fun o value => do
    match o with
    | .object id => changePrototype id value
    | _ => pure ()
    pure o
  | .requireObject => a.onTop fun value => if value.isNothing then failNoObject else pure value
  | .spreadItems => a.onTop spreadItems
  | .closure index => do
    pure (a.push (← newClosure a.unit (← functionCode a.unit index) a.scope a.this))
  | .nameFunction name => a.onTop fun value => do
    nameFunction value name
    pure value
  | .unary op => a.onTop (op.apply means.call)
  | .binary op => a.onTwo (op.apply means.call)
  | .toNumeric => a.onTop fun value => do pure (.number (← toNumber means.call value))
  | .jump target => pure (.next (a.jump target))
  | .jumpIfFalse target =>
    match a.stack with
    | x :: rest =>
      let a := { a with stack := rest }
      pure (.next (if x.isTrue then a else a.jump target))
    | [] => pure (.done .undefined)
  | .jumpIfTrue target =>
    match a.stack with
    | x :: rest =>
      let a := { a with stack := rest }
      pure (.next (if x.isTrue then a.jump target else a))
    | [] => pure (.done .undefined)
  | .jumpIfDecided op target =>
    match a.stack with
    | x :: rest => pure (.next (if op.isDecided x then a.jump target else { a with stack := rest }))
    | [] => pure (.done .undefined)
  | .call count => do
    let (args, below) := takeArguments count a.stack
    match below with
    | callee :: this :: rest => do
      let value ← means.call callee this args
      pure (.next { a with stack := value :: rest })
    | _ => pure (.done .undefined)
  | .callEval count => do
    let (args, below) := takeArguments count a.stack
    match below with
    | callee :: this :: rest => do
      let value ←
        if callee.strictEq Builtin.eval.value then
          evalValue means.run (some a) (argument args 0)
        else means.call callee this args
      pure (.next { a with stack := value :: rest })
    | _ => pure (.done .undefined)
  | .construct count => do
    let (args, below) := takeArguments count a.stack
    match below with
    | callee :: rest => do
      let value ← means.construct callee args
      pure (.next { a with stack := value :: rest })
    | _ => pure (.done .undefined)
  | .ret => pure (.done (a.stack.headD .undefined))
  | .throw => fail (a.stack.headD .undefined)
  | .enterTry target => a.guarded target false
  | .enterFinally target => a.guarded target true
  | .leaveTry => pure (.next { a with handlers := a.handlers.drop 1 })
  | .rethrow => throw (.thrown (a.stack.headD .undefined) (a.pending.head?.getD none))
  | .enterScope names => do
    let scope ← newScope
      { parent := some a.scope
        bindings := names.map fun (name, kind) => (name, .held none kind) }
    pure (a.inScope scope)
  | .leaveScope => do
    pure (a.inScope (((← get).scope a.scope).parent.getD globalScope))
  | .copyScope => do pure (a.inScope (← newScope ((← get).scope a.scope)))
  | .countRound => do
    let w ← get
    if w.limits.loopIterations < a.rounds then
      throw (.stopped (.rounds w.limits.loopIterations) w.here)
    else pure (.next { a with rounds := a.rounds + 1 })
  | .setCompletion =>
    match a.stack with
    | x :: rest => pure (.next { a with stack := rest, completion := x })
    | [] => pure (.done .undefined)
  | .loadCompletion => pure (a.push a.completion)
  | .await =>
    match a.stack with
    | x :: rest => pure (.wait x { a with stack := rest })
    | [] => pure (.done .undefined)
  | .importCall => a.onTop (requestImport means.call a.unit)
  | .importMeta => do pure (a.push (← importMeta a.scope))

end Activation

/-- Something to perform. -/
inductive Task where
  | run (activation : Activation)
  | call (callee this : Value) (args : List Value)
  | construct (callee : Value) (args : List Value)
  /-- Run an asynchronous call until it ends or waits again. -/
  | advance (activation : Activation) (promise : ObjectId)

/-- What became of a task. -/
inductive Outcome where
  | value (value : Value)
  | waiting (value : Value) (activation : Activation)

def Outcome.toValue : Outcome → Value
  | value v => v
  | waiting _ _ => .undefined

def deeper {α : Type} (action : Action α) : Action α := fun w =>
  let restore (after : World) : World :=
    { after with calls := w.calls, here := w.here, running := w.running }
  match action { w with calls := 0 :: w.calls } with
  | .ok value after => .ok value (restore after)
  | .error abrupt after => .error abrupt (restore after)

/-- Fail if no further call may be made. -/
def checkCalls : Action PUnit := do
  let w ← get
  if w.limits.recursionDepth ≤ w.calls.length then throw (.stopped .calls w.here)
  else if w.limits.stackSize ≤ w.calls.foldr (· + ·) 0 then throw (.stopped .values w.here)

/-- The object that a constructor makes before its code runs. -/
def newInstance (callee : Value) : Action ObjectId := do
  let proto := match ← getMember callee prototypeName with
    | .object proto => proto
    | _ => Intrinsic.objectPrototype.id
  allocate { proto := some proto }

def record (call : Invoke) (args : List Value) : Action Value := do
  let text ← toText call (argument args 0)
  modify fun w => { w with log := w.log ++ [text] }
  pure .undefined

def finishAsync (promise : ObjectId) (outcome : Except Value Outcome) : Action PUnit := do
  match outcome with
  | .ok (.value value) => resolvePromise promise value
  | .error reason => settle promise (.error reason)
  | .ok (.waiting value activation) => do
    match ← attempt (promiseOf value) with
    | .ok id => subscribe id (.resume { activation with promise := some promise })
    | .error reason => settle promise (.error reason)

def Means.by (perform : Task → Action Outcome) : Means where
  call := fun callee this args => do pure (← perform (.call callee this args)).toValue
  construct := fun callee args => do pure (← perform (.construct callee args)).toValue
  run := fun a => deeper do pure (← perform (.run a)).toValue

def Activation.enter (a : Activation) (w : World) : World :=
  { w with here := a.site, running := a.unit, calls := w.calls.modifyHead fun _ => a.kept }

def Activation.stepBy (perform : Task → Action Outcome) (a : Activation) : Action Step := do
  modify a.enter
  match a.code.instrs[a.next]? with
  | none => pure (.done .undefined)
  | some instr => ({ a with next := a.next + 1 }).step (.by perform) instr

/-- Call a function, given the way to perform tasks. -/
def callBy (perform : Task → Action Outcome) (callee this : Value) (args : List Value) :
    Action Outcome := do
  let means := Means.by perform
  match callable? (← get) callee with
  | none => failWith .type "not a callable function"
  | some (.closure unit code scope captured) => do
    checkCalls
    if code.isGenerator then
      pure (.value (.object (← newInstance callee)))
    else if code.isAsync then do
      let promise ← newPromise
      match ← attempt (activate callee unit code scope captured this args) with
      | .ok a => do
        let _ ← deeper (perform (.advance a promise))
      | .error reason => settle promise (.error reason)
      pure (.value (.object promise))
    else do
      let a ← activate callee unit code scope captured this args
      deeper (perform (.run a))
  | some (.builtin .eval) => do pure (.value (← evalValue means.run none (argument args 0)))
  | some (.builtin builtin) => do
    if builtin.makesFunctions then
      pure (.value (← makeFunction means.call means.run builtin args))
    else pure (.value (← builtin.run means.call false this args))
  | some (.bound target this first) => perform (.call target this (first ++ args))
  | some (.settle promise guard rejects) => do
    settleOnce promise guard rejects (argument args 0)
    pure (.value .undefined)
  | some (.finally action rejects) => do
    let id ← promiseOf (← means.call action .undefined [])
    let after ← newFunction (.constant (argument args 0) rejects) [] 0
    pure (.value (← promiseThen id after .undefined))
  | some (.constant value rejects) => if rejects then fail value else pure (.value value)
  | some .record => do pure (.value (← record means.call args))

/-- Apply `new` to a function, given the way to perform tasks. -/
def constructBy (perform : Task → Action Outcome) (callee : Value) (args : List Value) :
    Action Outcome := do
  let means := Means.by perform
  match callable? (← get) callee with
  | some (.closure unit code scope captured) =>
    if code.isConstructor then do
      checkCalls
      let this : Value := .object (← newInstance callee)
      let a ← activate callee unit code scope captured this args
      match (← deeper (perform (.run a))).toValue with
      | .object id => pure (.value (.object id))
      | _ => pure (.value this)
    else failWith .type "not a constructor"
  | some (.builtin builtin) =>
    if builtin.makesFunctions then do
      pure (.value (← makeFunction means.call means.run builtin args))
    else if builtin.prototype?.isSome then do
      pure (.value (← builtin.run means.call true .undefined args))
    else failWith .type "not a constructor"
  | some (.bound target _ first) => perform (.construct target (first ++ args))
  | _ => failWith .type "not a constructor"

/-- Perform a task in at most as many steps, one after another or inside each other, as given. -/
def perform : (steps : Nat) → Task → World → EStateM.Result Abrupt World Outcome
  | 0, _, w => .error .exhausted w
  | steps + 1, .run a, w =>
    match a.stepBy (perform steps) w with
    | .ok (.next a) w => perform steps (.run a) w
    | .ok (.done value) w => .ok (.value value) w
    | .ok (.wait value a) w => .ok (.waiting value a) w
    | .error (.thrown value site) w =>
      match a.caught? value site with
      | some a => perform steps (.run a) (w.expose value)
      | none => .error (.thrown value site) w
    | .error abrupt w => .error abrupt w
  | steps + 1, .call callee this args, w => callBy (perform steps) callee this args w
  | steps + 1, .construct callee args, w => constructBy (perform steps) callee args w
  | steps + 1, .advance a promise, w =>
    match attempt (perform steps (.run a)) w with
    | .ok outcome w =>
      match finishAsync promise outcome w with
      | .ok _ w => .ok (.value .undefined) w
      | .error abrupt w => .error abrupt w
    | .error abrupt w => .error abrupt w

def stepLimit : Nat := Nat.pow 2 60

def invoke : Invoke := fun callee this args => do
  pure (← perform stepLimit (.call callee this args)).toValue

/-- Let an asynchronous call go on with the outcome that it waited for. -/
def resume (a : Activation) (outcome : Except Value Value) : Action PUnit := do
  match a.promise with
  | none => pure ()
  | some promise => do
    let a := { a with outer := none }
    match outcome with
    | .ok value =>
      let _ ← deeper (perform stepLimit (.advance { a with stack := value :: a.stack } promise))
    | .error reason =>
      match a.caught? reason none with
      | some a => do
        let _ ← deeper (perform stepLimit (.advance a promise))
      | none => settle promise (.error reason)

end Isolate.Script
