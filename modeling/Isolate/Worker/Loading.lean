import Isolate.Attribution
import Isolate.Script.Module.Evaluation
import Isolate.Script.Program
import Isolate.Text.Utf8
import Isolate.Wasm.Validator
import Isolate.Worker.Basic

/-!
# Loading modules

How the content of a file becomes a module, by the kind of the file, and how a graph of modules is
loaded: every module that is loaded for the first time in a graph makes its requests, and the graph is
loaded when no request is left, or not at all after the first failure.
-/

namespace Isolate
open Script

/-- Run an action. Its failure is part of the result, whatever it is. -/
def Script.capture {α : Type} (action : Action α) : Action (Except Abrupt α) := fun w =>
  match action w with
  | .ok value w => .ok (.ok value) w
  | .error abrupt w => .ok (.error abrupt) w

namespace Loader

def fixedModule (value : Value) : Action (Except Error Nat) := do
  pure (.ok (← addModule (.fixed value) none))

def esModule (path : Path) (bytes : Bytes) : Action (Except Error Nat) := do
  match Text.Utf8.decode bytes with
  | .error _ => pure (.error (.ofFault ⟨none⟩ path.text))
  | .ok text =>
    match Grammar.readModule text with
    | .error fault => pure (.error (.ofFault fault path.text))
    | .ok tree => do
      let unit ← addUnit
        { origin := .file path, functions := (tree.code text).functions, referrer := .file path }
      pure (.ok (← addModule (.code unit) (some tree)))

/-- Load a CommonJS file: what the wrapper around it comes to is called when the module is evaluated. -/
def commonJs (path : Path) (bytes : Bytes) : Action (Except Error Nat) := do
  let unwrapped (e : Error) : Except Error Nat := .error (e.mapLocation Wrapper.unwrap)
  match Text.Utf8.decode bytes with
  | .error _ => pure (unwrapped (.ofFault ⟨none⟩ path.text))
  | .ok body =>
    let text := Wrapper.wrap body
    match Grammar.readSoundScript text false with
    | .error fault => pure (unwrapped (.ofFault fault path.text))
    | .ok tree => do
      let unit ← addUnit
        { origin := .file path, functions := (tree.code text).functions, referrer := .file path }
      match ← capture (runProgram unit) with
      | .error abrupt => do pure (unwrapped (.ofDefinition (← get) abrupt path.text))
      | .ok wrapper => do pure (.ok (← addModule (.commonJs wrapper) none))

def text (path : Path) (bytes : Bytes) : Action (Except Error Nat) := do
  match Text.Utf8.decode bytes with
  | .error fault =>
    let message := fault.message
    pure (.error (.read path (.unreadable path.text s!"invalid UTF-8: {message}")))
  | .ok text => fixedModule (.string (Text.Units.ofList text))

def data (bytes : Bytes) : Action (Except Error Nat) := do
  fixedModule (.object (← allocate
    { proto := some Intrinsic.bufferPrototype.id, nature := .buffer bytes }))

/-- The object that describes an import or export of a WebAssembly module. -/
def describeExtern (members : List (String × String)) : Action Value := do
  let id ← newObject
  members.forM fun (name, text) => defineMember id (Text.Units.ofString name) (.ofString text)
  pure (.object id)

/-- Load a WebAssembly module; it is not instantiated. -/
def compiledWasm (path : Path) (bytes : Bytes) : Action (Except Error Nat) := do
  match Wasm.outline? bytes with
  | none => pure (.error (.wasm path "invalid module"))
  | some outline => do
    let exports ← outline.exports.mapM fun e =>
      describeExtern [("name", e.name), ("kind", e.kind.name)]
    let imports ← outline.imports.mapM fun i =>
      describeExtern [("module", i.module), ("name", i.name), ("kind", i.kind.name)]
    let listed (items : List Value) : Action Property := do
      pure { value := .object (← newArray items), writable := false, configurable := false }
    let exports ← listed exports
    let imports ← listed imports
    fixedModule (.object (← allocate
      { proto := some Intrinsic.objectPrototype.id, nature := .wasmModule outline
        properties :=
          [(Text.Units.ofString "exports", exports), (Text.Units.ofString "imports", imports)] }))

def load (path : Path) (kind : Kind.Supported) (bytes : Bytes) : Action (Except Error Nat) :=
  match kind with
  | .esModule => esModule path bytes
  | .commonJS => commonJs path bytes
  | .text => text path bytes
  | .data => data bytes
  | .compiledWasm => compiledWasm path bytes

end Loader

namespace Hosted

variable {σ : Type} [Store.Source σ]

def loadPath (path : Path) (kind : Kind.Supported) : Hosted σ (Except Error Nat) := do
  modifySession (·.beginLoad path)
  let (content, store) := Store.Source.read (← get).store path
  modify fun worker => { worker with store }
  let result : Except Error Nat ←
    match content with
    | .error e => pure (.error (.read path e))
    | .ok bytes => lift (Loader.load path kind bytes)
  modifySession (·.endLoad path)
  match result with
  | .ok record => do
    modifySession (·.accept path kind record)
    pure (.ok record)
  | .error e => pure (.error e)

def resolve (session : Session Nat) (referrer : Origin) (specifier : Text.Units) :
    Hosted σ (Except Error Nat) := do
  let (plan, session) := session.plan referrer specifier.toString
  modify fun worker => { worker with session := some session }
  match plan with
  | .refuse e => pure (.error e)
  | .reuse record => pure (.ok record)
  | .load path kind => loadPath path kind

/-- Resolve an import. A failure is noted, and becomes the error that code sees. -/
def importModule (referrer : Origin) (specifier : Text.Units) : Hosted σ (Except Value Nat) := do
  match (← get).session with
  | none => do
    pure (.error (← lift (newError .type "module resolution is disabled for this context")))
  | some session => do
    match ← resolve session referrer specifier with
    | .ok record => pure (.ok record)
    | .error e => do
      modifySession (·.fail e)
      pure (.error (← lift (newError .error e.describe)))

omit [Store.Source σ]

def failGraph (id : Nat) (reason : Value) : Hosted σ PUnit := do
  let graph ← graph id
  if graph.isLoading then
    modifyGraph id fun g => { g with isLoading := false }
    lift (settle graph.promise (.error reason))

/-- A module of a graph is loaded: it makes its requests if it was not met in the graph before. -/
def visit : (fuel : Nat) → (graph module : Nat) → Hosted σ PUnit
  | 0, _, _ => throw .exhausted
  | fuel + 1, id, module => do
    let found := (← get).world.module module
    let graph ← graph id
    if !found.requests.isEmpty && found.status = .unlinked && !graph.visited.contains module then
      modifyGraph id fun g =>
        { g with visited := module :: g.visited, pending := g.pending + found.requests.length }
      found.requests.forM fun specifier => do
        match found.loaded.lookup specifier with
        | some other => visit fuel id other
        | none => enqueue (.request id module specifier)
    modifyGraph id fun g => { g with pending := g.pending - 1 }
    let graph ← Hosted.graph id
    if graph.pending = 0 then
      modifyGraph id fun g => { g with isLoading := false }
      lift (settle graph.promise (.ok .undefined))

/-- Begin to load a graph from a module on. The result is the promise for the end of it. -/
def loadGraph (module : Nat) : Hosted σ ObjectId := do
  let promise ← lift newPromise
  let worker ← get
  set { worker with graphs := worker.graphs.push { promise } }
  visit (worker.world.modules.size + 1) worker.graphs.size module
  pure promise

def referrerOf (module : Nat) : Hosted σ Origin := do
  let w := (← get).world
  match (w.module module).body with
  | .code unit => pure ((w.units[unit]?.map (·.referrer)).getD .anonymous)
  | _ => pure .anonymous

def runLoad (load : Load) : Hosted σ PUnit := do
  match load with
  | .request graphId module specifier => do
    match ← importModule (← referrerOf module) specifier with
    | .error reason => failGraph graphId reason
    | .ok record => do
      lift (modifyModule module fun m => { m with loaded := m.loaded ++ [(specifier, record)] })
      let graph ← graph graphId
      if graph.isLoading then visit ((← get).world.modules.size + 1) graphId record
  | .dynamic request => do
    match ← importModule request.referrer request.specifier with
    | .error reason => lift (settle request.result (.error reason))
    | .ok record => do
      let promise ← loadGraph record
      lift (subscribe promise (.loaded record request.result))

end Hosted
end Isolate
