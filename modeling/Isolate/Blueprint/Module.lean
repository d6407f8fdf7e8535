import Isolate.Blueprint.Basic
import Isolate.Json.Reader

/-!
# Building and running modules

A module is built with a linking session that no other build has used. Building loads and links all
that the module requests, and runs none of it but the wrappers of CommonJS files, which only make
functions. The exports can be read once a run has succeeded.
-/

namespace Isolate
open Script

/-- What modules are built and run with. -/
structure Host (σ : Type) where
  session : Session Nat
  store : σ
  /-- The current directory. -/
  directory : Path := ⟨"/"⟩
  /-- What the host's functions recorded. -/
  log : List Text.Units := []

structure BuiltModule where
  world : World
  root : Nat
  label : String
  /-- The exported values by their names, in ascending order, once a run has succeeded. -/
  exports : Option (List (String × Value)) := none

namespace Host

variable {σ : Type}

def worker (host : Host σ) (world : World) : Worker σ :=
  { world := { world with log := host.log }, session := some host.session, store := host.store }

def leave (host : Host σ) (worker : Worker σ) : Host σ :=
  { host with
    session := worker.session.getD host.session, store := worker.store, log := worker.world.log }

end Host

namespace Blueprint

variable {σ : Type} [Store.Source σ]

def loadRoot (root refused : Nat) (label : String) : Hosted σ (Except Error PUnit) := do
  match ← (fun worker => match (do Hosted.settled (← Hosted.loadGraph root)) worker with
      | .ok _ worker => .ok (none : Option Abrupt) worker
      | .error abrupt worker => .ok (some abrupt) worker) with
  | some abrupt => do
    let worker ← get
    let text := (worker.world.diagnostic abrupt).toList
    match worker.session.map (·.takeFailure text true) with
    | some (some failure, session) => do
      set { worker with session := some session }
      pure (.error failure)
    | _ => pure (.error (.ofFailure worker.world abrupt label refused))
  | none => do
    Hosted.modifySession (·.clearFailures)
    match ← Hosted.lift (capture (linkModule root)) with
    | .ok _ => pure (.ok ⟨⟩)
    | .error abrupt => do pure (.error (.ofDefinition (← get).world abrupt label))

/-- Compile the source as a module, and load and link all that it requests. -/
def buildModule (blueprint : Blueprint) (globals : Globals) (host : Host σ) :
    Except Error BuiltModule × Host σ :=
  match host.session.bind with
  | .error e => (.error e, host)
  | .ok session =>
    let host := { host with session }
    match blueprint.newWorld globals with
    | .error e => (.error e, host)
    | .ok w =>
      let origin : Origin :=
        match blueprint.origin with
        | .anonymous => .anonymous
        | .file path => .file (host.directory.absolute path)
      let text := blueprint.source.toList
      match Grammar.readModule text with
      | .error fault => (.error (.ofFault fault blueprint.label), host)
      | .ok tree =>
        let begin : Hosted σ (Nat × Except Error PUnit) := do
          let root ← Hosted.lift (do
            let unit ← addUnit
              { origin := origin.codeOrigin, functions := (tree.code text).functions
                referrer := origin }
            addModule (.code unit) (some tree))
          match origin with
          | .file path => Hosted.modifySession (·.register path root)
          | .anonymous => pure ()
          pure (root, ← loadRoot root w.refusals.length blueprint.label)
        match begin (host.worker w) with
        | .ok (root, .ok _) worker =>
          (.ok { world := worker.world, root, label := blueprint.label }, host.leave worker)
        | .ok (_, .error e) worker => (.error e, host.leave worker)
        | .error abrupt worker =>
          (.error (.ofFailure worker.world abrupt blueprint.label w.refusals.length),
            host.leave worker)

end Blueprint

namespace BuiltModule

variable {σ : Type}

def collectExports (root : Nat) : Action (List (String × Value)) := do
  let space ← spaceOf root
  (ownNames ((← get).object space)).foldlM (fun found name => do
    let value ← getMember (.object space) name
    pure (insertExport name.toString value found)) []
where
  /-- Put an export into an ascending list; it takes the place of one of the same name. -/
  insertExport (name : String) (value : Value) : List (String × Value) → List (String × Value)
    | [] => [(name, value)]
    | (key, old) :: rest =>
      if name < key then (name, value) :: (key, old) :: rest
      else if name = key then (name, value) :: rest
      else (key, old) :: insertExport name value rest

/-- The failure of a run: an import failure that it tells of, or what happened in the code. -/
def failureOf (worker : Worker σ) (abrupt : Abrupt) (label : String) (refused : Nat) :
    Error × Worker σ :=
  let text := (worker.world.diagnostic abrupt).toList
  match worker.session with
  | none => (.ofFailure worker.world abrupt label refused, worker)
  | some session =>
    match session.takeFailure text false with
    | (some failure, session) => (failure, { worker with session := some session })
    | (none, session) =>
      (session.unwrap (.ofFailure worker.world abrupt label refused), worker)

variable [Store.Source σ]

def run (module : BuiltModule) (host : Host σ) : Except Error PUnit × BuiltModule × Host σ :=
  let refused := module.world.refusals.length
  let evaluate : Hosted σ PUnit := do Hosted.settled (← Hosted.lift (evaluateModule module.root))
  match evaluate (host.worker module.world) with
  | .error abrupt worker =>
    let (failure, worker) := failureOf worker abrupt module.label refused
    (.error failure, { module with world := worker.world }, host.leave worker)
  | .ok _ worker =>
    let worker : Worker σ :=
      { worker with session := worker.session.map fun session => session.clearFailures }
    match collectExports module.root worker.world with
    | .ok exports w =>
      (.ok ⟨⟩, { module with world := w, exports := some exports }, host.leave { worker with world := w })
    | .error abrupt w =>
      (.error (.ofEngine w abrupt), { module with world := w }, host.leave { worker with world := w })

omit [Store.Source σ]

def exported (module : BuiltModule) : Except Error (List (String × Value)) :=
  match module.exports with
  | some exports => .ok exports
  | none => .error .exportsUnavailable

def export? (module : BuiltModule) (name : String) : Except Error (Option Value) :=
  module.exported.map (·.lookup name)

/-- What an export is, found among the exports after a successful run. -/
def project {α : Type} (module : BuiltModule) (name : String) (f : Value → Option α) :
    Except Error (Option α) :=
  match module.export? name with
  | .ok found => .ok (found.bind f)
  | .error e => .error e

def exportedText? (module : BuiltModule) (name : String) : Except Error (Option String) :=
  module.project name fun
    | .string s => some s.toString
    | _ => none

def exportedBytes? (module : BuiltModule) (name : String) : Except Error (Option Bytes) :=
  module.project name fun
    | .object id =>
      match (module.world.object id).nature with
      | .buffer bytes => some bytes
      | _ => none
    | _ => none

def exportedWasm? (module : BuiltModule) (name : String) : Except Error (Option Wasm.Outline) :=
  module.project name fun
    | .object id =>
      match (module.world.object id).nature with
      | .wasmModule outline => some outline
      | _ => none
    | _ => none

/-- The JSON text of a value, as the world's own `JSON.stringify` writes it. -/
def jsonText (value : Value) : Action (Option String) := do
  let json ← getMember Intrinsic.global.value (Text.Units.ofString "JSON")
  let method ←
    match json with
    | .object _ => getMember json (Text.Units.ofString "stringify")
    | _ => pure .undefined
  if !(← isCallable method) then failWith .type "JSON.stringify is not callable"
  match ← invoke method .undefined [value] with
  | .string text => pure (some text.toString)
  | _ => pure none

/-- An exported value as JSON. Code that takes part in writing it runs in the host. -/
def exportedJson? (module : BuiltModule) (host : Host σ) (name : String) :
    Except Error (Option Json) × BuiltModule × Host σ :=
  match module.export? name with
  | .error e => (.error e, module, host)
  | .ok none => (.ok none, module, host)
  | .ok (some value) =>
    match jsonText value { module.world with log := host.log, here := none, calls := [] } with
    | .error abrupt w =>
      (.error (.ofEngine w abrupt), { module with world := w }, { host with log := w.log })
    | .ok text w =>
      let module := { module with world := w }
      let host := { host with log := w.log }
      match text with
      | none => (.ok none, module, host)
      | some text =>
        match Json.ofText text with
        | .ok json => (.ok (some json), module, host)
        | .error fault => (.error (.engine fault.message), module, host)

end BuiltModule
end Isolate
