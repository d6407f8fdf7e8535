import Isolate.Script.Closure
import Isolate.Script.Grammar.Module

/-!
# Linking modules

Linking finds, for every name that a module imports, the binding that it stands for, through modules
that pass names on. A name that no module exports, or that two modules export differently, cannot be
linked.
-/

namespace Isolate.Script

def defaultBinding : String := Grammar.defaultName

def defaultExport : Text.Units := Text.Units.ofString "default"

def World.module (w : World) (id : Nat) : Module := w.modules.getD id default

def modifyModule (id : Nat) (f : Module → Module) : Action PUnit :=
  modify fun w => { w with modules := w.modules.modify id f }

/-- Add a module to the world; its names have a scope of their own inside the global one. -/
def addModule (body : ModuleBody) (tree : Option ModuleTree) : Action Nat := do
  let scope ← newScope { parent := some globalScope, isFunction := true }
  let w ← get
  let module : Module :=
    match tree with
    | some tree =>
      { body, scope, requests := tree.requests, imports := tree.imports, exports := tree.exports
        awaits := tree.awaits }
    | none => { body, scope, exports := [.own defaultExport defaultBinding] }
  set { w with modules := w.modules.push module }
  if tree.isNone then putBinding scope defaultBinding (.held none .fixed)
  pure w.modules.size

namespace World

def requested? (w : World) (id : Nat) (specifier : Text.Units) : Option Nat :=
  (w.module id).loaded.lookup specifier

def requestedBy (w : World) (id : Nat) : List Nat :=
  (w.module id).requests.filterMap (w.requested? id)

end World

inductive ExportTarget where
  | binding (scope : ScopeId) (name : String)
  /-- All exports of a module. -/
  | space (module : Nat)
  deriving Repr, DecidableEq

/-- The result of looking for an exported name. -/
inductive ExportResult where
  | found (target : ExportTarget)
  | missing
  | ambiguous
  deriving Repr, DecidableEq

/-- Two results for a name that a module passes on from two others. -/
def ExportResult.merge : ExportResult → ExportResult → ExportResult
  | ambiguous, _ => ambiguous
  | _, ambiguous => ambiguous
  | missing, b => b
  | a, missing => a
  | found a, found b => if a = b then found a else ambiguous

namespace World

/-- What a name that a module exports stands for. `seen` are the names that are being looked for. -/
def resolveExport (w : World) :
    (fuel : Nat) → (seen : List (Nat × Text.Units)) → (id : Nat) → (name : Text.Units) → ExportResult
  | 0, _, _, _ => .missing
  | fuel + 1, seen, id, name =>
    if seen.contains (id, name) then .missing
    else
      let seen := (id, name) :: seen
      let module := w.module id
      let direct := module.exports.findSome? fun
        | .own exported localName =>
          if exported = name then some (.found (.binding module.scope localName)) else none
        | .indirect exported specifier imported =>
          if exported = name then
            match w.requested? id specifier, imported with
            | some other, .named inner => some (w.resolveExport fuel seen other inner)
            | some other, .everything => some (.found (.space other))
            | none, _ => some .missing
          else none
        | .star _ => none
      match direct with
      | some result => result
      | none =>
        if name = defaultExport then .missing
        else
          module.exports.foldl (fun result entry =>
            match entry with
            | .star specifier =>
              match w.requested? id specifier with
              | some other => result.merge (w.resolveExport fuel seen other name)
              | none => result
            | _ => result) .missing

/-- The names that a module exports, each perhaps several times. -/
def exportedNames (w : World) : (fuel : Nat) → (seen : List Nat) → (id : Nat) → List Text.Units
  | 0, _, _ => []
  | fuel + 1, seen, id =>
    if seen.contains id then []
    else
      (w.module id).exports.flatMap fun
        | .own exported _ => [exported]
        | .indirect exported _ _ => [exported]
        | .star specifier =>
          match w.requested? id specifier with
          | some other => (w.exportedNames fuel (id :: seen) other).filter (· ≠ defaultExport)
          | none => []

def exportDepth (w : World) : Nat :=
  w.modules.size * (1 + w.modules.foldl (fun total m => total + m.exports.length) 0) + 1

def export? (w : World) (id : Nat) (name : Text.Units) : ExportResult :=
  w.resolveExport w.exportDepth [] id name

end World

/-- Put a name into an ascending list in which it occurs once. -/
def insertName (name : Text.Units) : List Text.Units → List Text.Units
  | [] => [name]
  | n :: rest =>
    match Text.Units.compare name n with
    | .lt => name :: n :: rest
    | .eq => n :: rest
    | .gt => n :: insertName name rest

def moduleSpace : (fuel : Nat) → (id : Nat) → Action ObjectId
  | 0, _ => throw .exhausted
  | fuel + 1, id => do
    let w ← get
    match (w.module id).space with
    | some space => pure space
    | none => do
      let space ← allocate { proto := none, nature := .space [], extensible := false }
      modifyModule id fun m => { m with space := some space }
      let names := (w.exportedNames w.exportDepth [] id).foldl (fun sorted n => insertName n sorted) []
      let exports ← names.filterMapM fun name => do
        match w.export? id name with
        | .found (.binding scope localName) => pure (some (name, (scope, localName)))
        | .found (.space other) => do
          let inner ← moduleSpace fuel other
          let scope ← newScope
            { parent := none, bindings := [(defaultBinding, .held (some (.object inner)) .constant)] }
          pure (some (name, (scope, defaultBinding)))
        | _ => pure none
      modify fun w => w.modifyObject space fun o => { o with nature := .space exports }
      pure space

def spaceOf (id : Nat) : Action ObjectId := do moduleSpace ((← get).modules.size + 1) id

def failLink {α : Type} (name : Text.Units) (result : ExportResult) : Action α :=
  let shown := name.toString
  match result with
  | .ambiguous => failWith .syntaxError s!"ambiguous import '{shown}'"
  | _ => failWith .syntaxError s!"could not find export '{shown}'"

def importBinding (id : Nat) (entry : ImportEntry) : Action Binding := do
  let w ← get
  let whole (other : Nat) : Action Binding := do
    pure (.held (some (.object (← spaceOf other))) .constant)
  match w.requested? id entry.specifier, entry.imported with
  | none, _ => failLink entry.specifier .missing
  | some other, .everything => whole other
  | some other, .named name =>
    match w.export? other name with
    | .found (.binding scope localName) => pure (.alias scope localName)
    | .found (.space inner) => whole inner
    | result => failLink name result

/-- Fail if a name that a module passes on cannot be linked. -/
def checkExport (id : Nat) (entry : ExportEntry) : Action PUnit := do
  match entry with
  | .indirect name _ _ =>
    match (← get).export? id name with
    | .found _ => pure ()
    | result => failLink name result
  | _ => pure ()

def bindImport (id : Nat) (scope : ScopeId) (entry : ImportEntry) : Action PUnit := do
  putBinding scope entry.localName (← importBinding id entry)

def bindModule (id : Nat) : Action PUnit := do
  let w ← get
  let module := w.module id
  match module.body with
  | .code unit => do
    module.exports.forM (checkExport id)
    module.imports.forM (bindImport id module.scope)
    let code := ((w.units[unit]?).bind (·.functions.back?)).getD {}
    code.vars.forM fun name => bind module.scope name (.held (some .undefined) .mutable)
    code.lexicals.forM fun (name, kind) => bind module.scope name (.held none kind)
    bindFunctions unit module.scope .undefined code.functions fun name value =>
      bind module.scope name (.held (some value) .mutable)
  | _ => pure ()

/-- The modules that are not linked and are reached from a module, each behind those that it requests
as far as cycles allow. -/
def World.linkOrder (w : World) : (fuel : Nat) → (order seen : List Nat) → (id : Nat) →
    List Nat × List Nat
  | 0, order, seen, _ => (order, seen)
  | fuel + 1, order, seen, id =>
    if seen.contains id || (w.module id).status ≠ .unlinked then (order, seen)
    else
      let (order, seen) := (w.requestedBy id).foldl
        (fun (order, seen) other => w.linkOrder fuel order seen other) (order, id :: seen)
      (order ++ [id], seen)

/-- Link a module and all that it requests. Nothing counts as linked if a name is missing. -/
def linkModule (id : Nat) : Action PUnit := do
  let w ← get
  let (order, _) := w.linkOrder (w.modules.size + 1) [] [] id
  order.forM bindModule
  order.forM fun id => modifyModule id fun m => { m with status := .linked }

end Isolate.Script
