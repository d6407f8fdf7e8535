import Isolate.Proofs.Script.Executions
import Isolate.Proofs.Script.Walk

/-!
# Modules that run in turn

An evaluation that succeeds, of modules of which none awaits, walks through the modules that were
requested and runs each of them that was not run before, one after another: nothing happens in
between but that it is noted how far the modules have come.
-/

namespace Isolate.Script

variable {α : Type} {w w' w'' : World} {id other : Nat} {inside : Set Nat}

namespace Module

def HasBegun (module : Module) : Prop :=
  match module.body with
  | .code _ => module.status ≠ .unlinked ∧ module.status ≠ .linked
  | _ => module.status = .evaluated

theorem hasBegun_of_evaluated {module : Module} (ended : module.status = .evaluated) :
    module.HasBegun := by
  rw [HasBegun, ended]
  split <;> simp

theorem hasBegun_of_code {module : Module} {unit : Nat} (code : module.body = .code unit) :
    module.HasBegun ↔ module.status ≠ .unlinked ∧ module.status ≠ .linked := by
  rw [HasBegun, code]

theorem hasBegun_of_evaluating {module : Module} {unit : Nat} (code : module.body = .code unit)
    (evaluating : module.status = .evaluating) : module.HasBegun := by
  rw [hasBegun_of_code code, evaluating]
  exact ⟨nofun, nofun⟩

theorem ne_unlinked_of_hasBegun {module : Module} (begun : module.HasBegun) :
    module.status ≠ .unlinked := by
  rw [HasBegun] at begun
  split at begun
  · exact begun.1
  · rw [begun]
    nofun

theorem hasBegun_of_plain {module : Module} (plain : module.IsPlain) :
    module.HasBegun ↔ module.status = .evaluated := by
  rw [HasBegun]
  split
  next unit code => exact absurd code (plain unit)
  next => exact Iff.rfl

/-- A module has come further in its evaluation, or is where it was. -/
structure Furthers (old new : Module) : Prop where
  same : ∃ status depthIndex lowestIndex cycleRoot result,
    new = { old with status, depthIndex, lowestIndex, cycleRoot, result }
  linked (linked : old.status ≠ .unlinked) : new.status ≠ .unlinked
  ended (ended : old.status = .evaluated) : new.status = .evaluated
  begun (begun : old.HasBegun) : new.HasBegun
  depth (begun : old.HasBegun) : new.depthIndex = old.depthIndex
  lowest (begun : old.HasBegun) : new.lowestIndex ≤ old.lowestIndex

theorem Furthers.refl (module : Module) : module.Furthers module :=
  ⟨⟨_, _, _, _, _, rfl⟩, id, id, id, fun _ => rfl, fun _ => Nat.le_refl _⟩

theorem Furthers.trans {old middle new : Module} (first : old.Furthers middle)
    (later : middle.Furthers new) : old.Furthers new where
  same := by
    obtain ⟨_, _, _, _, _, same⟩ := first.same
    obtain ⟨status, depthIndex, lowestIndex, cycleRoot, result, same'⟩ := later.same
    exact ⟨status, depthIndex, lowestIndex, cycleRoot, result, by rw [same', same]⟩
  linked linked := later.linked (first.linked linked)
  ended ended := later.ended (first.ended ended)
  begun begun := later.begun (first.begun begun)
  depth begun := (later.depth (first.begun begun)).trans (first.depth begun)
  lowest begun := Nat.le_trans (later.lowest (first.begun begun)) (first.lowest begun)

/-- A module whose evaluation ends, or had ended before. -/
theorem furthers_end (module : Module) (cycleRoot : Option Nat) :
    module.Furthers { module with status := .evaluated, cycleRoot } where
  same := ⟨_, _, _, _, _, rfl⟩
  linked _ := nofun
  ended _ := rfl
  begun _ := hasBegun_of_evaluated rfl
  depth _ := rfl
  lowest _ := Nat.le_refl _

end Module

namespace World

/-- Modules have come further in their evaluation. -/
structure Furthers (w w' : World) : Prop where
  size : w'.modules.size = w.modules.size
  module (id : Nat) : (w.module id).Furthers (w'.module id)

theorem Furthers.of_modules (modules : w'.modules = w.modules) : w.Furthers w' where
  size := by rw [modules]
  module id := by
    rw [World.module, World.module, modules]
    exact .refl _

theorem Furthers.trans (first : w.Furthers w') (later : w'.Furthers w'') : w.Furthers w'' where
  size := later.size.trans first.size
  module id := (first.module id).trans (later.module id)

theorem Furthers.requested? (h : w.Furthers w') : w'.requested? = w.requested? := by
  funext id specifier
  obtain ⟨_, _, _, _, _, same⟩ := (h.module id).same
  rw [World.requested?, World.requested?, same]

theorem Furthers.requestedBy (h : w.Furthers w') : w'.requestedBy = w.requestedBy := by
  funext id
  obtain ⟨_, _, _, _, _, same⟩ := (h.module id).same
  rw [World.requestedBy, World.requestedBy, h.requested?, same]

/-- The modules of a set request only each other, none of them awaits, and all of them are linked. -/
structure IsReady (w : World) (inside : Set Nat) : Prop where
  known (id : Nat) (member : id ∈ inside) : id < w.modules.size
  closed (id : Nat) (member : id ∈ inside) : ∀ other ∈ w.requestedBy id, other ∈ inside
  linked (id : Nat) (member : id ∈ inside) : (w.module id).status ≠ .unlinked
  awaits (id : Nat) (member : id ∈ inside) : (w.module id).awaits = false
  pending (id : Nat) (member : id ∈ inside) : (w.module id).pending = 0
  plain (id : Nat) (member : id ∈ inside) (plain : (w.module id).IsPlain) : (w.module id).requests = []
  /-- No module has begun to wait, wherever it is. -/
  waits (id : Nat) : (w.module id).waitOrder = none

theorem IsReady.furthers (ready : w.IsReady inside) (h : w.Furthers w') : w'.IsReady inside where
  known id member := Nat.lt_of_lt_of_eq (ready.known id member) h.size.symm
  closed := by
    rw [h.requestedBy]
    exact ready.closed
  linked id member := (h.module id).linked (ready.linked id member)
  awaits id member := by
    obtain ⟨_, _, _, _, _, same⟩ := (h.module id).same
    rw [same]
    exact ready.awaits id member
  pending id member := by
    obtain ⟨_, _, _, _, _, same⟩ := (h.module id).same
    rw [same]
    exact ready.pending id member
  plain id member plain := by
    obtain ⟨_, _, _, _, _, same⟩ := (h.module id).same
    rw [same] at plain ⊢
    exact ready.plain id member plain
  waits id := by
    obtain ⟨_, _, _, _, _, same⟩ := (h.module id).same
    rw [same]
    exact ready.waits id

/-- It was noted how far modules have come, while nothing was run and no name was bound. -/
structure Notes (w w' : World) : Prop extends w.Furthers w' where
  executed : w'.executed = w.executed
  scopes : w'.scopes = w.scopes

theorem Notes.refl (w : World) : w.Notes w := ⟨.of_modules rfl, rfl, rfl⟩

theorem Notes.trans (first : w.Notes w') (later : w'.Notes w'') : w.Notes w'' :=
  ⟨first.toFurthers.trans later.toFurthers, later.executed.trans first.executed,
    later.scopes.trans first.scopes⟩

/-- It is noted how far one module has come. -/
theorem notes_modifyModule {f : Module → Module} (furthers : (w.module id).Furthers (f (w.module id))) :
    w.Notes (left (modifyModule id f) w) where
  executed := rfl
  scopes := rfl
  size := size_modifyModule id f w
  module other := by
    rw [module_modifyModule]
    split
    next same =>
      rw [← same.1]
      exact furthers
    next => exact .refl _

/-- It was noted how far modules have come, and the evaluation of none was begun. -/
structure Idles (w w' : World) : Prop extends w.Notes w' where
  begun (id : Nat) : (w'.module id).HasBegun ↔ (w.module id).HasBegun

theorem Idles.refl (w : World) : w.Idles w := ⟨.refl w, fun _ => Iff.rfl⟩

theorem Idles.trans (first : w.Idles w') (later : w'.Idles w'') : w.Idles w'' :=
  ⟨first.toNotes.trans later.toNotes, fun id => (later.begun id).trans (first.begun id)⟩

theorem idles_modifyModule {f : Module → Module} (furthers : (w.module id).Furthers (f (w.module id)))
    (begun : (f (w.module id)).HasBegun ↔ (w.module id).HasBegun) :
    w.Idles (left (modifyModule id f) w) := by
  refine ⟨notes_modifyModule furthers, fun other => ?_⟩
  rw [module_modifyModule]
  split
  next same =>
    rw [← same.1]
    exact begun
  next => exact Iff.rfl

/-- The modules whose evaluation has begun and not ended stand on a stack. -/
structure IsStack (w : World) (stack : List Nat) : Prop where
  nodup : stack.Nodup
  begun (id : Nat) (member : id ∈ stack) : (w.module id).HasBegun
  complete (id : Nat) (begun : (w.module id).HasBegun) : (w.module id).status = .evaluated ∨ id ∈ stack

theorem IsStack.idles {stack : List Nat} (h : w.IsStack stack) (idles : w.Idles w') :
    w'.IsStack stack where
  nodup := h.nodup
  begun id member := (idles.begun id).mpr (h.begun id member)
  complete id begun :=
    (h.complete id ((idles.begun id).mp begun)).imp_left (idles.module id).ended

/-- Modules run one after another, each of them to its end and without a failure. -/
inductive RunsInTurn : World → List Nat → World → Prop
  | done {w w' : World} (notes : w.Notes w') : RunsInTurn w [] w'
  | next {w before after w' : World} {id : Nat} {ids : List Nat} (notes : w.Notes before)
      (ran : runModule id before = .ok ⟨⟩ after) (rest : RunsInTurn after ids w') :
      RunsInTurn w (id :: ids) w'

namespace RunsInTurn

variable {ids ids' : List Nat}

theorem begin_of_notes (notes : w.Notes w') (turns : w'.RunsInTurn ids w'') : w.RunsInTurn ids w'' := by
  cases turns with
  | done notes' => exact .done (notes.trans notes')
  | next notes' ran rest => exact .next (notes.trans notes') ran rest

theorem append (first : w.RunsInTurn ids w') (later : w'.RunsInTurn ids' w'') :
    w.RunsInTurn (ids ++ ids') w'' := by
  induction first with
  | done notes => exact later.begin_of_notes notes
  | next notes ran rest ih => exact .next notes ran (ih later)

theorem furthers (h : w.RunsInTurn ids w') : w.Furthers w' := by
  induction h with
  | done notes => exact notes.toFurthers
  | @next w before after w' id ids notes ran rest ih =>
    have kept : after.modules = before.modules :=
      (left_of_ok ran ▸ executes_runModule id before : before.Executes id after).modules
    exact (notes.toFurthers.trans (.of_modules kept)).trans ih

/-- A module comes to its turn as it was, but for how far it has come. -/
theorem body_eq (h : w.RunsInTurn ids w') (id : Nat) :
    (w'.module id).body = (w.module id).body ∧ (w'.module id).scope = (w.module id).scope := by
  obtain ⟨_, _, _, _, _, same⟩ := (h.furthers.module id).same
  rw [same]
  exact ⟨rfl, rfl⟩

/-- The modules that run in turn are noted, the latest first. -/
theorem executed (h : w.RunsInTurn ids w') : w'.executed = ids.reverse ++ w.executed := by
  induction h with
  | done notes => exact notes.executed
  | @next w before after w' id ids notes ran rest ih =>
    have noted : after.executed = id :: before.executed :=
      (left_of_ok ran ▸ executes_runModule id before : before.Executes id after).executed
    rw [ih, noted, notes.executed, List.reverse_cons, List.append_assoc]
    rfl

/-- What lasts in a scope stays there while modules run, but for what a module without code of its
own has in its own scope. -/
theorem lasting (h : w.RunsInTurn ids w') {scope : ScopeId} {name : String} {binding : Binding}
    (apart : ∀ id ∈ ids, scope = (w.module id).scope → ¬(w.module id).IsPlain)
    (found : (w.scope scope).bindings.lookup name = some binding) (lasts : binding.isLasting) :
    (w'.scope scope).bindings.lookup name = some binding := by
  have noted {w w' : World} (notes : w.Notes w')
      (found : (w.scope scope).bindings.lookup name = some binding) :
      (w'.scope scope).bindings.lookup name = some binding := by
    rw [World.scope, notes.scopes]
    exact found
  induction h with
  | done notes => exact noted notes found
  | @next w before after w' id ids notes ran rest ih =>
    have executes : before.Executes id after := left_of_ok ran ▸ executes_runModule id before
    have apart' (x : Nat) (member : x ∈ id :: ids) (own : scope = (before.module x).scope) :
        ¬(before.module x).IsPlain := by
      obtain ⟨_, _, _, _, _, same⟩ := (notes.module x).same
      rw [same] at own ⊢
      exact apart x member own
    have kept := executes.lasting scope name binding (apart' id List.mem_cons_self) (noted notes found)
      lasts
    refine ih (fun x member => ?_) kept
    have same : after.module x = before.module x := by
      rw [World.module, executes.modules]
      rfl
    rw [same]
    exact apart' x (List.mem_cons_of_mem id member)

theorem scopes_le (h : w.RunsInTurn ids w') : w.scopes.size ≤ w'.scopes.size := by
  induction h with
  | done notes => exact Nat.le_of_eq (by rw [notes.scopes])
  | @next w before after w' id ids notes ran rest ih =>
    have executes : before.Executes id after := left_of_ok ran ▸ executes_runModule id before
    exact Nat.le_trans (Nat.le_of_eq (by rw [notes.scopes])) (Nat.le_trans executes.scopes ih)

/-- Around one of the runs are those before it and those behind it. -/
theorem exists_of_mem (h : w.RunsInTurn ids w') (member : id ∈ ids) :
    ∃ first rest before after, ids = first ++ id :: rest ∧ w.RunsInTurn first before ∧
      runModule id before = .ok ⟨⟩ after ∧ after.RunsInTurn rest w' := by
  induction h with
  | done notes => contradiction
  | @next w before after w' next ids notes ran rest ih =>
    rcases List.mem_cons.mp member with rfl | later
    · exact ⟨[], ids, before, after, rfl, .done notes, ran, rest⟩
    · obtain ⟨first, last, before', after', rfl, turns, ran', turns'⟩ := ih later
      exact ⟨next :: first, last, before', after', rfl, .next notes ran turns, ran', turns'⟩

end RunsInTurn

/-- Some modules were evaluated: those of them that had not begun, and what they led to, ran in turn. -/
structure Evaluates (w : World) (todo runs : List Nat) (w' : World) : Prop where
  turns : w.RunsInTurn runs w'
  walk : Walk w.requestedBy {x | (w.module x).HasBegun} todo runs
  begun (x : Nat) : (w'.module x).HasBegun ↔ (w.module x).HasBegun ∨ x ∈ runs

theorem Idles.evaluates (idles : w.Idles w') : w.Evaluates [] [] w' where
  turns := .done idles.toNotes
  walk := .done _
  begun x := (idles.begun x).trans (by simp)

theorem Evaluates.append {todo todo' runs runs' : List Nat} (first : w.Evaluates todo runs w')
    (later : w'.Evaluates todo' runs' w'') : w.Evaluates (todo ++ todo') (runs ++ runs') w'' where
  turns := first.turns.append later.turns
  walk := by
    refine first.walk.append ((first.turns.furthers.requestedBy ▸ later.walk).congr fun x => ?_)
    exact first.begun x
  begun x := by rw [later.begun, first.begun, List.mem_append, or_assoc]

end World

end Isolate.Script
