import Isolate.Proofs.Script.Evaluations
import Isolate.Proofs.Script.Linking

/-!
# Modules that run once

The first evaluation of a root whose modules are linked and do not await runs each of them once,
behind what it requests. What the function of a CommonJS module leaves as its exports then is what
everyone reads who imports it, however much later and through however many other modules.
-/

namespace Isolate.Script

variable {w w' w'' : World} {root id : Nat} {value : Value} {wrapper : Value}

/-- A name that stands for a binding of another scope has the value that is bound there. -/
theorem loadName_of_alias {scope holder : ScopeId} {name original : String} {kind : BindingKind}
    (found : (w.scope scope).bindings.lookup name = some (.alias holder original))
    (bound : (w.scope holder).bindings.lookup original = some (.held (some value) kind)) :
    loadName scope name w = .ok value w := by
  have here : w.find? name (w.scopes.size + 1) (some scope) =
      some (.bound holder original (some value) .constant) := by
    rw [World.find?, World.findHere?]
    simp only [found, bound]
  have named : findName? scope name w = .ok (some (.bound holder original (some value) .constant)) w :=
    congrArg (EStateM.Result.ok · w) here
  have loaded : loadNameIfBound scope name w = .ok (some value) w := by
    rw [loadNameIfBound, run_bind_of_ok named]
    rfl
  rw [loadName, run_bind_of_ok loaded]
  rfl

/-- A value that is exported can be read under every name that it is exported under. -/
theorem exportedValue_of_bound {scope : ScopeId} {localName : String} {kind : BindingKind}
    (bound : (w.scope scope).bindings.lookup localName = some (.held (some value) kind))
    (name : Text.Units) : exportedValue name scope localName w = .ok value w := by
  have reads (rest : World → Action Value) : (get >>= rest) w = rest w w := rfl
  have here : w.binding? scope localName = some (.held (some value) kind) := by
    rw [World.binding?, bound]
  rw [exportedValue, reads]
  dsimp only
  rw [here]
  rfl

/-- The function of a CommonJS module was called with an object for its exports and with a module object,
and when it has returned, a value is in the member `exports` of the module object. -/
def ReturnsWith (wrapper value : Value) (called : World) : Prop :=
  ∃ exports module begun returned ended,
    invoke wrapper .undefined [.object exports, .object module] begun = .ok returned ended ∧
      getMember (.object module) (Text.Units.ofString "exports") ended = .ok value called

theorem callWrapper_ok (done : callWrapper wrapper w = .ok value w') : ReturnsWith wrapper value w' := by
  obtain ⟨callable, w₁, _, done⟩ := exists_of_bind done
  extract_lets name call at done
  have called (go : PUnit) (w : World) (done : call go w = .ok value w') : ReturnsWith wrapper value w' := by
    obtain ⟨exports, w₁, _, done⟩ := exists_of_bind done
    obtain ⟨module, w₂, _, done⟩ := exists_of_bind done
    obtain ⟨_, begun, _, done⟩ := exists_of_bind done
    obtain ⟨returned, ended, invoked, read⟩ := exists_of_bind done
    exact ⟨exports, module, begun, returned, ended, invoked, read⟩
  clear_value call
  split at done
  · obtain ⟨_, w₂, _, done⟩ := exists_of_bind done
    exact called _ _ done
  · exact called _ _ done

/-- A CommonJS module that has run has its default export. -/
theorem runModule_commonJs (body : (w.module id).body = .commonJs wrapper)
    (known : (w.module id).scope < w.scopes.size) (ran : runModule id w = .ok ⟨⟩ w') :
    ∃ value called, callWrapper wrapper { w with executed := id :: w.executed } = .ok value called ∧
      (w'.scope (w.module id).scope).bindings.lookup defaultBinding = some (.held (some value) .fixed) := by
  let noted : World := { w with executed := id :: w.executed }
  rw [runModule_eq, runBody, body] at ran
  dsimp only at ran
  obtain ⟨value, called, calls, put⟩ := exists_of_bind ran
  obtain ⟨-, rfl⟩ := EStateM.Result.ok.inj put
  have conducts : noted.Conducts called :=
    (obeys_callWrapper (R := World.Conducts) wrapper).of_ok calls
  refine ⟨value, called, calls, ?_⟩
  rw [World.scope_modifyScope, if_pos ⟨rfl, Nat.lt_of_lt_of_le known conducts.scopes.size⟩,
    World.lookup_insert, if_pos rfl]

namespace World

/-- The modules that a root leads to are linked and do not await, and nothing was evaluated. -/
structure IsPrepared (w : World) (root : Nat) : Prop extends w.IsLinked root where
  ready : w.IsReady {x | LeadsTo w.requestedBy root x}
  new (id : Nat) : ¬(w.module id).HasBegun
  fresh : (w.module root).result = none
  scope (id : Nat) (known : id < w.modules.size) : (w.module id).scope < w.scopes.size
  apart (id other : Nat) (known : id < w.modules.size) (known' : other < w.modules.size)
    (same : (w.module id).scope = (w.module other).scope) : id = other
  sound (id : Nat) (known : id < w.modules.size) : (w.module id).IsSound

/-- All that comes to the default export of a module of a linked world reads one value in a later one: the
imports of the modules that its root leads to, whether they name the module or another one that passes the
export on, and whoever looks for the exports of the module. -/
structure Shares (w : World) (root id : Nat) (value : Value) (later : World) : Prop where
  found : w.export? id defaultExport = .found (.binding (w.module id).scope defaultBinding)
  exported (name : Text.Units) :
    exportedValue name (w.module id).scope defaultBinding later = .ok value later
  imported (importer : Nat) (leads : LeadsTo w.requestedBy root importer) (entry : ImportEntry)
    (member : entry ∈ (w.module importer).imports) (other : Nat)
    (requested : w.requested? importer entry.specifier = some other) (name : Text.Units)
    (named : entry.imported = .named name)
    (stands : w.export? other name = .found (.binding (w.module id).scope defaultBinding)) :
    loadName (w.module importer).scope entry.localName later = .ok value later

/-- All that a root leads to was run in some order, and what each CommonJS module among them has left is
shared. -/
structure RunsOnce (w : World) (root : Nat) (order : List Nat) (later : World) : Prop where
  nodup : order.Nodup
  mem_iff (id : Nat) : id ∈ order ↔ LeadsTo w.requestedBy root id
  /-- Each module has run to its end in its turn. -/
  turns : ∃ ended, w.RunsInTurn order ended
  /-- Whatever else has run since is no module that the root leads to. -/
  executed : ∃ others, later.executed = others ++ order.reverse ++ w.executed ∧ ∀ id ∈ others, id ∉ order
  /-- A module comes behind each one that it requests, and behind all that such a module leads to, unless
  that one leads back. -/
  precedes (id : Nat) (member : id ∈ order) (other : Nat) (requested : other ∈ w.requestedBy id)
    (apart : ¬LeadsTo w.requestedBy other id) (before : Nat)
    (leads : LeadsTo w.requestedBy other before) : [before, id].Sublist order
  /-- In its turn a CommonJS module leaves a value, which is shared from then on. -/
  shared (id : Nat) (member : id ∈ order) (wrapper : Value)
    (body : (w.module id).body = .commonJs wrapper) :
    ∃ first rest before value called after, order = first ++ id :: rest ∧ w.RunsInTurn first before ∧
      callWrapper wrapper { before with executed := id :: before.executed } = .ok value called ∧
      ReturnsWith wrapper value called ∧ runModule id before = .ok ⟨⟩ after ∧
      (∀ more w', more ⊆ rest → after.RunsInTurn more w' → w.Shares root id value w') ∧
      w.Shares root id value later

section Modules

variable (modules : w'.modules = w.modules)

include modules

theorem IsPrepared.of_modules (h : w.IsPrepared root) (scopes : w'.scopes = w.scopes) :
    w'.IsPrepared root := by
  have same (id : Nat) : w'.module id = w.module id := by rw [module, modules]; rfl
  have requestedBy := requestedBy_of_modules modules
  exact
    { h.toIsLinked.of_modules modules scopes with
      ready := by
        rw [requestedBy]
        exact h.ready.furthers (.of_modules modules)
      new := fun id => by rw [same]; exact h.new id
      fresh := by rw [same]; exact h.fresh
      scope := fun id => by rw [same, modules, scopes]; exact h.scope id
      apart := fun id other => by rw [same, same, modules]; exact h.apart id other
      sound := fun id => by rw [same, modules]; exact h.sound id }

theorem Shares.of_modules {later : World} (h : w'.Shares root id value later) :
    w.Shares root id value later := by
  have same (id : Nat) : w'.module id = w.module id := by rw [module, modules]; rfl
  have exports := export?_of_modules modules
  refine ⟨?_, ?_, ?_⟩
  · rw [← exports, ← same]
    exact h.found
  · rw [← same]
    exact h.exported
  · simp only [← exports, ← same, ← requested?_of_modules modules, ← requestedBy_of_modules modules]
    exact h.imported

/-- What has run can be said of each world with the same modules and scopes. -/
theorem RunsOnce.of_modules {order : List Nat} {later : World} (h : w'.RunsOnce root order later)
    (scopes : w'.scopes = w.scopes) (executed : w'.executed = w.executed) :
    w.RunsOnce root order later := by
  have same (id : Nat) : w'.module id = w.module id := by rw [module, modules]; rfl
  have requestedBy := requestedBy_of_modules modules
  have notes : w.Notes w' := ⟨.of_modules modules, executed, scopes⟩
  refine ⟨h.nodup, ?_, ?_, ?_, ?_, fun id member wrapper body => ?_⟩
  · rw [← requestedBy]
    exact h.mem_iff
  · obtain ⟨ended, turns⟩ := h.turns
    exact ⟨ended, turns.begin_of_notes notes⟩
  · rw [← executed]
    exact h.executed
  · rw [← requestedBy]
    exact h.precedes
  · rw [← same] at body
    obtain ⟨first, rest, before, value, called, after, split, turns, calls, leaves, ran, stays, last⟩ :=
      h.shared id member wrapper body
    exact ⟨first, rest, before, value, called, after, split,
      turns.begin_of_notes notes, calls, leaves, ran,
      fun more w' among turns => (stays more w' among turns).of_modules modules, last.of_modules modules⟩

end Modules

namespace IsPrepared

variable {promise : ObjectId} {order ids : List Nat}

/-- What an import stands for stays while modules run, as a module that imports something has code. -/
theorem lookup_import (prepared : w.IsPrepared root) (turns : w.RunsInTurn ids w')
    (inside : ∀ x ∈ ids, LeadsTo w.requestedBy root x) {importer other : Nat}
    (leads : LeadsTo w.requestedBy root importer) {entry : ImportEntry}
    (member : entry ∈ (w.module importer).imports)
    (requested : w.requested? importer entry.specifier = some other) {name : Text.Units}
    (named : entry.imported = .named name) {holder : ScopeId} {original : String}
    (stands : w.export? other name = .found (.binding holder original)) :
    (w'.scope (w.module importer).scope).bindings.lookup entry.localName = some (.alias holder original) := by
  have known := (prepared.linked importer leads).1
  refine turns.lasting (fun x later own plain => ?_)
    (prepared.joined importer other leads entry member requested name named holder original stands) rfl
  obtain rfl := prepared.apart importer x known (prepared.linked x (inside x later)).1 own
  rw [(prepared.sound importer known).imports plain] at member
  contradiction

/-- The default export of a module without code of its own is shared once it is bound. -/
theorem shares (prepared : w.IsPrepared root) (leads : LeadsTo w.requestedBy root id)
    (plain : (w.module id).IsPlain) (turns : w.RunsInTurn ids w')
    (inside : ∀ x ∈ ids, LeadsTo w.requestedBy root x)
    (kept : ∀ x, LeadsTo w.requestedBy root x → ∀ name binding,
      (w'.scope (w.module x).scope).bindings.lookup name = some binding → binding.isLasting →
        (w''.scope (w.module x).scope).bindings.lookup name = some binding)
    (bound : (w'.scope (w.module id).scope).bindings.lookup defaultBinding =
      some (.held (some value) .fixed)) : w.Shares root id value w'' where
  found := w.export?_default ((prepared.sound id (prepared.linked id leads).1).exports plain)
  exported := exportedValue_of_bound (kept id leads _ _ bound rfl)
  imported importer leads' _ member _ requested _ named stands :=
    loadName_of_alias (kept importer leads' _ _
      (prepared.lookup_import turns inside leads' member requested named stands) rfl)
      (kept id leads _ _ bound rfl)

/-- The modules of a graph that has run, and their scopes, are over. -/
theorem past_holds (prepared : w.IsPrepared root) (turns : w.RunsInTurn order w')
    (members : ∀ id, id ∈ order ↔ LeadsTo w.requestedBy root id)
    (ended : ∀ id ∈ order, (w'.module id).status = .evaluated) (known : promise < w'.objects.size) :
    Past.Holds ⟨{x | x ∈ order}, {scope | ∃ x ∈ order, (w.module x).scope = scope}, promise⟩ w' where
  evaluated := ended
  waits id _ := (prepared.ready.furthers turns.furthers).waits id
  own id here := by
    rintro ⟨x, member, same⟩
    have known' := (prepared.linked x ((members x).mp member)).1
    rw [(turns.body_eq id).2] at same
    rwa [← prepared.apart x id known' (turns.furthers.size ▸ here) same]
  scopes := by
    rintro _ ⟨x, member, rfl⟩
    exact Nat.lt_of_lt_of_le (prepared.scope x (prepared.linked x ((members x).mp member)).1) turns.scopes_le
  promise := known

/-- What a CommonJS module has left in its turn is shared, and stays so. -/
theorem shared (prepared : w.IsPrepared root) (turns : w.RunsInTurn order w')
    (nodup : order.Nodup) (members : ∀ id, id ∈ order ↔ LeadsTo w.requestedBy root id)
    (kept : ∀ x, LeadsTo w.requestedBy root x → ∀ name binding,
      (w'.scope (w.module x).scope).bindings.lookup name = some binding → binding.isLasting →
        (w''.scope (w.module x).scope).bindings.lookup name = some binding)
    (member : id ∈ order) (body : (w.module id).body = .commonJs wrapper) :
    ∃ first rest before value called after, order = first ++ id :: rest ∧ w.RunsInTurn first before ∧
      callWrapper wrapper { before with executed := id :: before.executed } = .ok value called ∧
      ReturnsWith wrapper value called ∧ runModule id before = .ok ⟨⟩ after ∧
      (∀ more w', more ⊆ rest → after.RunsInTurn more w' → w.Shares root id value w') ∧
      w.Shares root id value w'' := by
  have leads := (members id).mp member
  have plain : (w.module id).IsPlain := fun unit code => nomatch body.symm.trans code
  obtain ⟨first, rest, before, after, rfl, turns₁, ran, turns₂⟩ := turns.exists_of_mem member
  have inside {x : Nat} (member : x ∈ first ∨ x ∈ id :: rest) : LeadsTo w.requestedBy root x :=
    (members x).mp (List.mem_append.mpr member)
  have new : id ∉ rest := (List.nodup_cons.mp (List.nodup_append.mp nodup).2.1).1
  obtain ⟨body', scope'⟩ := turns₁.body_eq id
  have own : (before.module id).scope < before.scopes.size := by
    rw [scope']
    exact Nat.lt_of_lt_of_le (prepared.scope id (prepared.linked id leads).1) turns₁.scopes_le
  obtain ⟨value, called, calls, bound⟩ := runModule_commonJs (body'.trans body) own ran
  rw [scope'] at bound
  have behind : w.RunsInTurn (first ++ [id]) after :=
    turns₁.append (.next (.refl before) ran (.done (.refl after)))
  -- No other module has the scope, so that nothing that runs in turn afterwards binds the name again.
  have stays {more : List Nat} {w' : World} (among : more ⊆ rest) (turns : after.RunsInTurn more w') :
      (w'.scope (w.module id).scope).bindings.lookup defaultBinding = some (.held (some value) .fixed) := by
    refine turns.lasting (fun x later own _ => ?_) bound rfl
    rw [(behind.body_eq x).2] at own
    have known := (prepared.linked x (inside (.inr (List.mem_cons_of_mem id (among later))))).1
    obtain rfl := prepared.apart id x (prepared.linked id leads).1 known own
    exact new (among later)
  have shares {more : List Nat} {w' w'' : World} (among : more ⊆ rest) (turns : after.RunsInTurn more w')
      (kept : ∀ x, LeadsTo w.requestedBy root x → ∀ name binding,
        (w'.scope (w.module x).scope).bindings.lookup name = some binding → binding.isLasting →
          (w''.scope (w.module x).scope).bindings.lookup name = some binding) :
      w.Shares root id value w'' := by
    refine prepared.shares leads plain (behind.append turns) (fun x later => ?_) kept (stays among turns)
    rcases List.mem_append.mp later with earlier | later
    · refine inside ((List.mem_append.mp earlier).imp_right fun last => ?_)
      exact List.mem_singleton.mp last ▸ List.mem_cons_self
    · exact inside (.inr (List.mem_cons_of_mem id (among later)))
  exact ⟨first, rest, before, value, called, after, rfl, turns₁, calls, callWrapper_ok calls, ran,
    fun more w' among turns => shares among turns fun _ _ _ _ found _ => found,
    shares (List.Subset.refl rest) turns₂ kept⟩

/-- An evaluation whose promise is not rejected has run all that its root leads to once, however much
happens afterwards. -/
theorem runsOnce (prepared : w.IsPrepared root) (done : evaluateModule root w = .ok promise w')
    (fine : ∀ reason, w'.promiseState? promise ≠ some (.rejected reason))
    (since : ∀ past : Past, past.Keeps w' w'') : ∃ order, w.RunsOnce root order w'' := by
  have linked := (prepared.linked root .refl).2
  obtain ⟨known, ⟨reason, rejected⟩ | ⟨order, turns, walk, ended⟩⟩ :=
    evaluateModule_ok prepared.ready linked prepared.fresh prepared.new done
  · exact absurd rejected (fine reason)
  have members (id : Nat) : id ∈ order ↔ LeadsTo w.requestedBy root id := walk.mem_iff
  have later := since _ (prepared.past_holds turns members ended known)
  obtain ⟨others, noted, new⟩ := later.executed
  refine ⟨order, walk.nodup.1, members, ⟨_, turns⟩, ⟨others, ?_, new⟩,
    fun id member other requested apart before leads => walk.precedes member requested apart leads,
    fun id member wrapper body => ?_⟩
  · rw [noted, turns.executed, List.append_assoc]
  · exact prepared.shared turns walk.nodup.1 members (fun x leads name binding =>
      later.lasting _ ⟨x, (members x).mpr leads, rfl⟩ name binding) member body

end IsPrepared

end World
end Isolate.Script
