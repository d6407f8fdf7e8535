import Isolate.Proofs.Script.Assembly
import Isolate.Proofs.Script.Modules
import Isolate.Proofs.Script.Walk
import Mathlib.Data.Finset.Card

/-!
# What linking makes of a world

Linking a module walks through the modules that it leads to, binds their names, and notes that they are
linked. An import of the default export of a module without code of its own comes to stand for the one
binding that this module has.
-/

namespace Isolate.Script

variable {α β : Type} {base : World}

theorem adds_moduleSpace (fuel id : Nat) : Obeys base.Adds (moduleSpace fuel id) := by
  induction fuel generalizing id with
  | zero => exact .throw _
  | succ fuel ih =>
    refine .bind .get fun w => ?_
    split
    · exact .pure _
    · refine adds_allocate_bind fun space new =>
        .bind (fun _ => adds_modifyModule_at _ (fun m => ⟨m.loaded, some space, rfl⟩) fun _ old => old)
          fun _ => ?_
      refine .bind (.filterMapM _ fun name => ?_) fun exports =>
        .bind (adds_modifyObject new _) fun _ => .pure _
      split
      · exact .pure _
      · exact .bind (ih _) fun _ => .bind (adds_newScope _) fun _ => .pure _
      · exact .pure _

theorem adds_failLink (name : Text.Units) (result : ExportResult) :
    Obeys base.Adds (failLink name result : Action α) := by
  unfold failLink
  dsimp only
  split <;> exact adds_failWith _ _

theorem adds_importBinding (id : Nat) (entry : ImportEntry) :
    Obeys base.Adds (importBinding id entry) := by
  have whole (other : Nat) : Obeys base.Adds
      (do pure (.held (some (.object (← spaceOf other))) .constant) : Action Binding) :=
    .bind (.bind .get fun _ => adds_moduleSpace _ _) fun _ => .pure _
  refine .bind .get fun w => ?_
  dsimp only
  split
  · exact adds_failLink _ _
  · exact whole _
  · split
    · exact .pure _
    · exact whole _
    · exact adds_failLink _ _

/-- Binding the names of a module changes its own scope only. -/
theorem adds_bindModule {w : World} {id : Nat} (known : id < w.modules.size) :
    base.Adds w (left (bindModule id) w) := by
  intro assembled
  have new : base.scopes.size ≤ (w.module id).scope := by
    rw [World.module, Array.getD_eq_getD_getElem?, Array.getElem?_eq_getElem known]
    exact (assembled.scope id _ (Array.getElem?_eq_getElem known)).1
  refine Obeys.get_bind_at (R := base.Adds) ?_ assembled
  dsimp only
  split
  · refine .bind (.forM _ fun entry => ?_) fun _ => ?_
    · unfold checkExport
      split
      · refine .bind .get fun w => ?_
        split
        · exact .pure _
        · exact adds_failLink _ _
      · exact .pure _
    refine .bind (.forM _ fun entry => .bind (adds_importBinding _ _) fun _ =>
      adds_putBinding new _ _) fun _ => ?_
    refine .bind (.forM _ fun _ => adds_bind new _ _) fun _ => ?_
    refine .bind (.forM _ fun _ => adds_bind new _ _) fun _ => ?_
    exact .forM _ fun _ => .bind (.bind .get fun _ => .pure _) fun _ =>
      .bind (adds_newClosure _ _ _ _) fun _ => adds_bind new _ _
  · exact .pure _

theorem mem_of_lookup [BEq α] [LawfulBEq α] {key : α} {value : β} {entries : List (α × β)}
    (found : entries.lookup key = some value) : (key, value) ∈ entries := by
  induction entries with
  | nil => contradiction
  | cons entry rest ih =>
    obtain ⟨other, old⟩ := entry
    rw [List.lookup_cons] at found
    split at found
    next same =>
      rw [eq_of_beq same, Option.some.inj found]
      exact List.mem_cons_self
    next => exact List.mem_cons_of_mem _ (ih found)

/-- What a module requests is a module. -/
theorem World.Arranged.requested {w : World} (arranged : base.Arranged w) {id other : Nat}
    (member : other ∈ w.requestedBy id) : other < w.modules.size := by
  obtain ⟨specifier, _, found⟩ := List.mem_filterMap.mp member
  rw [World.requested?, World.module, Array.getD_eq_getD_getElem?] at found
  cases known : w.modules[id]? with
  | none =>
    rw [known] at found
    contradiction
  | some module =>
    rw [known] at found
    exact arranged.loaded id module known _ (mem_of_lookup found)

namespace World

variable {w : World}

def unseen (w : World) (seen : List Nat) : Finset Nat := {id ∈ Finset.range w.modules.size | id ∉ seen}

theorem unseen_mono {seen seen' : List Nat} (more : ∀ id ∈ seen, id ∈ seen') :
    (w.unseen seen').card ≤ (w.unseen seen).card := by
  refine Finset.card_le_card fun id member => ?_
  obtain ⟨known, unseen⟩ := Finset.mem_filter.mp member
  exact Finset.mem_filter.mpr ⟨known, fun seen => unseen (more id seen)⟩

theorem unseen_cons {seen : List Nat} {id : Nat} (known : id < w.modules.size) (new : id ∉ seen) :
    (w.unseen (id :: seen)).card < (w.unseen seen).card := by
  refine Finset.card_lt_card (Finset.ssubset_iff_of_subset ?_ |>.mpr ⟨id, ?_, ?_⟩)
  · intro other member
    obtain ⟨known, unseen⟩ := Finset.mem_filter.mp member
    exact Finset.mem_filter.mpr ⟨known, fun seen => unseen (List.mem_cons_of_mem id seen)⟩
  · exact Finset.mem_filter.mpr ⟨Finset.mem_range.mpr known, new⟩
  · exact fun member => (Finset.mem_filter.mp member).2 List.mem_cons_self

/-- Linking walks through the modules that are not linked, as long as it has fuel for each that it has not
seen. -/
theorem linkOrder_walk (inside : ∀ id, ∀ other ∈ w.requestedBy id, other < w.modules.size) (fuel : Nat)
    (order seen : List Nat) {id : Nat} (known : id < w.modules.size)
    (enough : (w.unseen seen).card ≤ fuel) :
    ∃ below seen', w.linkOrder fuel order seen id = (order ++ below, seen') ∧
      (∀ x, x ∈ seen' ↔ x ∈ seen ∨ x ∈ below) ∧
      Walk w.requestedBy {x | x ∈ seen ∨ (w.module x).status ≠ .unlinked} [id] below := by
  induction fuel generalizing order seen id with
  | zero =>
    have old : id ∈ seen := by
      by_contra new
      have first : id ∈ w.unseen seen := Finset.mem_filter.mpr ⟨Finset.mem_range.mpr known, new⟩
      have some : 0 < (w.unseen seen).card := Finset.card_pos.mpr ⟨id, first⟩
      omega
    exact ⟨[], seen, by rw [linkOrder, List.append_nil], fun x => by simp, .pass (.inl old) (.done _)⟩
  | succ fuel ih =>
    have each (todo : List Nat) (all : ∀ other ∈ todo, other < w.modules.size) (order seen : List Nat)
        (enough : (w.unseen seen).card ≤ fuel) :
        ∃ below seen', todo.foldl (fun found other => w.linkOrder fuel found.1 found.2 other)
            (order, seen) = (order ++ below, seen') ∧ (∀ x, x ∈ seen' ↔ x ∈ seen ∨ x ∈ below) ∧
          Walk w.requestedBy {x | x ∈ seen ∨ (w.module x).status ≠ .unlinked} todo below := by
      induction todo generalizing order seen with
      | nil => exact ⟨[], seen, by rw [List.foldl_nil, List.append_nil], fun x => by simp, .done _⟩
      | cons first todo ih' =>
        obtain ⟨below, seen', done, met, walk⟩ := ih order seen (all first List.mem_cons_self) enough
        have fewer := w.unseen_mono fun x member => (met x).mpr (.inl member)
        obtain ⟨rest, seen'', done', met', walk'⟩ := ih'
          (fun other member => all other (List.mem_cons_of_mem _ member)) (order ++ below) seen'
          (Nat.le_trans fewer enough)
        refine ⟨below ++ rest, seen'', ?_, fun x => ?_, ?_⟩
        · rw [List.foldl_cons]
          dsimp only
          rw [done, ← List.append_assoc]
          exact done'
        · rw [met', met, List.mem_append, or_assoc]
        · refine walk.append (walk'.congr fun x => ?_)
          simp only [Set.mem_union, Set.mem_ofPred_eq, met]
          tauto
    rw [linkOrder]
    split
    next old =>
      refine ⟨[], seen, by rw [List.append_nil], fun x => by simp, .pass ?_ (.done _)⟩
      simpa using old
    next new =>
      rw [Bool.or_eq_true, not_or, List.contains_iff_mem, decide_eq_true_eq, not_not] at new
      obtain ⟨new, unlinked⟩ := new
      have fewer := unseen_cons known new
      obtain ⟨below, seen', done, met, walk⟩ := each (w.requestedBy id) (inside id) order (id :: seen)
        (by omega)
      refine ⟨below ++ [id], seen', ?_, fun x => ?_, ?_⟩
      · rw [done]
        dsimp only
        rw [List.append_assoc]
      · rw [met, List.mem_cons, List.mem_append, List.mem_singleton]
        tauto
      · refine .single ?_ (walk.congr fun x => ?_)
        · rintro (old | linked)
          · exact new old
          · exact linked unlinked
        · simp only [List.mem_cons, Set.mem_ofPred_eq, Set.mem_insert_iff, or_assoc]

def linked (w : World) (id : Nat) : List Nat := (w.linkOrder (w.modules.size + 1) [] [] id).1

/-- Linking a module walks through those that are not linked. -/
theorem linked_walk (inside : ∀ id, ∀ other ∈ w.requestedBy id, other < w.modules.size) {id : Nat}
    (known : id < w.modules.size) :
    Walk w.requestedBy {x | (w.module x).status ≠ .unlinked} [id] (w.linked id) := by
  have enough : (w.unseen []).card ≤ w.modules.size + 1 := by
    refine Nat.le_trans (Finset.card_le_card (Finset.filter_subset _ _)) ?_
    rw [Finset.card_range]
    exact Nat.le_succ _
  obtain ⟨below, seen', done, _, walk⟩ := linkOrder_walk inside _ [] [] known enough
  rw [linked, done]
  exact walk.congr fun x => by simp

end World

theorem linkModule_eq (id : Nat) (w : World) :
    linkModule id w = (do
      (w.linked id).forM bindModule
      (w.linked id).forM fun id => modifyModule id fun m => { m with status := .linked }) w := rfl

/-- Binding the names of some modules adds to a world. -/
theorem adds_bindModules (order : List Nat) {w : World} (all : ∀ other ∈ order, other < w.modules.size) :
    base.Adds w (left (order.forM bindModule) w) := by
  intro assembled
  induction order generalizing w with
  | nil => exact Std.Refl.refl (r := base.Adds) w assembled
  | cons first order ih =>
    have bound : base.Adds w (left (bindModule first) w) :=
      adds_bindModule (all first List.mem_cons_self)
    refine Obeys.bind_from (R := base.Adds) bound (fun _ after done assembled' => ?_) assembled
    obtain ⟨_, retains⟩ := bound assembled
    rw [left_of_ok done] at retains
    exact ih (fun other member =>
      Nat.lt_of_lt_of_le (all other (List.mem_cons_of_mem _ member)) retains.size) assembled'

def World.Orders (base w w' : World) : Prop := base.Arranged w → base.Arranged w'

instance : IsPreorder World (World.Orders base) where
  refl _ := id
  trans _ _ _ first later := later ∘ first

theorem World.Arranged.forget {w : World} (arranged : base.Arranged w) (requests : List ImportRequest) :
    base.Arranged { w with requests } := { arranged with }

/-- Linking comes only to modules that are there. -/
theorem World.Arranged.linked_lt {w : World} (arranged : base.Arranged w) {id : Nat}
    (known : id < w.modules.size) : ∀ other ∈ w.linked id, other < w.modules.size := by
  intro other member
  obtain ⟨_, first, leads⟩ := (w.linked_walk (fun _ _ => arranged.requested) known).led other member
  obtain rfl := List.mem_singleton.mp first
  cases leads with
  | refl => exact known
  | tail _ step => exact arranged.requested step

/-- Linking a module leaves the modules in order. -/
theorem arranged_linkModule {w : World} {id : Nat} (known : id < w.modules.size)
    (assembled : base.Assembled w) : base.Arranged (left (linkModule id) w) := by
  have bound : base.Adds w (left ((w.linked id).forM bindModule) w) :=
    adds_bindModules (w.linked id) (assembled.linked_lt known)
  have binds : base.Orders w (left ((w.linked id).forM bindModule) w) := fun _ =>
    (bound assembled).1.toArranged
  have notes (id : Nat) : Obeys base.Orders (modifyModule id fun m => { m with status := .linked }) :=
    fun w arranged => arranged.modifyModule id (fun m => ⟨m.loaded, m.space, .linked, rfl⟩)
      fun _ old => old
  rw [left, linkModule_eq]
  exact Obeys.bind_at (R := base.Orders) binds (fun _ => .forM _ notes) assembled.toArranged

/-- Linking a module leaves the code of all modules as it is. -/
theorem retains_linkModule {w : World} {id : Nat} (known : id < w.modules.size)
    (assembled : base.Assembled w) : w.Retains (left (linkModule id) w) := by
  have bound : base.Adds w (left ((w.linked id).forM bindModule) w) :=
    adds_bindModules (w.linked id) (assembled.linked_lt known)
  rw [left, linkModule_eq]
  exact Obeys.bind_at (R := World.Retains) (bound assembled).2 fun _ =>
    .forM _ fun id w => .modifyModule w id fun _ => rfl

namespace World

/-- Modules change at most in the objects of their exports. -/
structure Exposes (w w' : World) : Prop where
  size : w'.modules.size = w.modules.size
  same (id : Nat) : ∃ space, w'.module id = { w.module id with space }
  scopes : w.scopes.size ≤ w'.scopes.size

variable {w w' w'' : World} {scope : ScopeId} {name : String}

theorem Exposes.of_modules (modules : w'.modules = w.modules) (scopes : w.scopes.size ≤ w'.scopes.size) :
    w.Exposes w' where
  size := by rw [modules]
  same id := ⟨(w.module id).space, by rw [World.module, modules]; rfl⟩
  scopes := scopes

theorem Exposes.trans (first : w.Exposes w') (later : w'.Exposes w'') : w.Exposes w'' where
  size := later.size.trans first.size
  same id := by
    obtain ⟨_, same⟩ := first.same id
    obtain ⟨space, same'⟩ := later.same id
    exact ⟨space, by rw [same', same]⟩
  scopes := Nat.le_trans first.scopes later.scopes

theorem Exposes.requested? (h : w.Exposes w') (id : Nat) (specifier : Text.Units) :
    w'.requested? id specifier = w.requested? id specifier := by
  obtain ⟨space, same⟩ := h.same id
  rw [World.requested?, World.requested?, same]

/-- What a name stands for depends on the scopes and the exports of modules, and on what they request. -/
theorem export?_congr (size : w'.modules.size = w.modules.size)
    (same : ∀ id, (w'.module id).scope = (w.module id).scope ∧ (w'.module id).exports = (w.module id).exports ∧
      (w'.module id).loaded = (w.module id).loaded) : w'.export? = w.export? := by
  have requested : w'.requested? = w.requested? := by
    funext id specifier
    rw [World.requested?, World.requested?, (same id).2.2]
  have resolved (fuel : Nat) : w'.resolveExport fuel = w.resolveExport fuel := by
    induction fuel with
    | zero => rfl
    | succ fuel ih =>
      funext seen id name
      obtain ⟨scope, exports, _⟩ := same id
      simp only [resolveExport, ih, requested, scope, exports]
  have depth : w'.exportDepth = w.exportDepth := by
    have lengths : w'.modules.map (·.exports.length) = w.modules.map (·.exports.length) := by
      refine Array.ext (by simp [size]) fun id known known' => ?_
      have here := (same id).2.1
      simp only [Array.size_map] at known known'
      simp only [World.module, Array.getD_eq_getD_getElem?, Array.getElem?_eq_getElem, known, known',
        Option.getD_some] at here
      simp [here]
    have total (modules : Array Module) : modules.foldl (fun total m => total + m.exports.length) 0 =
        (modules.map (·.exports.length)).foldl (· + ·) 0 := by rw [Array.foldl_map]
    rw [exportDepth, exportDepth, total, total, lengths, size]
  funext id name
  rw [export?, export?, depth, resolved]

theorem Exposes.export? (h : w.Exposes w') : w'.export? = w.export? :=
  export?_congr h.size fun id => by
    obtain ⟨_, same⟩ := h.same id
    rw [same]
    exact ⟨rfl, rfl, rfl⟩

instance : IsExportLaw Exposes where
  refl _ := .of_modules rfl (Nat.le_refl _)
  trans _ _ _ := .trans
  objects _ _ _ := .of_modules rfl (Nat.le_refl _)
  scopes _ _ kept := .of_modules rfl kept.size
  place _ _ _ _ := .of_modules rfl (Nat.le_refl _)
  jobs _ _ := .of_modules rfl (Nat.le_refl _)
  request _ _ _ _ := .of_modules rfl (Nat.le_refl _)
  record _ _ := .of_modules rfl (Nat.le_refl _)
  compile _ _ _ := .of_modules rfl (Nat.le_refl _)
  refuse _ _ _ := .of_modules rfl (Nat.le_refl _)
  change _ _ _ := .of_modules rfl (Nat.le_refl _)
  space w id space :=
    { size := size_modifyModule id _ w
      same := fun other => by
        have here := module_modifyModule id other (fun m => { m with space := some space }) w
        split at here
        · exact ⟨some space, here⟩
        · exact ⟨(w.module other).space, here⟩
      scopes := Nat.le_refl _ }

theorem exposes_bindModule (id : Nat) : Obeys Exposes (bindModule id) := fun _ =>
  bindModule_obeys obeys_spaceOf fun _ _ _ _ => .of_modules rfl (Nat.le_of_eq Array.size_modify.symm)

/-- What a name stands for in a scope stays if it lasts, while modules change at most in the objects of
their exports. -/
structure Sticks (scope : ScopeId) (name : String) (w w' : World) : Prop extends w.Exposes w' where
  lasting (binding : Binding) (found : (w.scope scope).bindings.lookup name = some binding)
    (lasts : binding.isLasting) : (w'.scope scope).bindings.lookup name = some binding

instance : IsExportLaw (Sticks scope name) where
  refl _ := ⟨.of_modules rfl (Nat.le_refl _), fun _ found _ => found⟩
  trans _ _ _ first later := ⟨first.trans later.toExposes, fun binding found lasts =>
    later.lasting binding (first.lasting binding found lasts) lasts⟩
  objects w objects kept := ⟨IsObjectLaw.objects w objects kept, fun _ found _ => found⟩
  scopes w scopes kept := ⟨IsCodeLaw.scopes w scopes kept, fun binding found lasts =>
    kept.lasting scope name binding found lasts⟩
  place w calls here running := ⟨IsCodeLaw.place w calls here running, fun _ found _ => found⟩
  jobs w jobs := ⟨IsCodeLaw.jobs w jobs, fun _ found _ => found⟩
  request w unit specifier result :=
    ⟨IsCodeLaw.request w unit specifier result, fun _ found _ => found⟩
  record w text := ⟨IsCodeLaw.record w text, fun _ found _ => found⟩
  compile w origin functions := ⟨IsCodeLaw.compile w origin functions, fun _ found _ => found⟩
  refuse w error forbidden := ⟨IsCodeLaw.refuse w error forbidden, fun _ found _ => found⟩
  change w objects kept := ⟨IsExportLaw.change w objects kept, fun _ found _ => found⟩
  space w id space := ⟨IsExportLaw.space w id space, fun _ found _ => found⟩

/-- Another name or scope gets a binding. -/
theorem sticks_putBinding {scope' : ScopeId} {name' : String} (apart : scope' = scope → name' ≠ name)
    (binding : Binding) : Obeys (Sticks scope name) (putBinding scope' name' binding) := by
  refine fun w => ⟨.of_modules rfl (Nat.le_of_eq Array.size_modify.symm), fun old found _ => ?_⟩
  change ((w.modifyScope scope' fun s =>
    { s with bindings := Scope.insert name' binding s.bindings }).scope scope).bindings.lookup name = _
  rw [scope_modifyScope]
  split
  next same =>
    rw [lookup_insert, if_neg fun equal => apart same.1 equal.symm]
    exact found
  next => exact found

/-- The default export of a module that has no other is the binding that it has for it. -/
theorem export?_default {id : Nat}
    (only : (w.module id).exports = [.own defaultExport defaultBinding]) :
    w.export? id defaultExport = .found (.binding (w.module id).scope defaultBinding) := by
  rw [export?, exportDepth, resolveExport]
  simp [only]

end World

section Imports

variable {w w' : World} {id other : Nat} {entry : ImportEntry} {name : Text.Units} {holder : ScopeId}
  {original : String}

/-- An import of a name that stands for a binding comes to stand for that binding. -/
theorem importBinding_of_export (found : w.requested? id entry.specifier = some other)
    (imported : entry.imported = .named name)
    (exported : w.export? other name = .found (.binding holder original)) :
    importBinding id entry w = .ok (.alias holder original) w := by
  have reads (rest : World → Action Binding) : (get >>= rest) w = rest w w := rfl
  rw [importBinding, reads]
  dsimp only
  rw [found, imported]
  dsimp only
  rw [exported]
  rfl

/-- The imports of a module are bound one after another: those before such an import and those behind it
have other names. -/
theorem lookup_of_bindImports {begun : World} {scope : ScopeId} {entries : List ImportEntry}
    (sticks : w.Sticks scope entry.localName begun)
    (done : entries.forM (bindImport id scope) begun = .ok ⟨⟩ w') (old : scope < w.scopes.size)
    (names : (entries.map ImportEntry.localName).Nodup) (member : entry ∈ entries)
    (found : w.requested? id entry.specifier = some other) (imported : entry.imported = .named name)
    (exported : w.export? other name = .found (.binding holder original)) :
    (w'.scope scope).bindings.lookup entry.localName = some (.alias holder original) := by
  induction entries generalizing begun with
  | nil => contradiction
  | cons first entries ih =>
    obtain ⟨new, apart⟩ := List.nodup_cons.mp names
    obtain ⟨_, middle, bound, goes⟩ := exists_of_bind done
    rcases List.mem_cons.mp member with rfl | later
    · have rest : Obeys (World.Sticks scope entry.localName) (entries.forM (bindImport id scope)) :=
        obeys_bindImports obeys_spaceOf _ _ _ fun later member _ => World.sticks_putBinding
          (fun _ same => new (List.mem_map.mpr ⟨later, member, same⟩)) _
      have kept : middle.Sticks scope entry.localName w' := left_of_ok goes ▸ rest middle
      have resolved := importBinding_of_export ((sticks.toExposes.requested? id entry.specifier).trans found)
        imported (by rw [sticks.toExposes.export?]; exact exported)
      obtain ⟨binding, _, resolved', put⟩ := exists_of_bind bound
      obtain ⟨rfl, rfl⟩ := EStateM.Result.ok.inj (resolved'.symm.trans resolved)
      obtain ⟨-, rfl⟩ := EStateM.Result.ok.inj put
      refine kept.lasting _ ?_ rfl
      rw [World.scope_modifyScope, if_pos ⟨rfl, Nat.lt_of_lt_of_le old sticks.scopes⟩,
        World.lookup_insert, if_pos rfl]
    · have differs : first.localName ≠ entry.localName := fun same =>
        new (same ▸ List.mem_map_of_mem later)
      have binds : Obeys (World.Sticks scope entry.localName) (bindImport id scope first) :=
        .bind (obeys_importBinding obeys_spaceOf _ _) fun binding =>
          World.sticks_putBinding (fun _ => differs) binding
      have kept : begun.Sticks scope entry.localName middle := left_of_ok bound ▸ binds begun
      exact ih (IsTrans.trans (r := World.Sticks scope entry.localName) _ _ _ sticks kept) goes apart
        later

/-- Binding the names of a module makes such imports stand for that binding. -/
theorem lookup_of_bindModule (done : bindModule id w = .ok ⟨⟩ w') (sound : (w.module id).IsSound)
    (old : (w.module id).scope < w.scopes.size) (member : entry ∈ (w.module id).imports)
    (found : w.requested? id entry.specifier = some other) (imported : entry.imported = .named name)
    (exported : w.export? other name = .found (.binding holder original)) :
    (w'.scope (w.module id).scope).bindings.lookup entry.localName = some (.alias holder original) := by
  have reads (rest : World → Action PUnit) : (get >>= rest) w = rest w w := rfl
  obtain ⟨unit, code⟩ : ∃ unit, (w.module id).body = .code unit := by
    by_contra plain
    rw [sound.imports fun unit code => plain ⟨unit, code⟩] at member
    contradiction
  rw [bindModule, reads] at done
  dsimp only at done
  rw [code] at done
  obtain ⟨_, w₁, checked, done⟩ := exists_of_bind done
  obtain ⟨_, w₂, bound, done⟩ := exists_of_bind done
  have checks : Obeys (World.Sticks (w.module id).scope entry.localName)
      ((w.module id).exports.forM (checkExport id)) := .forM _ fun _ => obeys_checkExport _ _
  have declares : Obeys (World.Sticks (w.module id).scope entry.localName) _ :=
    obeys_bindDeclared unit (w.module id).scope (((w.units[unit]?).bind (·.functions.back?)).getD {})
  have begun : w.Sticks (w.module id).scope entry.localName w₁ := left_of_ok checked ▸ checks w
  have kept : w₂.Sticks (w.module id).scope entry.localName w' := left_of_ok done ▸ declares w₂
  exact kept.lasting _
    (lookup_of_bindImports begun bound old sound.names member found imported exported) rfl

/-- Modules of other scopes leave what is bound. -/
theorem sticks_bindModules {w : World} {scope : ScopeId} {name : String} (order : List Nat)
    (apart : ∀ id ∈ order, (w.module id).scope ≠ scope) :
    w.Sticks scope name (left (order.forM bindModule) w) := by
  induction order generalizing w with
  | nil => exact Std.Refl.refl (r := World.Sticks scope name) w
  | cons first order ih =>
    have binds : w.Sticks scope name (left (bindModule first) w) :=
      bindModule_obeys obeys_spaceOf fun _ _ _ => World.sticks_putBinding
        (fun equal => absurd equal (apart first List.mem_cons_self)) _
    refine Obeys.bind_from binds fun _ after done => ih fun id member => ?_
    rw [left_of_ok done] at binds
    obtain ⟨space, same⟩ := binds.same id
    rw [same]
    exact apart id (List.mem_cons_of_mem _ member)

/-- Binding the names of some modules makes such imports of one of them stand for that binding, as the
others have other scopes. -/
theorem lookup_of_bindModules {order : List Nat} (done : order.forM bindModule w = .ok ⟨⟩ w')
    (first : id ∈ order) (nodup : order.Nodup)
    (apart : ∀ other ∈ order, other ≠ id → (w.module other).scope ≠ (w.module id).scope)
    (sound : (w.module id).IsSound) (old : (w.module id).scope < w.scopes.size)
    (member : entry ∈ (w.module id).imports) (found : w.requested? id entry.specifier = some other)
    (imported : entry.imported = .named name)
    (exported : w.export? other name = .found (.binding holder original)) :
    (w'.scope (w.module id).scope).bindings.lookup entry.localName = some (.alias holder original) := by
  obtain ⟨before, behind, rfl⟩ := List.append_of_mem first
  obtain ⟨_, inBehind, outside⟩ := List.nodup_append.mp nodup
  have split : (before ++ id :: behind).forM bindModule =
      (before.forM bindModule >>= fun _ => (id :: behind).forM bindModule) := List.forM_append
  rw [split] at done
  obtain ⟨_, w₁, bound₁, done⟩ := exists_of_bind done
  obtain ⟨_, w₂, bound₂, bound₃⟩ := exists_of_bind done
  have exposes₁ : w.Exposes w₁ := by
    have binds : Obeys World.Exposes (before.forM bindModule) := .forM _ World.exposes_bindModule
    exact left_of_ok bound₁ ▸ binds w
  have exposes₂ : w.Exposes w₂ := exposes₁.trans (left_of_ok bound₂ ▸ World.exposes_bindModule id w₁)
  obtain ⟨space, same⟩ := exposes₁.same id
  have resolved := lookup_of_bindModule bound₂ (by rw [same]; exact { sound with })
    (by rw [same]; exact Nat.lt_of_lt_of_le old exposes₁.scopes) (by rw [same]; exact member)
    ((exposes₁.requested? id entry.specifier).trans found) imported (by rw [exposes₁.export?]; exact exported)
  rw [same] at resolved
  have kept : w₂.Sticks (w.module id).scope entry.localName _ :=
    sticks_bindModules behind fun k later => by
      obtain ⟨space, same⟩ := exposes₂.same k
      rw [same]
      refine apart k (List.mem_append_right _ (List.mem_cons_of_mem _ later)) fun equal => ?_
      exact (List.nodup_cons.mp inBehind).1 (equal ▸ later)
  rw [left_of_ok bound₃] at kept
  exact kept.lasting _ resolved rfl

end Imports

/-- Noting that modules are linked changes nothing else. -/
theorem markLinked_eq (order : List Nat) (w : World) :
    ∃ modules, (order.forM fun id => modifyModule id fun m => { m with status := .linked }) w =
        .ok ⟨⟩ { w with modules } ∧ modules.size = w.modules.size ∧
      ∀ id, modules.getD id default =
        if id ∈ order ∧ id < w.modules.size then { w.module id with status := .linked }
        else w.module id := by
  induction order generalizing w with
  | nil => exact ⟨w.modules, rfl, rfl, fun id => by simp [World.module]⟩
  | cons first order ih =>
    obtain ⟨modules, done, size, found⟩ :=
      ih (left (modifyModule first fun m => { m with status := .linked }) w)
    refine ⟨modules, done, size.trans (size_modifyModule _ _ _), fun id => ?_⟩
    rw [found, size_modifyModule, module_modifyModule]
    by_cases later : id ∈ order <;> by_cases same : first = id <;> by_cases known : id < w.modules.size <;>
      simp [later, same, known, eq_comm]

namespace World

/-- All modules that a module leads to are linked, and what they import under a name is the binding
that the name stands for. -/
structure IsLinked (w : World) (root : Nat) : Prop where
  linked (id : Nat) (leads : LeadsTo w.requestedBy root id) :
    id < w.modules.size ∧ (w.module id).status = .linked
  joined (id other : Nat) (leads : LeadsTo w.requestedBy root id) (entry : ImportEntry)
    (member : entry ∈ (w.module id).imports) (found : w.requested? id entry.specifier = some other)
    (name : Text.Units) (imported : entry.imported = .named name) (holder : ScopeId) (original : String)
    (exported : w.export? other name = .found (.binding holder original)) :
    (w.scope (w.module id).scope).bindings.lookup entry.localName = some (.alias holder original)

section Modules

variable {w w' : World} (modules : w'.modules = w.modules)

include modules

theorem requested?_of_modules : w'.requested? = w.requested? := by
  funext id specifier
  rw [requested?, requested?, module, module, modules]

theorem requestedBy_of_modules : w'.requestedBy = w.requestedBy := by
  funext id
  rw [requestedBy, requestedBy, requested?_of_modules modules, module, module, modules]

theorem export?_of_modules : w'.export? = w.export? :=
  export?_congr (by rw [modules]) fun id => by
    rw [module, modules]
    exact ⟨rfl, rfl, rfl⟩

/-- Whether modules are linked can be seen from the modules and the scopes. -/
theorem IsLinked.of_modules {root : Nat} (h : w.IsLinked root) (scopes : w'.scopes = w.scopes) :
    w'.IsLinked root := by
  have same (id : Nat) : w'.module id = w.module id := by rw [module, modules]; rfl
  refine ⟨fun id leads => ?_, fun id other leads entry member found name imported holder original exported => ?_⟩
  · rw [requestedBy_of_modules modules] at leads
    rw [same, modules]
    exact h.linked id leads
  · rw [requestedBy_of_modules modules] at leads
    rw [requested?_of_modules modules] at found
    rw [export?_of_modules modules] at exported
    rw [same] at member ⊢
    rw [scope, scopes]
    exact h.joined id other leads entry member found name imported holder original exported

end Modules

theorem Assembled.unlinked_module {w : World} (assembled : base.Assembled w) (id : Nat) :
    (w.module id).status = .unlinked := by
  by_contra come
  exact come (assembled.unlinked id _ (getElem?_module (lt_of_status come)))

end World

/-- Linking a module links all that it leads to. -/
theorem isLinked_linkModule {w w' : World} {root : Nat} (assembled : base.Assembled w)
    (known : root < w.modules.size) (done : linkModule root w = .ok ⟨⟩ w') :
    w'.IsLinked root ∧ w'.requestedBy = w.requestedBy ∧
      ∀ id, ∃ space status, w'.module id = { w.module id with space, status } ∧
        (status = .unlinked ∨ status = .linked) := by
  have all := assembled.linked_lt known
  have walk : Walk w.requestedBy ∅ [root] (w.linked root) :=
    (w.linked_walk (fun _ _ => assembled.requested) known).congr fun id => by
      simp [assembled.unlinked_module id]
  rw [linkModule_eq] at done
  obtain ⟨_, w₁, bound, marked⟩ := exists_of_bind done
  obtain ⟨modules, marks, size, found⟩ := markLinked_eq (w.linked root) w₁
  obtain ⟨-, rfl⟩ := EStateM.Result.ok.inj (marked.symm.trans marks)
  have binds : Obeys World.Exposes ((w.linked root).forM bindModule) := .forM _ World.exposes_bindModule
  have exposes : w.Exposes w₁ := left_of_ok bound ▸ binds w
  have same (id : Nat) : ∃ space status, World.module { w₁ with modules } id =
      { w.module id with space, status } ∧ (status = .unlinked ∨ status = .linked) := by
    obtain ⟨space, same⟩ := exposes.same id
    rw [World.module, found, same]
    split
    · exact ⟨space, .linked, rfl, .inr rfl⟩
    · exact ⟨space, _, rfl, .inl (assembled.unlinked_module id)⟩
  have requested (id : Nat) (specifier : Text.Units) :
      World.requested? { w₁ with modules } id specifier = w.requested? id specifier := by
    obtain ⟨_, _, same, _⟩ := same id
    rw [World.requested?, World.requested?, same]
  have requests : World.requestedBy { w₁ with modules } = w.requestedBy := by
    funext id
    obtain ⟨_, _, same, _⟩ := same id
    rw [World.requestedBy, World.requestedBy, same]
    exact List.filterMap_congr fun specifier _ => requested id specifier
  have resolved : World.export? { w₁ with modules } = w.export? :=
    World.export?_congr (size.trans exposes.size) fun id => by
      obtain ⟨_, _, same, _⟩ := same id
      rw [same]
      exact ⟨rfl, rfl, rfl⟩
  refine ⟨⟨fun id leads => ?_,
    fun id other leads entry member known' name imported holder original exported => ?_⟩,
    requests, same⟩
  · rw [requests] at leads
    have member := walk.mem_iff.mpr leads
    have here : id < w₁.modules.size := exposes.size ▸ all id member
    refine ⟨Nat.lt_of_lt_of_eq here size.symm, ?_⟩
    rw [World.module, found, if_pos ⟨member, here⟩]
  · rw [requests] at leads
    rw [requested] at known'
    rw [resolved] at exported
    obtain ⟨_, _, same, _⟩ := same id
    rw [same] at member ⊢
    have inside := walk.mem_iff.mpr leads
    have old := all id inside
    have resolved := lookup_of_bindModules bound inside walk.nodup.1
      (fun k later differs equal => differs (assembled.apart k id _ _ (World.getElem?_module (all k later))
        (World.getElem?_module old) equal))
      (assembled.sound id _ (World.getElem?_module old)) (assembled.scope id _ (World.getElem?_module old)).2
      member known' imported exported
    exact resolved

end Isolate.Script
