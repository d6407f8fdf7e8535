import Mathlib.Data.Set.Insert
import Mathlib.Logic.Relation
import Mathlib.Tactic.Tauto

/-!
# Walks through a graph

A walk goes to a node only once, and only after it has been to all that the node leads to, as far as
cycles allow. The order in which it comes to the nodes of a graph is determined by the graph up to
what it has seen before.
-/

namespace Isolate

variable {α : Type} {next : α → List α} {seen : Set α} {todo order : List α} {x y z : α}

/-- A walk to some nodes, one after another, and the order in which it comes to those that were not seen
before it. -/
inductive Walk (next : α → List α) : (seen : Set α) → (todo order : List α) → Prop
  | done (seen : Set α) : Walk next seen [] []
  /-- A node that was seen is passed by. -/
  | pass {seen : Set α} {id : α} {todo order : List α} (known : id ∈ seen)
      (rest : Walk next seen todo order) : Walk next seen (id :: todo) order
  /-- Before a node comes all that it leads to and that was not seen. -/
  | enter {seen : Set α} {id : α} {todo below order : List α} (unknown : id ∉ seen)
      (inner : Walk next (insert id seen) (next id) below)
      (rest : Walk next (insert id seen ∪ {x | x ∈ below}) todo order) :
      Walk next seen (id :: todo) (below ++ id :: order)

/-- One node leads to another one along a chain. -/
abbrev LeadsTo (next : α → List α) : α → α → Prop := Relation.ReflTransGen fun x y => y ∈ next x

namespace Walk

theorem congr {seen' : Set α} (h : Walk next seen todo order) (same : ∀ x, x ∈ seen ↔ x ∈ seen') :
    Walk next seen' todo order := Set.ext same ▸ h

/-- One walk goes on where another one ends. -/
theorem append {todo' order' : List α} (first : Walk next seen todo order)
    (later : Walk next (seen ∪ {x | x ∈ order}) todo' order') :
    Walk next seen (todo ++ todo') (order ++ order') := by
  induction first with
  | done seen => exact later.congr fun x => by simp
  | pass known rest ih => exact .pass known (ih later)
  | enter unknown inner rest ihInner ihRest =>
    rw [List.append_assoc]
    refine .enter unknown inner (ihRest (later.congr fun x => ?_))
    simp only [Set.mem_union, Set.mem_ofPred_eq, Set.mem_insert_iff, List.mem_append, List.mem_cons]
    tauto

/-- A walk to one node that was not seen. -/
theorem single {id : α} (unknown : id ∉ seen) (inner : Walk next (insert id seen) (next id) order) :
    Walk next seen [id] (order ++ [id]) := .enter unknown inner (.done _)

/-- A walk comes to no node twice, and to none that was seen. -/
theorem nodup (h : Walk next seen todo order) : order.Nodup ∧ ∀ x ∈ order, x ∉ seen := by
  induction h with
  | done seen => exact ⟨List.nodup_nil, fun _ member => nomatch member⟩
  | pass known rest ih => exact ih
  | @enter seen id todo below order unknown inner rest ihInner ihRest =>
    obtain ⟨apart, new⟩ := ihInner
    obtain ⟨apart', new'⟩ := ihRest
    have first : id ∉ order := fun member => new' id member (.inl (Set.mem_insert id seen))
    refine ⟨List.nodup_append.mpr ⟨apart, List.nodup_cons.mpr ⟨first, apart'⟩, ?_⟩, ?_⟩
    · rintro x inside y outside rfl
      rcases List.mem_cons.mp outside with rfl | later
      · exact new _ inside (Set.mem_insert _ seen)
      · exact new' _ later (.inr inside)
    · intro x member old
      rcases List.mem_append.mp member with inside | outside
      · exact new x inside (Set.mem_insert_of_mem id old)
      · rcases List.mem_cons.mp outside with rfl | later
        · exact unknown old
        · exact new' x later (.inl (Set.mem_insert_of_mem id old))

/-- A walk comes to all that it was to go to. -/
theorem mem_of_todo (h : Walk next seen todo order) : ∀ x ∈ todo, x ∈ seen ∨ x ∈ order := by
  induction h with
  | done seen => exact fun _ member => nomatch member
  | pass known rest ih =>
    intro x member
    rcases List.mem_cons.mp member with rfl | later
    · exact .inl known
    · exact ih x later
  | @enter seen id todo below order unknown inner rest ihInner ihRest =>
    intro x member
    rcases List.mem_cons.mp member with rfl | later
    · exact .inr (List.mem_append_right _ List.mem_cons_self)
    · rcases ihRest x later with ((rfl | old) | inside) | after
      · exact .inr (List.mem_append_right _ List.mem_cons_self)
      · exact .inl old
      · exact .inr (List.mem_append_left _ inside)
      · exact .inr (List.mem_append_right _ (List.mem_cons_of_mem _ after))

/-- A walk comes to all that it leads to. -/
theorem closed (h : Walk next seen todo order) :
    ∀ x ∈ order, ∀ y ∈ next x, y ∈ seen ∨ y ∈ order := by
  induction h with
  | done seen => exact fun _ member => nomatch member
  | pass known rest ih => exact ih
  | @enter seen id todo below order unknown inner rest ihInner ihRest =>
    have spread {y : α} (found : y ∈ insert id seen ∨ y ∈ below) :
        y ∈ seen ∨ y ∈ below ++ id :: order := by
      rcases found with (rfl | old) | inside
      · exact .inr (List.mem_append_right _ List.mem_cons_self)
      · exact .inl old
      · exact .inr (List.mem_append_left _ inside)
    intro x member y leads
    rcases List.mem_append.mp member with inside | outside
    · exact spread (ihInner x inside y leads)
    · rcases List.mem_cons.mp outside with rfl | later
      · exact spread (inner.mem_of_todo y leads)
      · rcases ihRest x later y leads with (known | inside) | after
        · exact spread (.inl known)
        · exact spread (.inr inside)
        · exact .inr (List.mem_append_right _ (List.mem_cons_of_mem _ after))

/-- A walk comes only to what it was to go to and to what that leads to. -/
theorem led (h : Walk next seen todo order) : ∀ x ∈ order, ∃ t ∈ todo, LeadsTo next t x := by
  induction h with
  | done seen => exact fun _ member => nomatch member
  | pass known rest ih =>
    intro x member
    obtain ⟨t, first, leads⟩ := ih x member
    exact ⟨t, List.mem_cons_of_mem _ first, leads⟩
  | @enter seen id todo below order unknown inner rest ihInner ihRest =>
    intro x member
    rcases List.mem_append.mp member with inside | outside
    · obtain ⟨t, first, leads⟩ := ihInner x inside
      exact ⟨id, List.mem_cons_self, .head first leads⟩
    · rcases List.mem_cons.mp outside with rfl | later
      · exact ⟨x, List.mem_cons_self, .refl⟩
      · obtain ⟨t, first, leads⟩ := ihRest x later
        exact ⟨t, List.mem_cons_of_mem _ first, leads⟩

/-- What is led to directly and does not lead back comes first, with all that it leads to in turn.
Some of the nodes that were seen are done with: what they lead to was seen as well. The others lead
to all that the walk was to go to. -/
theorem precedes_of_done (h : Walk next seen todo order) {finished : Set α} (old : finished ⊆ seen)
    (ended : ∀ d ∈ finished, ∀ y ∈ next d, y ∈ seen)
    (opened : ∀ o ∈ seen, o ∉ finished → ∀ t ∈ todo, LeadsTo next o t) :
    ∀ x ∈ order, ∀ y ∈ next x, ¬LeadsTo next y x → ∀ z, LeadsTo next y z →
      z ∈ finished ∨ [z, x].Sublist order := by
  induction h generalizing finished with
  | done seen => exact fun _ member => nomatch member
  | pass known rest ih =>
    exact ih old ended fun o before unfinished t member =>
      opened o before unfinished t (List.mem_cons_of_mem _ member)
  | @enter seen id todo below order unknown inner rest ihInner ihRest =>
    have openedInner : ∀ o ∈ insert id seen, o ∉ finished → ∀ t ∈ next id, LeadsTo next o t := by
      rintro o (rfl | before) unfinished t member
      · exact .single member
      · exact (opened o before unfinished id List.mem_cons_self).tail member
    have inside := ihInner (fun d member => Set.mem_insert_of_mem id (old member))
      (fun d member y leads => Set.mem_insert_of_mem id (ended d member y leads)) openedInner
    -- Once the node is left, it is done with, and so is all that it has led to.
    have outside := @ihRest (insert id finished ∪ {x | x ∈ below})
      (Set.union_subset_union_left _ (Set.insert_subset_insert old))
      (by
        rintro d ((rfl | member) | member) y leads
        · exact inner.mem_of_todo y leads
        · exact .inl (Set.mem_insert_of_mem id (ended d member y leads))
        · exact inner.closed d member y leads)
      (by
        rintro o ((rfl | before) | before) unfinished t member
        · exact absurd (.inl (Set.mem_insert o finished)) unfinished
        · exact opened o before (fun done => unfinished (.inl (Set.mem_insert_of_mem id done))) t
            (List.mem_cons_of_mem _ member)
        · exact absurd (.inr before) unfinished)
    intro x member y leads back z chain
    rcases List.mem_append.mp member with first | outer
    · exact (inside x first y leads back z chain).imp_right fun precedes =>
        precedes.trans (List.sublist_append_left _ _)
    rcases List.mem_cons.mp outer with rfl | later
    · -- Nothing on the chain is open, as it would lead back.
      have settles {w : α} (found : w ∈ insert x seen ∨ w ∈ below) (forth : LeadsTo next y w) :
          w ∈ finished ∨ w ∈ below := by
        rcases found with (rfl | before) | first
        · exact absurd forth back
        · by_cases done : w ∈ finished
          · exact .inl done
          · exact absurd (forth.trans (opened w before done x List.mem_cons_self)) back
        · exact .inr first
      have along : z ∈ finished ∨ z ∈ below := by
        induction chain with
        | refl => exact settles (inner.mem_of_todo y leads) .refl
        | @tail v w forth step ih =>
          refine settles ?_ (forth.tail step)
          rcases ih with done | first
          · exact .inl (Set.mem_insert_of_mem x (ended v done w step))
          · exact inner.closed v first w step
      refine along.imp_right fun first => ?_
      exact (List.singleton_sublist.mpr first).append (List.singleton_sublist.mpr List.mem_cons_self)
    · rcases outside x later y leads back z chain with ((rfl | done) | first) | precedes
      · have after : [z, x].Sublist (z :: order) := .cons_cons z (List.singleton_sublist.mpr later)
        exact .inr (after.trans (List.sublist_append_right _ _))
      · exact .inl done
      · exact .inr ((List.singleton_sublist.mpr first).append
          (List.singleton_sublist.mpr (List.mem_cons_of_mem _ later)))
      · exact .inr ((precedes.cons _).trans (List.sublist_append_right _ _))

variable {root : α}

/-- A walk that begins with nothing seen comes to all that its root leads to. -/
theorem mem_iff (h : Walk next ∅ [root] order) : x ∈ order ↔ LeadsTo next root x := by
  constructor
  · intro member
    obtain ⟨t, first, leads⟩ := h.led x member
    rwa [List.mem_singleton.mp first] at leads
  · intro leads
    induction leads with
    | refl => exact (h.mem_of_todo root List.mem_cons_self).resolve_left id
    | tail _ step ih => exact (h.closed _ ih _ step).resolve_left id

/-- Such a walk comes to a node after all that lies behind what the node leads to directly, unless that
leads back. -/
theorem precedes (h : Walk next ∅ [root] order) (member : x ∈ order) (leads : y ∈ next x)
    (back : ¬LeadsTo next y x) (chain : LeadsTo next y z) : [z, x].Sublist order :=
  (h.precedes_of_done (Set.empty_subset _) (fun _ clash => clash.elim) (fun _ clash => clash.elim) x
    member y leads back z chain).resolve_left id

end Walk
end Isolate
