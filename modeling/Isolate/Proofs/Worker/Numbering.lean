import Isolate.Proofs.Script.Linking
import Isolate.Proofs.Worker.Rounds
import Mathlib.Logic.ExistsUnique

/-!
# One module for each path

When a graph is loaded, every path that is reached has one module, whichever specifiers have named
the path and however many modules import it, and no other path has this module. The modules request
each other as the paths import each other.
-/

namespace Isolate

open Script

/-- Among canonical paths that have one record each, a path finds its record. -/
theorem Session.record?_of_mem {ρ : Type} {session : Session ρ} {p : Path} {record : ρ}
    (all : ∀ q ∈ session.records.map Prod.fst, q.normalize = q)
    (nodup : (session.records.map Prod.fst).Nodup) (member : (p, record) ∈ session.records) :
    session.record? p = some record := by
  cases found : session.record? p with
  | none => exact absurd (List.mem_map_of_mem member) (notMem_of_record? found)
  | some other =>
    have canonical := all p (List.mem_map_of_mem member)
    have here := mem_of_record? all canonical found
    rw [(Prod.mk.inj (List.inj_on_of_nodup_map nodup here member rfl)).2]

namespace ImportGraph

/-- The modules that a root leads to are those of the paths that a graph reaches: each path has its
own, and they request each other as the paths import each other. -/
structure Numbers (graph : ImportGraph) (session : Session Nat) (w : World) (root : Nat) : Prop where
  first : session.record? graph.root = some root
  reached (p : Path) (reaches : graph.Reaches p) :
    ∃ id, session.record? p = some id ∧ LeadsTo w.requestedBy root id
  own (id : Nat) (leads : LeadsTo w.requestedBy root id) :
    ∃! p, graph.Reaches p ∧ session.record? p = some id
  requests (p : Path) (id : Nat) (reaches : graph.Reaches p) (known : session.record? p = some id)
    (other : Nat) : other ∈ w.requestedBy id ↔ ∃ q, graph.Names p q ∧ session.record? q = some other

theorem Numbers.congr {graph : ImportGraph} {session next : Session Nat} {w w' : World} {root : Nat}
    (h : graph.Numbers session w root) (records : next.record? = session.record?)
    (requests : w'.requestedBy = w.requestedBy) : graph.Numbers next w' root := by
  obtain ⟨first, reached, own, made⟩ := h
  rw [← records] at first reached own made
  rw [← requests] at reached own made
  exact ⟨first, reached, own, made⟩

end ImportGraph

namespace Worker

variable {σ : Type} {graph : ImportGraph} {worker : Worker (Store.Watched σ)} {session : Session Nat}
  {referenced reads : List Path} {root : Nat}

/-- What a module of a loaded graph requests are the modules of the paths that its own path imports. -/
theorem Joins.mem_requestedBy (joins : worker.Joins graph session [])
    (gathered : graph.Gathered session.records referenced reads [])
    (serves : ∀ p m, (p, m) ∈ session.records → worker.world.Serves m p (graph.imports p)) {p : Path}
    {id : Nat} (here : (p, id) ∈ session.records) (other : Nat) :
    other ∈ worker.world.requestedBy id ↔ ∃ q, graph.Names p q ∧ (q, other) ∈ session.records := by
  rw [World.requestedBy, List.mem_filterMap, (serves p id here).made]
  constructor
  · rintro ⟨s, imported, found⟩
    obtain ⟨q, target, member⟩ := joins.linked p id here s other found
    exact ⟨q, ⟨s, imported, target⟩, member⟩
  · rintro ⟨q, ⟨s, imported, target⟩, member⟩
    obtain ⟨n, found⟩ := Option.isSome_iff_exists.mp
      ((joins.answered p id here s imported).resolve_left List.not_mem_nil)
    obtain ⟨q', target', member'⟩ := joins.linked p id here s n found
    obtain rfl := Option.some.inj (target.symm.trans target')
    obtain rfl := (Prod.mk.inj (List.inj_on_of_nodup_map gathered.nodup member member' rfl)).2
    exact ⟨s, imported, found⟩

/-- A graph that is loaded numbers its paths. -/
theorem Joins.numbers (joins : worker.Joins graph session [])
    (gathered : graph.Gathered session.records referenced reads [])
    (serves : ∀ p m, (p, m) ∈ session.records → worker.world.Serves m p (graph.imports p))
    (single : (session.records.map Prod.snd).Nodup) (first : session.record? graph.root = some root) :
    graph.Numbers session worker.world root := by
  have canonical : ∀ p ∈ session.records.map Prod.fst, p.normalize = p :=
    fun p member => (gathered.reached p member).normalize_eq
  have known {p : Path} {id : Nat} (member : (p, id) ∈ session.records) : session.record? p = some id :=
    Session.record?_of_mem canonical gathered.nodup member
  have member {p : Path} {id : Nat} (reaches : graph.Reaches p) (known : session.record? p = some id) :
      (p, id) ∈ session.records := Session.mem_of_record? canonical reaches.normalize_eq known
  have start : (graph.root, root) ∈ session.records := member .refl first
  refine ⟨first, fun p reaches => ?_, fun id leads => ?_, fun p id reaches found other => ?_⟩
  · induction reaches with
    | refl => exact ⟨root, first, .refl⟩
    | @tail p q reaches names ih =>
      obtain ⟨id, found, leads⟩ := ih
      have next := gathered.mem_iff_reaches.mpr (Relation.ReflTransGen.tail reaches names)
      obtain ⟨⟨_, other⟩, there, rfl⟩ := List.mem_map.mp next
      exact ⟨other, known there, leads.tail
        ((joins.mem_requestedBy gathered serves (member reaches found) other).mpr ⟨_, names, there⟩)⟩
  · obtain ⟨p, here⟩ : ∃ p, (p, id) ∈ session.records := by
      induction leads with
      | refl => exact ⟨graph.root, start⟩
      | tail _ step ih =>
        obtain ⟨p, here⟩ := ih
        obtain ⟨q, _, there⟩ := (joins.mem_requestedBy gathered serves here _).mp step
        exact ⟨q, there⟩
    refine ⟨p, ⟨gathered.reached p (List.mem_map_of_mem here), known here⟩, fun q ⟨reaches, found⟩ => ?_⟩
    exact (Prod.mk.inj (List.inj_on_of_nodup_map single (member reaches found) here rfl)).1
  · rw [joins.mem_requestedBy gathered serves (member reaches found)]
    refine exists_congr fun q => and_congr_right fun names => ⟨known, fun there => ?_⟩
    exact member (reaches.tail names) there

end Worker
end Isolate
