import Isolate.Proofs.Worker.Loaders
import Isolate.Proofs.Worker.Referenced
import Mathlib.Algebra.BigOperators.Group.Finset.Basic
import Mathlib.Algebra.Order.BigOperators.Group.Finset
import Mathlib.Logic.Relation

/-!
# The graph of imports

The rules, the files and the root of a build decide which modules import which paths. A path is reached
if a chain of imports leads to it from the root. While a graph is loaded, every path with a record is
reached, and every import of such a path is left to be loaded or names a path with a record; when no load
is left, the paths with a record are all that are reached.
-/

namespace Isolate

/-- What decides which modules a build loads. -/
structure ImportGraph where
  rules : Rules
  content : Path → Except Store.Error Bytes
  root : Path
  /-- The key of the root is canonical. -/
  canonical : root.normalize = root
  /-- The specifiers that the root requests. -/
  requests : List Text.Units

namespace ImportGraph

variable {graph : ImportGraph} {p q : Path}

/-- The specifiers that the module at a path imports. A file that is no ES module imports nothing. -/
def imports (graph : ImportGraph) (path : Path) : List Text.Units :=
  if path = graph.root then graph.requests
  else
    match graph.rules.classify path, graph.content path with
    | some (.supported kind), .ok bytes => kind.requests bytes
    | _, _ => []

/-- The module at a path imports another path. -/
def Names (graph : ImportGraph) (p q : Path) : Prop :=
  ∃ specifier ∈ graph.imports p, p.resolve specifier.toString = some q

/-- A chain of imports leads from the root to a path. -/
def Reaches (graph : ImportGraph) (path : Path) : Prop :=
  Relation.ReflTransGen graph.Names graph.root path

@[simp] theorem imports_root (graph : ImportGraph) : graph.imports graph.root = graph.requests :=
  if_pos rfl

theorem imports_of_read {kind : Kind.Supported} {bytes : Bytes} (apart : p ≠ graph.root)
    (classified : graph.rules.classify p = some (.supported kind))
    (read : graph.content p = .ok bytes) : graph.imports p = kind.requests bytes := by
  rw [imports, if_neg apart, classified, read]

/-- Only the root and files that can be read import anything. -/
theorem readable_of_imports (some : graph.imports p ≠ []) (apart : p ≠ graph.root) :
    ∃ bytes, graph.content p = .ok bytes := by
  rw [imports, if_neg apart] at some
  split at some
  next bytes _ read => exact ⟨bytes, read⟩
  next => exact absurd rfl some

theorem Reaches.normalize_eq (h : graph.Reaches p) : p.normalize = p := by
  cases h with
  | refl => exact graph.canonical
  | tail _ names =>
    obtain ⟨_, _, target⟩ := names
    exact Path.normalize_of_resolve target

/-- What holds while a graph is loaded of the records, the paths that imports named, the paths that
were read, and the loads that are left. -/
structure Gathered (graph : ImportGraph) (records : List (Path × Nat)) (referenced reads : List Path)
    (left : List Load) : Prop where
  reached : ∀ p ∈ records.map Prod.fst, graph.Reaches p
  nodup : (records.map Prod.fst).Nodup
  /-- Every path but the root was read when its record was added. -/
  read : records.map Prod.fst = reads.reverse ++ [graph.root]
  /-- What is left is imported by a module that has a record. -/
  asked : ∀ load ∈ left, ∃ p m s, (p, m) ∈ records ∧ s ∈ graph.imports p ∧ load = .request 0 m s
  /-- An import of such a module that is not left names a path that has a record. -/
  done : ∀ p m, (p, m) ∈ records → ∀ s ∈ graph.imports p,
    .request 0 m s ∈ left ∨
      ∃ q, p.resolve s.toString = some q ∧ q ∈ records.map Prod.fst ∧ q ∈ referenced
  named : ∀ q ∈ referenced, ∃ p ∈ records.map Prod.fst, graph.Names p q

namespace Gathered

variable {records : List (Path × Nat)} {referenced reads : List Path} {left rest : List Load}
  {m : Nat} {s : Text.Units}

/-- In the beginning the root has a record, and all its imports are left. -/
theorem start (graph : ImportGraph) (m : Nat) :
    graph.Gathered [(graph.root, m)] [] [] (graph.requests.map (.request 0 m)) where
  reached p member := by
    rw [List.mem_singleton.mp member]
    exact .refl
  nodup := List.nodup_singleton _
  read := rfl
  asked load member := by
    obtain ⟨s, imported, rfl⟩ := List.mem_map.mp member
    exact ⟨graph.root, m, s, List.mem_singleton_self _, by rwa [imports_root], rfl⟩
  done p m' member s imported := by
    obtain ⟨rfl, rfl⟩ := Prod.mk.inj (List.mem_singleton.mp member)
    rw [imports_root] at imported
    exact .inl (List.mem_map_of_mem imported)
  named q member := nomatch member

theorem perm (h : graph.Gathered records referenced reads left) (same : left.Perm rest) :
    graph.Gathered records referenced reads rest :=
  { h with
    asked := fun load member => h.asked load (same.mem_iff.mpr member)
    done := fun p m here s imported => (h.done p m here s imported).imp_left same.mem_iff.mp }

theorem root_mem (h : graph.Gathered records referenced reads left) :
    graph.root ∈ records.map Prod.fst := by
  rw [h.read]
  exact List.mem_append_right _ (List.mem_singleton_self _)

/-- A path that an import names gets a record, and all its imports are left. -/
theorem add (h : graph.Gathered records referenced reads left) (here : p ∈ records.map Prod.fst)
    (names : graph.Names p q) (unknown : q ∉ records.map Prod.fst) (m : Nat) :
    graph.Gathered ((q, m) :: records) referenced (reads ++ [q])
      (left ++ (graph.imports q).map (.request 0 m)) where
  reached r member := by
    rcases List.mem_cons.mp member with rfl | member
    · exact (h.reached p here).tail names
    · exact h.reached r member
  nodup := List.nodup_cons.mpr ⟨unknown, h.nodup⟩
  read := by
    rw [List.map_cons, h.read, List.reverse_append]
    rfl
  asked load member := by
    rcases List.mem_append.mp member with member | member
    · obtain ⟨r, m', s, known, imported, same⟩ := h.asked load member
      exact ⟨r, m', s, List.mem_cons_of_mem _ known, imported, same⟩
    · obtain ⟨s, imported, rfl⟩ := List.mem_map.mp member
      exact ⟨q, m, s, List.mem_cons_self, imported, rfl⟩
  done r m' member s imported := by
    rcases List.mem_cons.mp member with same | member
    · obtain ⟨rfl, rfl⟩ := Prod.mk.inj same
      exact .inl (List.mem_append_right _ (List.mem_map_of_mem imported))
    · rcases h.done r m' member s imported with waits | ⟨t, target, known, named⟩
      · exact .inl (List.mem_append_left _ waits)
      · exact .inr ⟨t, target, List.mem_cons_of_mem _ known, named⟩
  named r member := by
    obtain ⟨t, known, names⟩ := h.named r member
    exact ⟨t, List.mem_cons_of_mem _ known, names⟩

/-- An import that names a path with a record is done. -/
theorem finish (h : graph.Gathered records referenced reads (.request 0 m s :: rest))
    (here : (p, m) ∈ records) (imported : s ∈ graph.imports p)
    (own : ∀ r, (r, m) ∈ records → s ∈ graph.imports r → r = p)
    (target : p.resolve s.toString = some q) (known : q ∈ records.map Prod.fst) :
    graph.Gathered records (q.insertSorted referenced) reads rest where
  reached := h.reached
  nodup := h.nodup
  read := h.read
  asked load member := h.asked load (List.mem_cons_of_mem _ member)
  done r m' member s' imported' := by
    have canonical : ∀ t ∈ referenced, t.normalize = t := fun t member => by
      obtain ⟨_, _, _, _, target⟩ := h.named t member
      exact Path.normalize_of_resolve target
    have mem_iff {t : Path} := @Path.mem_insertSorted q t referenced
      (Path.normalize_of_resolve target) canonical
    rcases h.done r m' member s' imported' with waits | ⟨t, target', known', named⟩
    · rcases List.mem_cons.mp waits with same | waits
      · obtain ⟨-, rfl, rfl⟩ := Load.request.inj same
        rw [own r member imported']
        exact .inr ⟨q, target, known, mem_iff.mpr (.inl rfl)⟩
      · exact .inl waits
    · exact .inr ⟨t, target', known', mem_iff.mpr (.inr named)⟩
  named r member := by
    rcases Path.mem_of_mem_insertSorted member with rfl | member
    · exact ⟨p, List.mem_map_of_mem here, s, imported, target⟩
    · exact h.named r member

theorem mem_iff_reaches (h : graph.Gathered records referenced reads []) :
    q ∈ records.map Prod.fst ↔ graph.Reaches q := by
  refine ⟨h.reached q, fun chain => ?_⟩
  induction chain with
  | refl => exact h.root_mem
  | tail _ names ih =>
    obtain ⟨⟨p, m⟩, member, rfl⟩ := List.mem_map.mp ih
    obtain ⟨s, imported, target⟩ := names
    rcases h.done p m member s imported with waits | ⟨q, target', known, _⟩
    · contradiction
    · rw [target, Option.some.injEq] at target'
      rwa [target']

theorem mem_referenced_iff (h : graph.Gathered records referenced reads []) :
    q ∈ referenced ↔ ∃ p ∈ records.map Prod.fst, graph.Names p q := by
  refine ⟨h.named q, fun ⟨p, known, s, imported, target⟩ => ?_⟩
  obtain ⟨⟨p, m⟩, member, rfl⟩ := List.mem_map.mp known
  rcases h.done p m member s imported with waits | ⟨q, target', _, named⟩
  · contradiction
  · rw [target, Option.some.injEq] at target'
    rwa [target']

theorem count_reads (h : graph.Gathered records referenced reads left) (q : Path) :
    reads.count q = if q ∈ records.map Prod.fst ∧ q ≠ graph.root then 1 else 0 := by
  have once := h.nodup
  rw [h.read, List.nodup_append] at once
  obtain ⟨once, _, apart⟩ := once
  have member : q ∈ reads ↔ q ∈ records.map Prod.fst ∧ q ≠ graph.root := by
    rw [h.read, List.mem_append, List.mem_reverse, List.mem_singleton]
    refine ⟨fun member => ⟨.inl member, ?_⟩, fun ⟨either, other⟩ => either.resolve_right other⟩
    exact apart q (List.mem_reverse.mpr member) graph.root (List.mem_singleton_self _)
  rw [(List.nodup_reverse.mp once).count]
  simp only [member]

end Gathered

/-- The number of imports of the paths of a set that have no record yet. -/
def remaining (graph : ImportGraph) (paths : Finset Path) (known : List Path) : Nat :=
  ∑ p ∈ paths with p ∉ known, (graph.imports p).length

/-- A set has all paths that are reached and import something. -/
def IsWithin (graph : ImportGraph) (paths : Finset Path) : Prop :=
  ∀ p, graph.Reaches p → graph.imports p ≠ [] → p ∈ paths

/-- If only so many of the paths that are reached can be read, only those and the root import
something. -/
theorem isWithin_of_readable {files : Finset Path}
    (readable : ∀ p bytes, graph.Reaches p → graph.content p = .ok bytes → p ∈ files) :
    graph.IsWithin (insert graph.root files) := by
  intro p reached some
  rw [Finset.mem_insert]
  by_cases root : p = graph.root
  · exact .inl root
  · obtain ⟨bytes, read⟩ := readable_of_imports some root
    exact .inr (readable p bytes reached read)

/-- Before anything has a record, all imports remain. -/
theorem remaining_nil (graph : ImportGraph) (paths : Finset Path) :
    graph.remaining paths [] = ∑ p ∈ paths, (graph.imports p).length := by
  simp [remaining]

/-- The imports of a path that gets a record remain no longer. -/
theorem remaining_cons {paths : Finset Path} {known : List Path} (within : graph.IsWithin paths)
    (reached : graph.Reaches q) (unknown : q ∉ known) :
    graph.remaining paths known = (graph.imports q).length + graph.remaining paths (q :: known) := by
  have fewer : ({p ∈ paths | p ∉ q :: known} : Finset Path) =
      ({p ∈ paths | p ∉ known}).erase q := by
    ext p
    simp only [Finset.mem_filter, Finset.mem_erase, List.mem_cons]
    tauto
  rw [remaining, remaining, fewer]
  by_cases imports : graph.imports q = []
  · rw [imports, List.length_nil, Nat.zero_add]
    exact (Finset.sum_erase _ (by rw [imports, List.length_nil])).symm
  · have member : q ∈ ({p ∈ paths | p ∉ known} : Finset Path) :=
      Finset.mem_filter.mpr ⟨within q reached imports, unknown⟩
    exact (Finset.add_sum_erase _ (fun p => (graph.imports p).length) member).symm

end ImportGraph
end Isolate
