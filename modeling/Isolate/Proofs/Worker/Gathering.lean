import Isolate.Proofs.Worker.Graphs
import Isolate.Proofs.Worker.ImportGraph

/-!
# Gathering the modules of a graph

While a graph of imports is loaded, every path with a record has a module that requests what is imported
at the path, and whose requests were made. A load of such a request fails, or comes to a module that is
there already, or adds the module of a new path and makes its requests.
-/

namespace Isolate

open Script

namespace Session

variable {ρ : Type} {session : Session ρ} {p : Path} {record : ρ}

/-- Among canonical paths a record is found under the path that it was registered for. -/
theorem mem_of_record? (all : ∀ q ∈ session.records.map Prod.fst, q.normalize = q)
    (canonical : p.normalize = p) (found : session.record? p = some record) :
    (p, record) ∈ session.records := by
  obtain ⟨⟨q, _⟩, here, rfl⟩ := Option.map_eq_some_iff.mp found
  have member := List.mem_of_find?_eq_some here
  have same : q.same p := by simpa using List.find?_some here
  rwa [← Path.eq_of_same (all q (List.mem_map_of_mem member)) canonical same]

theorem notMem_of_record? (unknown : session.record? p = none) :
    p ∉ session.records.map Prod.fst := by
  intro member
  obtain ⟨⟨_, _⟩, here, rfl⟩ := List.mem_map.mp member
  rw [record?, Option.map_eq_none_iff, List.find?_eq_none] at unknown
  exact unknown _ here Path.same_self

/-- The session once a path that an import named is loaded and accepted. -/
def adopt (session : Session ρ) (path : Path) (kind : Kind.Supported) (record : ρ) : Session ρ :=
  (((session.refer path).beginLoad path).endLoad path).accept path kind record

@[simp] theorem rules_adopt (kind : Kind.Supported) :
    (session.adopt p kind record).rules = session.rules := by
  rw [adopt, accept]
  split <;> rfl

@[simp] theorem referenced_adopt (kind : Kind.Supported) :
    (session.adopt p kind record).referenced = p.insertSorted session.referenced := by
  rw [adopt, accept]
  split <;> rfl

/-- What is accepted for a path without a record is added to the records. -/
theorem records_adopt (unknown : session.record? p = none) (kind : Kind.Supported) :
    (session.adopt p kind record).records = (p, record) :: session.records := by
  have kept : session.records.filter (!·.1.same p) = session.records := by
    rw [record?, Option.map_eq_none_iff, List.find?_eq_none] at unknown
    exact List.filter_eq_self.mpr fun entry member => by simpa using unknown entry member
  have registered : (session.register p record).records = (p, record) :: session.records :=
    congrArg _ kept
  rw [adopt, accept]
  split <;> exact registered

end Session

namespace Script.World

variable {w w' : World} {m id : Nat} {p : Path} {requests : List Text.Units}

/-- A module stands for a path: it makes certain requests, from that path. -/
structure Serves (w : World) (m : Nat) (p : Path) (requests : List Text.Units) : Prop where
  size : m < w.modules.size
  made : (w.module m).requests = requests
  status : (w.module m).status = .unlinked
  referrer : requests ≠ [] → ∃ (unit : Nat) (code : CodeUnit), (w.module m).body = .code unit ∧
    w.units[unit]? = some code ∧ code.referrer = .file p

/-- A module that was there stays as it is while others are added. -/
theorem Grows.module_eq {added : List Module} (grown : w.Grows w' added) (old : m < w.modules.size) :
    w'.module m = w.module m := by
  rw [World.module, World.module, grown.modules, Array.getD_eq_getD_getElem?,
    Array.getD_eq_getD_getElem?, Array.getElem?_append_left old]

theorem Serves.grows {added : List Module} (h : w.Serves m p requests) (grown : w.Grows w' added) :
    w'.Serves m p requests := by
  have same := grown.module_eq h.size
  refine ⟨?_, by rw [same, h.made], by rw [same, h.status], fun some => ?_⟩
  · rw [grown.modules, Array.size_append]
    exact Nat.lt_add_right _ h.size
  · obtain ⟨unit, code, body, known, referrer⟩ := h.referrer some
    exact ⟨unit, code, by rw [same, body], grown.units unit code known, referrer⟩

theorem Serves.settles {state : PromiseState} (h : w.Serves m p requests)
    (settles : w.Settles w' id state) : w'.Serves m p requests := by
  obtain ⟨size, made, status, referrer⟩ := h
  have same : w'.module m = w.module m := by rw [World.module, World.module, settles.modules]
  exact ⟨by rw [settles.modules]; exact size, by rw [same, made], by rw [same, status],
    by rw [same, settles.units]; exact referrer⟩

/-- A module that makes requests stands for one path only. -/
theorem Serves.eq {q : Path} {requests' : List Text.Units} (h : w.Serves m p requests)
    (h' : w.Serves m q requests') (some : requests ≠ []) (some' : requests' ≠ []) : q = p := by
  obtain ⟨unit, code, body, known, referrer⟩ := h.referrer some
  obtain ⟨unit', code', body', known', referrer'⟩ := h'.referrer some'
  obtain rfl := ModuleBody.code.inj (body.symm.trans body')
  obtain rfl := Option.some.inj (known.symm.trans known')
  exact Origin.file.inj (referrer'.symm.trans referrer)

/-- A module that is added is the one behind those that were there. -/
theorem Grows.module_added {module : Module} (grown : w.Grows w' [module]) :
    w.modules.size < w'.modules.size ∧ w'.module w.modules.size = module := by
  refine ⟨by simp [grown.modules], ?_⟩
  rw [World.module, grown.modules, Array.getD_eq_getD_getElem?]
  simp

/-- A new module stands for the path that it was read from. -/
theorem HasNew.serves {module : Module} (new : w'.HasNew module (.file p) requests)
    (grown : w.Grows w' [module]) :
    w'.Serves w.modules.size p requests ∧ w'.module w.modules.size = module := by
  obtain ⟨size, here⟩ := grown.module_added
  refine ⟨⟨size, by rw [here, new.requests], by rw [here, new.status], fun some => ?_⟩, here⟩
  obtain ⟨unit, code, body, known, referrer⟩ := new.referrer (by rwa [new.requests])
  exact ⟨unit, code, by rw [here, body], known, referrer⟩

end Script.World

namespace Worker

variable {σ : Type} {worker : Worker σ}

/-- Linking a module changes only what its own specifiers stand for. -/
theorem module_link (worker : Worker σ) (module : Nat) (specifier : Text.Units) (record m : Nat) :
    ∃ loaded, (worker.link module specifier record).world.module m =
        { worker.world.module m with loaded } ∧
      (module ≠ m → loaded = (worker.world.module m).loaded) := by
  have here : (worker.link module specifier record).world.module m =
      (if module = m then worker.world.modules[m]?.map fun found =>
        { found with loaded := found.loaded ++ [(specifier, record)] }
      else worker.world.modules[m]?).getD default := by
    rw [World.module, link, Array.getD_eq_getD_getElem?, Array.getElem?_modify]
  have before : worker.world.module m = worker.world.modules[m]?.getD default := by
    rw [World.module, Array.getD_eq_getD_getElem?]
  rw [here, before]
  by_cases same : module = m
  · cases worker.world.modules[m]? with
    | none => exact ⟨_, by rw [if_pos same]; rfl, fun apart => absurd same apart⟩
    | some found => exact ⟨_, by rw [if_pos same]; rfl, fun apart => absurd same apart⟩
  · exact ⟨_, by rw [if_neg same], fun _ => rfl⟩

theorem serves_link {m : Nat} {p : Path} {requests : List Text.Units}
    (h : worker.world.Serves m p requests) (module : Nat) (specifier : Text.Units) (record : Nat) :
    (worker.link module specifier record).world.Serves m p requests := by
  obtain ⟨size, made, status, referrer⟩ := h
  obtain ⟨loaded, same, _⟩ := worker.module_link module specifier record m
  have kept : (worker.link module specifier record).world.modules.size = worker.world.modules.size :=
    Array.size_modify
  exact ⟨by rw [kept]; exact size, by rw [same]; exact made, by rw [same]; exact status,
    by rw [same]; exact referrer⟩

variable [Store.Source σ] {graph : ImportGraph} {worker after : Worker (Store.Watched σ)}
  {session : Session Nat} {visited : List Nat} {left rest : List Load} {g : GraphLoad}

/-- Every path with a record has its module, whose requests were made, and the loads that are left are
those that the graph asks for. -/
structure Gathers (graph : ImportGraph) (worker : Worker (Store.Watched σ)) (session : Session Nat)
    (visited : List Nat) (left : List Load) : Prop where
  here : worker.session = some session
  rules : session.rules = graph.rules
  holds : Store.Holds worker.store.store graph.content
  gathered : graph.Gathered session.records session.referenced (worker.store.reads.map Prod.fst) left
  serves : ∀ p m, (p, m) ∈ session.records → worker.world.Serves m p (graph.imports p)
  met : ∀ p m, (p, m) ∈ session.records → graph.imports p ≠ [] → m ∈ visited
  old : ∀ m ∈ visited, m < worker.world.modules.size
  /-- No two paths have one module. -/
  single : (session.records.map Prod.snd).Nodup

namespace Gathers

/-- Gathering does not depend on what else happens in a world. -/
theorem of_eq (h : worker.Gathers graph session visited left)
    (same : after.session = worker.session) (store : after.store = worker.store)
    (serves : ∀ m p requests, worker.world.Serves m p requests → after.world.Serves m p requests)
    (size : worker.world.modules.size ≤ after.world.modules.size) :
    after.Gathers graph session visited left where
  here := same.trans h.here
  rules := h.rules
  holds := by rw [store]; exact h.holds
  gathered := by rw [store]; exact h.gathered
  serves p m member := serves m p _ (h.serves p m member)
  met := h.met
  old m member := Nat.lt_of_lt_of_le (h.old m member) size
  single := h.single

/-- A module that imports something was gathered for one path. -/
theorem own {p : Path} {m : Nat} {s : Text.Units} (h : worker.Gathers graph session visited left)
    (here : (p, m) ∈ session.records) (imported : s ∈ graph.imports p) (r : Path)
    (there : (r, m) ∈ session.records) : r = p := by
  have some := List.ne_nil_of_mem imported
  refine (h.serves p m here).eq (h.serves r m there) some fun none => some ?_
  rw [← (h.serves p m here).made, (h.serves r m there).made, none]

theorem perm (h : worker.Gathers graph session visited left) (same : left.Perm rest) :
    worker.Gathers graph session visited rest :=
  { h with gathered := h.gathered.perm same }

theorem link (h : worker.Gathers graph session visited left) (module : Nat)
    (specifier : Text.Units) (record : Nat) :
    (worker.link module specifier record).Gathers graph session visited left :=
  h.of_eq rfl rfl (fun _ _ _ serves => serves_link serves module specifier record)
    (Nat.le_of_eq Array.size_modify.symm)

/-- The module of a path that an import named is gathered. Its requests are left, so that it counts as
visited if it makes any. -/
theorem load {p q : Path} {m : Nat} {s : Text.Units} {kind : Kind.Supported} {module : Module}
    (h : worker.Gathers graph session visited (.request 0 m s :: rest))
    (here : (p, m) ∈ session.records) (imported : s ∈ graph.imports p) (target : p.resolve s.toString = some q)
    (unknown : session.record? q = none) (keeps : worker.Keeps after [module])
    (serves : after.world.Serves worker.world.modules.size q (graph.imports q))
    (left : after.session = some (session.adopt q kind worker.world.modules.size))
    (holds : Store.Holds after.store.store graph.content)
    (reads : after.store.reads = worker.store.reads ++ [(q, true)]) (visited' : List Nat)
    (more : ∀ m ∈ visited, m ∈ visited')
    (made : graph.imports q ≠ [] → worker.world.modules.size ∈ visited')
    (old : ∀ m ∈ visited', m ≤ worker.world.modules.size) :
    after.Gathers graph (session.adopt q kind worker.world.modules.size) visited'
      (rest ++ (graph.imports q).map (.request 0 worker.world.modules.size)) := by
  have older (r : Path) (m : Nat) (known : (r, m) ∈ session.records) : m < worker.world.modules.size :=
    (h.serves r m known).size
  generalize worker.world.modules.size = n at *
  have records := @Session.records_adopt _ session q n unknown kind
  have all : ∀ r m, (r, m) ∈ (q, n) :: session.records →
      after.world.Serves m r (graph.imports r) := by
    intro r m member
    rcases List.mem_cons.mp member with same | member
    · obtain ⟨rfl, rfl⟩ := Prod.mk.inj same
      exact serves
    · exact (h.serves r m member).grows keeps.world
  have added := h.gathered.add (List.mem_map_of_mem here) ⟨s, imported, target⟩
    (Session.notMem_of_record? unknown) n
  refine
    { here := left, rules := (Session.rules_adopt kind).trans h.rules, holds, serves := ?_
      gathered := ?_, met := fun r m member some => ?_, old := fun m member => ?_, single := ?_ }
  · rw [records, Session.referenced_adopt, reads, List.map_append]
    refine added.finish (List.mem_cons_of_mem _ here) imported (fun r there imported' => ?_) target
      List.mem_cons_self
    exact (all p m (List.mem_cons_of_mem _ here)).eq (all r m there) (List.ne_nil_of_mem imported)
      (List.ne_nil_of_mem imported')
  · rw [records]
    exact all
  · rw [records] at member
    rcases List.mem_cons.mp member with same | member
    · obtain ⟨rfl, rfl⟩ := Prod.mk.inj same
      exact made some
    · exact more m (h.met r m member some)
  · exact Nat.lt_of_le_of_lt (old m member) serves.size
  · rw [records, List.map_cons]
    refine List.nodup_cons.mpr ⟨fun member => ?_, h.single⟩
    obtain ⟨⟨r, _⟩, known, rfl⟩ := List.mem_map.mp member
    exact Nat.lt_irrefl _ (older r _ known)

end Gathers

/-- A specifier of a gathered module stands for the module of the path that it names, unless it is left to
be loaded. -/
structure Joins (graph : ImportGraph) (worker : Worker (Store.Watched σ)) (session : Session Nat)
    (left : List Load) : Prop where
  linked : ∀ p m, (p, m) ∈ session.records → ∀ s n, worker.world.requested? m s = some n →
    ∃ q, p.resolve s.toString = some q ∧ (q, n) ∈ session.records
  answered : ∀ p m, (p, m) ∈ session.records → ∀ s ∈ graph.imports p,
    .request 0 m s ∈ left ∨ (worker.world.requested? m s).isSome

namespace Joins

omit [Store.Source σ]

theorem perm (h : worker.Joins graph session left) (same : left.Perm rest) :
    worker.Joins graph session rest :=
  ⟨h.linked, fun p m here s imported => (h.answered p m here s imported).imp_left same.mem_iff.mp⟩

theorem of_eq (h : worker.Joins graph session left)
    (modules : after.world.modules = worker.world.modules) : after.Joins graph session left := by
  have same (m : Nat) (s : Text.Units) : after.world.requested? m s = worker.world.requested? m s := by
    rw [World.requested?, World.requested?, World.module, World.module, modules]
  exact ⟨fun p m here s n found => h.linked p m here s n ((same m s).symm.trans found),
    fun p m here s imported => by rw [same]; exact h.answered p m here s imported⟩

end Joins

omit [Store.Source σ] in
/-- Linking a module adds what its specifier stands for, if it stood for nothing before. -/
theorem requested?_link {worker : Worker σ} {module : Nat} (known : module < worker.world.modules.size)
    (specifier : Text.Units) (record m : Nat) (s : Text.Units) :
    (worker.link module specifier record).world.requested? m s =
      (worker.world.requested? m s).or (if m = module ∧ s = specifier then some record else none) := by
  have here : (worker.link module specifier record).world.module m =
      (if module = m then worker.world.modules[m]?.map fun found =>
        { found with loaded := found.loaded ++ [(specifier, record)] }
      else worker.world.modules[m]?).getD default := by
    rw [World.module, link, Array.getD_eq_getD_getElem?, Array.getElem?_modify]
  rw [World.requested?, World.requested?, here, World.module, Array.getD_eq_getD_getElem?]
  by_cases same : module = m
  · subst same
    have added : ([(specifier, record)] : List (Text.Units × Nat)).lookup s =
        if s = specifier then some record else none := by
      rw [List.lookup_cons, List.lookup_nil]
      by_cases equal : s = specifier
      · rw [if_pos equal, beq_iff_eq.mpr equal]
      · rw [if_neg equal, beq_eq_false_iff_ne.mpr equal]
    rw [if_pos rfl, Array.getElem?_eq_getElem known]
    simp only [Option.map_some, Option.getD_some, List.lookup_append, added, true_and]
  · have apart : ¬(m = module ∧ s = specifier) := fun equal => same equal.1.symm
    rw [if_neg same, if_neg apart, Option.or_none]

omit [Store.Source σ] in
/-- A load is answered with the module of the path that its specifier names; if that module is new, its
requests are left. -/
theorem Joins.answer {p q : Path} {m n : Nat} {s : Text.Units} {next : Session Nat} {queued : List Load}
    (h : worker.Joins graph session (.request 0 m s :: rest)) (here : (p, m) ∈ session.records)
    (own : ∀ r, (r, m) ∈ session.records → r = p) (known : m < after.world.modules.size)
    (kept : ∀ r k, (r, k) ∈ session.records →
      ∀ s, after.world.requested? k s = worker.world.requested? k s)
    (target : p.resolve s.toString = some q)
    (records : ∀ entry, entry ∈ next.records ↔ entry = (q, n) ∨ entry ∈ session.records)
    (new : (q, n) ∈ session.records ∨ (∀ r, (r, n) ∉ session.records) ∧
      (∀ s, after.world.requested? n s = none) ∧ ∀ s ∈ graph.imports q, .request 0 n s ∈ queued) :
    (after.link m s n).Joins graph next (rest ++ queued) := by
  have old (r : Path) (k : Nat) (there : (r, k) ∈ next.records) : (r, k) ∈ session.records ∨
      (r, k) = (q, n) ∧ n ≠ m ∧ (∀ s, after.world.requested? n s = none) ∧
        ∀ s ∈ graph.imports q, .request 0 n s ∈ queued := by
    rcases new with known | ⟨unknown, rest⟩
    · exact .inl (((records _).mp there).elim (fun same => same ▸ known) id)
    · refine ((records _).mp there).symm.imp_right fun same => ⟨same, ?_, rest⟩
      rintro rfl
      exact unknown p here
  refine ⟨fun r k there s' n' found => ?_, fun r k there s' imported => ?_⟩
  · rw [requested?_link known] at found
    rcases old r k there with before | ⟨same, apart, none, _⟩
    · rw [kept r k before] at found
      rcases Option.or_eq_some_iff.mp found with earlier | ⟨_, added⟩
      · obtain ⟨t, named, member⟩ := h.linked r k before s' n' earlier
        exact ⟨t, named, (records _).mpr (.inr member)⟩
      · split at added
        next equal =>
          obtain ⟨rfl, rfl⟩ := equal
          obtain rfl := Option.some.inj added
          rw [own r before]
          exact ⟨q, target, (records _).mpr (.inl rfl)⟩
        next => contradiction
    · obtain ⟨rfl, rfl⟩ := Prod.mk.inj same
      rw [none, Option.none_or, if_neg fun equal => apart equal.1] at found
      contradiction
  · rw [requested?_link known]
    rcases old r k there with before | ⟨same, _, _, waits⟩
    · rw [kept r k before]
      rcases h.answered r k before s' imported with waits | done
      · rcases List.mem_cons.mp waits with same | waits
        · obtain ⟨-, rfl, rfl⟩ := Load.request.inj same
          rw [if_pos ⟨rfl, rfl⟩]
          right
          cases worker.world.requested? k s' <;> rfl
        · exact .inl (List.mem_append_left _ waits)
      · right
        obtain ⟨n', found⟩ := Option.isSome_iff_exists.mp done
        rw [found]
        rfl
    · obtain ⟨rfl, rfl⟩ := Prod.mk.inj same
      exact .inl (List.mem_append_right _ (waits s' imported))

/-- A load has come to a module, and the visit of the module is about to end: the loads that the visit
has queued are the imports of a path that has got a record. -/
structure Advances (graph : ImportGraph) (worker : Worker (Store.Watched σ)) (session : Session Nat)
    (g : GraphLoad) (rest : List Load) (after : Worker (Store.Watched σ)) (next : Session Nat)
    (g' : GraphLoad) (queued : List Load) : Prop where
  only : after.LoadsOnly g'
  promise : g'.promise = g.promise
  loading : g'.isLoading
  pending : g'.pending = g.pending + queued.length
  slots : after.slots = worker.slots
  free : after.free = worker.free
  queue : after.queue = queued
  gathers : after.Gathers graph next g'.visited (rest ++ queued)
  joins : after.Joins graph next (rest ++ queued)
  fewer : ∀ paths, graph.IsWithin paths →
    graph.remaining paths (session.records.map Prod.fst) =
      queued.length + graph.remaining paths (next.records.map Prod.fst)

end Worker

namespace Hosted

variable {σ : Type} [Store.Source σ] {graph : ImportGraph} {worker : Worker (Store.Watched σ)}
  {session : Session Nat} {rest : List Load} {g : GraphLoad} {m : Nat} {s : Text.Units}

section Cases

variable {p q : Path} (only : worker.LoadsOnly g) (loading : g.isLoading)
  (h : worker.Gathers graph session g.visited (.request 0 m s :: rest))
  (joins : worker.Joins graph session (.request 0 m s :: rest)) (empty : worker.queue = [])
  (here : (p, m) ∈ session.records) (imported : s ∈ graph.imports p)
  (found : referrerOf m worker = .ok (.file p) worker) (target : p.resolve s.toString = some q)

include only loading h joins empty here imported found target

/-- A load of a path with a record leads to the module of the path, which was visited already. -/
theorem advances_of_reused {record : Nat} (known : session.record? q = some record)
    (done : importModule (.file p) s worker =
      .ok (.ok record) { worker with session := some (session.refer q) }) :
    ∃ after, runLoad (.request 0 m s) worker = finishVisit 0 after ∧
      worker.Advances graph session g rest after (session.refer q) g [] := by
  have canonical : ∀ r ∈ session.records.map Prod.fst, r.normalize = r :=
    fun r member => (h.gathered.reached r member).normalize_eq
  have member := Session.mem_of_record? canonical (Path.normalize_of_resolve target) known
  let middle : Worker (Store.Watched σ) := { worker with session := some (session.refer q) }
  have only' : middle.LoadsOnly g := only.of_eq rfl rfl
  have gathers : middle.Gathers graph (session.refer q) g.visited rest :=
    { here := rfl, rules := h.rules, holds := h.holds, serves := h.serves, met := h.met, old := h.old
      single := h.single
      gathered := h.gathered.finish here imported
        (fun r there imported' => (h.serves p m here).eq (h.serves r m there)
          (List.ne_nil_of_mem imported) (List.ne_nil_of_mem imported'))
        target (List.mem_map_of_mem member) }
  have visited : ((middle.link m s record).world.module record).requests = [] ∨
      record ∈ g.visited := by
    by_cases none : graph.imports q = []
    · exact .inl ((Worker.serves_link (h.serves q record member) m s record).made.trans none)
    · exact .inr (h.met q record member none)
  have joined : (middle.link m s record).Joins graph (session.refer q) (rest ++ []) :=
    joins.answer here (h.own here imported) (h.serves p m here).size (fun _ _ _ _ => rfl) target
      (fun entry => ⟨.inr, fun either => either.elim (fun same => same ▸ member) id⟩) (.inl member)
  refine ⟨middle.link m s record, ?_,
    { only := only'.link m s record, promise := rfl, loading, pending := rfl, slots := rfl
      free := rfl, queue := empty, gathers := by rw [List.append_nil]; exact gathers.link m s record
      joins := joined, fewer := fun _ _ => (Nat.zero_add _).symm }⟩
  rw [runLoad_of_ok found done only', if_pos loading,
    visit_of_known (only'.link m s record).graphs visited]

/-- A load of a path without a record adds its module, which is visited for the first time. -/
theorem advances_of_loaded {kind : Kind.Supported} {module : Module} {n : Nat}
    {after : Worker (Store.Watched σ)} (size : worker.world.modules.size = n)
    (unknown : session.record? q = none) (keeps : worker.Keeps after [module])
    (new : after.world.HasNew module (.file q) (graph.imports q))
    (left : after.session = some (session.adopt q kind n))
    (holds : Store.Holds after.store.store graph.content)
    (reads : after.store.reads = worker.store.reads ++ [(q, true)])
    (done : importModule (.file p) s worker = .ok (.ok n) after) :
    ∃ after g' queued, runLoad (.request 0 m s) worker = finishVisit 0 after ∧
      worker.Advances graph session g rest after (session.adopt q kind n) g' queued := by
  obtain ⟨serves, added⟩ := new.serves keeps.world
  subst size
  have fewer (paths : Finset Path) (within : graph.IsWithin paths) :=
    ImportGraph.remaining_cons within
      ((h.gathered.reached p (List.mem_map_of_mem here)).tail ⟨s, imported, target⟩)
      (Session.notMem_of_record? unknown)
  have gathers := h.load here imported target unknown keeps serves left holds reads
  have joined (queued : List Load)
      (waits : ∀ s ∈ graph.imports q, .request 0 worker.world.modules.size s ∈ queued) :
      (after.link m s worker.world.modules.size).Joins graph
        (session.adopt q kind worker.world.modules.size) (rest ++ queued) := by
    refine joins.answer here (h.own here imported) (Nat.lt_of_lt_of_le (h.serves p m here).size ?_)
      (fun r k there s => ?_) target (fun entry => ?_)
      (.inr ⟨fun r there => Nat.lt_irrefl _ (h.serves r _ there).size, fun s => ?_, waits⟩)
    · rw [keeps.world.modules, Array.size_append]
      exact Nat.le_add_right _ _
    · rw [World.requested?, keeps.world.module_eq (h.serves r k there).size]
      rfl
    · rw [Session.records_adopt unknown]
      exact List.mem_cons
    · rw [World.requested?, added, new.loaded]
      rfl
  have only' := only.keeps keeps
  have linked := only'.link m s worker.world.modules.size
  have served := Worker.serves_link serves m s worker.world.modules.size
  by_cases none : graph.imports q = []
  · refine ⟨after.link m s _, g, [], ?_,
      { only := linked, promise := rfl, loading, pending := rfl, slots := keeps.slots
        free := keeps.free, queue := keeps.queue.trans empty
        gathers := ?_, joins := joined [] fun s imported => ?_, fewer := fun paths within => ?_ }⟩
    · rw [runLoad_of_ok found done only', if_pos loading,
        visit_of_known linked.graphs (.inl (served.made.trans none))]
    · have gathers := gathers g.visited (fun _ => id) (absurd none) fun m member =>
        Nat.le_of_lt (h.old m member)
      rw [none] at gathers
      exact gathers.link m s _
    · rw [none] at imported
      contradiction
    · rw [fewer paths within, none, Session.records_adopt unknown]
      rfl
  · -- The load is a request of another module, so linking that one leaves the new module as it is.
    have apart : m ≠ worker.world.modules.size := Nat.ne_of_lt (h.serves p m here).size
    obtain ⟨loaded, same, kept⟩ := after.module_link m s worker.world.modules.size
      worker.world.modules.size
    rw [kept apart, added] at same
    have unmet : worker.world.modules.size ∉ g.visited := fun member =>
      Nat.lt_irrefl _ (h.old _ member)
    have visit := visit_of_new linked.graphs same (by rw [new.requests]; exact none) new.status unmet
      new.loaded after.world.modules.size
    rw [new.requests] at visit
    let g' : GraphLoad :=
      { g with
        visited := worker.world.modules.size :: g.visited
        pending := g.pending + (graph.imports q).length }
    let queued : List Load := (graph.imports q).map (.request 0 worker.world.modules.size)
    let begun : Worker (Store.Watched σ) :=
      { after.link m s worker.world.modules.size with
        queue := (after.link m s worker.world.modules.size).queue ++ queued, graphs := #[g'] }
    refine ⟨begun, g', queued, ?_,
      { only := linked.count rfl rfl rfl rfl, promise := rfl
        loading, pending := by rw [List.length_map], slots := keeps.slots, free := keeps.free
        queue := ?_, gathers := ?_, joins := ?_, fewer := fun paths within => ?_ }⟩
    · rw [runLoad_of_ok found done only', if_pos loading, visit]
    · change after.queue ++ queued = queued
      rw [keeps.queue, empty, List.nil_append]
    · have gathers := gathers g'.visited (fun _ => List.mem_cons_of_mem _) (fun _ => List.mem_cons_self)
        fun m member => (List.mem_cons.mp member).elim Nat.le_of_eq fun member =>
          Nat.le_of_lt (h.old m member)
      exact (gathers.link m s _).of_eq rfl rfl (fun _ _ _ => id) (Nat.le_refl _)
    · exact (joined queued fun s imported => List.mem_map_of_mem imported).of_eq rfl
    · rw [fewer paths within, List.length_map, Session.records_adopt unknown]
      rfl

end Cases

/-- A load that the graph asks for fails, or comes to a module. -/
theorem runLoad_advances (only : worker.LoadsOnly g) (loading : g.isLoading)
    (h : worker.Gathers graph session g.visited (.request 0 m s :: rest))
    (joins : worker.Joins graph session (.request 0 m s :: rest)) (empty : worker.queue = [])
    (bodies : (left (runLoad (.request 0 m s)) worker).store.HasBodies graph.rules graph.content) :
    (∃ reason after next, runLoad (.request 0 m s) worker = failGraph 0 reason after ∧
        worker.Keeps after [] ∧ after.session = some next ∧ next.rules = graph.rules ∧
        Store.Holds after.store.store graph.content) ∨
      ∃ after next g' queued, runLoad (.request 0 m s) worker = finishVisit 0 after ∧
        worker.Advances graph session g rest after next g' queued := by
  obtain ⟨p, _, _, here, imported, same⟩ := h.gathered.asked _ List.mem_cons_self
  obtain ⟨-, rfl, rfl⟩ := Load.request.inj same
  obtain ⟨unit, code, body, known, referrer⟩ :=
    (h.serves p m here).referrer (List.ne_nil_of_mem imported)
  have found := referrerOf_of_code body known
  rw [referrer] at found
  rw [← h.rules] at bodies
  obtain ⟨result, after, done, imports⟩ := importModule_outcome h.here only.requests h.holds (.file p) s
    fun _ => isBodyAt_of_import h.here (bodies.mono (reads_runLoad found))
  cases imports with
  | @failed reason after keeps next left rules holds =>
    exact .inl ⟨reason, after, next, runLoad_of_error found done, keeps, left, rules.trans h.rules,
      holds⟩
  | @reused q record target known =>
    obtain ⟨after, ran, advances⟩ :=
      advances_of_reused only loading h joins empty here imported found target known done
    exact .inr ⟨after, _, _, _, ran, advances⟩
  | @loaded q kind bytes module after target unknown classified read keeps new _ left holds reads =>
    have apart : q ≠ graph.root := fun same =>
      Session.notMem_of_record? unknown (same ▸ h.gathered.root_mem)
    have requests : graph.imports q = kind.requests bytes :=
      ImportGraph.imports_of_read apart (h.rules ▸ classified) read
    rw [← requests] at new
    obtain ⟨after, g', queued, ran, advances⟩ := advances_of_loaded only loading h joins empty here
      imported found target rfl unknown keeps new left holds reads done
    exact .inr ⟨after, _, g', queued, ran, advances⟩

end Hosted
end Isolate
