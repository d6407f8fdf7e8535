import Isolate.Proofs.Store.Counters
import Isolate.Proofs.Store.Memory
import Isolate.Store.Handle
import Mathlib.Data.List.Induction

/-!
# Recording stores are transparent and count exactly

A memory store is put behind counters, and from the first handle on it others are made: copies,
boxes, and handles on the store inside. Whatever is done through all of them, a read through any of
them gives what a map keyed by the replaced text holds at that moment, and the counters tell how
many counted reads there were. The two tables know nothing of each other: contents go by the
replaced text, counters by the components of the text as it was written, so two paths can share a
file and not a counter, or a counter and not a file.
-/

namespace Isolate.Store

namespace Recording

/-- What is done through a handle. -/
inductive Operation where
  | insert (path : Path) (content : Bytes)
  | remove (path : Path)
  | read (path : Path)
  | holds (path : Path)
  | holdsFile (path : Path)
  | size
  | count (path : Path)
  | total
  | reads

/-- What comes back. -/
inductive Answer where
  | done
  | removed (content : Option Bytes)
  | result (result : Except Error Bytes)
  | held (there : Bool)
  | number (n : Nat)
  | table (counters : Counters)
  /-- The handle points to no counters. -/
  | unavailable

def perform (heap : Heap) (handle : Handle) : Operation → Answer × Heap
  | .insert path content => (.done, heap.insert handle path content)
  | .remove path => (.removed ((heap.files handle.files).get? path), heap.erase handle path)
  | .read path => (.result (heap.read handle path).1, (heap.read handle path).2)
  | .holds path => (.held (heap.holds handle path), heap)
  | .holdsFile path => (.held (heap.holdsFile handle path), heap)
  | .size => (.number (heap.files handle.files).size, heap)
  | .count path => ((heap.table? handle).elim .unavailable fun table => .number (table.get path), heap)
  | .total => ((heap.table? handle).elim .unavailable fun table => .number table.total, heap)
  | .reads => ((heap.table? handle).elim .unavailable .table, heap)

/-- What is done with a handle: another one is made of it, or it is used. -/
inductive Action where
  | clone
  | box
  | inner
  | use (operation : Operation)

/-- A heap and the handles into it. -/
structure Shared where
  heap : Heap
  handles : List Handle

namespace Shared

def push (shared : Shared) (handle : Handle) : Shared :=
  { shared with handles := shared.handles ++ [handle] }

/-- Act on one of the handles; where there is none nothing happens. -/
def act (shared : Shared) (index : Nat) (action : Action) : Shared :=
  match shared.handles[index]?, action with
  | none, _ => shared
  | some handle, .clone => shared.push handle
  | some handle, .box => shared.push (.boxed handle)
  | some handle, .inner => shared.push handle.inner
  | some handle, .use operation => { shared with heap := (perform shared.heap handle operation).2 }

def after (shared : Shared) : List (Nat × Action) → Shared
  | [] => shared
  | (index, action) :: rest => (shared.act index action).after rest

def use? (shared : Shared) (index : Nat) : Action → Option (Handle × Operation)
  | .use operation => shared.handles[index]?.map (·, operation)
  | _ => none

/-- What is done through handles in the course of some actions, with the handle each time. -/
def uses (shared : Shared) : List (Nat × Action) → List (Handle × Operation)
  | [] => []
  | (index, action) :: rest => (shared.use? index action).toList ++ (shared.act index action).uses rest

end Shared

/-- A store filled in order, behind new counters, with one handle. -/
def start (files : List (Path × Bytes)) : Shared where
  heap := ⟨Function.update (fun _ => {}) 0 (Memory.ofList files), fun _ => []⟩
  handles := [.recording 0 0]

def Operation.write? (key : String) : Operation → Option (Option Bytes)
  | insert path content => if Memory.key path = key then some (some content) else none
  | remove path => if Memory.key path = key then some none else none
  | _ => none

/-- The content last inserted at a key and not removed since. -/
def lastContent (uses : List (Handle × Operation)) (key : String) : Option Bytes :=
  (uses.reverse.findSome? fun use => use.2.write? key).join

/-- Files are inserted in order. -/
def insertions (files : List (Path × Bytes)) : List (Handle × Operation) :=
  files.map fun file => (.memory 0, .insert file.1 file.2)

def counted? : Handle × Operation → Option Path
  | (handle, .read path) => if handle.counters?.isSome then some path else none
  | _ => none

/-- The paths of the counted reads, in order. -/
def countedReads (uses : List (Handle × Operation)) : List Path := uses.filterMap counted?

end Recording

variable {heap : Heap} {handle : Handle} {path : Path} {files counters : Nat}

/-- A handle points to no other tables than two given ones. -/
structure Handle.IsOn (files counters : Nat) (handle : Handle) : Prop where
  files : handle.files = files
  counters : ∀ table ∈ handle.counters?, table = counters

theorem Handle.IsOn.boxed (on : handle.IsOn files counters) :
    (Handle.boxed handle).IsOn files counters := ⟨on.files, on.counters⟩

theorem Handle.IsOn.inner (on : handle.IsOn files counters) : handle.inner.IsOn files counters :=
  ⟨on.files, nofun⟩

theorem Handle.IsOn.table?_eq (on : handle.IsOn files counters) (counts : handle.counters?.isSome) :
    heap.table? handle = some (heap.counters counters) := by
  obtain ⟨table, there⟩ := Option.isSome_iff_exists.mp counts
  rw [Heap.table?, there, Option.map_some, on.counters table there]

/-- Through any number of boxes a read is one of the files that the handle points to. -/
theorem Heap.read_fst : (heap.read handle path).1 = (heap.files handle.files).read path := by
  induction handle with
  | memory | recording => rfl
  | boxed held ih => exact ih

theorem Heap.files_read : (heap.read handle path).2.files = heap.files := by
  induction handle with
  | memory | recording => rfl
  | boxed held ih => exact ih

/-- It is counted once, if the handle points to counters. -/
theorem Heap.counters_read : (heap.read handle path).2.counters =
    match handle.counters? with
    | some table => Function.update heap.counters table ((heap.counters table).count path)
    | none => heap.counters := by
  induction handle with
  | memory | recording => rfl
  | boxed held ih => exact ih

theorem Heap.holds_eq : heap.holds handle path = (heap.files handle.files).holds path := by
  induction handle with
  | memory | recording => rfl
  | boxed held ih => exact ih

theorem Heap.holdsFile_eq : heap.holdsFile handle path = (heap.files handle.files).holdsFile path := by
  induction handle with
  | memory | recording => rfl
  | boxed held ih => exact ih

namespace Recording

variable {operation : Operation} {use : Handle × Operation} {before uses : List (Handle × Operation)}
  {shared : Shared} {index : Nat} {action : Action} {actions : List (Nat × Action)} {key : String}

theorem update_eq_getD {contents : String → Option Bytes} {name : String} {written : Option Bytes} :
    Function.update contents name written key =
      (if name = key then some written else none).getD (contents key) := by
  rw [Function.update_apply]
  by_cases here : key = name
  · rw [if_pos here, if_pos here.symm, Option.getD_some]
  · rw [if_neg here, if_neg (Ne.symm here), Option.getD_none]

/-- An operation leaves at a key what it writes there, or what was there. -/
theorem contents_perform (on : handle.IsOn files counters) :
    ((perform heap handle operation).2.files files).contents key =
      (operation.write? key).getD ((heap.files files).contents key) := by
  cases operation with
  | insert path content =>
    have left : (heap.insert handle path content).files files = (heap.files files).insert path content := by
      rw [Heap.insert, on.files]
      exact Function.update_self ..
    rw [perform, left, Memory.contents_insert, update_eq_getD, Operation.write?]
  | remove path =>
    have left : (heap.erase handle path).files files = (heap.files files).erase path := by
      rw [Heap.erase, on.files]
      exact Function.update_self ..
    rw [perform, left, Memory.contents_erase, update_eq_getD, Operation.write?]
  | read path =>
    rw [perform, Heap.files_read]
    rfl
  | holds | holdsFile | size | count | total | reads => rfl

/-- Nothing but a counted read changes a counter. -/
theorem counters_perform (on : handle.IsOn files counters) :
    (perform heap handle operation).2.counters counters =
      match counted? (handle, operation) with
      | some p => (heap.counters counters).count p
      | none => heap.counters counters := by
  cases operation with
  | read path =>
    rw [perform, Heap.counters_read, counted?]
    cases there : handle.counters? with
    | none => rfl
    | some table =>
      obtain rfl := on.counters table there
      exact Function.update_self ..
  | insert | remove | holds | holdsFile | size | count | total | reads => rfl

theorem counters_perform_cases :
    (∃ p, operation = .read p ∧ handle.counters?.isSome) ∨
      (perform heap handle operation).2.counters = heap.counters := by
  cases operation with
  | read path =>
    cases there : handle.counters? with
    | none =>
      rw [perform, Heap.counters_read, there]
      exact .inr rfl
    | some table => exact .inl ⟨path, rfl, rfl⟩
  | insert | remove | holds | holdsFile | size | count | total | reads => exact .inr rfl

def afterUses (heap : Heap) (uses : List (Handle × Operation)) : Heap :=
  uses.foldl (fun heap use => (perform heap use.1 use.2).2) heap

/-- Making handles leaves the heap as it is. -/
theorem heap_act : (shared.act index action).heap =
    afterUses shared.heap (shared.use? index action).toList := by
  unfold Shared.act
  cases found : shared.handles[index]? <;> cases action <;> simp [Shared.use?, found, afterUses, Shared.push]

theorem heap_after : (shared.after actions).heap = afterUses shared.heap (shared.uses actions) := by
  induction actions generalizing shared with
  | nil => rfl
  | cons action rest ih =>
    rw [Shared.after, ih, heap_act, Shared.uses, afterUses, afterUses, afterUses, List.foldl_append]

/-- A handle that is made of another one points to no new tables. -/
theorem isOn_act (on : ∀ handle ∈ shared.handles, handle.IsOn files counters) :
    ∀ handle ∈ (shared.act index action).handles, handle.IsOn files counters := by
  unfold Shared.act
  cases found : shared.handles[index]? with
  | none => exact on
  | some handle =>
    have here := on handle (List.mem_of_getElem? found)
    cases action with
    | clone => exact List.forall_mem_append.mpr ⟨on, List.forall_mem_singleton.mpr here⟩
    | box => exact List.forall_mem_append.mpr ⟨on, List.forall_mem_singleton.mpr here.boxed⟩
    | inner => exact List.forall_mem_append.mpr ⟨on, List.forall_mem_singleton.mpr here.inner⟩
    | use operation => exact on

theorem isOn_use? (on : ∀ handle ∈ shared.handles, handle.IsOn files counters) :
    ∀ use ∈ shared.use? index action, use.1.IsOn files counters := by
  intro use used
  cases action with
  | use operation =>
    obtain ⟨handle, found, rfl⟩ := Option.map_eq_some_iff.mp used
    exact on handle (List.mem_of_getElem? found)
  | clone | box | inner => contradiction

/-- All handles of a run point to the tables of the first one. -/
theorem isOn_after (on : ∀ handle ∈ shared.handles, handle.IsOn files counters) :
    (∀ handle ∈ (shared.after actions).handles, handle.IsOn files counters) ∧
      ∀ use ∈ shared.uses actions, use.1.IsOn files counters := by
  induction actions generalizing shared with
  | nil => exact ⟨on, nofun⟩
  | cons action rest ih =>
    obtain ⟨left, used⟩ := ih (isOn_act on)
    refine ⟨left, List.forall_mem_append.mpr ⟨fun use member => ?_, used⟩⟩
    exact isOn_use? on use (Option.mem_toList.mp member)

/-- No handle is ever taken away. -/
theorem mem_act (member : handle ∈ shared.handles) : handle ∈ (shared.act index action).handles := by
  unfold Shared.act
  cases shared.handles[index]? with
  | none => exact member
  | some other =>
    cases action with
    | clone | box | inner => exact List.mem_append_left _ member
    | use operation => exact member

theorem mem_after (member : handle ∈ shared.handles) : handle ∈ (shared.after actions).handles := by
  induction actions generalizing shared with
  | nil => exact member
  | cons action rest ih => exact ih (mem_act member)

theorem lastContent_concat : lastContent (before ++ [use]) key =
    (use.2.write? key).getD (lastContent before key) := by
  rw [lastContent, List.reverse_concat, List.findSome?_cons]
  cases use.2.write? key <;> rfl

theorem contents_ofList (stored : List (Path × Bytes)) :
    (Memory.ofList stored).contents key = lastContent (insertions stored) key := by
  induction stored using List.reverseRecOn with
  | nil => rfl
  | append_singleton stored file ih =>
    rw [Memory.ofList, List.foldl_append, ← Memory.ofList, insertions, List.map_append, List.map_singleton,
      lastContent_concat, ← insertions, ← ih, Operation.write?, List.foldl_cons, List.foldl_nil,
      Memory.contents_insert, update_eq_getD]

/-- A run leaves at a key the content last inserted there and not removed since. -/
theorem contents_afterUses (on : ∀ use ∈ uses, use.1.IsOn files counters)
    (held : (heap.files files).contents key = lastContent before key) :
    ((afterUses heap uses).files files).contents key = lastContent (before ++ uses) key := by
  induction uses generalizing heap before with
  | nil => rwa [List.append_nil]
  | cons use rest ih =>
    obtain ⟨here, others⟩ := List.forall_mem_cons.mp on
    have next : ((perform heap use.1 use.2).2.files files).contents key = lastContent (before ++ [use]) key := by
      rw [contents_perform here, held, lastContent_concat]
    rw [List.append_cons]
    exact ih others next

/-- The counters say how often each path was read among the counted reads. -/
structure Tallies (table : Counters) (counted : List Path) : Prop where
  ascending : table.IsAscending
  get (p : Path) : table.get p = counted.countP (p.same ·)
  total : table.total = counted.length

theorem tallies_nil : Tallies [] [] := ⟨Counters.isAscending_nil, fun _ => rfl, rfl⟩

theorem Tallies.count {table : Counters} {counted : List Path} (h : Tallies table counted)
    (p : Path) : Tallies (table.count p) (counted ++ [p]) where
  ascending := h.ascending.count
  get q := by
    rw [Counters.get_count h.ascending, h.get, List.countP_append, List.countP_singleton]
  total := by
    rw [Counters.total_count, h.total, List.length_append, List.length_singleton]

theorem countedReads_concat :
    countedReads (before ++ [use]) = countedReads before ++ (counted? use).toList := by
  rw [countedReads, List.filterMap_append, countedReads]
  cases found : counted? use <;> simp [found]

theorem tallies_afterUses (on : ∀ use ∈ uses, use.1.IsOn files counters)
    (tallies : Tallies (heap.counters counters) (countedReads before)) :
    Tallies ((afterUses heap uses).counters counters) (countedReads (before ++ uses)) := by
  induction uses generalizing heap before with
  | nil => rwa [List.append_nil]
  | cons use rest ih =>
    obtain ⟨here, others⟩ := List.forall_mem_cons.mp on
    have next : Tallies ((perform heap use.1 use.2).2.counters counters) (countedReads (before ++ [use])) := by
      rw [counters_perform here, countedReads_concat]
      cases counted? use with
      | none =>
        rw [Option.toList_none, List.append_nil]
        exact tallies
      | some p => exact tallies.count p
    rw [List.append_cons]
    exact ih others next

/-- At any moment of any run, a read through any handle, the first one or one made of it, gives the
content last inserted under the path's replaced text and not removed since, or a failure that names
the replaced text, and whether something, or a file, is held agrees with that. A path's counter is
the number of counted reads so far at paths of the same components, whether they succeeded or not;
the total is the number of all of them and the sum of the table, in which every path that was read
has one entry; and nothing but a counted read changes a table. -/
theorem reads_are_transparent_and_counted (files : List (Path × Bytes)) (actions : List (Nat × Action)) :
    let shared := (start files).after actions
    let content := lastContent (insertions files ++ (start files).uses actions)
    let counted := countedReads ((start files).uses actions)
    .recording 0 0 ∈ shared.handles ∧
    (∀ handle ∈ shared.handles, ∀ p,
      let expected : Except Error Bytes :=
        (content (Memory.key p)).elim (.error (.notFound (Memory.key p))) .ok
      (perform shared.heap handle (.read p)).1 = .result expected ∧
        (perform shared.heap handle (.holds p)).1 = .held (content (Memory.key p)).isSome ∧
        (perform shared.heap handle (.holdsFile p)).1 = .held (content (Memory.key p)).isSome ∧
        (perform shared.heap handle (.remove p)).1 = .removed (content (Memory.key p))) ∧
    (∀ handle ∈ shared.handles, handle.counters?.isSome →
      (∀ p, (perform shared.heap handle (.count p)).1 = .number (counted.countP (p.same ·))) ∧
        (perform shared.heap handle .total).1 = .number counted.length ∧
        ∃ table, (perform shared.heap handle .reads).1 = .table table ∧
          (table.map (·.2)).sum = counted.length ∧
          table.Pairwise (fun entry later => ¬entry.1.same later.1) ∧
          ∀ entry ∈ table, entry.2 = counted.countP (entry.1.same ·)) ∧
    ∀ handle ∈ shared.handles, ∀ operation,
      (∃ p, operation = .read p ∧ handle.counters?.isSome) ∨
        (perform shared.heap handle operation).2.counters = shared.heap.counters := by
  intro shared content counted
  have first : ∀ handle ∈ (start files).handles, handle.IsOn 0 0 :=
    List.forall_mem_singleton.mpr ⟨rfl, fun _ there => (Option.some.inj there).symm⟩
  obtain ⟨on, used⟩ := isOn_after first
  have held (key : String) : (shared.heap.files 0).contents key = content key := by
    have stored : (start files).heap.files 0 = Memory.ofList files := by simp [start]
    rw [heap_after]
    exact contents_afterUses used (by rw [stored, contents_ofList])
  have tallies : Tallies (shared.heap.counters 0) counted := by
    rw [heap_after]
    have fresh : Tallies ((start files).heap.counters 0) (countedReads []) := tallies_nil
    exact tallies_afterUses used fresh
  refine ⟨mem_after List.mem_cons_self, fun handle member p => ?_, fun handle member counts => ?_,
    fun handle _ operation => counters_perform_cases⟩
  · have points := (on handle member).files
    refine ⟨congrArg Answer.result ?_, congrArg Answer.held ?_, congrArg Answer.held ?_,
      congrArg Answer.removed ?_⟩
    · rw [Heap.read_fst, points, Memory.read_eq, held]
    · rw [Heap.holds_eq, points, Memory.holds, Memory.get?_eq, held]
    · rw [Heap.holdsFile_eq, points, Memory.holdsFile, Memory.holds, Memory.get?_eq, held]
    · rw [points, Memory.get?_eq, held]
  · have there : shared.heap.table? handle = some (shared.heap.counters 0) :=
      (on handle member).table?_eq counts
    refine ⟨fun p => ?_, ?_, shared.heap.counters 0, ?_, tallies.total, ?_, fun entry member => ?_⟩
    · rw [perform, there]
      exact congrArg Answer.number (tallies.get p)
    · rw [perform, there]
      exact congrArg Answer.number tallies.total
    · rw [perform, there]
      rfl
    · exact (List.pairwise_map.mp tallies.ascending).imp Counters.not_same_of_lt
    · rw [← tallies.get, Counters.get_of_mem tallies.ascending member]

/-- Two spellings share a file and not a counter, two others a counter and not a file. -/
example :
    let shared := (start [(⟨"/a/b"⟩, [1])]).after
      [(0, .clone), (1, .box), (1, .use (.read ⟨"/a\\b"⟩)), (2, .use (.read ⟨"/a//b"⟩))]
    (shared.heap.holds (.recording 0 0) ⟨"/a\\b"⟩, (shared.heap.counters 0).get ⟨"/a/b"⟩) = (true, 1) ∧
      shared.heap.holds (.recording 0 0) ⟨"/a//b"⟩ = false := by
  constructor <;> rfl

end Recording
end Isolate.Store
