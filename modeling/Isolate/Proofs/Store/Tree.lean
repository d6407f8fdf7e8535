import Isolate.Proofs.Path.Pieces
import Isolate.Store.Tree
import Mathlib.Data.List.Induction

/-!
# Where paths lead

What a path leads to can be told without following it: each name leads to a place, and the path leads to
what stands at the last one, if a directory stands at every place before it and no name is too long. A
relative path behind a base leads on from the directory to which the base leads.
-/

namespace Isolate.Store.Tree

variable {tree : Tree} {directory here place front rest idle : List String} {name : String}
  {entry : Entry} {path base : Path}

def step (here : List String) (name : String) : List String :=
  if name = "" ∨ name = "." then here else if name = ".." then here.dropLast else here ++ [name]

/-- The place to which names lead, whatever stands on the way. -/
def placeOf (here names : List String) : List String := names.foldl step here

/-- Names lead over directories to an entry. -/
structure Leads (tree : Tree) (here names : List String) (entry : Entry) : Prop where
  fits : ∀ name ∈ names, name.utf8ByteSize ≤ maxName
  passes : ∀ before name after, names = before ++ name :: after →
    tree.find? (placeOf here before) = some .directory
  ends : tree.find? (placeOf here names) = some entry

/-- The place to which a path leads, whatever stands on the way. -/
def endOf (directory : List String) (path : Path) : List String :=
  placeOf (startOf directory path) (names path)

structure HasAt (tree : Tree) (directory : List String) (path : Path) (entry : Entry) : Prop where
  noNul : '\x00' ∉ path.text.toList
  written : path.text ≠ ""
  fits : path.text.utf8ByteSize ≤ maxPath
  leads : tree.Leads (startOf directory path) (names path) entry

theorem step_of_stays (stays : name = "" ∨ name = ".") : step here name = here := if_pos stays

theorem step_parent : step here ".." = here.dropLast := rfl

theorem step_of_down (stays : ¬(name = "" ∨ name = ".")) (up : name ≠ "..") :
    step here name = here ++ [name] := by
  rw [step, if_neg stays, if_neg up]

theorem leads_nil : tree.Leads here [] entry ↔ tree.find? here = some entry := by
  constructor
  · intro leads
    exact leads.ends
  · intro stands
    refine ⟨nofun, fun before name after split => ?_, stands⟩
    cases before <;> contradiction

theorem leads_cons : tree.Leads here (name :: rest) entry ↔
    name.utf8ByteSize ≤ maxName ∧ tree.find? here = some .directory ∧
      tree.Leads (step here name) rest entry := by
  constructor
  · intro leads
    refine ⟨leads.fits name List.mem_cons_self, leads.passes [] name rest rfl, ?_, ?_, leads.ends⟩
    · intro other member
      exact leads.fits other (List.mem_cons_of_mem _ member)
    · intro before other after split
      exact leads.passes (name :: before) other after (by rw [split, List.cons_append])
  · rintro ⟨fits, begins, leads⟩
    refine ⟨List.forall_mem_cons.mpr ⟨fits, leads.fits⟩, ?_, leads.ends⟩
    intro before other after split
    cases before with
    | nil => exact begins
    | cons first before =>
      obtain ⟨rfl, below⟩ := List.cons.inj split
      exact leads.passes before other after below

theorem Leads.begins {names : List String} (h : tree.Leads here names entry) :
    tree.find? here = some .directory ∨ names = [] ∧ tree.find? here = some entry := by
  cases names with
  | nil => exact .inr ⟨rfl, leads_nil.mp h⟩
  | cons name rest => exact .inl (leads_cons.mp h).2.1

theorem IsDirectory.find? (h : tree.IsDirectory here) : tree.find? here = some .directory := by
  have whole := h here.length
  rwa [List.take_length] at whole

theorem IsDirectory.dropLast (h : tree.IsDirectory here) : tree.IsDirectory here.dropLast := by
  intro n
  rw [List.dropLast_eq_take, List.take_take]
  exact h _

theorem IsDirectory.concat (h : tree.IsDirectory here)
    (stands : tree.find? (here ++ [name]) = some .directory) : tree.IsDirectory (here ++ [name]) := by
  intro n
  by_cases inside : n ≤ here.length
  · rw [List.take_append_of_le_length inside]
    exact h n
  · rw [List.take_of_length_le (by rw [List.length_append, List.length_singleton]; omega)]
    exact stands

/-- From a directory a name leads to the directory itself, to the one above, or to what is in it. -/
theorem IsDirectory.step (h : tree.IsDirectory here)
    (stands : tree.find? (step here name) = some .directory) : tree.IsDirectory (step here name) := by
  by_cases stays : name = "" ∨ name = "."
  · rw [step_of_stays stays]
    exact h
  · by_cases up : name = ".."
    · rw [up, step_parent]
      exact h.dropLast
    · rw [step_of_down stays up] at stands ⊢
      exact h.concat stands

theorem IsDirectory.startOf (h : tree.IsDirectory directory) (path : Path) :
    tree.IsDirectory (startOf directory path) := by
  rw [Tree.startOf]
  split
  · exact isDirectory_root tree
  · exact h

/-- From a directory every name is followed alike: what stands at its place decides. -/
theorem follow_cons (h : tree.IsDirectory here) : tree.follow here (name :: rest) =
    if maxName < name.utf8ByteSize then .error .nameTooLong
    else
      match tree.find? (step here name) with
      | none => .error .missing
      | some .directory => tree.follow (step here name) rest
      | some (.file content) =>
        if rest.isEmpty then .ok (step here name, .file content) else .error .notADirectory := by
  rw [follow]
  by_cases stays : name = "" ∨ name = "."
  · have short : ¬maxName < name.utf8ByteSize := by rcases stays with rfl | rfl <;> decide
    rw [if_pos stays, if_neg short, step_of_stays stays, h.find?]
  · rw [if_neg stays]
    by_cases up : name = ".."
    · have short : ¬maxName < name.utf8ByteSize := by rw [up]; decide
      rw [if_pos up, if_neg short, up, step_parent, h.dropLast.find?]
    · rw [if_neg up]
      exact step_of_down stays up ▸ rfl

/-- Names are followed to what they lead to. -/
theorem follow_eq_ok_iff {names : List String} (h : tree.IsDirectory here) :
    tree.follow here names = .ok (place, entry) ↔
      tree.Leads here names entry ∧ place = placeOf here names := by
  induction names generalizing here with
  | nil =>
    rw [follow, leads_nil, h.find?, Except.ok.injEq, Prod.mk.injEq, Option.some.injEq, and_comm,
      eq_comm (a := here)]
    rfl
  | cons name rest ih =>
    rw [leads_cons, follow_cons h, placeOf, List.foldl_cons, ← placeOf]
    by_cases long : maxName < name.utf8ByteSize
    · rw [if_pos long]
      constructor
      · intro clash
        contradiction
      · rintro ⟨⟨fits, _⟩, _⟩
        omega
    · have fits : name.utf8ByteSize ≤ maxName := by omega
      simp only [if_neg long, fits, h.find?, true_and]
      cases found : tree.find? (step here name) with
      | none =>
        constructor
        · intro clash
          contradiction
        · rintro ⟨leads, _⟩
          rcases leads.begins with stands | ⟨_, stands⟩ <;> rw [found] at stands <;> contradiction
      | some next =>
        cases next with
        | directory => exact ih (h.step found)
        | file content =>
          cases rest with
          | nil =>
            rw [leads_nil, found, Option.some.injEq]
            constructor
            · intro ends
              obtain ⟨rfl, rfl⟩ := Prod.mk.inj (Except.ok.inj ends)
              exact ⟨rfl, rfl⟩
            · rintro ⟨rfl, rfl⟩
              rfl
          | cons next rest =>
            -- Behind a file no name leads anywhere.
            constructor
            · intro clash
              contradiction
            · rintro ⟨leads, _⟩
              have stands := (leads_cons.mp leads).2.1
              rw [found] at stands
              cases stands

/-- A path is looked up where its names lead, if it can be a path at all. -/
theorem lookup_eq_ok_iff (h : tree.IsDirectory directory) :
    tree.lookup directory path = .ok (place, entry) ↔
      tree.HasAt directory path entry ∧ place = endOf directory path := by
  have hasNul : path.text.toList.any (· == '\x00') ↔ '\x00' ∈ path.text.toList := by simp
  rw [lookup]
  by_cases nul : '\x00' ∈ path.text.toList
  · rw [if_pos (hasNul.mpr nul)]
    exact ⟨nofun, fun ⟨has, _⟩ => absurd nul has.noNul⟩
  · rw [if_neg (mt hasNul.mp nul)]
    by_cases empty : path.text = ""
    · rw [if_pos (String.isEmpty_iff.mpr empty)]
      exact ⟨nofun, fun ⟨has, _⟩ => absurd empty has.written⟩
    · rw [if_neg (mt String.isEmpty_iff.mp empty)]
      by_cases long : maxPath < path.text.utf8ByteSize
      · rw [if_pos long]
        exact ⟨nofun, fun ⟨has, _⟩ => absurd has.fits (Nat.not_le.mpr long)⟩
      · rw [if_neg long, follow_eq_ok_iff (h.startOf path)]
        exact ⟨fun ⟨leads, ends⟩ => ⟨⟨nul, empty, Nat.not_lt.mp long, leads⟩, ends⟩,
          fun ⟨has, ends⟩ => ⟨has.leads, ends⟩⟩

/-- What stands at a path is what the path leads to. -/
theorem status?_eq_some_iff (h : tree.IsDirectory directory) :
    tree.status? directory path = some entry ↔ tree.HasAt directory path entry := by
  rw [status?]
  cases found : tree.lookup directory path with
  | error cause =>
    refine ⟨nofun, fun has => ?_⟩
    rw [(lookup_eq_ok_iff h).mpr ⟨has, rfl⟩] at found
    contradiction
  | ok result =>
    obtain ⟨place, there⟩ := result
    have has := (lookup_eq_ok_iff h).mp found
    constructor
    · intro same
      rw [← Option.some.inj same]
      exact has.1
    · intro other
      rw [(lookup_eq_ok_iff h).mpr ⟨other, has.2⟩] at found
      exact congrArg some (Prod.mk.inj (Except.ok.inj found)).2.symm

/-- Whoever opens and reads is told the same as who only asks what is there. -/
theorem load_eq_ok_iff {bytes : Bytes} :
    tree.load directory path = .ok bytes ↔ tree.status? directory path = some (.file bytes) := by
  rw [load, status?]
  rcases tree.lookup directory path with cause | ⟨place, content | _⟩
  · exact ⟨nofun, nofun⟩
  · simp
  · simp

theorem load_of_nothing (nothing : tree.status? directory path = none) :
    ∃ cause, tree.load directory path = .error (.lookup cause) := by
  rw [status?] at nothing
  rw [load]
  cases found : tree.lookup directory path with
  | error cause => exact ⟨cause, rfl⟩
  | ok result =>
    rw [found] at nothing
    cases nothing

end Isolate.Store.Tree
