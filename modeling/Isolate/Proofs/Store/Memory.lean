import Isolate.Store.Memory
import Mathlib.Logic.Function.Basic

/-!
# Memory stores as maps

What a memory store holds is a map from keys to contents. Storing a file changes the map at its key,
and so does taking a file away; nothing else changes.
-/

namespace Isolate.Store.Memory

variable {store : Memory} {path : Path} {key other : String} {content : Bytes}
  {files : List (String × Bytes)}

theorem find?_put : find? other (put key content files) =
    if other = key then some content else find? other files := by
  induction files with
  | nil => simp only [put, find?, eq_comm]
  | cons file rest ih =>
    obtain ⟨name, old⟩ := file
    rw [put]
    by_cases here : name = key
    · subst here
      by_cases asked : other = name <;> simp_all [find?, eq_comm]
    · rw [if_neg here, find?, ih, find?]
      by_cases first : name = other
      · rw [if_pos first, if_pos first, if_neg (fun same => here (first.trans same))]
      · rw [if_neg first, if_neg first]

theorem find?_filter : find? other (files.filter fun (name, _) => name ≠ key) =
    if other = key then none else find? other files := by
  induction files with
  | nil => simp only [List.filter_nil, find?, ite_self]
  | cons file rest ih =>
    obtain ⟨name, old⟩ := file
    by_cases here : name = key
    · rw [List.filter_cons_of_neg (by simpa using here), ih, find?]
      by_cases asked : other = key
      · rw [if_pos asked, if_pos asked]
      · rw [if_neg asked, if_neg asked, if_neg (fun same => asked (same.symm.trans here))]
    · rw [List.filter_cons_of_pos (by simpa using here), find?, ih, find?]
      by_cases first : name = other
      · rw [if_pos first, if_pos first, if_neg (fun same => here (first.trans same))]
      · rw [if_neg first, if_neg first]

def contents (store : Memory) (key : String) : Option Bytes := find? key store.files

@[simp] theorem contents_insert :
    (store.insert path content).contents =
      Function.update store.contents (Memory.key path) (some content) := by
  funext name
  rw [contents, insert, find?_put, Function.update_apply, contents]

@[simp] theorem contents_erase :
    (store.erase path).contents = Function.update store.contents (Memory.key path) none := by
  funext name
  rw [contents, erase, find?_filter, Function.update_apply, contents]

theorem get?_eq : store.get? path = store.contents (Memory.key path) := rfl

/-- Reading gives what the map holds at the path's key, or a failure that names the key. -/
theorem read_eq : store.read path =
    (store.contents (Memory.key path)).elim (.error (.notFound (Memory.key path))) .ok := by
  rw [read, get?_eq]
  cases store.contents (Memory.key path) <;> rfl

end Isolate.Store.Memory
