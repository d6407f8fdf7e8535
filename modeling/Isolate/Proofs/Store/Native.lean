import Isolate.Proofs.Store.Tree

/-!
# Reads and checks of a directory tree

A read asks whether a directory is there and then opens what is there; the checks ask what is there. All
of them start from the full path of a path, and their answers always fit together.
-/

namespace Isolate.Store

namespace Native

variable {store : Native} {path : Path} {entry other : Entry}

/-- A path leads to an entry, once it is made full. -/
def HasAt (store : Native) (path : Path) (entry : Entry) : Prop :=
  store.tree.HasAt store.directory (store.fullPath path) entry

/-- How a read may end, by what the path leads to. Where it leads to nothing, either nothing was found,
or the words of the failure are kept. -/
inductive Ends (store : Native) (path : Path) : Except Error Bytes → Prop where
  | file {content : Bytes} (has : store.HasAt path (.file content)) : Ends store path (.ok content)
  | directory (has : store.HasAt path .directory) :
    Ends store path (.error (.notAFile (store.fullPath path).text))
  | notFound (nothing : ∀ entry, ¬store.HasAt path entry) :
    Ends store path (.error (.notFound (store.fullPath path).text))
  | unreadable (nothing : ∀ entry, ¬store.HasAt path entry) (message : String) :
    Ends store path (.error (.unreadable (store.fullPath path).text message))

/-- A store answers at one path as another store does at another. -/
structure Alike (s t : Native) (p q : Path) : Prop where
  read : s.read p = t.read q
  holds : s.holds p = t.holds q
  holdsFile : s.holdsFile p = t.holdsFile q

theorem hasAt_iff : store.HasAt path entry ↔
    store.tree.status? store.directory (store.fullPath path) = some entry :=
  (Tree.status?_eq_some_iff store.isDirectory).symm

/-- A path leads to one entry at most. -/
theorem HasAt.unique (h : store.HasAt path entry) (h' : store.HasAt path other) : entry = other := by
  rw [hasAt_iff] at h h'
  rw [h] at h'
  exact Option.some.inj h'

theorem holds_iff : store.holds path ↔ ∃ entry, store.HasAt path entry := by
  rw [holds, Tree.holds, Option.isSome_iff_exists]
  exact exists_congr fun _ => hasAt_iff.symm

theorem holdsFile_iff : store.holdsFile path ↔ ∃ content, store.HasAt path (.file content) := by
  simp only [hasAt_iff]
  rw [holdsFile, Tree.holdsFile]
  rcases store.tree.status? store.directory (store.fullPath path) with _ | content | _ <;> simp

/-- The checks tell a directory by what it is not. -/
theorem hasAt_directory_iff :
    store.HasAt path .directory ↔ store.holds path ∧ ¬store.holdsFile path := by
  rw [holds_iff, holdsFile_iff]
  constructor
  · intro has
    refine ⟨⟨_, has⟩, fun ⟨content, file⟩ => ?_⟩
    exact Entry.noConfusion (has.unique file)
  · rintro ⟨⟨entry, has⟩, noFile⟩
    cases entry with
    | file content => exact absurd ⟨content, has⟩ noFile
    | directory => exact has

theorem read_of_file {content : Bytes} (h : store.HasAt path (.file content)) :
    store.read path = .ok content := by
  rw [hasAt_iff] at h
  rw [read, Tree.holdsDirectory, h, Tree.load_eq_ok_iff.mpr h]
  rfl

theorem read_of_directory (h : store.HasAt path .directory) :
    store.read path = .error (.notAFile (store.fullPath path).text) := by
  rw [hasAt_iff] at h
  rw [read, Tree.holdsDirectory, h]
  rfl

theorem read_of_nothing (h : ∀ entry, ¬store.HasAt path entry) :
    ∃ cause : LookupError, store.read path =
      .error (.ofCause (store.fullPath path).text (AccessError.lookup cause).cause) := by
  have nothing : store.tree.status? store.directory (store.fullPath path) = none := by
    rw [Option.eq_none_iff_forall_ne_some]
    intro entry found
    exact h entry (hasAt_iff.mpr found)
  obtain ⟨cause, load⟩ := Tree.load_of_nothing nothing
  refine ⟨cause, ?_⟩
  rw [read, Tree.holdsDirectory, nothing, load]
  rfl

theorem read_ends (store : Native) (path : Path) : store.Ends path (store.read path) := by
  by_cases found : ∃ entry, store.HasAt path entry
  · obtain ⟨entry, has⟩ := found
    cases entry with
    | file content =>
      rw [read_of_file has]
      exact .file has
    | directory =>
      rw [read_of_directory has]
      exact .directory has
  · have nothing : ∀ entry, ¬store.HasAt path entry := not_exists.mp found
    obtain ⟨cause, same⟩ := read_of_nothing nothing
    rw [same]
    cases cause with
    | missing => exact .notFound nothing
    | notADirectory | nameTooLong | embeddedNul => exact .unreadable nothing _

theorem read_eq_ok_iff {content : Bytes} :
    store.read path = .ok content ↔ store.HasAt path (.file content) := by
  constructor
  · intro same
    have ends := store.read_ends path
    rw [same] at ends
    cases ends with
    | file has => exact has
  · exact read_of_file

theorem exists_notAFile_iff :
    (∃ named, store.read path = .error (.notAFile named)) ↔ store.HasAt path .directory := by
  constructor
  · rintro ⟨named, same⟩
    have ends := store.read_ends path
    rw [same] at ends
    cases ends with
    | directory has => exact has
  · intro has
    exact ⟨_, read_of_directory has⟩

/-- A read finds nothing exactly where nothing is. -/
theorem exists_absent_iff :
    (∃ named, store.read path = .error (.notFound named) ∨
      ∃ message, store.read path = .error (.unreadable named message)) ↔
        ∀ entry, ¬store.HasAt path entry := by
  have ends := store.read_ends path
  constructor
  · rintro ⟨named, same | ⟨message, same⟩⟩
    · rw [same] at ends
      cases ends with
      | notFound nothing => exact nothing
    · rw [same] at ends
      cases ends with
      | unreadable nothing => exact nothing
  · intro nothing
    generalize store.read path = result at ends ⊢
    cases ends with
    | file has => exact absurd has (nothing _)
    | directory has => exact absurd has (nothing _)
    | notFound => exact ⟨_, .inl rfl⟩
    | unreadable _ message => exact ⟨_, .inr ⟨message, rfl⟩⟩

/-- A failure of a read names the full path. -/
theorem path_of_read {e : Error} (h : store.read path = .error e) :
    e.path = (store.fullPath path).text := by
  have ends := store.read_ends path
  rw [h] at ends
  cases ends <;> rfl

/-- Stores over one tree answer alike at paths of one full path. -/
theorem alike_of_fullPath {s t : Native} {p q : Path} (tree : s.tree = t.tree)
    (directory : s.directory = t.directory) (full : s.fullPath p = t.fullPath q) :
    Alike s t p q where
  read := by simp only [read, tree, directory, full]
  holds := by simp only [holds, tree, directory, full]
  holdsFile := by simp only [holdsFile, tree, directory, full]

/-- Reads and checks fit together at every path of every tree: a read gives the bytes of the file to
which the path leads, it refuses a path that leads to something else, and it fails otherwise, each of
them exactly where the checks say so, and every failure names the full path. A base stands in front of
relative paths and changes nothing else. -/
theorem reads_agree_with_checks (store : Native) (path : Path) :
    (∀ content, store.read path = .ok content ↔ store.HasAt path (.file content)) ∧
    (store.holds path ↔ ∃ entry, store.HasAt path entry) ∧
    ((∃ content, store.read path = .ok content) ↔ store.holdsFile path) ∧
    ((∃ named, store.read path = .error (.notAFile named)) ↔
      store.holds path ∧ ¬store.holdsFile path) ∧
    ((∃ named, store.read path = .error (.notFound named) ∨
      ∃ message, store.read path = .error (.unreadable named message)) ↔ ¬store.holds path) ∧
    (∀ e, store.read path = .error e → e.path = (store.fullPath path).text) ∧
    ∀ base : Path,
      let based : Native := { store with base := some base }
      let plain : Native := { store with base := none }
      (path.isAbsolute → based.fullPath path = path ∧ Alike based plain path path) ∧
      (¬path.isAbsolute →
        based.fullPath path = base.join path ∧ Alike based plain path (base.join path)) := by
  refine ⟨fun _ => read_eq_ok_iff, holds_iff, ?_, ?_, ?_, fun _ => path_of_read, fun base => ?_⟩
  · rw [holdsFile_iff]
    exact exists_congr fun _ => read_eq_ok_iff
  · rw [← hasAt_directory_iff]
    exact exists_notAFile_iff
  · rw [holds_iff, not_exists]
    exact exists_absent_iff
  · refine ⟨fun absolute => ?_, fun relative => ?_⟩
    · have full : ({ store with base := some base } : Native).fullPath path = path := if_pos absolute
      exact ⟨full, alike_of_fullPath rfl rfl full⟩
    · have full : ({ store with base := some base } : Native).fullPath path = base.join path :=
        if_neg relative
      exact ⟨full, alike_of_fullPath rfl rfl full⟩

def oneFile : Native :=
  { tree := Tree.insert {} ["w", "a.txt"] (.file [104, 105]), base := some ⟨"/w"⟩ }

/-- Under its base the file is read by its name, and a separator behind the name asks for a directory
that is not there. -/
theorem oneFile_agrees :
    oneFile.read ⟨"a.txt"⟩ = .ok [104, 105] ∧ oneFile.HasAt ⟨"a.txt"⟩ (.file [104, 105]) ∧
      oneFile.read ⟨"a.txt/"⟩ = .error (.unreadable "/w/a.txt/" "Not a directory (os error 20)") ∧
      ¬oneFile.holds ⟨"a.txt/"⟩ ∧
      ¬(⟨"a.txt/"⟩ : Path).isAbsolute ∧
      Alike oneFile { oneFile with base := none } ⟨"a.txt/"⟩ (Path.join ⟨"/w"⟩ ⟨"a.txt/"⟩) := by
  have read : oneFile.read ⟨"a.txt"⟩ = .ok [104, 105] := rfl
  have failed : oneFile.read ⟨"a.txt/"⟩ =
      .error (.unreadable "/w/a.txt/" "Not a directory (os error 20)") := rfl
  have relative : ¬(⟨"a.txt/"⟩ : Path).isAbsolute := by decide
  obtain ⟨_, _, _, _, absent, _, bases⟩ := reads_agree_with_checks oneFile ⟨"a.txt/"⟩
  refine ⟨read, ((reads_agree_with_checks oneFile ⟨"a.txt"⟩).1 _).mp read, failed,
    absent.mp ⟨_, .inr ⟨_, failed⟩⟩, relative, ?_⟩
  exact ((bases ⟨"/w"⟩).2 relative).2

end Native
end Isolate.Store
