import Isolate.Proofs.Project.Reading

/-!
# The texts of project files

A project that is written to a file is read back as it was, or refused for the first thing that is wrong
with it; what is read from any file is a valid project. How a file is spelled does not matter.
-/

namespace Isolate.Project

open Json (Tree)

/-- The first rule without patterns. -/
structure IsFirstEmpty (rules : List Rule) (index : Nat) (rule : Rule) : Prop where
  isAt : rules[index]? = some rule
  isEmpty : rule.patterns = []
  isFirst : ∀ earlier < index, ∀ other, rules[earlier]? = some other → other.patterns ≠ []

theorem emptyRule?_eq_none_iff (index : Nat) (rules : List Rule) :
    emptyRule? index rules = none ↔ ∀ rule ∈ rules, rule.patterns ≠ [] := by
  induction rules generalizing index with
  | nil => simp [emptyRule?]
  | cons rule rules ih =>
    rw [emptyRule?, List.forall_mem_cons, ← ih (index + 1)]
    by_cases isEmpty : rule.patterns = []
    · simp [isEmpty]
    · simp [isEmpty]

theorem exists_isFirstEmpty {rules : List Rule} {index place : Nat} {kind : String}
    (is : emptyRule? index rules = some (place, kind)) :
    ∃ offset rule, place = index + offset ∧ kind = rule.kind ∧ IsFirstEmpty rules offset rule := by
  induction rules generalizing index with
  | nil => contradiction
  | cons rule rules ih =>
    rw [emptyRule?] at is
    split at is
    next isEmpty =>
      cases is
      refine ⟨0, rule, rfl, rfl, rfl, List.isEmpty_iff.mp isEmpty, ?_⟩
      intro earlier less
      contradiction
    next notEmpty =>
      obtain ⟨offset, found, rfl, rfl, isFirstEmpty⟩ := ih is
      refine ⟨offset + 1, found, by omega, rfl, isFirstEmpty.isAt, isFirstEmpty.isEmpty, ?_⟩
      intro earlier less other isAt
      cases earlier with
      | zero =>
        cases isAt
        exact fun same => notEmpty (List.isEmpty_iff.mpr same)
      | succ earlier =>
        exact isFirstEmpty.isFirst earlier (by omega) other isAt

/-- A valid project has an entry and no rule without patterns. -/
structure Valid (project : Project) : Prop where
  entry_ne : project.entry ≠ ""
  patterns_ne : ∀ rule ∈ project.rules, rule.patterns ≠ []

variable {project : Project}

theorem check_emptyEntry (isEmpty : project.entry = "") : project.check = .error .emptyEntry := by
  rw [check, isEmpty]
  rfl

theorem check_of_ne (notEmpty : project.entry ≠ "") :
    project.check = match emptyRule? 0 project.rules with
      | some (index, kind) => .error (.emptyRule index kind)
      | none => .ok project := by
  have notEmpty : ¬ project.entry.isEmpty = true := fun isEmpty =>
    notEmpty (String.isEmpty_iff.mp isEmpty)
  exact if_neg notEmpty

theorem check_valid (valid : project.Valid) : project.check = .ok project := by
  rw [check_of_ne valid.entry_ne, (emptyRule?_eq_none_iff 0 _).mpr valid.patterns_ne]

theorem check_emptyRule (notEmpty : project.entry ≠ "")
    (isIncomplete : ∃ rule ∈ project.rules, rule.patterns = []) :
    ∃ index rule, IsFirstEmpty project.rules index rule ∧
      project.check = .error (.emptyRule index rule.kind) := by
  rw [check_of_ne notEmpty]
  cases is : emptyRule? 0 project.rules with
  | none =>
    obtain ⟨rule, isRule, isEmpty⟩ := isIncomplete
    exact absurd isEmpty ((emptyRule?_eq_none_iff 0 _).mp is rule isRule)
  | some found =>
    obtain ⟨index, rule, isPlace, isKind, isFirstEmpty⟩ := exists_isFirstEmpty is
    refine ⟨index, rule, isFirstEmpty, ?_⟩
    rw [← isKind, ← Nat.zero_add index, ← isPlace]

/-- What passes the check is valid and unchanged. -/
theorem valid_of_check {project' : Project} (is : project.check = .ok project') :
    project = project' ∧ project.Valid := by
  by_cases notEmpty : project.entry = ""
  · rw [check_emptyEntry notEmpty] at is
    contradiction
  · rw [check_of_ne notEmpty] at is
    split at is
    next => contradiction
    next isNone =>
      cases is
      exact ⟨rfl, notEmpty, (emptyRule?_eq_none_iff 0 _).mp isNone⟩

theorem hasInts_toJson (project : Project) : Json.HasInts (fun _ => True) project.toJson := by
  simp [toJson, Rule.toJson, Policy.toJson, Limits.toJson]

/-- The compact and the indented file of a project. -/
def WrittenAs (project : Project) (text : String) : Prop :=
  text = project.toJson.toText ∨ text = project.toJson.toIndentedText

theorem WrittenAs.isText {text : String} (isWritten : project.WrittenAs text) :
    Json.IsText (.ofJson project.toJson) text.toList := by
  obtain rfl | rfl := isWritten
  · rw [Json.toText, String.toList_ofList]
    exact (Json.spells_write project.hasInts_toJson).isText
  · rw [Json.toIndentedText, String.toList_ofList]
    exact (Json.spells_writeIndented project.hasInts_toJson 0).isText

/-- A written project is read as it was, and then checked. -/
theorem WrittenAs.ofText_eq {text : String} (isWritten : project.WrittenAs text)
    (fit : project.limits.Fit) : ofText text = project.check := by
  have isRead : Json.readText reader text = .ok project :=
    (Json.readText_eq_ok_iff (finds_reader _) isWritten.isText).mpr (meaning_toJson fit)
  rw [ofText, isRead]

/-- Project files decode to exactly the valid projects. A project whose limits fit is read back from
either form of its file if it is valid; without an entry, or else with a rule without patterns, it is
refused for that, the first such rule being named. Whatever is read from any text is valid. -/
theorem files_hold_valid_projects :
    (∀ (project : Project) (text : String), project.limits.Fit → project.WrittenAs text →
      (project.Valid → ofText text = .ok project) ∧
        (project.entry = "" → ofText text = .error .emptyEntry) ∧
          (project.entry ≠ "" → (∃ rule ∈ project.rules, rule.patterns = []) →
            ∃ index rule, IsFirstEmpty project.rules index rule ∧
              ofText text = .error (.emptyRule index rule.kind))) ∧
      ∀ (text : String) (project : Project), ofText text = .ok project → project.Valid := by
  constructor
  · intro project text fit isWritten
    rw [isWritten.ofText_eq fit]
    exact ⟨check_valid, check_emptyEntry, check_emptyRule⟩
  · intro text project is
    rw [ofText] at is
    split at is
    next => contradiction
    next isRead =>
      obtain ⟨rfl, valid⟩ := valid_of_check is
      exact valid

/-- A project with characters to escape and the default limit of all 64 bits. -/
theorem escapes_survive_the_file :
    let project : Project :=
      { entry := "src/é\\\x01.mjs", rules := [⟨"Text\n", ["**/*.\"txt\""]⟩] }
    ofText project.toJson.toText = .ok project ∧
      ofText { project with entry := "" }.toJson.toIndentedText = .error .emptyEntry := by
  intro project
  refine ⟨(files_hold_valid_projects.1 project _ Limits.fit_default (.inl rfl)).1 ?_,
    (files_hold_valid_projects.1 { project with entry := "" } _ Limits.fit_default (.inr rfl)).2.1 rfl⟩
  exact ⟨by decide, by decide⟩

/-- All spellings of a project file mean the same. A file that can be read is a text of some tree, and
every text of an alike tree holds the same project: with the members of objects in another order, with
other blanks between the tokens, with members of unknown names, with default values written out or left
out, and with a record written as the list of its fields. -/
theorem spellings_agree (text : String) (project : Project)
    (isRead : Json.readText reader text = .ok project) :
    (∃ tree, Json.IsText tree text.toList) ∧
      ∀ tree tree' text', Json.IsText tree text.toList → Json.Alike fields tree tree' →
        Json.IsText tree' text'.toList →
          Json.readText reader text' = .ok project ∧ ofText text' = ofText text := by
  refine ⟨Json.exists_isText_of_readText takesValues_reader isRead, ?_⟩
  intro tree tree' text' isText alike isText'
  have isMeant := (Json.readText_eq_ok_iff (finds_reader tree) isText).mp isRead
  have same : record.meaning tree = record.meaning tree' := record.meaning_congr alike
  have isRead' : Json.readText reader text' = .ok project :=
    (Json.readText_eq_ok_iff (finds_reader tree') isText').mpr (same.symm.trans isMeant)
  refine ⟨isRead', ?_⟩
  rw [ofText, ofText, isRead, isRead']

/-- The same project as an object and, with a default value written out, as an indented list. -/
theorem list_agrees_with_object :
    ofText "[\n  \"a.mjs\",\n  true\n]" = ofText "\x7b\"entry\":\"a.mjs\"\x7d" := by
  have isText : Json.IsText (.ofJson (.object [("entry", .string "a.mjs")]))
      "\x7b\"entry\":\"a.mjs\"\x7d".toList := by
    have ints : Json.HasInts (fun _ => True) (.object [("entry", .string "a.mjs")]) := by simp
    exact (Json.spells_write ints).isText
  have isText' : Json.IsText (.ofJson (.array [.string "a.mjs", .bool true]))
      "[\n  \"a.mjs\",\n  true\n]".toList := by
    have ints : Json.HasInts (fun _ => True) (.array [.string "a.mjs", .bool true]) := by simp
    exact (Json.spells_writeIndented ints 0).isText
  have isRead : Json.readText reader "\x7b\"entry\":\"a.mjs\"\x7d" = .ok { entry := "a.mjs" } :=
    (Json.readText_eq_ok_iff (finds_reader _) isText).mpr rfl
  have isField : Json.Field.plain "modules" (some (.bool true)) ∈ fields :=
    List.mem_cons_of_mem _ List.mem_cons_self
  have isOmitted : ∀ member ∈ [(some "entry", Tree.string (some "a.mjs"))] ++ [],
      member.1 ≠ some "modules" := by simp
  have asList : Json.Alike fields (.list [.string (some "a.mjs"), .bool true]) _ :=
    .listed (by decide)
  have alike := (Json.Alike.omitted isField rfl isOmitted).trans asList.symm
  exact ((spellings_agree _ _ isRead).2 _ _ _ isText alike isText').2

end Isolate.Project
