import Isolate.Project.Reader
import Isolate.Proofs.Json.Printing
import Isolate.Proofs.Json.Records

/-!
# The fields of project files

The records in a project file, each by its fields: what a field is called, which of its values are the
same in another spelling, and which value may be left out. The slots say where a field goes in the draft
of its record.
-/

namespace Isolate

open Json (Tree Field Slot Record)

/-- The same list, spelled in two ways: element by element. -/
def Json.Tree.ListAlike (alike : Tree → Tree → Prop) (tree tree' : Tree) : Prop :=
  ∃ items items', tree = .list items ∧ tree' = .list items' ∧ List.Forall₂ alike items items'

theorem Json.Tree.list?_congr {α : Type} {meaning : Tree → Option α} {alike : Tree → Tree → Prop}
    {tree tree' : Tree} (listAlike : tree.ListAlike alike tree')
    (congr : ∀ tree tree', alike tree tree' → meaning tree = meaning tree') :
    tree.list? meaning = tree'.list? meaning := by
  obtain ⟨items, items', rfl, rfl, areAlike⟩ := listAlike
  rw [Tree.list?, Tree.list?]
  induction areAlike with
  | nil => rfl
  | cons isAlike _ ih => rw [mapM_cons_option, mapM_cons_option, congr _ _ isAlike, ih]

/-- A number that fits is read as written. -/
theorem Json.Tree.unsigned?_ofJson {n : Nat} (fits : n ≤ maxUnsigned) :
    (Tree.ofJson (.int n)).unsigned? = some n := by
  have notNegative : ¬ (n : Int) < 0 := by omega
  have same : (NumberText.ofInt n).int? = some (n : Int) := by
    simp [NumberText.ofInt, NumberText.int?, fits, notNegative]
  rw [Tree.ofJson, Tree.unsigned?, same]
  rfl

/-- A list is read element by element. -/
theorem Json.Tree.list?_ofJson {α : Type} {meaning : Tree → Option α} {toJson : α → Json}
    {items : List α} (isRead : ∀ item ∈ items, meaning (.ofJson (toJson item)) = some item) :
    (Tree.ofJson (.array (items.map toJson))).list? meaning = some items := by
  rw [Tree.ofJson, Tree.ofItems_eq, Tree.list?]
  induction items with
  | nil => rfl
  | cons item items ih =>
    obtain ⟨first, others⟩ := List.forall_mem_cons.mp isRead
    simp only [List.map_cons, mapM_cons_option, first, ih others, Option.bind_some,
      Option.map_some]

def Json.Field.plain (name : String) (default? : Option Json) : Field :=
  ⟨name, Eq, default?.map Tree.ofJson⟩

def Json.Slot.plain {σ Value : Type} (name : String) (default? : Option Json)
    (meaning : Tree → Option Value) (get : σ → Option Value) (set : Value → σ → σ)
    (get_set : ∀ value draft, get (set value draft) = some value) : Slot σ where
  field := .plain name default?
  Value := Value
  meaning := meaning
  get := get
  set := set
  get_set := get_set
  congr := congrArg meaning

namespace Policy

def fields : List Field :=
  [.plain "allowCodeGeneration" (some (.bool ({} : Policy).allowCodeGeneration))]

/-- The place of the permission to compile strings. -/
def codeGeneration : Slot Draft :=
  .plain "allowCodeGeneration" (some (.bool ({} : Policy).allowCodeGeneration)) Tree.bool?
    Draft.allowCodeGeneration (fun value draft => { draft with allowCodeGeneration := some value })
    fun _ _ => rfl

theorem hasDefault : codeGeneration.HasDefault fun draft => some draft.finish := by
  refine Slot.hasDefault_of_some rfl rfl ?_
  rintro ⟨allowCodeGeneration⟩ ⟨⟩
  rfl

def record : Record Draft Policy where
  slots := [codeGeneration]
  apart := List.pairwise_singleton _ _
  start := {}
  isEmpty := List.forall_mem_singleton.mpr rfl
  finish := fun draft => some draft.finish
  isDefault := List.forall_mem_singleton.mpr hasDefault

/-- A policy is read as it is written. -/
theorem meaning_toJson (policy : Policy) : record.meaning (.ofJson policy.toJson) = some policy := by
  let items : List Tree := [.bool policy.allowCodeGeneration]
  have isListed : record.meaning (.list items) = _ := record.meaning_listed (Nat.le_refl 1)
  refine isListed.symm.trans ?_
  rw [Record.meaning]
  rfl

end Policy

namespace Limits

/-- Limits that numbers of 64 bits can hold. -/
structure Fit (limits : Limits) : Prop where
  loopIterations : limits.loopIterations ≤ Json.maxUnsigned
  recursionDepth : limits.recursionDepth ≤ Json.maxUnsigned
  stackSize : limits.stackSize ≤ Json.maxUnsigned

theorem fit_default : ({} : Limits).Fit := ⟨by decide, by decide, by decide⟩

def fields : List Field :=
  [.plain "loopIterationLimit" (some (.int ({} : Limits).loopIterations)),
    .plain "maxRecursionDepth" (some (.int ({} : Limits).recursionDepth)),
    .plain "maxStackSize" (some (.int ({} : Limits).stackSize))]

def iterations : Slot Draft :=
  .plain "loopIterationLimit" (some (.int ({} : Limits).loopIterations)) Tree.unsigned?
    Draft.loopIterations (fun value draft => { draft with loopIterations := some value })
    fun _ _ => rfl

def depth : Slot Draft :=
  .plain "maxRecursionDepth" (some (.int ({} : Limits).recursionDepth)) Tree.unsigned?
    Draft.recursionDepth (fun value draft => { draft with recursionDepth := some value })
    fun _ _ => rfl

def size : Slot Draft :=
  .plain "maxStackSize" (some (.int ({} : Limits).stackSize)) Tree.unsigned?
    Draft.stackSize (fun value draft => { draft with stackSize := some value }) fun _ _ => rfl

theorem apart : [iterations, depth, size].Pairwise Slot.Apart := by
  simp only [List.pairwise_cons, List.forall_mem_cons, List.not_mem_nil, false_imp_iff,
    implies_true, and_true, List.Pairwise.nil]
  refine ⟨⟨?_, ?_⟩, ?_⟩
  all_goals exact ⟨by decide, fun _ _ => rfl, fun _ _ => rfl, fun _ _ _ => rfl⟩

theorem hasDefault : ∀ slot ∈ [iterations, depth, size],
    slot.HasDefault fun draft => some draft.finish := by
  refine List.forall_mem_cons.mpr
    ⟨?_, List.forall_mem_cons.mpr ⟨?_, List.forall_mem_singleton.mpr ?_⟩⟩
  · refine Slot.hasDefault_of_some rfl (Tree.unsigned?_ofJson fit_default.loopIterations) ?_
    rintro ⟨iterations, depth, size⟩ ⟨⟩
    rfl
  · refine Slot.hasDefault_of_some rfl (Tree.unsigned?_ofJson fit_default.recursionDepth) ?_
    rintro ⟨iterations, depth, size⟩ ⟨⟩
    rfl
  · refine Slot.hasDefault_of_some rfl (Tree.unsigned?_ofJson fit_default.stackSize) ?_
    rintro ⟨iterations, depth, size⟩ ⟨⟩
    rfl

def record : Record Draft Limits where
  slots := [iterations, depth, size]
  apart := apart
  start := {}
  isEmpty := List.forall_mem_cons.mpr
    ⟨rfl, List.forall_mem_cons.mpr ⟨rfl, List.forall_mem_singleton.mpr rfl⟩⟩
  finish := fun draft => some draft.finish
  isDefault := hasDefault

/-- Limits that fit are read as they are written. -/
theorem meaning_toJson {limits : Limits} (fit : limits.Fit) :
    record.meaning (.ofJson limits.toJson) = some limits := by
  let items : List Tree :=
    [.ofJson (.int limits.loopIterations), .ofJson (.int limits.recursionDepth),
      .ofJson (.int limits.stackSize)]
  have isListed : record.meaning (.list items) = _ := record.meaning_listed (Nat.le_refl 3)
  refine isListed.symm.trans ?_
  rw [Record.meaning, record, Json.putList_cons rfl (Tree.unsigned?_ofJson fit.loopIterations),
    Json.putList_cons rfl (Tree.unsigned?_ofJson fit.recursionDepth),
    Json.putList_cons rfl (Tree.unsigned?_ofJson fit.stackSize)]
  rfl

end Limits

namespace Rule

def fields : List Field := [.plain "type" none, .plain "include" none]

def kindSlot : Slot Draft :=
  .plain "type" none Tree.string? Draft.kind (fun value draft => { draft with kind := some value })
    fun _ _ => rfl

def patternsSlot : Slot Draft :=
  .plain "include" none (Tree.list? Tree.string?) Draft.patterns
    (fun value draft => { draft with patterns := some value }) fun _ _ => rfl

def Draft.rule? (draft : Draft) : Option Rule :=
  draft.kind.bind fun kind => draft.patterns.map fun patterns => ⟨kind, patterns⟩

def record : Record Draft Rule where
  slots := [kindSlot, patternsSlot]
  apart := List.pairwise_pair.mpr
    ⟨by decide, fun _ _ => rfl, fun _ _ => rfl, fun _ _ _ => rfl⟩
  start := {}
  isEmpty := List.forall_mem_cons.mpr ⟨rfl, List.forall_mem_singleton.mpr rfl⟩
  finish := Draft.rule?
  isDefault := List.forall_mem_cons.mpr
    ⟨Slot.hasDefault_of_none rfl, List.forall_mem_singleton.mpr (Slot.hasDefault_of_none rfl)⟩

/-- A rule is read as it is written. -/
theorem meaning_toJson (rule : Rule) : record.meaning (.ofJson rule.toJson) = some rule := by
  let items : List Tree := [.string (some rule.kind), .ofJson (.array (rule.patterns.map .string))]
  have isListed : record.meaning (.list items) = _ := record.meaning_listed (Nat.le_refl 2)
  refine isListed.symm.trans ?_
  rw [Record.meaning, record, Json.putList_cons rfl rfl,
    Json.putList_cons rfl (Tree.list?_ofJson fun _ _ => rfl)]
  rfl

end Rule

namespace Project

/-- The fields of a project. -/
def fields : List Field :=
  [.plain "entry" none,
    .plain "modules" (some (.bool true)),
    ⟨"rules", Tree.ListAlike (Json.Alike Rule.fields), some (.ofJson (.array []))⟩,
    ⟨"policy", Json.Alike Policy.fields, some (.ofJson ({} : Policy).toJson)⟩,
    ⟨"limits", Json.Alike Limits.fields, some (.ofJson ({} : Limits).toJson)⟩]

def entrySlot : Slot Draft :=
  .plain "entry" none Tree.string? Draft.entry (fun value draft => { draft with entry := some value })
    fun _ _ => rfl

def modulesSlot : Slot Draft :=
  .plain "modules" (some (.bool true)) Tree.bool? Draft.modules
    (fun value draft => { draft with modules := some value }) fun _ _ => rfl

def rulesSlot : Slot Draft where
  field := ⟨"rules", Tree.ListAlike (Json.Alike Rule.fields), some (.ofJson (.array []))⟩
  Value := List Rule
  meaning := Tree.list? Rule.record.meaning
  get := Draft.rules
  set value draft := { draft with rules := some value }
  get_set _ _ := rfl
  congr listAlike := Tree.list?_congr listAlike fun _ _ => Rule.record.meaning_congr

def policySlot : Slot Draft where
  field := ⟨"policy", Json.Alike Policy.fields, some (.ofJson ({} : Policy).toJson)⟩
  Value := Policy
  meaning := Policy.record.meaning
  get := Draft.policy
  set value draft := { draft with policy := some value }
  get_set _ _ := rfl
  congr := Policy.record.meaning_congr

def limitsSlot : Slot Draft where
  field := ⟨"limits", Json.Alike Limits.fields, some (.ofJson ({} : Limits).toJson)⟩
  Value := Limits
  meaning := Limits.record.meaning
  get := Draft.limits
  set value draft := { draft with limits := some value }
  get_set _ _ := rfl
  congr := Limits.record.meaning_congr

def Draft.project? (draft : Draft) : Option Project :=
  draft.entry.map fun entry =>
    { entry, modules := draft.modules.getD true, rules := draft.rules.getD []
      policy := draft.policy.getD {}, limits := draft.limits.getD {} }

def slots : List (Slot Draft) := [entrySlot, modulesSlot, rulesSlot, policySlot, limitsSlot]

theorem apart : slots.Pairwise Slot.Apart := by
  simp only [slots, List.pairwise_cons, List.forall_mem_cons, List.not_mem_nil, false_imp_iff,
    implies_true, and_true, List.Pairwise.nil]
  refine ⟨⟨?_, ?_, ?_, ?_⟩, ⟨?_, ?_, ?_⟩, ⟨?_, ?_⟩, ?_⟩
  all_goals exact ⟨by decide, fun _ _ => rfl, fun _ _ => rfl, fun _ _ _ => rfl⟩

theorem hasDefault : ∀ slot ∈ slots, slot.HasDefault Draft.project? := by
  refine List.forall_mem_cons.mpr ⟨?_, List.forall_mem_cons.mpr ⟨?_, List.forall_mem_cons.mpr
    ⟨?_, List.forall_mem_cons.mpr ⟨?_, List.forall_mem_singleton.mpr ?_⟩⟩⟩⟩
  · exact Slot.hasDefault_of_none rfl
  · refine Slot.hasDefault_of_some rfl rfl ?_
    rintro ⟨entry, modules, rules, policy, limits⟩ ⟨⟩
    rfl
  · refine Slot.hasDefault_of_some rfl rfl ?_
    rintro ⟨entry, modules, rules, policy, limits⟩ ⟨⟩
    rfl
  · refine Slot.hasDefault_of_some rfl (Policy.meaning_toJson _) ?_
    rintro ⟨entry, modules, rules, policy, limits⟩ ⟨⟩
    rfl
  · refine Slot.hasDefault_of_some rfl (Limits.meaning_toJson Limits.fit_default) ?_
    rintro ⟨entry, modules, rules, policy, limits⟩ ⟨⟩
    rfl

def record : Record Draft Project where
  slots := slots
  apart := apart
  start := {}
  isEmpty := List.forall_mem_cons.mpr ⟨rfl, List.forall_mem_cons.mpr ⟨rfl, List.forall_mem_cons.mpr
    ⟨rfl, List.forall_mem_cons.mpr ⟨rfl, List.forall_mem_singleton.mpr rfl⟩⟩⟩⟩
  finish := Draft.project?
  isDefault := hasDefault

/-- A project whose limits fit is read as it is written. -/
theorem meaning_toJson {project : Project} (fit : project.limits.Fit) :
    record.meaning (.ofJson project.toJson) = some project := by
  let items : List Tree :=
    [.string (some project.entry), .bool project.modules,
      .ofJson (.array (project.rules.map Rule.toJson)), .ofJson project.policy.toJson,
      .ofJson project.limits.toJson]
  have isListed : record.meaning (.list items) = _ := record.meaning_listed (Nat.le_refl 5)
  refine isListed.symm.trans ?_
  have rules := Tree.list?_ofJson fun rule (_ : rule ∈ project.rules) => Rule.meaning_toJson rule
  have policy := Policy.meaning_toJson project.policy
  have limits := Limits.meaning_toJson fit
  show ((Json.putList slots {} _).bind Draft.project?) = some project
  rw [slots, Json.putList_cons rfl rfl, Json.putList_cons rfl rfl,
    Json.putList_cons rfl rules, Json.putList_cons rfl policy, Json.putList_cons rfl limits]
  rfl

end Project

end Isolate
