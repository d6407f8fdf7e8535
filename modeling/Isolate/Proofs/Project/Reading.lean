import Isolate.Proofs.Project.Fields

/-!
# Readers of project files

The reader of each record finds what its slots say, in an object and in a list, and takes only syntax
trees.
-/

namespace Isolate

open Json (Tree Finds TakesValues FindsMember TakesMember ReadsFields TakesItems)

namespace Policy

theorem readList_eq : readList = fun cursor =>
    (Json.element? true Json.boolValue cursor).andThen fun first cursor =>
      .value { allowCodeGeneration := first.getD false } cursor :=
  funext fun _ => Json.Outcome.map_eq_andThen _ _

theorem reader_eq : reader = Json.recordValue "SandboxPolicy" readList fun cursor =>
    (Json.members readMember (cursor.rest.length + 1) true {} cursor).andThen fun draft cursor =>
      .value draft.finish cursor :=
  congrArg (Json.recordValue _ readList) (funext fun _ => Json.Outcome.map_eq_andThen _ _)

theorem findsMember (tree : Tree) : FindsMember readMember (Json.put record.slots) tree :=
  Json.findsMember_field (Json.finds_boolValue tree) Json.findsMember_ignored

theorem readsFields : ReadsFields record.slots record.finish record.start true readList := by
  rw [readList_eq]
  refine Json.readsFields_element? rfl Json.finds_boolValue ?_ Json.endsList_value
  intro value
  exact Json.readsFields_value rfl

theorem finds_reader (tree : Tree) : Finds reader record.meaning tree := by
  rw [reader_eq]
  exact Json.finds_recordValue readsFields findsMember (fun _ _ _ => .value) tree

theorem takesValues_reader : TakesValues reader := by
  rw [reader_eq]
  refine Json.takesValues_recordValue ?_ ?_ ?_
  · rw [readList_eq]
    exact Json.takesItems_element? Json.takesValues_boolValue (fun _ => Json.takesItems_value _)
      (Json.takesNothing_value _)
  · intro name draft
    exact Json.takesMember_field Json.takesValues_boolValue (Json.takesMember_ignored draft)
  · rintro draft cursor policy _ ⟨⟩
    rfl

end Policy

namespace Limits

theorem readList_eq : readList = fun cursor =>
    (Json.element? true readIterations cursor).andThen fun iterations cursor =>
      (Json.element? iterations.isNone readSize cursor).andThen fun depth cursor =>
        (Json.element? depth.isNone readSize cursor).andThen fun size cursor =>
          .value (Draft.finish ⟨iterations, depth, size⟩) cursor := by
  funext cursor
  rw [readList]
  simp only [Json.Outcome.map_eq_andThen]

theorem reader_eq : reader = Json.recordValue "LimitConfig" readList fun cursor =>
    (Json.members readMember (cursor.rest.length + 1) true {} cursor).andThen fun draft cursor =>
      .value draft.finish cursor :=
  congrArg (Json.recordValue _ readList) (funext fun _ => Json.Outcome.map_eq_andThen _ _)

theorem findsMember (tree : Tree) : FindsMember readMember (Json.put record.slots) tree :=
  Json.findsMember_field (Json.finds_unsignedValue "u64" tree)
    (Json.findsMember_field (Json.finds_unsignedValue "usize" tree)
      (Json.findsMember_field (Json.finds_unsignedValue "usize" tree) Json.findsMember_ignored))

theorem readsFields : ReadsFields record.slots record.finish record.start true readList := by
  rw [readList_eq]
  have size : ∀ tree, Finds readSize Tree.unsigned? tree := Json.finds_unsignedValue "usize"
  refine Json.readsFields_element? rfl (Json.finds_unsignedValue "u64") ?_ ?_
  · intro iterations
    refine Json.readsFields_element? rfl size ?_ ?_
    · intro depth
      refine Json.readsFields_element? rfl size ?_ Json.endsList_value
      intro size
      exact Json.readsFields_value rfl
    · apply Json.endsList_element?
      exact Json.endsList_value
  · apply Json.endsList_element?
    apply Json.endsList_element?
    exact Json.endsList_value

theorem finds_reader (tree : Tree) : Finds reader record.meaning tree := by
  rw [reader_eq]
  exact Json.finds_recordValue readsFields findsMember (fun _ _ _ => .value) tree

theorem takesItems_readList : TakesItems true readList := by
  rw [readList_eq]
  have size : TakesValues readSize := Json.takesValues_unsignedValue "usize"
  refine Json.takesItems_element? (Json.takesValues_unsignedValue "u64") ?_ ?_
  · intro iterations
    refine Json.takesItems_element? size ?_ ?_
    · intro depth
      exact Json.takesItems_element? size (fun _ => Json.takesItems_value _)
        (Json.takesNothing_value _)
    · apply Json.takesNothing_element?
      exact Json.takesNothing_value _
  · apply Json.takesNothing_element?
    apply Json.takesNothing_element?
    exact Json.takesNothing_value _

theorem takesValues_reader : TakesValues reader := by
  rw [reader_eq]
  refine Json.takesValues_recordValue takesItems_readList ?_ ?_
  · intro name draft
    have size : TakesValues readSize := Json.takesValues_unsignedValue "usize"
    exact Json.takesMember_field (Json.takesValues_unsignedValue "u64")
      (Json.takesMember_field size (Json.takesMember_field size (Json.takesMember_ignored draft)))
  · rintro draft cursor limits _ ⟨⟩
    rfl

end Limits

namespace Rule

theorem finds_readPatterns (tree : Tree) : Finds readPatterns (Tree.list? Tree.string?) tree :=
  Json.finds_listValue (Json.finds_stringValue "a string") tree

theorem takesValues_readPatterns : TakesValues readPatterns :=
  Json.takesValues_listValue (Json.takesValues_stringValue "a string")

theorem findsMember (tree : Tree) : FindsMember readMember (Json.put record.slots) tree :=
  Json.findsMember_field (Json.finds_stringValue "a string" tree)
    (Json.findsMember_field (finds_readPatterns tree) Json.findsMember_ignored)

theorem readsFields : ReadsFields record.slots record.finish record.start true readList := by
  refine Json.readsFields_element? rfl (Json.finds_stringValue "a string") ?_
    (Json.endsList_unplaced _)
  intro kind
  refine Json.readsFields_element? rfl finds_readPatterns ?_ (Json.endsList_unplaced _)
  intro patterns
  exact Json.readsFields_value rfl

theorem finish_tells (draft : Draft) {cursor : Json.Cursor} {rest : List Char}
    (before : cursor.Before rest) : (draft.finish cursor).Tells draft.rule? rest := by
  obtain ⟨_ | kind, _ | patterns⟩ := draft
  · exact .unplaced _ _
  · exact .unplaced _ _
  · exact .unplaced _ _
  · exact .value before

theorem finds_reader (tree : Tree) : Finds reader record.meaning tree :=
  Json.finds_recordValue readsFields findsMember (fun draft _ _ => finish_tells draft) tree

theorem takesItems_readList : TakesItems true readList := by
  refine Json.takesItems_element? (Json.takesValues_stringValue "a string") ?_
    (Json.takesNothing_unplaced _)
  intro kind
  refine Json.takesItems_element? takesValues_readPatterns ?_ (Json.takesNothing_unplaced _)
  intro patterns
  exact Json.takesItems_value _

theorem takesValues_reader : TakesValues reader := by
  refine Json.takesValues_recordValue takesItems_readList ?_ ?_
  · intro name draft
    exact Json.takesMember_field (Json.takesValues_stringValue "a string")
      (Json.takesMember_field takesValues_readPatterns (Json.takesMember_ignored draft))
  · rintro ⟨_ | kind, _ | patterns⟩ cursor rule cursor' is <;> cases is
    rfl

end Rule

namespace Project

theorem findsMember (tree : Tree) : FindsMember readMember (Json.put record.slots) tree :=
  Json.findsMember_field (Json.finds_stringValue "path string" tree)
    (Json.findsMember_field (Json.finds_boolValue tree)
      (Json.findsMember_field (Json.finds_listValue Rule.finds_reader tree)
        (Json.findsMember_field (Policy.finds_reader tree)
          (Json.findsMember_field (Limits.finds_reader tree) Json.findsMember_ignored))))

theorem readsFields : ReadsFields record.slots record.finish record.start true readList := by
  refine Json.readsFields_element? rfl (Json.finds_stringValue "path string") ?_
    (Json.endsList_unplaced _)
  intro entry
  refine Json.readsFields_element? rfl Json.finds_boolValue ?_ ?_
  · intro modules
    refine Json.readsFields_element? rfl (Json.finds_listValue Rule.finds_reader) ?_ ?_
    · intro rules
      refine Json.readsFields_element? rfl Policy.finds_reader ?_ ?_
      · intro policy
        refine Json.readsFields_element? rfl Limits.finds_reader ?_ Json.endsList_value
        intro limits
        exact Json.readsFields_value rfl
      · apply Json.endsList_element?
        exact Json.endsList_value
    · apply Json.endsList_element?
      apply Json.endsList_element?
      exact Json.endsList_value
  · apply Json.endsList_element?
    apply Json.endsList_element?
    apply Json.endsList_element?
    exact Json.endsList_value

theorem finish_tells (draft : Draft) {cursor : Json.Cursor} {rest : List Char}
    (before : cursor.Before rest) : (draft.finish cursor).Tells draft.project? rest := by
  obtain ⟨_ | entry, modules, rules, policy, limits⟩ := draft
  · exact .unplaced _ _
  · exact .value before

theorem finds_reader (tree : Tree) : Finds reader record.meaning tree :=
  Json.finds_recordValue readsFields findsMember (fun draft _ _ => finish_tells draft) tree

theorem takesNothing_finish (draft : Draft) : Json.TakesNothing draft.finish := by
  obtain ⟨_ | entry, modules, rules, policy, limits⟩ := draft
  · exact Json.takesNothing_unplaced _
  · exact Json.takesNothing_value _

theorem takesItems_readList : TakesItems true readList := by
  refine Json.takesItems_element? (Json.takesValues_stringValue "path string") ?_
    (Json.takesNothing_unplaced _)
  intro entry
  refine Json.takesItems_element? Json.takesValues_boolValue ?_ ?_
  · intro modules
    refine Json.takesItems_element? (Json.takesValues_listValue Rule.takesValues_reader) ?_ ?_
    · intro rules
      refine Json.takesItems_element? Policy.takesValues_reader ?_ ?_
      · intro policy
        refine Json.takesItems_element? Limits.takesValues_reader ?_ (takesNothing_finish _)
        intro limits
        exact Json.takesItems_value _
      · apply Json.takesNothing_element?
        exact takesNothing_finish _
    · apply Json.takesNothing_element?
      apply Json.takesNothing_element?
      exact takesNothing_finish _
  · apply Json.takesNothing_element?
    apply Json.takesNothing_element?
    apply Json.takesNothing_element?
    exact takesNothing_finish _

theorem takesValues_reader : TakesValues reader := by
  refine Json.takesValues_recordValue takesItems_readList ?_ ?_
  · intro name draft
    exact Json.takesMember_field (Json.takesValues_stringValue "path string")
      (Json.takesMember_field Json.takesValues_boolValue
        (Json.takesMember_field (Json.takesValues_listValue Rule.takesValues_reader)
          (Json.takesMember_field Policy.takesValues_reader
            (Json.takesMember_field Limits.takesValues_reader (Json.takesMember_ignored draft)))))
  · rintro ⟨_ | entry, modules, rules, policy, limits⟩ cursor project cursor' is <;> cases is
    rfl

end Project

end Isolate
