import Isolate.Proofs.Script.Past
import Isolate.Proofs.Script.Turns

/-!
# Evaluations that succeed

An evaluation that succeeds, of modules of which none awaits, runs what it comes to in turn. Modules of a
cycle stand on a stack until the one at which the cycle was entered ends; when a root has been evaluated
nothing stands there any more, and all that it leads to has been evaluated.
-/

namespace Isolate.Script

variable {α : Type} {w w' w'' : World} {id other : Nat} {inside : Set Nat}

open World

theorem joinRequested_ok (ready : w.IsReady inside) (done : joinRequested id other w = .ok ⟨⟩ w') :
    w.Idles w' := by
  have reads {β : Type} (rest : World → Action β) : (get >>= rest) w = rest w w := rfl
  have idle (id : Nat) : (w.module id).isWaiting = false := by
    rw [Module.isWaiting, ready.waits]
    rfl
  have joins : w.Idles (left (modifyModule id fun m =>
      { m with lowestIndex := min m.lowestIndex (w.module other).lowestIndex }) w) :=
    idles_modifyModule ⟨⟨_, _, _, _, _, rfl⟩, fun h => h, fun h => h, fun h => h, fun _ => rfl,
      fun _ => Nat.min_le_left _ _⟩ Iff.rfl
  rw [joinRequested, reads] at done
  dsimp only at done
  cases body : (w.module other).body with
  | code unit =>
    rw [body] at done
    dsimp only at done
    by_cases evaluates : (w.module other).status = .evaluating
    · simp only [evaluates, ne_eq, not_true_eq_false, if_true, if_false, idle, Bool.false_eq_true] at done
      obtain ⟨_, joined, begun, ended⟩ := exists_of_bind done
      obtain ⟨-, rfl⟩ := EStateM.Result.ok.inj ended
      exact left_of_ok begun ▸ joins
    · simp only [evaluates, ne_eq, not_false_eq_true, if_true, if_false, idle, Bool.false_eq_true] at done
      cases failed : (w.module ((w.module other).cycleRoot.getD other)).failure with
      | some reason =>
        rw [failed] at done
        contradiction
      | none =>
        rw [failed] at done
        obtain ⟨-, rfl⟩ := EStateM.Result.ok.inj done
        exact .refl w
  | commonJs | fixed =>
    rw [body] at done
    obtain ⟨-, rfl⟩ := EStateM.Result.ok.inj done
    exact .refl w

/-- The cycle of a module has all that stands above it on the stack. -/
theorem takeCycle_of_append {above below : List Nat} (new : id ∉ above) :
    takeCycle id (above ++ id :: below) = (above ++ [id], below) := by
  induction above with
  | nil => rw [List.nil_append, takeCycle, if_pos rfl, List.nil_append]
  | cons first above ih =>
    have apart : first ≠ id := fun same => new (same ▸ List.mem_cons_self)
    rw [List.cons_append, takeCycle, if_neg apart, ih fun member => new (List.mem_cons_of_mem _ member)]
    rfl

/-- The modules of a cycle, whose evaluation has begun, end together. -/
theorem idles_endCycle (ready : w.IsReady inside) (cycle : List Nat)
    (begun : ∀ x ∈ cycle, (w.module x).HasBegun) (known : ∀ x ∈ cycle, x < w.modules.size) :
    let ended := left (cycle.forM fun other => modifyModule other fun m =>
      { m with
        status := if m.waitOrder.isNone then .evaluated else .evaluatingAsync
        cycleRoot := some id }) w
    w.Idles ended ∧ ∀ x ∈ cycle, (ended.module x).status = .evaluated := by
  induction cycle generalizing w with
  | nil => exact ⟨.refl w, fun _ member => absurd member List.not_mem_nil⟩
  | cons first cycle ih =>
    let marked := left (modifyModule first fun m =>
      { m with
        status := if m.waitOrder.isNone then .evaluated else .evaluatingAsync
        cycleRoot := some id }) w
    have ends : (if (w.module first).waitOrder.isNone then ModuleStatus.evaluated
        else .evaluatingAsync) = .evaluated := by rw [ready.waits, Option.isNone_none, if_pos rfl]
    have idles : w.Idles marked := by
      refine idles_modifyModule ?_ ?_
      · rw [ends]
        exact Module.furthers_end _ _
      · exact iff_of_true (Module.hasBegun_of_evaluated ends) (begun first List.mem_cons_self)
    obtain ⟨idles', ended⟩ := ih (ready.furthers idles.toFurthers)
      (fun x member => (idles.begun x).mpr (begun x (List.mem_cons_of_mem first member)))
      (fun x member => by rw [idles.size]; exact known x (List.mem_cons_of_mem first member))
    refine ⟨idles.trans idles', fun x member => ?_⟩
    rcases List.mem_cons.mp member with rfl | later
    · refine (idles'.module x).ended ?_
      rw [module_modifyModule, if_pos ⟨rfl, known x List.mem_cons_self⟩]
      exact ends
    · exact ended x later

/-- A cycle that ends leaves the stack, and otherwise nothing does. -/
theorem endCycle_ok {stack stack' : List Nat × Nat} {above below : List Nat} (ready : w.IsReady inside)
    (stands : w.IsStack stack.1) (split : stack.1 = above ++ id :: below)
    (done : endCycle id stack w = .ok stack' w') :
    w.Idles w' ∧ w'.IsStack stack'.1 ∧ below <:+ stack'.1 ∧
      ((w.module id).lowestIndex = (w.module id).depthIndex → stack'.1 = below) := by
  have reads {β : Type} (rest : World → Action β) : (get >>= rest) w = rest w w := rfl
  rw [endCycle, reads] at done
  dsimp only at done
  split at done
  next lowest =>
    have new : id ∉ above := by
      have nodup := stands.nodup
      rw [split, List.nodup_append] at nodup
      exact fun member => nodup.2.2 id member id List.mem_cons_self rfl
    obtain ⟨_, between, ended, done⟩ := exists_of_bind done
    obtain ⟨rfl, rfl⟩ := EStateM.Result.ok.inj done
    rw [split, takeCycle_of_append new] at ended ⊢
    have parts (x : Nat) : x ∈ stack.1 ↔ x ∈ above ++ [id] ∨ x ∈ below := by
      rw [split, ← List.mem_append, List.append_assoc]
      rfl
    have begun (x : Nat) (member : x ∈ above ++ [id]) : (w.module x).HasBegun :=
      stands.begun x ((parts x).mpr (.inl member))
    obtain ⟨idles, all⟩ := idles_endCycle ready (above ++ [id]) begun fun x member =>
      lt_of_status (Module.ne_unlinked_of_hasBegun (begun x member))
    rw [left_of_ok ended] at idles all
    refine ⟨idles, ⟨?_, fun x member => ?_, fun x had => ?_⟩, List.suffix_refl _, fun _ => rfl⟩
    · have nodup := stands.nodup
      rw [split, List.nodup_append] at nodup
      exact (List.nodup_cons.mp nodup.2.1).2
    · exact (idles.begun x).mpr (stands.begun x ((parts x).mpr (.inr member)))
    · rcases stands.complete x ((idles.begun x).mp had) with before | member
      · exact .inl ((idles.module x).ended before)
      · exact ((parts x).mp member).imp_left (all x)
  next apart =>
    obtain ⟨rfl, rfl⟩ := EStateM.Result.ok.inj done
    exact ⟨.refl w, stands, ⟨above ++ [id], by rw [split, List.append_assoc]; rfl⟩,
      fun same => absurd same apart⟩

theorem recallFailure_ok (done : recallFailure id w = .ok ⟨⟩ w') : w' = w := by
  have reads {β : Type} (rest : World → Action β) : (get >>= rest) w = rest w w := rfl
  rw [recallFailure, reads] at done
  cases failed : (w.module id).failure with
  | some reason =>
    rw [failed] at done
    contradiction
  | none =>
    rw [failed] at done
    exact (EStateM.Result.ok.inj done).2.symm

/-- A module that waits for none and does not await runs at once. -/
theorem runRequesting_eq (ready : w.IsReady inside) (member : id ∈ inside) :
    runRequesting id w = runModule id w := by
  have reads {β : Type} (rest : World → Action β) : (get >>= rest) w = rest w w := rfl
  rw [runRequesting, reads]
  simp [ready.pending id member, ready.awaits id member]

theorem exists_of_attempt {action : Action α} {value : α}
    (done : attempt action w = .ok (.ok value) w') : action w = .ok value w' := by
  rw [attempt] at done
  split at done
  next found =>
    obtain ⟨same, rfl⟩ := EStateM.Result.ok.inj done
    rw [found, Except.ok.inj same]
  next => nomatch done
  next => nomatch done

theorem runPlain_ok (done : runPlain id w = .ok ⟨⟩ w') :
    runModule id (left (modifyModule id fun m => { m with status := .evaluated }) w) = .ok ⟨⟩ w' := by
  obtain ⟨_, marked, marks, done⟩ := exists_of_bind done
  obtain ⟨outcome, after, ran, done⟩ := exists_of_bind done
  rw [left_of_ok marks]
  cases outcome with
  | error reason => contradiction
  | ok value =>
    obtain ⟨-, rfl⟩ := EStateM.Result.ok.inj done
    exact exists_of_attempt ran

namespace World

/-- Some modules were evaluated, and those of them that stand in a cycle which has not ended are on the
stack, above what stood there before. -/
structure Proceeds (w : World) (todo stack runs stack' : List Nat) (w' : World) : Prop
    extends w.Evaluates todo runs w' where
  stands : w'.IsStack stack'
  suffix : stack <:+ stack'

theorem Proceeds.append {todo todo' stack stack' stack'' runs runs' : List Nat}
    (first : w.Proceeds todo stack runs stack' w') (later : w'.Proceeds todo' stack' runs' stack'' w'') :
    w.Proceeds (todo ++ todo') stack (runs ++ runs') stack'' w'' :=
  { first.toEvaluates.append later.toEvaluates with
    stands := later.stands
    suffix := first.suffix.trans later.suffix }

theorem Idles.proceeds {stack : List Nat} (idles : w.Idles w') (stands : w.IsStack stack) :
    w.Proceeds [] stack [] stack w' :=
  { idles.evaluates with stands := stands.idles idles, suffix := List.suffix_refl stack }

end World

/-- Evaluating one module after another that a module requests. -/
theorem requests_ok {fuel : Nat} (inner : ∀ {w w' : World} {id : Nat} {stack stack' : List Nat × Nat},
      w.IsReady inside → id ∈ inside → w.IsStack stack.1 →
      evaluateInner fuel id stack w = .ok stack' w' → ∃ runs, w.Proceeds [id] stack.1 runs stack'.1 w')
    (specifiers : List Text.Units) {stack stack' : List Nat × Nat} (ready : w.IsReady inside)
    (all : ∀ other ∈ specifiers.filterMap (w.requested? id), other ∈ inside) (stands : w.IsStack stack.1)
    (done : (specifiers.foldlM (fun begun specifier => do
      match (← get).requested? id specifier with
      | none => pure begun
      | some other => do
        let begun ← evaluateInner fuel other begun
        joinRequested id other
        pure begun) stack : Action (List Nat × Nat)) w = .ok stack' w') :
    ∃ runs, w.Proceeds (specifiers.filterMap (w.requested? id)) stack.1 runs stack'.1 w' := by
  induction specifiers generalizing stack w with
  | nil =>
    obtain ⟨rfl, rfl⟩ := EStateM.Result.ok.inj done
    exact ⟨[], (Idles.refl w).proceeds stands⟩
  | cons specifier specifiers ih =>
    obtain ⟨middle, between, first, done⟩ := exists_of_bind done
    have reads {β : Type} (rest : World → Action β) : (get >>= rest) w = rest w w := rfl
    dsimp only at first
    rw [reads] at first
    cases found : w.requested? id specifier with
    | none =>
      rw [found] at first
      obtain ⟨rfl, rfl⟩ := EStateM.Result.ok.inj first
      rw [List.filterMap_cons_none found] at all ⊢
      exact ih ready all stands done
    | some other =>
      rw [found] at first
      rw [List.filterMap_cons_some found] at all ⊢
      obtain ⟨stack₁, w₁, evaluated, first⟩ := exists_of_bind first
      obtain ⟨_, w₂, joined, first⟩ := exists_of_bind first
      obtain ⟨rfl, rfl⟩ := EStateM.Result.ok.inj first
      obtain ⟨runs, proceeds⟩ := inner ready (all other List.mem_cons_self) stands evaluated
      have idles := joinRequested_ok (ready.furthers proceeds.turns.furthers) joined
      have comes := proceeds.append (idles.proceeds proceeds.stands)
      rw [List.append_nil, List.append_nil] at comes
      have same := comes.turns.furthers.requested?
      obtain ⟨runs', proceeds'⟩ := ih (ready.furthers comes.turns.furthers)
        (by rw [same]; exact fun x later => all x (List.mem_cons_of_mem other later)) comes.stands done
      rw [same] at proceeds'
      exact ⟨runs ++ runs', comes.append proceeds'⟩

/-- A module without code of its own runs once, and requests nothing. -/
theorem proceeds_runPlain {stack : List Nat} (ready : w.IsReady inside) (member : id ∈ inside)
    (stands : w.IsStack stack) (plain : (w.module id).IsPlain) (new : (w.module id).status ≠ .evaluated)
    (done : runPlain id w = .ok ⟨⟩ w') : w.Proceeds [id] stack [id] stack w' := by
  let marked := left (modifyModule id fun m => { m with status := .evaluated }) w
  have ran : runModule id marked = .ok ⟨⟩ w' := runPlain_ok done
  have notes : w.Notes marked := notes_modifyModule (Module.furthers_end _ _)
  have modules : w'.modules = marked.modules :=
    (left_of_ok ran ▸ executes_runModule id marked : marked.Executes id w').modules
  have here : (w'.module id).status = .evaluated := by
    rw [World.module, modules, ← World.module, module_modifyModule, if_pos ⟨rfl, ready.known id member⟩]
  have apart (x : Nat) (other : x ≠ id) : w'.module x = w.module x := by
    rw [World.module, modules, ← World.module, module_modifyModule, if_neg fun both => other both.1.symm]
  have none : w.requestedBy id = [] := by
    rw [World.requestedBy, ready.plain id member plain, List.filterMap_nil]
  have unknown : id ∉ {x | (w.module x).HasBegun} := fun begun =>
    new ((Module.hasBegun_of_plain plain).mp begun)
  have inner : Walk w.requestedBy (insert id {x | (w.module x).HasBegun}) (w.requestedBy id) [] := by
    rw [none]
    exact .done _
  have begun (x : Nat) : (w'.module x).HasBegun ↔ (w.module x).HasBegun ∨ x = id := by
    by_cases same : x = id
    · subst same
      exact iff_of_true (Module.hasBegun_of_evaluated here) (.inr rfl)
    · rw [apart x same]
      exact ⟨.inl, fun h => h.resolve_right same⟩
  exact
    { turns := .next notes ran (.done (.refl w')), walk := .single unknown inner
      begun := fun x => by rw [begun, List.mem_singleton]
      suffix := List.suffix_refl stack
      stands :=
        { nodup := stands.nodup
          begun := fun x member => (begun x).mpr (.inl (stands.begun x member))
          complete := fun x had => by
            by_cases same : x = id
            · exact .inl (same ▸ here)
            · rw [apart x same] at had ⊢
              exact stands.complete x had } }

/-- A module of code is marked when its evaluation begins. -/
theorem notes_enter {unit : Nat} (code : (w.module id).body = .code unit) (known : id < w.modules.size)
    (status : (w.module id).status = .linked) (index : Nat) :
    let begins := left (modifyModule id fun m =>
      { m with status := .evaluating, depthIndex := index, lowestIndex := index }) w
    w.Notes begins ∧ (begins.module id).depthIndex = index ∧ (begins.module id).lowestIndex = index ∧
      ∀ x, (begins.module x).HasBegun ↔ (w.module x).HasBegun ∨ x = id := by
  have new : ¬(w.module id).HasBegun := fun old => ((Module.hasBegun_of_code code).mp old).2 status
  have here : (left (modifyModule id fun m =>
      { m with status := .evaluating, depthIndex := index, lowestIndex := index }) w).module id =
        { w.module id with status := .evaluating, depthIndex := index, lowestIndex := index } := by
    rw [module_modifyModule, if_pos ⟨rfl, known⟩]
  refine ⟨notes_modifyModule ⟨⟨_, _, _, _, _, rfl⟩, fun _ => nofun, fun ended => ?_, fun old => ?_,
    fun old => absurd old new, fun old => absurd old new⟩, by rw [here], by rw [here], fun x => ?_⟩
  · exact nomatch status.symm.trans ended
  · exact absurd old new
  · by_cases same : x = id
    · subst same
      rw [here]
      exact iff_of_true (Module.hasBegun_of_evaluating code rfl) (.inr rfl)
    · rw [module_modifyModule, if_neg fun both => same both.1.symm]
      exact ⟨.inl, fun h => h.resolve_right same⟩

/-- A module of code runs once, behind those that it requests. -/
theorem proceeds_code {begins ends : World} {stack : List Nat} {stack' stack'' : List Nat × Nat}
    {below : List Nat} (ready : w.IsReady inside) (member : id ∈ inside)
    (new : ¬(w.module id).HasBegun) (notes : w.Notes begins)
    (marks : ∀ x, (begins.module x).HasBegun ↔ (w.module x).HasBegun ∨ x = id)
    (requested : begins.Proceeds (w.requestedBy id) (id :: stack) below stack'.1 ends)
    (ran : runRequesting id ends = .ok ⟨⟩ w') (ended : endCycle id stack' w' = .ok stack'' w'') :
    w.Proceeds [id] stack (below ++ [id]) stack''.1 w'' ∧
      ((begins.module id).lowestIndex = 0 → (begins.module id).depthIndex = 0 → stack''.1 = stack) := by
  have comes : w.Furthers ends := notes.toFurthers.trans requested.turns.furthers
  rw [runRequesting_eq (ready.furthers comes) member] at ran
  have same (x : Nat) : w'.module x = ends.module x := by
    have executes : ends.Executes id w' := left_of_ok ran ▸ executes_runModule id ends
    rw [World.module, executes.modules]
    rfl
  have comes' : w.Furthers w' :=
    ((requested.turns.begin_of_notes notes).append (.next (.refl ends) ran (.done (.refl w')))).furthers
  have stands : w'.IsStack stack'.1 :=
    { nodup := requested.stands.nodup
      begun := fun x member => by rw [same]; exact requested.stands.begun x member
      complete := fun x had => by
        rw [same] at had ⊢
        exact requested.stands.complete x had }
  obtain ⟨above, split⟩ := requested.suffix
  obtain ⟨idles, stands', suffix, ends_⟩ := endCycle_ok (ready.furthers comes') stands split.symm ended
  have known (x : Nat) : (w''.module x).HasBegun ↔ (w.module x).HasBegun ∨ x = id ∨ x ∈ below := by
    rw [idles.begun, same, requested.begun, marks, or_assoc]
  refine ⟨{ turns := ?_, walk := .single new ?_, begun := fun x => ?_, stands := stands', suffix },
    fun lowest depth => ends_ ?_⟩
  · exact (requested.turns.begin_of_notes notes).append (.next (.refl ends) ran (.done idles.toNotes))
  · refine (notes.toFurthers.requestedBy ▸ requested.walk).congr fun x => ?_
    rw [Set.mem_ofPred_eq, marks, Set.mem_insert_iff, Set.mem_ofPred_eq, or_comm]
  · rw [known, List.mem_append, List.mem_singleton, or_comm (a := x = id)]
  · have further := requested.turns.furthers.module id
    have old := (marks id).mpr (.inr rfl)
    have lowest' := further.lowest old
    rw [lowest] at lowest'
    rw [same, further.depth old, depth, Nat.le_zero.mp lowest']

/-- An evaluation that succeeds has run the modules in turn that it came to. The first module whose
evaluation is begun ends its cycle. -/
theorem evaluateInner_ok (fuel : Nat) {stack stack' : List Nat × Nat} (ready : w.IsReady inside)
    (member : id ∈ inside) (stands : w.IsStack stack.1)
    (done : evaluateInner fuel id stack w = .ok stack' w') :
    ∃ runs, w.Proceeds [id] stack.1 runs stack'.1 w' ∧ (stack.2 = 0 → stack'.1 = stack.1) := by
  induction fuel generalizing id stack stack' w w' with
  | zero => contradiction
  | succ fuel ih =>
    have reads {β : Type} (rest : World → Action β) : (get >>= rest) w = rest w w := rfl
    have passes (old : (w.module id).HasBegun) (recalled : (recallFailure id >>= fun _ =>
        pure (stack.1, stack.2)) w = .ok stack' w') :
        ∃ runs, w.Proceeds [id] stack.1 runs stack'.1 w' ∧ (stack.2 = 0 → stack'.1 = stack.1) := by
      obtain ⟨_, after, recalls, ended⟩ := exists_of_bind recalled
      obtain ⟨rfl, rfl⟩ := EStateM.Result.ok.inj ended
      obtain rfl := recallFailure_ok recalls
      exact ⟨[], { (Idles.refl after).proceeds stands with walk := .pass old (.done _) }, fun _ => rfl⟩
    have runs (plain : (w.module id).IsPlain) (new : (w.module id).status ≠ .evaluated)
        (ran : (runPlain id >>= fun _ => pure (stack.1, stack.2)) w = .ok stack' w') :
        ∃ runs, w.Proceeds [id] stack.1 runs stack'.1 w' ∧ (stack.2 = 0 → stack'.1 = stack.1) := by
      obtain ⟨_, after, went, ended⟩ := exists_of_bind ran
      obtain ⟨rfl, rfl⟩ := EStateM.Result.ok.inj ended
      exact ⟨[id], proceeds_runPlain ready member stands plain new went, fun _ => rfl⟩
    rw [evaluateInner, reads] at done
    cases body : (w.module id).body with
    | code unit =>
      rw [body] at done
      cases status : (w.module id).status with
      | unlinked => exact absurd status (ready.linked id member)
      | linked =>
        rw [status] at done
        obtain ⟨_, w₁, entered, done⟩ := exists_of_bind done
        obtain ⟨stack₂, w₂, requested, done⟩ := exists_of_bind done
        obtain ⟨_, w₃, ran, ended⟩ := exists_of_bind done
        have new : ¬(w.module id).HasBegun := fun old => ((Module.hasBegun_of_code body).mp old).2 status
        obtain ⟨notes, depth, lowest, marks⟩ := notes_enter body (ready.known id member) status stack.2
        rw [left_of_ok entered] at notes depth lowest marks
        have pushed : w₁.IsStack (id :: stack.1) :=
          { nodup := List.nodup_cons.mpr ⟨fun old => new (stands.begun id old), stands.nodup⟩
            begun := fun x later => (marks x).mpr ((List.mem_cons.mp later).symm.imp_left (stands.begun x))
            complete := fun x had => by
              rcases (marks x).mp had with old | rfl
              · exact (stands.complete x old).imp (notes.module x).ended (List.mem_cons_of_mem id)
              · exact .inr List.mem_cons_self }
        have requests : (w.module id).requests.filterMap (w₁.requested? id) = w.requestedBy id := by
          rw [notes.toFurthers.requested?, World.requestedBy]
        obtain ⟨below, proceeds⟩ := requests_ok
          (fun ready member stands done => (ih ready member stands done).imp fun _ => And.left)
          (w.module id).requests (ready.furthers notes.toFurthers)
          (by rw [requests]; exact ready.closed id member) pushed requested
        rw [requests] at proceeds
        obtain ⟨comes, first⟩ := proceeds_code ready member new notes marks proceeds ran ended
        exact ⟨below ++ [id], comes, fun zero => first (lowest.trans zero) (depth.trans zero)⟩
      | evaluating | evaluatingAsync | evaluated =>
        rw [status] at done
        exact passes ((Module.hasBegun_of_code body).mpr (by rw [status]; decide)) done
    | commonJs wrapper | fixed value =>
      have plain : (w.module id).IsPlain := fun unit code => by cases body.symm.trans code
      rw [body] at done
      cases status : (w.module id).status with
      | evaluated =>
        rw [status] at done
        exact passes ((Module.hasBegun_of_plain plain).mpr status) done
      | unlinked | linked | evaluating | evaluatingAsync =>
        rw [status] at done
        exact runs plain (by rw [status]; decide) done

/-- A promise that was settled just now. -/
theorem promiseState?_settleNew {promise : ObjectId} (known : promise < w.objects.size)
    (outcome : Except Value Value) :
    (left (settleNew promise outcome) w).promiseState? promise = some (.ofOutcome outcome) := by
  change (w.modifyObject promise _).promiseState? promise = _
  rw [promiseState?_eq, object_modifyObject, if_pos ⟨rfl, known⟩]
  rfl

theorem lt_of_promiseState? {promise : ObjectId} {state : PromiseState}
    (found : w.promiseState? promise = some state) : promise < w.objects.size := by
  refine Nat.lt_of_not_le fun far => ?_
  rw [World.promiseState?, World.object, Array.getD_eq_getD_getElem?, Array.getElem?_eq_none far] at found
  contradiction

/-- A promise that is made for an evaluation is there when the evaluation has ended. -/
theorem Past.holds_promise {promise : ObjectId} (known : promise < w.objects.size) :
    Past.Holds ⟨∅, ∅, promise⟩ w where
  evaluated _ member := member.elim
  waits _ member := member.elim
  own _ _ member := member.elim
  scopes _ member := member.elim
  promise := known

/-- The first evaluation of a root has failed, or has run all that the root leads to in turn, in the
order of a walk. -/
theorem evaluateModule_ok {root : Nat} {promise : ObjectId}
    (ready : w.IsReady {x | LeadsTo w.requestedBy root x}) (linked : (w.module root).status = .linked)
    (fresh : (w.module root).result = none) (new : ∀ x, ¬(w.module x).HasBegun)
    (done : evaluateModule root w = .ok promise w') :
    promise < w'.objects.size ∧ ((∃ reason, w'.promiseState? promise = some (.rejected reason)) ∨
      ∃ order, w.RunsInTurn order w' ∧ Walk w.requestedBy ∅ [root] order ∧
        ∀ x ∈ order, (w'.module x).status = .evaluated) := by
  have reads {β : Type} (rest : World → Action β) (w : World) : (get >>= rest) w = rest w w := rfl
  rw [evaluateModule, reads] at done
  dsimp only at done
  rw [if_neg (by rw [linked]; decide), fresh] at done
  dsimp only at done
  obtain ⟨promise', made, makes, done⟩ := exists_of_bind done
  obtain ⟨_, begins, marks, done⟩ := exists_of_bind done
  obtain ⟨outcome, ended, evaluated, done⟩ := exists_of_bind done
  obtain ⟨rfl, rfl⟩ := EStateM.Result.ok.inj makes
  let past : Past := ⟨∅, ∅, w.objects.size⟩
  have known : w.objects.size < begins.objects.size := by
    rw [← left_of_ok marks]
    exact Nat.lt_of_lt_of_eq (Nat.lt_succ_self _) (Array.size_push _).symm
  have kept : past.Holds ended := by
    have evaluates : Obeys past.Keeps (evaluateInner (w.modules.size + 1) root ([], 0)) :=
      Past.keeps_evaluateInner _ _ _
    exact ((obeys_attempt evaluates).of_ok evaluated (Past.holds_promise known)).holds
  cases outcome with
  | error reason =>
    obtain ⟨_, noted, notes, done⟩ := exists_of_bind done
    obtain ⟨_, failed, fails, done⟩ := exists_of_bind done
    obtain ⟨_, settled, settles, done⟩ := exists_of_bind done
    obtain ⟨rfl, rfl⟩ := EStateM.Result.ok.inj done
    have keeps : past.Keeps ended noted := by
      refine Obeys.of_ok (.forIn _ _ fun other _ => .bind .get fun w => ?_) notes
      split
      · exact .bind (Past.keeps_noteFailure reason other) fun _ => .pure _
      · exact .pure _
    have still := ((Past.keeps_noteFailure reason root).of_ok fails (keeps kept).holds).holds.promise
    rw [← left_of_ok settles]
    exact ⟨Nat.lt_of_lt_of_eq still Array.size_modify.symm, .inl ⟨reason, promiseState?_settleNew still _⟩⟩
  | ok stack =>
    have noted : w.Notes begins := by
      have promised : w.Notes (left newPromise w) := ⟨.of_modules rfl, rfl, rfl⟩
      refine promised.trans ?_
      rw [← left_of_ok marks]
      exact notes_modifyModule ⟨⟨_, _, _, _, _, rfl⟩, id, id, id, fun _ => rfl, fun _ => Nat.le_refl _⟩
    have unbegun (x : Nat) : ¬(begins.module x).HasBegun := by
      rw [← left_of_ok marks, module_modifyModule]
      split <;> exact new x
    obtain ⟨order, proceeds, last⟩ := evaluateInner_ok _ (ready.furthers noted.toFurthers)
      (by exact Relation.ReflTransGen.refl) ⟨List.nodup_nil, fun _ member => (List.not_mem_nil member).elim,
        fun x had => absurd had (unbegun x)⟩
      (exists_of_attempt evaluated)
    have empty : stack.1 = [] := last rfl
    have all (x : Nat) (member : x ∈ order) : (ended.module x).status = .evaluated :=
      (proceeds.stands.complete x ((proceeds.begun x).mpr (.inr member))).resolve_right
        (by rw [empty]; exact List.not_mem_nil)
    have idle : (ended.module root).isWaiting = false := by
      rw [Module.isWaiting, (ready.furthers (noted.toFurthers.trans proceeds.turns.furthers)).waits]
      rfl
    dsimp only at done
    rw [reads, idle] at done
    obtain ⟨_, settled, settles, done⟩ := exists_of_bind done
    obtain ⟨rfl, rfl⟩ := EStateM.Result.ok.inj done
    have settles' : left (settleNew w.objects.size (.ok .undefined)) ended = settled := left_of_ok settles
    have last : ended.Notes settled := by
      rw [← settles']
      exact ⟨.of_modules rfl, rfl, rfl⟩
    refine ⟨?_, .inr ⟨order, ?_, ?_, ?_⟩⟩
    · rw [← settles']
      exact Nat.lt_of_lt_of_eq kept.promise Array.size_modify.symm
    · have turns := (proceeds.turns.begin_of_notes noted).append (.done last)
      rwa [List.append_nil] at turns
    · exact (noted.requestedBy ▸ proceeds.walk).congr fun x => iff_of_false (unbegun x) id
    · exact fun x member => (last.module x).ended (all x member)

end Isolate.Script
