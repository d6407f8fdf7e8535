import Isolate.Proofs.Script.Conduct
import Isolate.Script.Program

/-!
# Laws of the machine

Code from strings, one instruction, and the machine that steps through calls inside calls. A call obeys
every law because it does so with less fuel, and every instruction does so if the calls that it makes
do. This closes the circle for the builtin functions and for programs.
-/

namespace Isolate.Script

variable {α : Type} {R : World → World → Prop} [law : World.IsCodeLaw R]

theorem left_refuse {w : World} (forbidden : w.allowsCodeGeneration = false) :
    R w (left (refuse : Action α) w) :=
  law.refuse w _ forbidden

/-- Compiling a string is refused where it is forbidden, and only there. -/
theorem obeys_guard {rest : PUnit → Action α} (later : Obeys R (rest ⟨⟩)) :
    Obeys R (do
      let w ← get
      if !w.allowsCodeGeneration then refuse >>= rest else rest ⟨⟩) := by
  intro w
  change R w (left (if !w.allowsCodeGeneration then refuse >>= rest else rest ⟨⟩) w)
  cases forbidden : w.allowsCodeGeneration with
  | false => exact left_refuse forbidden
  | true => exact later w

@[grind ←] theorem obeys_failSyntax (fault : Grammar.Fault) :
    Obeys R (failSyntax fault : Action α) := by
  unfold failSyntax
  grind

@[grind ←] theorem obeys_compileText (origin : CodeOrigin) (text : Text.Units) (isStrict : Bool) :
    Obeys R (compileText origin text isStrict) := by
  unfold compileText
  split
  · exact obeys_failSyntax _
  · split
    · exact obeys_failSyntax _
    · exact fun w => law.compile w _ _

/-- Every call that is ready to run obeys a relation. -/
def Run.Obeys (R : World → World → Prop) (run : Run) : Prop := ∀ a, Script.Obeys R (run a)

variable {call : Invoke} {run : Run}

@[grind ←] theorem obeys_runText (runs : run.Obeys R) (asker : Option Activation)
    (origin : CodeOrigin) (unit : Nat) (code : FunctionCode) :
    Obeys R (runText run asker origin unit code) := by
  refine .bind .get fun w => ?_
  extract_lets base this lexicals
  refine .bind (obeys_newScope _) fun scope => ?_
  extract_lets varScope
  refine .bind (.forM _ fun _ => obeys_declareVar _ _ _) fun _ => ?_
  exact .bind (obeys_bindFunctions _ _ _ _ fun _ _ => obeys_declareFunction _ _ _ _) fun _ => runs _

@[grind ←] theorem obeys_evalValue (runs : run.Obeys R) (asker : Option Activation) (value : Value) :
    Obeys R (evalValue run asker value) := by
  unfold evalValue
  split
  · exact obeys_guard (.bind (obeys_compileText _ _ _) fun _ => obeys_runText runs _ _ _ _)
  · exact .pure _

@[grind ←] theorem obeys_makeFunction (calls : call.Obeys R) (runs : run.Obeys R) (builtin : Builtin)
    (args : List Value) : Obeys R (makeFunction call run builtin args) := by
  refine .bind (.mapM _ fun _ => obeys_toText calls _) fun params => ?_
  extract_lets make
  have makes (body : Text.Units) : Obeys R (make body) :=
    obeys_guard (.bind (obeys_compileText _ _ _) fun _ => obeys_runText runs _ _ _ _)
  clear_value make
  grind

@[grind ←] theorem obeys_spreadItems (value : Value) : Obeys R (spreadItems value) := by
  unfold spreadItems
  grind

@[grind ←] theorem obeys_nameFunction (value : Value) (name : Text.Units) :
    Obeys R (nameFunction value name) := by
  unfold nameFunction
  grind

@[grind ←] theorem obeys_requestImport (calls : call.Obeys R) (unit : Nat) (specifier : Value) :
    Obeys R (requestImport call unit specifier) := by
  refine .bind obeys_newPromise fun result =>
    .bind (obeys_attempt (obeys_toText calls _)) fun found => ?_
  split
  · exact .bind (obeys_settle _ _) fun _ => .pure _
  · exact .bind (fun w => law.request w _ _ _) fun _ => .pure _

@[grind ←] theorem obeys_importMeta (scope : ScopeId) : Obeys R (importMeta scope) := by
  refine .bind (obeys_findName? _ _) fun found => ?_
  split
  · exact .pure _
  · exact .bind (obeys_allocate _) fun _ => .bind .get fun _ => .bind (obeys_bind _ _ _) fun _ => .pure _

namespace Activation

@[grind ←] theorem obeys_onTop (a : Activation) {f : Value → Action Value}
    (made : ∀ value, Obeys R (f value)) : Obeys R (a.onTop f) := by
  unfold onTop
  grind

@[grind ←] theorem obeys_onTwo (a : Activation) {f : Value → Value → Action Value}
    (made : ∀ value other, Obeys R (f value other)) : Obeys R (a.onTwo f) := by
  unfold onTwo
  grind

@[grind ←] theorem obeys_taking (a : Activation) {f : Value → Action PUnit}
    (done : ∀ value, Obeys R (f value)) : Obeys R (a.taking f) := by
  unfold taking
  grind

@[grind ←] theorem obeys_rearrange (a : Activation) (f : List Value → List Value) :
    Obeys R (a.rearrange f) := .pure _

@[grind ←] theorem obeys_guarded (a : Activation) (target : Nat) (passesOn : Bool) :
    Obeys R (a.guarded target passesOn) := .pure _

end Activation

@[grind ←] theorem obeys_memberName (calls : call.Obeys R) (value : Value) :
    Obeys R (memberName call value) := obeys_toText calls value

/-- All that running code can be asked to run obeys a relation. -/
structure Means.Obey (R : World → World → Prop) (means : Means) : Prop where
  call : means.call.Obeys R
  construct (callee : Value) (args : List Value) : Obeys R (means.construct callee args)
  run : means.run.Obeys R

/-- An instruction obeys every law that what it calls obeys. -/
theorem obeys_step {means : Means} (obey : means.Obey R) (a : Activation) (instr : Instr) :
    Obeys R (a.step means instr) := by
  have calls := obey.call
  have called := obey.call.apply
  have runs := obey.run
  have constructs := obey.construct
  cases instr <;> simp only [Activation.step] <;> grind

@[grind ←] theorem obeys_deeper {action : Action α} (h : Obeys R action) :
    Obeys R (deeper action) := by
  intro w
  have entered : R w { w with calls := 0 :: w.calls } := law.place w _ w.here w.running
  have ran := h { w with calls := 0 :: w.calls }
  have restored (after : World) :
      R after { after with calls := w.calls, here := w.here, running := w.running } :=
    law.place after _ _ _
  unfold left at ran ⊢
  unfold deeper
  cases done : action { w with calls := 0 :: w.calls } with
  | ok value after =>
    rw [done] at ran
    exact law.trans _ _ _ entered (law.trans _ _ _ ran (restored after))
  | error abrupt after =>
    rw [done] at ran
    exact law.trans _ _ _ entered (law.trans _ _ _ ran (restored after))

@[grind ←] theorem obeys_checkCalls : Obeys R checkCalls := by
  unfold checkCalls
  grind

@[grind ←] theorem obeys_newInstance (callee : Value) : Obeys R (newInstance callee) := by
  unfold newInstance
  grind

@[grind ←] theorem obeys_record (calls : call.Obeys R) (args : List Value) :
    Obeys R (record call args) :=
  .bind (obeys_toText calls _) fun text => .bind (fun w => law.record w text) fun _ => .pure _

@[grind ←] theorem obeys_finishAsync (promise : ObjectId) (outcome : Except Value Outcome) :
    Obeys R (finishAsync promise outcome) := by
  unfold finishAsync
  grind

def Performs (R : World → World → Prop) (perform : Task → Action Outcome) : Prop :=
  ∀ task, Obeys R (perform task)

section Tasks

variable {perform : Task → Action Outcome}

theorem obey_by (performs : Performs R perform) : (Means.by perform).Obey R where
  call _ _ _ := .bind (performs _) fun _ => .pure _
  construct _ _ := .bind (performs _) fun _ => .pure _
  run _ := obeys_deeper (.bind (performs _) fun _ => .pure _)

theorem obeys_stepBy (performs : Performs R perform) (a : Activation) :
    Obeys R (a.stepBy perform) := by
  refine .bind (fun w => law.place w _ a.site a.unit) fun _ => ?_
  split
  · exact .pure _
  · exact obeys_step (obey_by performs) _ _

theorem obeys_callBy (performs : Performs R perform) (callee this : Value) (args : List Value) :
    Obeys R (callBy perform callee this args) := by
  have calls := (obey_by performs).call
  have called := calls.apply
  have runs := (obey_by performs).run
  unfold Performs at performs
  refine .bind .get fun w => ?_
  dsimp only
  split <;> grind

theorem obeys_constructBy (performs : Performs R perform) (callee : Value) (args : List Value) :
    Obeys R (constructBy perform callee args) := by
  have calls := (obey_by performs).call
  have runs := (obey_by performs).run
  unfold Performs at performs
  refine .bind .get fun w => ?_
  dsimp only
  split <;> grind

end Tasks

theorem obeys_advance {steps : Nat} (performs : Performs R (perform steps)) (a : Activation)
    (promise : ObjectId) : Obeys R (perform (steps + 1) (.advance a promise)) := by
  intro w
  have ran := obeys_attempt (performs (.run a)) w
  unfold left
  rw [perform]
  cases done : attempt (perform steps (.run a)) w with
  | error abrupt after =>
    rw [left_of_error done] at ran
    exact ran
  | ok outcome after =>
    rw [left_of_ok done] at ran
    have finished := obeys_finishAsync (R := R) promise outcome after
    dsimp only
    cases ended : finishAsync promise outcome after with
    | ok value last =>
      rw [left_of_ok ended] at finished
      exact law.trans _ _ _ ran finished
    | error abrupt last =>
      rw [left_of_error ended] at finished
      exact law.trans _ _ _ ran finished

theorem obeys_run {steps : Nat} (performs : Performs R (perform steps)) (a : Activation) :
    Obeys R (perform (steps + 1) (.run a)) := by
  intro w
  have stepped := obeys_stepBy performs a w
  unfold left
  rw [perform]
  cases done : a.stepBy (perform steps) w with
  | ok step after =>
    rw [left_of_ok done] at stepped
    cases step with
    | next a => exact law.trans _ _ _ stepped (performs (.run a) after)
    | done value => exact stepped
    | wait value a => exact stepped
  | error abrupt after =>
    rw [left_of_error done] at stepped
    cases abrupt with
    | thrown value site =>
      dsimp only
      cases a.caught? value site with
      | some a =>
        have shown := law.trans _ _ _ stepped (expose_obeys after value)
        exact law.trans _ _ _ shown (performs (.run a) _)
      | none => exact stepped
    | stopped excess site => exact stepped
    | exhausted => exact stepped

/-- Whatever a task does, it obeys every law. -/
theorem performs_perform (steps : Nat) : Performs R (perform steps) := by
  -- Over all tasks at once, as every task may call any other with one step less.
  induction steps with
  | zero => exact fun task => law.refl
  | succ steps ih =>
    intro task
    cases task with
    | run a => exact obeys_run ih a
    | call callee this args => exact obeys_callBy ih callee this args
    | construct callee args => exact obeys_constructBy ih callee args
    | advance a promise => exact obeys_advance ih a promise

@[grind ←] theorem obeys_perform (steps : Nat) (task : Task) : Obeys R (perform steps task) :=
  performs_perform steps task

@[grind ←] theorem obeys_invoke : invoke.Obeys R := fun _ _ _ =>
  .bind (obeys_perform _ _) fun _ => .pure _

@[grind ←] theorem obeys_resume (a : Activation) (outcome : Except Value Value) :
    Obeys R (resume a outcome) := by
  have advanced (a : Activation) (promise : ObjectId) :
      Obeys R (deeper (perform stepLimit (.advance a promise)) >>= fun _ => pure PUnit.unit) :=
    .bind (obeys_deeper (obeys_perform _ _)) fun _ => .pure _
  unfold resume
  split
  · exact .pure _
  · split
    · exact advanced _ _
    · dsimp only
      split
      · exact advanced _ _
      · exact obeys_settle _ _

@[grind ←] theorem obeys_declareGlobals (unit : Nat) (code : FunctionCode) :
    Obeys R (declareGlobals unit code) := by
  refine .bind (.forM _ fun _ => obeys_declareVar _ _ _) fun _ => ?_
  refine .bind (obeys_bindFunctions _ _ _ _ fun _ _ => obeys_declareFunction _ _ _ _) fun _ => ?_
  exact .forM _ fun _ => .bind .get fun _ => by grind

/-- A script obeys every law. -/
@[grind ←] theorem obeys_runProgram (unit : Nat) : Obeys R (runProgram unit) := by
  refine .bind .get fun w => ?_
  exact .bind (obeys_declareGlobals _ _) fun _ =>
    .bind (obeys_deeper (obeys_perform _ _)) fun _ => .pure _

end Isolate.Script
