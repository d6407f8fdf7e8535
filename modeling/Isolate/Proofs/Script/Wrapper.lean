import Isolate.Proofs.Script.Calm
import Isolate.Script.Program

/-!
# Scripts that are a function

A script whose only statement is a function expression makes a closure and comes to it. It runs nothing
of the function.
-/

namespace Isolate

namespace Script

def ScriptTree.IsFunction (tree : ScriptTree) : Prop :=
  ∃ place head body, tree.body = [.expression (.function place head body)]

instance (tree : ScriptTree) : Decidable tree.IsFunction :=
  decidable_of_iff
    ((match tree.body with
      | [.expression (.function _ _ _)] => true
      | _ => false) = true)
    ⟨fun h => by
      split at h
      next place head body same => exact ⟨place, head, body, same⟩
      next => contradiction,
    fun ⟨place, head, body, same⟩ => by rw [same]⟩

/-- A program that makes one closure and comes to it. -/
structure FunctionCode.MakesClosure (code : FunctionCode) (index : Nat) : Prop where
  vars : code.vars = []
  functions : code.functions = []
  lexicals : code.lexicals = []
  instrs : code.instrs = #[.closure index, .setCompletion, .loadCompletion, .ret]

/-- Emitting a function leaves the code around it as it was. -/
theorem emitFunctionWith_run (text : List Char) (head : FunctionHead) (name : Text.Units)
    (selfName : Option String) (vars : List String) (lexicals : List (String × BindingKind))
    (functions : Emit (List (String × Nat))) (body : Emit Unit) (b : Builder) :
    ∃ index functions' usesArguments,
      (emitFunctionWith text head name selfName vars lexicals functions body).run b =
        (index, { b with functions := functions', usesArguments }) :=
  ⟨_, _, _, rfl⟩

/-- The own code of a unit is what was emitted last. -/
theorem back?_unitOf (text : List Char) (head : FunctionHead) (name : Text.Units)
    (selfName : Option String) (vars : List String) (lexicals : List (String × BindingKind))
    (functions : Emit (List (String × Nat))) (body : Emit Unit) :
    ∃ code, (unitOf (emitFunctionWith text head name selfName vars lexicals functions
        body)).functions.back? = some code ∧
      code.vars = vars ∧ code.lexicals = lexicals ∧ code.functions = (functions.run {}).1 ∧
      code.instrs = (body.run (functions.run {}).2).2.instrs.map
        (·.resolve (body.run (functions.run {}).2).2.labels) :=
  ⟨_, Array.back?_push, rfl, rfl, rfl, rfl⟩

theorem emit_function (env : Surroundings) (place : Position) (head : FunctionHead)
    (body : List Stmt) :
    Expr.emit env [] (.function place head body) = (do
      let index ← emitFunction env head (if head.name.isNone then [] else head.shownName) head.name
        body (emitDeclared (env.inside head) body) (emitStmts (env.inside head) body)
      env.emit (.closure index)) := rfl

/-- The instructions of a program whose only statement is a function. -/
theorem instrs_of_function {env : Surroundings} (completes : env.completes) (place : Position)
    (head : FunctionHead) (body : List Stmt) :
    ∃ index, ((do
        emitStmts env [.expression (.function place head body)]
        env.emits [.loadCompletion, .ret] : Emit Unit).run {}).2.instrs =
      #[.closure index, .setCompletion, .loadCompletion, .ret] := by
  have program : (do
      emitStmts env [.expression (.function place head body)]
      env.emits [.loadCompletion, .ret] : Emit Unit) = (do
        Expr.emit env [] (.function place head body)
        env.emit (if env.completes then .setCompletion else .pop)
        env.emits [.loadCompletion, .ret]) := rfl
  obtain ⟨index, functions, usesArguments, made⟩ :=
    emitFunctionWith_run env.text head (if head.name.isNone then [] else head.shownName) head.name
      (varNames body) (topLexicalBindings body) (emitDeclared (env.inside head) body) (do
        emitParams (env.inside head) 0 head.params
        emitStmts (env.inside head) body
        (env.inside head).emits [.push .undefined, .ret]) {}
  refine ⟨index, ?_⟩
  rw [program, emit_function, emitFunction, completes, if_pos rfl]
  simp only [StateT.run_bind]
  rw [made]
  rfl

/-- The program of a script that is a function makes a closure. -/
theorem ScriptTree.IsFunction.makesClosure {tree : ScriptTree} (h : tree.IsFunction)
    (text : List Char) :
    ∃ code index, (tree.code text).functions.back? = some code ∧ code.MakesClosure index := by
  obtain ⟨place, head, body, same⟩ := h
  let env : Surroundings := { isStrict := tree.isStrict, completes := true, text }
  obtain ⟨index, emitted⟩ := @instrs_of_function env rfl place head body
  obtain ⟨code, own, vars, lexicals, functions, instrs⟩ := back?_unitOf text
    { name := none, params := [], isStrict := tree.isStrict } [] none (varNames tree.body)
    (topLexicalBindings tree.body) (emitDeclared env tree.body) (do
      emitStmts env tree.body
      env.emits [.loadCompletion, .ret])
  have declared : emitDeclared env tree.body = pure [] := by rw [same]; rfl
  rw [declared] at functions instrs
  refine ⟨code, index, own, ?_, functions, by rw [lexicals, same]; rfl, ?_⟩
  · rw [vars, same]
    rfl
  · rw [instrs, same]
    change (((do
        emitStmts env [.expression (.function place head body)]
        env.emits [.loadCompletion, .ret] : Emit Unit).run {}).2.instrs).map _ = _
    rw [emitted]
    simp only [List.map_toArray, List.map_cons, List.map_nil, Instr.resolve]

/-- One instruction of a run does what the instruction does, at its place. -/
theorem stepBy_of_instr {a : Activation} {instr : Instr} (here : a.code.instrs[a.next]? = some instr)
    (p : Task → Action Outcome) (w : World) :
    a.stepBy p w = ({ a with next := a.next + 1 }).step (.by p) instr
      (a.enter w) := by
  rw [Activation.stepBy, here]
  rfl

/-- An instruction that leads on takes one step. -/
theorem perform_next {a a' : Activation} {instr : Instr} {w w' : World} {steps : Nat}
    (here : a.code.instrs[a.next]? = some instr)
    (done : ({ a with next := a.next + 1 }).step (.by (perform steps)) instr
      (a.enter w) = .ok (.next a') w') :
    perform (steps + 1) (.run a) w = perform steps (.run a') w' := by
  have next := (stepBy_of_instr here (perform steps) w).trans done
  rw [perform, next]

/-- An instruction that leaves the call ends it. -/
theorem perform_done {a : Activation} {instr : Instr} {w w' : World} {steps : Nat} {value : Value}
    (here : a.code.instrs[a.next]? = some instr)
    (done : ({ a with next := a.next + 1 }).step (.by (perform steps)) instr
      (a.enter w) = .ok (.done value) w') :
    perform (steps + 1) (.run a) w = .ok (.value value) w' := by
  have ended := (stepBy_of_instr here (perform steps) w).trans done
  rw [perform, ended]

section Relations

-- A relation that holds wherever the running code is, and across the making of a closure, holds across such
-- a program.
variable {R : World → World → Prop} [order : IsPreorder World R]
  (places : ∀ (w : World) (calls : List Nat) (here : Option Site) (running : Nat),
    R w { w with calls, here, running })
  (closes : ∀ (unit : Nat) (code : FunctionCode) (scope : ScopeId) (this : Value) (w : World),
    Runs (newClosure unit code scope this) w fun _ w' => R w w')

include places closes

/-- Four steps make the closure, keep it as the value of the statement and leave with it. -/
theorem runs_perform {index : Nat} {a : Activation} (closure : a.code.MakesClosure index)
    (start : a.next = 0) (steps : Nat) (w : World) :
    Runs (perform (steps + 4) (.run a)) w fun _ w' => R w w' := by
  have instr (n : Nat) : a.code.instrs[n]? =
      #[Instr.closure index, .setCompletion, .loadCompletion, .ret][n]? := by
    rw [closure.instrs]
  have moved (a : Activation) (w : World) : R w (a.enter w) := places w _ _ _
  obtain ⟨value, w', made, obeyed⟩ := closes a.unit
    (((a.enter w).units[a.unit]?.bind (·.functions[index]?)).getD {}) a.scope a.this
    (a.enter w)
  have first : perform (steps + 4) (.run a) w =
      perform (steps + 3) (.run { a with next := 1, stack := value :: a.stack }) w' := by
    refine perform_next (by rw [start]; exact instr 0) ?_
    rw [start]
    change EStateM.bind (newClosure _ _ _ _) _ _ = _
    rw [EStateM.bind, made]
    rfl
  have rest : Runs (perform (steps + 3) (.run { a with next := 1, stack := value :: a.stack })) w'
      fun _ w'' => R w' w'' :=
    ⟨_, _, (perform_next (instr 1) rfl).trans ((perform_next (instr 2) rfl).trans
      (perform_done (instr 3) rfl)), places w' _ _ _⟩
  obtain ⟨outcome, w'', done, obeyed'⟩ := rest
  exact ⟨outcome, w'', first.trans done,
    order.trans _ _ _ (moved a w) (order.trans _ _ _ obeyed obeyed')⟩

omit closes in
/-- Running an action one call deeper shows only in what the action does. -/
theorem runs_deeper {α : Type} {action : Action α} {w : World}
    (h : Runs action { w with calls := 0 :: w.calls } fun _ w' => R w w') :
    Runs (deeper action) w fun _ w' => R w w' := by
  obtain ⟨value, w', done, obeyed⟩ := h
  refine ⟨value, { w' with calls := w.calls, here := w.here, running := w.running }, ?_,
    order.trans _ _ _ obeyed (places w' _ _ _)⟩
  rw [deeper, done]

/-- A program that makes a closure comes to a value. -/
theorem runs_program {unit : CodeUnit} {code : FunctionCode} {index id : Nat}
    (own : unit.functions.back? = some code) (closure : code.MakesClosure index) {w : World}
    (known : w.units[id]? = some unit) : Runs (runProgram id) w fun _ w' => R w w' := by
  have found : (w.units[id]?.bind (·.functions.back?)).getD {} = code := by
    rw [known, Option.bind_some, own, Option.getD_some]
  let a : Activation :=
    { unit := id, code, origin := (w.units[id]?.map (·.origin)).getD .unnamed, scope := globalScope
      this := Intrinsic.global.value }
  have nothing : declareGlobals id code = pure ⟨⟩ := by
    rw [declareGlobals, bindFunctions, closure.vars, closure.functions, closure.lexicals]
    rfl
  have begun : runProgram id w =
      (deeper (perform stepLimit (.run a)) >>= fun outcome => pure outcome.toValue) w := by
    change (do
      declareGlobals id ((w.units[id]?.bind (·.functions.back?)).getD {})
      let outcome ← deeper (perform stepLimit (.run
        { a with code := (w.units[id]?.bind (·.functions.back?)).getD {} }))
      pure outcome.toValue : Action Value) w = _
    rw [found, nothing]
    rfl
  have enough : stepLimit = (stepLimit - 4) + 4 := by decide
  have ran : Runs (deeper (perform stepLimit (.run a))) w fun _ w' => R w w' := by
    have moved : R w { w with calls := 0 :: w.calls } := places w _ w.here w.running
    rw [enough]
    exact runs_deeper places ((runs_perform (a := a) places closes closure rfl _ _).mono
      fun _ _ => order.trans _ _ _ moved)
  have ended : Runs (deeper (perform stepLimit (.run a)) >>= fun outcome => pure outcome.toValue) w
      fun _ w' => R w w' := ran.bind fun _ _ obeyed => .pure obeyed
  obtain ⟨value, w', done, obeyed⟩ := ended
  exact ⟨value, w', begun.trans done, obeyed⟩

end Relations

instance : IsPreorder World World.Calm where
  refl := .refl
  trans _ _ _ first later := first.trans later

/-- A program that makes a closure leaves the world calm. -/
theorem calm_program {unit : CodeUnit} {code : FunctionCode} {index id : Nat}
    (own : unit.functions.back? = some code) (closure : code.MakesClosure index) {w : World}
    (known : w.units[id]? = some unit) : Runs (runProgram id) w fun _ w' => w.Calm w' :=
  runs_program (fun _ _ _ _ => .of_eq rfl rfl rfl rfl rfl)
    (fun unit code scope this => quiet_newClosure unit code scope this) own closure known

end Script
end Isolate
