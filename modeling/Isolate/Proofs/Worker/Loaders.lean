import Isolate.Proofs.Script.Wrapper
import Isolate.Worker.Loading

/-!
# What loading a file does to a world

Loading a file runs none of its code. It adds one module, which requests what the text of an ES module
names, or it fails and adds none, which depends on the path and the content alone; and it leaves nothing
to do either way. A CommonJS file has to be the body of a function, as the function around it is made
when the file is loaded.
-/

namespace Isolate

open Script

/-- What is read of a file in its wrapper is a function and nothing else. -/
def Wrapper.IsBody (body : List Char) : Prop :=
  ∀ tree, Grammar.readSoundScript (wrap body) false = .ok tree → tree.IsFunction

instance (body : List Char) : Decidable (Wrapper.IsBody body) :=
  match read : Grammar.readSoundScript (Wrapper.wrap body) false with
  | .error _ => isTrue fun _ read' => nomatch read.symm.trans read'
  | .ok tree => decidable_of_iff tree.IsFunction
      ⟨fun function _ read' => Except.ok.inj (read.symm.trans read') ▸ function,
        fun body => body tree read⟩

/-- The specifiers that an ES module requests. -/
def Loader.requestsOf (bytes : Bytes) : List Text.Units :=
  match Text.Utf8.decode bytes with
  | .error _ => []
  | .ok text =>
    match Grammar.readModule text with
    | .error _ => []
    | .ok tree => tree.requests

def Kind.Supported.requests (kind : Kind.Supported) (bytes : Bytes) : List Text.Units :=
  match kind with
  | .esModule => Loader.requestsOf bytes
  | _ => []

/-- Why a file of a kind is no module, if it is none. The code of a CommonJS file is not run here. -/
def Kind.Supported.fault? (kind : Kind.Supported) (path : Path) (bytes : Bytes) : Option Error :=
  match kind with
  | .esModule =>
    match Text.Utf8.decode bytes with
    | .error _ => some (.ofFault ⟨none⟩ path.text)
    | .ok source =>
      match Grammar.readModule source with
      | .error fault => some (.ofFault fault path.text)
      | .ok _ => none
  | .commonJS =>
    match Text.Utf8.decode bytes with
    | .error _ => some ((Error.ofFault ⟨none⟩ path.text).mapLocation Wrapper.unwrap)
    | .ok body =>
      match Grammar.readSoundScript (Wrapper.wrap body) false with
      | .error fault => some ((Error.ofFault fault path.text).mapLocation Wrapper.unwrap)
      | .ok _ => none
  | .text =>
    match Text.Utf8.decode bytes with
    | .error fault => some (.read path (.unreadable path.text s!"invalid UTF-8: {fault.message}"))
    | .ok _ => none
  | .data => none
  | .compiledWasm =>
    match Wasm.outline? bytes with
    | none => some (.wasm path "invalid module")
    | some _ => none

namespace Script

/-- A new module requests some specifiers, from where it was read. -/
structure World.HasNew (w : World) (module : Module) (referrer : Origin)
    (requests : List Text.Units) : Prop where
  requests : module.requests = requests
  loaded : module.loaded = []
  status : module.status = .unlinked
  /-- A module that requests something is code. -/
  referrer : module.requests ≠ [] → ∃ (unit : Nat) (code : CodeUnit),
    module.body = .code unit ∧ w.units[unit]? = some code ∧ code.referrer = referrer

/-- What loading a file comes to: a failure if there is a fault, else a new module. -/
def Loads (path : Path) (requests : List Text.Units) (fault : Option Error) (w : World)
    (result : Except Error Nat) (w' : World) : Prop :=
  (∃ error, fault = some error ∧ result = .error error ∧ w.Calm w') ∨
    fault = none ∧ ∃ module, result = .ok w.modules.size ∧ w.Grows w' [module] ∧
      w'.HasNew module (.file path) requests

variable {path : Path} {requests : List Text.Units} {fault : Option Error} {w w' w'' : World}
  {result : Except Error Nat}

theorem Loads.of_calm (calm : w.Calm w') (h : Loads path requests fault w' result w'') :
    Loads path requests fault w result w'' := by
  rcases h with ⟨error, faulty, failed, calm'⟩ | ⟨sound, module, added, grown, new⟩
  · exact .inl ⟨error, faulty, failed, calm.trans calm'⟩
  · have same : w'.modules.size = w.modules.size := by simp [calm.modules]
    exact .inr ⟨sound, module, by rw [added, same], calm.trans grown, new⟩

/-- A module that requests nothing. -/
theorem runs_addPlain (body : ModuleBody) (path : Path) (w : World) :
    Runs (do pure (.ok (← addModule body none))) w (Loads path [] none w) := by
  refine (runs_addModule body none w).bind fun id w' added => .pure ?_
  obtain ⟨rfl, module, grown, new⟩ := added
  exact .inr ⟨rfl, module, rfl, grown, new.requests, new.loaded, new.status, fun some =>
    absurd new.requests some⟩

/-- A module of code. -/
theorem runs_addCode (unit : CodeUnit) (tree : ModuleTree) (w : World) :
    Runs (do addModule (.code (← addUnit unit)) (some tree)) w fun id w' =>
      id = w.modules.size ∧ ∃ module, w.Grows w' [module] ∧
        w'.HasNew module unit.referrer tree.requests := by
  refine (runs_addUnit unit w).bind fun id w' ⟨calm, known, _⟩ => ?_
  refine (runs_addModule (.code id) (some tree) w').mono
    fun module w'' ⟨size, module, grown, new⟩ => ?_
  refine ⟨?_, module, calm.trans grown, new.requests, new.loaded, new.status, fun _ =>
    ⟨id, unit, new.body, grown.units id unit known, rfl⟩⟩
  rw [size, calm.modules]
  simp

end Script

namespace Loader

/-- A load that fails before it has added anything. -/
theorem loads_error (path : Path) (requests : List Text.Units) (error : Error) (w : World) :
    Runs (pure (.error error)) w (Loads path requests (some error) w) :=
  .pure (.inl ⟨error, rfl, rfl, .refl w⟩)

theorem runs_esModule (path : Path) (bytes : Bytes) (w : World) :
    Runs (esModule path bytes) w
      (Loads path (requestsOf bytes) (Kind.Supported.esModule.fault? path bytes) w) := by
  rw [esModule, requestsOf, Kind.Supported.fault?]
  cases Text.Utf8.decode bytes with
  | error _ => exact loads_error path _ _ w
  | ok text =>
    dsimp only
    cases Grammar.readModule text with
    | error fault => exact loads_error path _ _ w
    | ok tree =>
      let unit : CodeUnit :=
        { origin := .file path, functions := (tree.code text).functions, referrer := .file path }
      change Runs (addUnit unit >>= fun id => addModule (.code id) (some tree) >>= fun module =>
        pure (Except.ok module)) w (Loads path tree.requests none w)
      rw [← bind_assoc]
      refine (runs_addCode unit tree w).bind fun id w' ⟨size, module, grown, new⟩ => .pure ?_
      exact .inr ⟨rfl, module, congrArg _ size, grown, new⟩

theorem runs_commonJs (path : Path) {bytes : Bytes}
    (body : ∀ text, Text.Utf8.decode bytes = .ok text → Wrapper.IsBody text) (w : World) :
    Runs (commonJs path bytes) w
      (Loads path [] (Kind.Supported.commonJS.fault? path bytes) w) := by
  rw [commonJs, Kind.Supported.fault?]
  dsimp only
  cases decoded : Text.Utf8.decode bytes with
  | error _ => exact loads_error path _ _ w
  | ok text =>
    dsimp only
    cases read : Grammar.readSoundScript (Wrapper.wrap text) false with
    | error fault => exact loads_error path _ _ w
    | ok tree =>
      obtain ⟨code, index, own, closure⟩ :=
        (body text decoded tree read).makesClosure (Wrapper.wrap text)
      let unit : CodeUnit :=
        { origin := .file path, functions := (tree.code (Wrapper.wrap text)).functions
          referrer := .file path }
      refine (runs_addUnit unit w).bind fun id w₁ ⟨calm₁, known, _⟩ => ?_
      obtain ⟨wrapper, w₂, ran, calm₂⟩ := calm_program own closure known
      have captured : Runs (capture (runProgram id)) w₁ fun result w' =>
          result = .ok wrapper ∧ w₁.Calm w' :=
        ⟨.ok wrapper, w₂, by rw [capture, ran], rfl, calm₂⟩
      refine captured.bind fun result w₃ ⟨same, calm₃⟩ => ?_
      rw [same]
      exact (runs_addPlain _ path w₃).mono fun _ _ loads => loads.of_calm (calm₁.trans calm₃)

theorem runs_text (path : Path) (bytes : Bytes) (w : World) :
    Runs (text path bytes) w (Loads path [] (Kind.Supported.text.fault? path bytes) w) := by
  rw [text, Kind.Supported.fault?]
  cases Text.Utf8.decode bytes with
  | error _ => exact loads_error path _ _ w
  | ok text => exact runs_addPlain _ path w

theorem runs_data (path : Path) (bytes : Bytes) (w : World) :
    Runs (data bytes) w (Loads path [] none w) :=
  (quiet_allocate _ w).bind fun _ w' calm =>
    (runs_addPlain _ path w').mono fun _ _ loads => loads.of_calm calm

theorem quiet_describeExtern (members : List (String × String)) : Quiet (describeExtern members) :=
  .bind quiet_newObject fun _ =>
    .bind (.forM members fun _ => quiet_defineMember _ _ _) fun _ => .pure _

theorem runs_compiledWasm (path : Path) (bytes : Bytes) (w : World) :
    Runs (compiledWasm path bytes) w
      (Loads path [] (Kind.Supported.compiledWasm.fault? path bytes) w) := by
  rw [compiledWasm, Kind.Supported.fault?]
  cases Wasm.outline? bytes with
  | none => exact loads_error path _ _ w
  | some outline =>
    have listed (items : List Value) : Quiet (do
        pure { value := .object (← newArray items), writable := false, configurable := false } :
          Action Property) :=
      .bind (quiet_newArray items) fun _ => .pure _
    refine (Quiet.mapM _ fun _ => quiet_describeExtern _) w |>.bind fun exports w₁ calm₁ => ?_
    refine (Quiet.mapM _ fun _ => quiet_describeExtern _) w₁ |>.bind fun imports w₂ calm₂ => ?_
    refine (listed exports w₂).bind fun exports w₃ calm₃ => ?_
    refine (listed imports w₃).bind fun imports w₄ calm₄ => ?_
    refine (quiet_allocate _ w₄).bind fun id w₅ calm₅ => ?_
    have calm := calm₁.trans (calm₂.trans (calm₃.trans (calm₄.trans calm₅)))
    exact (runs_addPlain _ path w₅).mono fun _ _ loads => loads.of_calm calm

/-- Loading a file comes to a module that requests what the file does, or to a failure. -/
theorem runs_load (path : Path) (kind : Kind.Supported) {bytes : Bytes}
    (body : kind = .commonJS → ∀ text, Text.Utf8.decode bytes = .ok text → Wrapper.IsBody text)
    (w : World) :
    Runs (load path kind bytes) w (Loads path (kind.requests bytes) (kind.fault? path bytes) w) := by
  cases kind with
  | esModule => exact runs_esModule path bytes w
  | commonJS => exact runs_commonJs path (body rfl) w
  | text => exact runs_text path bytes w
  | data => exact runs_data path bytes w
  | compiledWasm => exact runs_compiledWasm path bytes w

end Loader
end Isolate
