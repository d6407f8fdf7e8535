import Isolate.Proofs.Script.Assembly
import Isolate.Proofs.Worker.Loaders

/-!
# Loading adds to a world

Every loader adds to the world of a build. That of a CommonJS file runs the program around the file, so it
does this only for the body of a function: the program then makes the function and runs nothing of it.
-/

namespace Isolate

open Script World

variable {base w : World}

theorem nodup_of_hasRepeated {names : List String} (sound : hasRepeated names = false) : names.Nodup := by
  induction names with
  | nil => exact List.nodup_nil
  | cons name rest ih =>
    rw [hasRepeated, Bool.or_eq_false_iff] at sound
    refine List.nodup_cons.mpr ⟨fun member => ?_, ih sound.2⟩
    rw [List.contains_iff_mem.mpr member] at sound
    exact Bool.noConfusion sound.1

/-- No two imports of a module that is read have one name. -/
theorem names_of_readModule {text : List Char} {tree : ModuleTree}
    (read : Grammar.readModule text = .ok tree) : (tree.imports.map ImportEntry.localName).Nodup := by
  rw [Grammar.readModule] at read
  dsimp only at read
  split at read
  next => contradiction
  next draft _ =>
    split at read
    next sound =>
      rw [← Except.ok.inj read, List.map_reverse]
      refine (List.reverse_perm _).nodup_iff.mpr ?_
      rw [Grammar.ModuleDraft.isSound] at sound
      simp only [Bool.and_eq_true, Bool.not_eq_true'] at sound
      exact (List.nodup_append.mp (nodup_of_hasRepeated sound.1.1.1.1)).1
    next => contradiction

/-- A module that is read may be added. -/
theorem adds_addRead {text : List Char} {tree : ModuleTree} (read : Grammar.readModule text = .ok tree)
    (unit : Nat) : Obeys base.Adds (addModule (.code unit) (some tree)) :=
  adds_addModule fun _ same => ⟨⟨unit, rfl⟩, Option.some.inj same ▸ names_of_readModule read⟩

/-- A module without code of its own may be added. -/
theorem adds_addPlain (body : ModuleBody) : Obeys base.Adds (addModule body none) :=
  adds_addModule fun _ same => nomatch same

namespace Loader

theorem adds_fixedModule (value : Value) : Obeys base.Adds (fixedModule value) :=
  .bind (adds_addPlain _) fun _ => .pure _

theorem adds_esModule (path : Path) (bytes : Bytes) : Obeys base.Adds (esModule path bytes) := by
  unfold esModule
  split
  · exact .pure _
  · split
    · exact .pure _
    next read =>
      exact .bind (adds_addUnit _) fun _ => .bind (adds_addRead read _) fun _ => .pure _

/-- A program that makes a closure adds to the world. -/
theorem adds_program {unit : CodeUnit} {code : FunctionCode} {index id : Nat}
    (own : unit.functions.back? = some code) (closure : code.MakesClosure index)
    (known : w.units[id]? = some unit) : base.Adds w (left (capture (runProgram id)) w) := by
  have places (w : World) (calls : List Nat) (here : Option Site) (running : Nat) :
      base.Adds w { w with calls, here, running } :=
    adds_of_extends (fun assembled => { assembled.toExtends with }) rfl
      (fun _ _ known => known) (Nat.le_refl _)
  have closes (unit : Nat) (code : FunctionCode) (scope : ScopeId) (this : Value) (w : World) :
      Runs (newClosure unit code scope this) w fun _ w' => base.Adds w w' := by
    obtain ⟨value, w', made, _⟩ := quiet_newClosure unit code scope this w
    have added : base.Adds w (left (newClosure unit code scope this) w) := adds_newClosure _ _ _ _ w
    rw [left_of_ok made] at added
    exact ⟨value, w', made, added⟩
  obtain ⟨value, w', ran, added⟩ := runs_program places closes own closure known
  rw [left, capture, ran]
  exact added

theorem adds_commonJs (path : Path) {bytes : Bytes}
    (body : ∀ text, Text.Utf8.decode bytes = .ok text → Wrapper.IsBody text) :
    base.Adds w (left (commonJs path bytes) w) := by
  unfold commonJs
  dsimp only
  cases decoded : Text.Utf8.decode bytes with
  | error _ => exact Std.Refl.refl (r := base.Adds) w
  | ok text =>
    dsimp only
    cases read : Grammar.readSoundScript (Wrapper.wrap text) false with
    | error fault => exact Std.Refl.refl (r := base.Adds) w
    | ok tree =>
      obtain ⟨code, index, own, closure⟩ :=
        (body text decoded tree read).makesClosure (Wrapper.wrap text)
      let unit : CodeUnit :=
        { origin := .file path, functions := (tree.code (Wrapper.wrap text)).functions
          referrer := .file path }
      obtain ⟨id, w', added, _, known, _⟩ := runs_addUnit unit w
      refine Obeys.bind_from (adds_addUnit unit w) fun id' after added' => ?_
      obtain ⟨rfl, rfl⟩ := EStateM.Result.ok.inj (added'.symm.trans added)
      refine Obeys.bind_at (adds_program own closure known) fun ran => ?_
      cases ran with
      | error abrupt => exact .bind .get fun _ => .pure _
      | ok wrapper => exact .bind (adds_addPlain _) fun _ => .pure _

theorem adds_describeExtern (members : List (String × String)) :
    Obeys base.Adds (describeExtern members) :=
  adds_allocate_bind fun _ new =>
    .bind (.forM members fun _ => adds_modifyObject new _) fun _ => .pure _

theorem adds_compiledWasm (path : Path) (bytes : Bytes) :
    Obeys base.Adds (compiledWasm path bytes) := by
  unfold compiledWasm
  split
  · exact .pure _
  · have listed (items : List Value) : Obeys base.Adds (do
        pure { value := .object (← newArray items), writable := false, configurable := false } :
          Action Property) := .bind (adds_allocate _) fun _ => .pure _
    refine .bind (.mapM _ fun _ => adds_describeExtern _) fun exports =>
      .bind (.mapM _ fun _ => adds_describeExtern _) fun imports => ?_
    exact .bind (listed _) fun _ => .bind (listed _) fun _ =>
      .bind (adds_allocate _) fun _ => adds_fixedModule _

/-- Loading a file adds to the world. A CommonJS file has to be the body of a function. -/
theorem adds_load (path : Path) (kind : Kind.Supported) {bytes : Bytes}
    (body : kind = .commonJS → ∀ text, Text.Utf8.decode bytes = .ok text → Wrapper.IsBody text) :
    base.Adds w (left (load path kind bytes) w) := by
  cases kind with
  | esModule => exact adds_esModule path bytes w
  | commonJS => exact adds_commonJs path (body rfl)
  | text =>
    refine (?_ : Obeys base.Adds (text path bytes)) w
    unfold text
    split
    · exact .pure _
    · exact adds_fixedModule _
  | data => exact Obeys.bind (R := base.Adds) (adds_allocate _) (fun _ => adds_fixedModule _) w
  | compiledWasm => exact adds_compiledWasm path bytes w

end Loader
end Isolate
