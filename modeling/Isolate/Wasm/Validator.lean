import Isolate.Wasm.Operator

/-!
# Valid WebAssembly modules

A module is valid if its sections are in order and in themselves consistent and if the code of every
function fits its type: each instruction finds the values that it takes on the stack, and each block
leaves those that it promises. Behind an instruction that never ends normally the stack may hold
anything.
-/

namespace Isolate.Wasm

/-- What is known of a module so far. -/
structure Draft where
  types : Array FunctionType := #[]
  functions : Array FunctionType := #[]
  tables : Array ValueType := #[]
  memories : Nat := 0
  globals : Array (ValueType × Bool) := #[]
  elements : Array ValueType := #[]
  imports : List Import := []
  exports : List Export := []
  importedFunctions : Nat := 0
  importedGlobals : Nat := 0
  /-- The functions that code may take references to. -/
  referable : List Nat := []
  dataCount : Option Nat := none
  /-- The number of bodies and of data segments that were read. -/
  bodies : Nat := 0
  segments : Nat := 0

/-- A block of code that is being read. -/
structure Block where
  code : UInt8
  params : List ValueType
  results : List ValueType
  /-- The number of values on the stack below the block. -/
  height : Nat
  isUnreachable : Bool := false

/-- The state of reading code: a value of unknown type is `none`. -/
structure Checker where
  bytes : List UInt8
  values : List (Option ValueType) := []
  blocks : List Block := []
  /-- The functions that the code takes references to. -/
  references : List Nat := []

abbrev Check := StateT Checker Option

namespace Check

def read {α : Type} (reader : Read α) : Check α := fun checker =>
  match reader checker.bytes with
  | some (value, bytes) => some (value, { checker with bytes })
  | none => none

def require (condition : Bool) : Check PUnit := fun checker =>
  if condition then some (⟨⟩, checker) else none

def found {α : Type} (value : Option α) : Check α := fun checker =>
  match value with
  | some value => some (value, checker)
  | none => none

def innermost : Check Block := do found (← get).blocks.head?

def push (type : Option ValueType) : Check PUnit :=
  modify fun checker => { checker with values := type :: checker.values }

def popAny : Check (Option ValueType) := do
  let block ← innermost
  let checker ← get
  if checker.values.length = block.height then do
    require block.isUnreachable
    pure none
  else
    match checker.values with
    | type :: values => do
      set { checker with values }
      pure type
    | [] => fun _ => none

def pop (type : ValueType) : Check PUnit := do
  match ← popAny with
  | none => pure ()
  | some found => require (found = type)

def popAll (types : List ValueType) : Check PUnit := types.reverse.forM pop

def pushAll (types : List ValueType) : Check PUnit := types.forM fun type => push (some type)

def apply (operator : Operator) : Check PUnit := do
  popAll operator.takes
  pushAll operator.gives

def enter (code : UInt8) (type : FunctionType) : Check PUnit := do
  modify fun checker =>
    { checker with
      blocks := ⟨code, type.params, type.results, checker.values.length, false⟩ :: checker.blocks }
  pushAll type.params

/-- Leave the innermost block: nothing is left on the stack but its results, which are popped. -/
def leave : Check Block := do
  let block ← innermost
  popAll block.results
  let checker ← get
  require (checker.values.length = block.height)
  set { checker with blocks := checker.blocks.drop 1 }
  pure block

/-- The code from here to the end of the block is never reached. -/
def unreachable : Check PUnit := do
  let block ← innermost
  modify fun checker =>
    { checker with
      values := checker.values.drop (checker.values.length - block.height)
      blocks := { block with isUnreachable := true } :: checker.blocks.drop 1 }

/-- The types that a jump to a block needs: a loop is entered anew. -/
def labelTypes (depth : Nat) : Check (List ValueType) := do
  let block ← found (← get).blocks[depth]?
  pure (if block.code = 0x03 then block.params else block.results)

def blockType (draft : Draft) : Check FunctionType := do
  match (← get).bytes with
  | 0x40 :: bytes => do
    modify fun checker => { checker with bytes }
    pure ⟨[], []⟩
  | b :: bytes =>
    match Read.valueType? b with
    | some type => do
      modify fun checker => { checker with bytes }
      pure ⟨[], [type]⟩
    | none => do
      match ← read (Read.signedFrom 33) with
      | .ofNat index => found draft.types[index]?
      | .negSucc _ => fun _ => none
  | [] => fun _ => none

/-- An address: its alignment, perhaps its memory, and its offset. -/
def address (draft : Draft) (align : Nat) : Check PUnit := do
  let flags ← read Read.index
  let memory ← if flags ≥ 64 then read Read.index else pure 0
  require (flags % 64 ≤ align && flags < 128)
  let _ ← read Read.index
  require (memory < draft.memories)

def memory (draft : Draft) : Check PUnit := do require ((← read Read.index) < draft.memories)

def table (draft : Draft) : Check ValueType := do found draft.tables[← read Read.index]?

def segment (draft : Draft) : Check PUnit := do
  match draft.dataCount with
  | some count => require ((← read Read.index) < count)
  | none => fun _ => none

def refer (function : Nat) : Check PUnit := do
  modify fun checker => { checker with references := function :: checker.references }
  push (some .funcref)

/-- An instruction behind the byte 0xfc. -/
def extended (draft : Draft) (code : Nat) : Check PUnit := do
  match Operator.clamping? code with
  | some operator => apply operator
  | none =>
    match code with
    | 8 => do
      segment draft
      memory draft
      popAll [.i32, .i32, .i32]
    | 9 => segment draft
    | 10 => do
      memory draft
      memory draft
      popAll [.i32, .i32, .i32]
    | 11 => do
      memory draft
      popAll [.i32, .i32, .i32]
    | 12 => do
      let element ← found draft.elements[← read Read.index]?
      require (element = (← table draft))
      popAll [.i32, .i32, .i32]
    | 13 => do
      let _ ← found draft.elements[← read Read.index]?
    | 14 => do
      let target ← table draft
      require (target = (← table draft))
      popAll [.i32, .i32, .i32]
    | 15 => do
      let type ← table draft
      apply ⟨[type, .i32], [.i32]⟩
    | 16 => do
      let _ ← table draft
      push (some .i32)
    | 17 => do
      let type ← table draft
      popAll [.i32, type, .i32]
    | _ => fun _ => none

def vector (draft : Draft) (code : Nat) : Check PUnit := do
  let (operator, detail) ← found (Operator.vector? code)
  let lane (count : Nat) : Check PUnit := do require ((← read Read.byte).toNat < count)
  match detail with
  | .nothing => pure ()
  | .address align => address draft align
  | .lane count => lane count
  | .addressAndLane align count => do
    address draft align
    lane count
  | .constant => do
    let _ ← read (Read.take 16)
  | .lanes => do
    require ((← read (Read.take 16)).all (· < 32))
  apply operator

def throughTable (draft : Draft) : Check FunctionType := do
  let type ← found draft.types[← read Read.index]?
  require ((← table draft) = .funcref)
  pop .i32
  pure type

/-- A choice between two values; without a type given they are no references. -/
def select : Check PUnit := do
  pop .i32
  let a ← popAny
  let b ← popAny
  let plain : Option ValueType → Bool
    | some type => !type.isReference
    | none => true
  require (plain a && plain b && (a = b || a.isNone || b.isNone))
  push (a.or b)

def jumpTable : Check PUnit := do
  let targets ← read (Read.vector Read.index)
  let last ← read Read.index
  pop .i32
  let types ← labelTypes last
  for target in targets do
    let others ← labelTypes target
    require (others.length = types.length)
    let before ← get
    popAll others
    modify fun checker => { checker with values := before.values }
  popAll types
  unreachable

def leaveFunction : Check PUnit := do
  let outermost ← found (← get).blocks.getLast?
  popAll outermost.results
  unreachable

def replaceCall (type : FunctionType) : Check PUnit := do
  let outermost ← found (← get).blocks.getLast?
  require (type.results = outermost.results)
  popAll type.params
  unreachable

def control (draft : Draft) (code : UInt8) : Check PUnit := do
  match code.toNat with
  | 0x00 => unreachable
  | 0x01 => pure ()
  | 0x02 => do
    let type ← blockType draft
    popAll type.params
    enter code type
  | 0x03 => do
    let type ← blockType draft
    popAll type.params
    enter code type
  | 0x04 => do
    let type ← blockType draft
    pop .i32
    popAll type.params
    enter code type
  | 0x05 => do
    let block ← leave
    require (block.code = 0x04)
    enter code ⟨block.params, block.results⟩
  | 0x0b => do
    let block ← leave
    require (block.code ≠ 0x04 || block.params = block.results)
    pushAll block.results
  | 0x0c => do
    popAll (← labelTypes (← read Read.index))
    unreachable
  | 0x0d => do
    let target ← read Read.index
    pop .i32
    let types ← labelTypes target
    popAll types
    pushAll types
  | 0x0e => jumpTable
  | 0x0f => leaveFunction
  | 0x10 => do
    let type ← found draft.functions[← read Read.index]?
    popAll type.params
    pushAll type.results
  | 0x11 => do
    let type ← throughTable draft
    popAll type.params
    pushAll type.results
  | 0x12 => do replaceCall (← found draft.functions[← read Read.index]?)
  | 0x13 => do replaceCall (← throughTable draft)
  | 0x1a => do
    let _ ← popAny
  | 0x1b => select
  | 0x1c => do
    match ← read (Read.vector Read.valueType) with
    | [type] => do
      pop .i32
      apply ⟨[type, type], [type]⟩
    | _ => fun _ => none
  | _ => fun _ => none

/-- An instruction on variables, tables and constants. -/
def access (draft : Draft) (locals : Array ValueType) (code : UInt8) : Check PUnit := do
  match code.toNat with
  | 0x20 => do push (some (← found locals[← read Read.index]?))
  | 0x21 => do pop (← found locals[← read Read.index]?)
  | 0x22 => do
    let type ← found locals[← read Read.index]?
    apply (Operator.unary type type)
  | 0x23 => do push (some (← found draft.globals[← read Read.index]?).1)
  | 0x24 => do
    let (type, mutable) ← found draft.globals[← read Read.index]?
    require mutable
    pop type
  | 0x25 => do
    let type ← table draft
    apply (Operator.unary .i32 type)
  | 0x26 => do
    let type ← table draft
    popAll [.i32, type]
  | 0x3f => do
    memory draft
    push (some .i32)
  | 0x40 => do
    memory draft
    apply (Operator.unary .i32 .i32)
  | 0x41 => do
    let _ ← read (Read.signedFrom 32)
    push (some .i32)
  | 0x42 => do
    let _ ← read (Read.signedFrom 64)
    push (some .i64)
  | 0x43 => do
    let _ ← read (Read.take 4)
    push (some .f32)
  | 0x44 => do
    let _ ← read (Read.take 8)
    push (some .f64)
  | 0xd0 => do push (some (← read Read.referenceType))
  | 0xd1 => do
    match ← popAny with
    | some type => require type.isReference
    | none => pure ()
    push (some .i32)
  | 0xd2 => do
    let function ← read Read.index
    require (function < draft.functions.size)
    refer function
  | _ => fun _ => none

def instruction (draft : Draft) (locals : Array ValueType) : Check PUnit := do
  let code ← read Read.byte
  if code ≤ 0x1c then control draft code
  else if code = 0xfc then do extended draft (← read Read.index)
  else if code = 0xfd then do vector draft (← read Read.index)
  else
    match Operator.memory? code.toNat, Operator.numeric? code.toNat with
    | some (operator, align), _ => do
      address draft align
      apply operator
    | none, some operator => apply operator
    | none, none => access draft locals code

/-- Instructions to the end of the outermost block. Each has at least one byte. -/
def instructions (draft : Draft) (locals : Array ValueType) : (fuel : Nat) → Check PUnit
  | 0 => fun _ => none
  | fuel + 1 => do
    instruction draft locals
    if (← get).blocks.isEmpty then pure () else instructions draft locals fuel

/-- Whether a constant expression may hold an instruction. -/
def isConstant (draft : Draft) (bytes : List UInt8) : Bool :=
  match bytes with
  | code :: rest =>
    if code = 0x23 then
      match Read.index rest with
      | some (global, _) =>
        global < draft.importedGlobals && (draft.globals[global]?.map (·.2)) == some false
      | none => false
    else if code = 0xfd then
      match Read.index rest with
      | some (code, _) => code = 12
      | none => false
    else
      [0x0b, 0x41, 0x42, 0x43, 0x44, 0xd0, 0xd2, 0x6a, 0x6b, 0x6c, 0x7c, 0x7d, 0x7e].contains
        code.toNat
  | [] => false

def constants (draft : Draft) : (fuel : Nat) → Check PUnit
  | 0 => fun _ => none
  | fuel + 1 => do
    require (isConstant draft (← get).bytes)
    instruction draft #[]
    if (← get).blocks.isEmpty then pure () else constants draft fuel

end Check

namespace Draft

/-- A constant expression of a type. The result are the functions that it takes references to. -/
def constant (draft : Draft) (type : ValueType) : Read (List Nat) := fun bytes =>
  let start : Checker := { bytes, blocks := [⟨0x02, [], [type], 0, false⟩] }
  match Check.constants draft (bytes.length + 1) start with
  | some (_, checker) => some (checker.references, checker.bytes)
  | none => none

def localGroups : Read (List (Nat × ValueType)) :=
  Read.vector do
    let count ← Read.index
    pure (count, ← Read.valueType)

def body (draft : Draft) (type : FunctionType) : Read PUnit := do
  let size ← Read.index
  Read.sized size do
    let groups ← localGroups
    Read.require (type.params.length + (groups.map (·.1)).foldr (· + ·) 0 ≤ 50000)
    let locals := type.params ++ groups.flatMap fun (count, type) => List.replicate count type
    fun bytes =>
      let start : Checker := { bytes, blocks := [⟨0x02, [], type.results, 0, false⟩] }
      match Check.instructions draft locals.toArray (bytes.length + 1) start with
      | some (_, checker) =>
        if checker.references.all draft.referable.contains then some (⟨⟩, checker.bytes) else none
      | none => none

def bodiesFrom (draft : Draft) : (functions : List FunctionType) → Read PUnit
  | [] => pure ()
  | type :: rest => do
    draft.body type
    draft.bodiesFrom rest

/-- A thing that is taken from outside. -/
def readImport (draft : Draft) : Read Draft := do
  let module ← Read.name
  let name ← Read.name
  let add (kind : ExternKind) (draft : Draft) : Draft :=
    { draft with imports := draft.imports ++ [⟨module, name, kind⟩] }
  match (← Read.byte).toNat with
  | 0 => do
    match draft.types[← Read.index]? with
    | some type =>
      pure (add .function
        { draft with
          functions := draft.functions.push type, importedFunctions := draft.importedFunctions + 1 })
    | none => Read.fail
  | 1 => do pure (add .table { draft with tables := draft.tables.push (← Read.tableType) })
  | 2 => do
    Read.memoryType
    pure (add .memory { draft with memories := draft.memories + 1 })
  | 3 => do
    pure (add .global
      { draft with
        globals := draft.globals.push (← Read.globalType)
        importedGlobals := draft.importedGlobals + 1 })
  | _ => Read.fail

def readExport (draft : Draft) : Read Draft := do
  let name ← Read.name
  Read.require (!draft.exports.any (·.name = name))
  let add (kind : ExternKind) (bound index : Nat) (draft : Draft) : Read Draft := do
    Read.require (index < bound)
    pure { draft with exports := draft.exports ++ [⟨name, kind⟩] }
  let kind ← Read.byte
  let index ← Read.index
  match kind.toNat with
  | 0 => add .function draft.functions.size index { draft with referable := index :: draft.referable }
  | 1 => add .table draft.tables.size index draft
  | 2 => add .memory draft.memories index draft
  | 3 => add .global draft.globals.size index draft
  | _ => Read.fail

def readGlobal (draft : Draft) : Read Draft := do
  let (type, mutable) ← Read.globalType
  let references ← draft.constant type
  pure
    { draft with
      globals := draft.globals.push (type, mutable), referable := references ++ draft.referable }

/-- Where a segment of elements goes: into a table at a place, or nowhere at first. -/
def elementPlace (draft : Draft) (flags : Nat) : Read (Option ValueType) := do
  if flags % 2 = 1 then pure none
  else
    let table ← if flags / 2 % 2 = 1 then Read.index else pure 0
    let _ ← draft.constant .i32
    match draft.tables[table]? with
    | some type => pure (some type)
    | none => Read.fail

def readElements (draft : Draft) : Read Draft := do
  let flags ← Read.index
  Read.require (flags ≤ 7)
  let place ← draft.elementPlace flags
  let isExpressions := flags / 4 = 1
  let type ←
    if flags % 4 = 0 then pure ValueType.funcref
    else if isExpressions then Read.referenceType
    else do
      Read.require ((← Read.byte) = 0)
      pure ValueType.funcref
  Read.require (place = none || place = some type)
  let functions ←
    if isExpressions then do pure (← Read.vector (draft.constant type)).flatten
    else do
      let functions ← Read.vector Read.index
      Read.require (functions.all (· < draft.functions.size))
      pure functions
  pure
    { draft with
      elements := draft.elements.push type, referable := functions ++ draft.referable }

def readData (draft : Draft) : Read Draft := do
  let flags ← Read.index
  Read.require (flags ≤ 2)
  if flags ≠ 1 then
    let memory ← if flags = 2 then Read.index else pure 0
    Read.require (memory < draft.memories)
    let _ ← draft.constant .i32
  let length ← Read.index
  let _ ← Read.take length
  pure { draft with segments := draft.segments + 1 }

def repeated (item : Draft → Read Draft) : (count : Nat) → Draft → Read Draft
  | 0, draft => pure draft
  | count + 1, draft => do repeated item count (← item draft)

def counted (item : Draft → Read Draft) (draft : Draft) : Read Draft := do
  let count ← Read.index
  Read.require (count ≤ (← get).length)
  repeated item count draft

def readSection (draft : Draft) (id : Nat) : Read Draft := do
  match id with
  | 1 => counted (fun draft => do
      pure { draft with types := draft.types.push (← Read.functionType) }) draft
  | 2 => counted readImport draft
  | 3 => counted (fun draft => do
      match draft.types[← Read.index]? with
      | some type => pure { draft with functions := draft.functions.push type }
      | none => Read.fail) draft
  | 4 => counted (fun draft => do
      pure { draft with tables := draft.tables.push (← Read.tableType) }) draft
  | 5 => counted (fun draft => do
      Read.memoryType
      pure { draft with memories := draft.memories + 1 }) draft
  | 6 => counted readGlobal draft
  | 7 => counted readExport draft
  | 8 => do
    match draft.functions[← Read.index]? with
    | some ⟨[], []⟩ => pure draft
    | _ => Read.fail
  | 9 => counted readElements draft
  | 10 => do
    let count ← Read.index
    let own := draft.functions.toList.drop draft.importedFunctions
    Read.require (count = own.length)
    draft.bodiesFrom own
    pure { draft with bodies := count }
  | 11 => counted readData draft
  | 12 => do pure { draft with dataCount := some (← Read.index) }
  | _ => Read.fail

end Draft

/-- Where a section stands among the others: the number of data segments comes before the code. -/
def sectionRank (id : Nat) : Nat :=
  if id ≤ 9 then 10 * id else if id = 12 then 95 else 10 * id

/-- Read the sections. Those that are custom may stand anywhere. -/
def readSections : (fuel : Nat) → (rank : Nat) → Draft → Read Draft
  | 0, _, _ => Read.fail
  | fuel + 1, rank, draft => do
    if (← get).isEmpty then pure draft
    else
      let id := (← Read.byte).toNat
      let size ← Read.index
      if id = 0 then
        Read.sized size do
          let _ ← Read.name
          set ([] : List UInt8)
        readSections fuel rank draft
      else
        Read.require (id ≤ 12 && rank < sectionRank id)
        let draft ← Read.sized size (draft.readSection id)
        readSections fuel (sectionRank id) draft

/-- The bytes that a module of the one version starts with. -/
def magic : List UInt8 := [0x00, 0x61, 0x73, 0x6d, 0x01, 0x00, 0x00, 0x00]

def outline? (bytes : List UInt8) : Option Outline :=
  if bytes.take 8 ≠ magic then none
  else
    match readSections (bytes.length + 1) 0 {} (bytes.drop 8) with
    | some (draft, _) =>
      let own := draft.functions.size - draft.importedFunctions
      if draft.bodies = own && draft.dataCount.getD draft.segments = draft.segments then
        some ⟨draft.imports, draft.exports⟩
      else none
    | none => none

end Isolate.Wasm
