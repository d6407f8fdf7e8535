import Isolate.Script.Code
import Isolate.Script.Names
import Isolate.Script.Grammar.Module

/-!
# From trees to code

Every expression becomes instructions that push its value, and every statement instructions that
leave the stack as it was. A place holds for all instructions that are emitted while it is in force
and for those behind them up to the next place, whatever the order in which they run.

A jump out of blocks undoes what they did, innermost first: it leaves their scopes, gives up their
handlers and runs their `finally` parts.
-/

namespace Isolate.Script

/-- The code of a function that is being emitted. -/
structure Builder where
  instrs : Array Instr := #[]
  places : Array (Option Position) := #[]
  /-- The place of the last instruction. -/
  last : Option Position := none
  /-- Where the labels stand. -/
  labels : Array Nat := #[]
  usesArguments : Bool := false
  /-- The finished functions of the unit. -/
  functions : Array FunctionCode := #[]

abbrev Emit := StateM Builder

/-- What a jump passes on its way out, or goes to. -/
inductive Exit where
  | loop (labels : List String) (breakTo continueTo : Nat)
  | labelled (label : String) (breakTo : Nat)
  | undo (action : Emit Unit)

/-- What is around the code that is being emitted. -/
structure Surroundings where
  /-- The place in force. -/
  place : Option Position := none
  /-- The innermost first. -/
  exits : List Exit := []
  /-- The labels of the statement. -/
  labels : List String := []
  isStrict : Bool := false
  /-- Whether the values of statements are kept. -/
  completes : Bool := false
  /-- The text of the unit. -/
  text : List Char := []

namespace Surroundings

def atPlace (env : Surroundings) (place : Position) : Surroundings := { env with place := some place }

def emit (env : Surroundings) (instr : Instr) : Emit Unit :=
  modify fun b =>
    let place := env.place.or b.last
    { b with instrs := b.instrs.push instr, places := b.places.push place, last := place }

def emits (env : Surroundings) : List Instr → Emit Unit
  | [] => pure ()
  | instr :: rest => do
    env.emit instr
    env.emits rest

def newLabel : Emit Nat := do
  let b ← get
  set { b with labels := b.labels.push 0 }
  pure b.labels.size

def putLabel (label : Nat) : Emit Unit :=
  modify fun b => { b with labels := b.labels.setIfInBounds label b.instrs.size }

def undoAll : List Exit → Emit Unit
  | [] => pure ()
  | .undo action :: rest => do
    action
    undoAll rest
  | _ :: rest => undoAll rest

/-- Jump to the end of a loop or of a labelled statement. -/
def breakOut (env : Surroundings) (label : Option String) : List Exit → Emit Unit
  | [] => pure ()
  | .undo action :: rest => do
    action
    breakOut env label rest
  | .loop labels target _ :: rest =>
    match label with
    | none => env.emit (.jump target)
    | some l => if labels.contains l then env.emit (.jump target) else breakOut env label rest
  | .labelled l target :: rest =>
    if label = some l then env.emit (.jump target) else breakOut env label rest

def continueOut (env : Surroundings) (label : Option String) : List Exit → Emit Unit
  | [] => pure ()
  | .undo action :: rest => do
    action
    continueOut env label rest
  | .loop labels _ target :: rest =>
    match label with
    | none => env.emit (.jump target)
    | some l => if labels.contains l then env.emit (.jump target) else continueOut env label rest
  | .labelled _ _ :: rest => continueOut env label rest

def undoing (env : Surroundings) (action : Emit Unit) : Surroundings :=
  { env with exits := .undo action :: env.exits }

end Surroundings

/-- Put indices in the place of labels. -/
def Instr.resolve (labels : Array Nat) : Instr → Instr
  | .jump l => .jump (labels.getD l 0)
  | .jumpIfFalse l => .jumpIfFalse (labels.getD l 0)
  | .jumpIfTrue l => .jumpIfTrue (labels.getD l 0)
  | .jumpIfDecided op l => .jumpIfDecided op (labels.getD l 0)
  | .enterTry l => .enterTry (labels.getD l 0)
  | .enterFinally l => .enterFinally (labels.getD l 0)
  | instr => instr

def lexicalBindings : List Stmt → List (String × BindingKind)
  | [] => []
  | .declare .letting bindings :: rest =>
    (declaredNames bindings).map (·, .mutable) ++ lexicalBindings rest
  | .declare .const bindings :: rest =>
    (declaredNames bindings).map (·, .constant) ++ lexicalBindings rest
  | .function _ head _ :: rest => head.name.toList.map (·, .mutable) ++ lexicalBindings rest
  | _ :: rest => lexicalBindings rest

def topLexicalBindings : List Stmt → List (String × BindingKind)
  | [] => []
  | .declare .letting bindings :: rest =>
    (declaredNames bindings).map (·, .mutable) ++ topLexicalBindings rest
  | .declare .const bindings :: rest =>
    (declaredNames bindings).map (·, .constant) ++ topLexicalBindings rest
  | _ :: rest => topLexicalBindings rest

def FunctionHead.shownName (head : FunctionHead) : Text.Units :=
  match head.name with
  | none => []
  | some name =>
    if name = Grammar.defaultName then Text.Units.ofString "default" else Text.Units.ofString name

def Expr.isNameless : Expr → Bool
  | .function _ head _ => head.name.isNone
  | _ => false

mutual

/-- Bind the value on the stack to a pattern; `store` takes a value off the stack into a name. -/
def Pattern.emitBind (env : Surroundings) (store : String → Instr) : Pattern → Emit Unit
  | .name _ n => env.emit (store n)
  | .array items => do
    env.emit .spreadItems
    emitBindItems env store 0 items
    env.emit .pop
  | .object members => do
    env.emit .requireObject
    emitBindMembers env store members
    env.emit .pop

def emitBindItems (env : Surroundings) (store : String → Instr) :
    (index : Nat) → List (Option Pattern) → Emit Unit
  | _, [] => pure ()
  | index, none :: rest => emitBindItems env store (index + 1) rest
  | index, some pattern :: rest => do
    env.emits [.dup, .push (.number (.ofNat index)), .getIndex]
    pattern.emitBind env store
    emitBindItems env store (index + 1) rest

def emitBindMembers (env : Surroundings) (store : String → Instr) :
    List (Text.Units × Pattern) → Emit Unit
  | [] => pure ()
  | (name, pattern) :: rest => do
    env.emits [.dup, .getMember name]
    pattern.emitBind env store
    emitBindMembers env store rest

end

def emitParams (env : Surroundings) : (index : Nat) → List Pattern → Emit Unit
  | _, [] => pure ()
  | index, pattern :: rest => do
    env.emit (.loadArgument index)
    pattern.emitBind env .initName
    emitParams env (index + 1) rest

/-- Emit a function: its own code in a fresh builder, then finish it. The result is its index. -/
def emitFunctionWith (text : List Char) (head : FunctionHead) (name : Text.Units)
    (selfName : Option String) (vars : List String) (lexicals : List (String × BindingKind))
    (functions : Emit (List (String × Nat))) (body : Emit Unit) : Emit Nat := do
  let outer ← get
  set { functions := outer.functions : Builder }
  let functions ← functions
  body
  let inner ← get
  let code : FunctionCode :=
    { name, length := head.params.length, isAsync := head.isAsync, isGenerator := head.isGenerator
      isArrow := head.isArrow, isMethod := head.isMethod, isStrict := head.isStrict, selfName
      params := head.params.flatMap Pattern.names, vars, functions, lexicals
      usesArguments := inner.usesArguments && !head.isArrow
      instrs := inner.instrs.map (·.resolve inner.labels), places := inner.places
      source := Text.Units.ofList ((text.drop head.start).take (head.stop - head.start)) }
  set
    { outer with
      functions := inner.functions.push code
      usesArguments := outer.usesArguments || (head.isArrow && inner.usesArguments) }
  pure inner.functions.size

def Surroundings.inside (env : Surroundings) (head : FunctionHead) : Surroundings :=
  { isStrict := head.isStrict, text := env.text }

/-- Emit a function's code from its declared functions and its statements. The result is its index in
the unit. -/
def emitFunction (env : Surroundings) (head : FunctionHead) (name : Text.Units)
    (selfName : Option String) (body : List Stmt) (declared : Emit (List (String × Nat)))
    (statements : Emit Unit) : Emit Nat :=
  let inner := env.inside head
  emitFunctionWith env.text head name selfName (varNames body) (topLexicalBindings body) declared (do
    emitParams inner 0 head.params
    statements
    inner.emits [.push .undefined, .ret])

/-- Emit a block from its declared functions and its statements: they run in a scope of their own if
they bind something. -/
def emitBlock (env : Surroundings) (body : List Stmt) (declared : Emit (List (String × Nat)))
    (statements : Surroundings → Emit Unit) : Emit Unit := do
  let names := lexicalBindings body
  let env := { env with labels := [] }
  if names.isEmpty then statements env
  else
    env.emit (.enterScope names)
    let functions ← declared
    functions.forM fun (name, index) => env.emits [.closure index, .initName name]
    statements (env.undoing (env.emit .leaveScope))
    env.emit .leaveScope

mutual

/-- Push the value of an expression; a function without a name takes the given one. -/
def Expr.emit (env : Surroundings) (name : Text.Units := []) : Expr → Emit Unit
  | .literal _ value => env.emit (.push value)
  | .name _ name => do
    if name = "arguments" then modify fun b => { b with usesArguments := true }
    env.emit (.loadName name)
  | .this _ => env.emit .loadThis
  | .hole => env.emit (.push .undefined)
  | .array _ items => do
    env.emit .newArray
    emitItems env items
  | .object _ members => do
    env.emit .newObject
    emitMembers env members
  | .function _ head body => do
    let shown := if head.name.isNone then name else head.shownName
    let inner := env.inside head
    let index ← emitFunction env head shown head.name body (emitDeclared inner body)
      (emitStmts inner body)
    env.emit (.closure index)
  | .unary _ .typeof (.name _ name) => env.emits [.loadNameIfBound name, .unary .typeof]
  | .unary _ .delete (.name _ name) => env.emit (.deleteName name)
  | .unary _ .delete (.member _ base name) => do
    base.emit env
    env.emit (.deleteMember name)
  | .unary _ .delete (.index _ base index) => do
    base.emit env
    index.emit env
    env.emit .deleteIndex
  | .unary _ op operand => do
    operand.emit env
    env.emit (.unary op)
  | .update place before increment (.name namePlace name) => do
    let env := env.atPlace (if before then place else namePlace)
    env.emits [.loadName name, .toNumeric]
    if !before then env.emit .dup
    env.emits [.push (.number (.int 1)), .binary (if increment then .add else .sub)]
    if before then env.emit .dup
    env.emit (.storeName name)
  | .update place before increment (.member memberPlace base name) => do
    let env := env.atPlace (if before then place else base.start)
    base.emit (env.atPlace memberPlace)
    env.emits [.dup, .getMember name, .toNumeric]
    if !before then env.emits [.dup, .rotate]
    env.emits [.push (.number (.int 1)), .binary (if increment then .add else .sub), .setMember name]
    if !before then env.emit .pop
  | .update place before increment (.index indexPlace base index) => do
    let env := env.atPlace (if before then place else base.start)
    base.emit (env.atPlace indexPlace)
    index.emit (env.atPlace indexPlace)
    env.emits [.getIndexKeep, .toNumeric]
    if !before then env.emits [.dup, .rotateFour]
    env.emits [.push (.number (.int 1)), .binary (if increment then .add else .sub), .setIndex]
    if !before then env.emit .pop
  | .update _ _ _ _ => pure ()
  | .binary op left right => do
    left.emit env
    right.emit env
    env.emit (.binary op)
  | .logical op left right => do
    let done ← Surroundings.newLabel
    left.emit env
    env.emit (.jumpIfDecided op done)
    right.emit env
    Surroundings.putLabel done
  | .conditional test yes no => do
    let otherwise ← Surroundings.newLabel
    let done ← Surroundings.newLabel
    test.emit env
    env.emit (.jumpIfFalse otherwise)
    yes.emit env
    env.emit (.jump done)
    Surroundings.putLabel otherwise
    no.emit env
    Surroundings.putLabel done
  | .assign op (.name place name) value => do
    let env := env.atPlace place
    match op with
    | .replace =>
      value.emit env (Text.Units.ofString name)
      env.emits [.dup, .storeName name]
    | .combine op =>
      env.emit (.loadName name)
      value.emit env
      env.emits [.binary op, .dup, .storeName name]
    | .conditional op =>
      let done ← Surroundings.newLabel
      env.emits [.loadName name, .jumpIfDecided op done]
      value.emit env (Text.Units.ofString name)
      env.emits [.dup, .storeName name]
      Surroundings.putLabel done
  | .assign op (.member place base name) value => do
    let env := env.atPlace base.start
    base.emit (env.atPlace place)
    match op with
    | .replace =>
      value.emit env
      env.emit (.setMember name)
    | .combine op =>
      env.emits [.dup, .getMember name]
      value.emit env
      env.emits [.binary op, .setMember name]
    | .conditional op =>
      let decided ← Surroundings.newLabel
      let done ← Surroundings.newLabel
      env.emits [.dup, .getMember name, .jumpIfDecided op decided]
      value.emit env
      env.emits [.setMember name, .jump done]
      Surroundings.putLabel decided
      env.emits [.swap, .pop]
      Surroundings.putLabel done
  | .assign op (.index place base index) value => do
    let env := env.atPlace base.start
    base.emit (env.atPlace place)
    index.emit (env.atPlace place)
    match op with
    | .replace =>
      value.emit env
      env.emit .setIndex
    | .combine op =>
      env.emit .getIndexKeep
      value.emit env
      env.emits [.binary op, .setIndex]
    | .conditional op =>
      let decided ← Surroundings.newLabel
      let done ← Surroundings.newLabel
      env.emits [.getIndexKeep, .jumpIfDecided op decided]
      value.emit env
      env.emits [.setIndex, .jump done]
      Surroundings.putLabel decided
      env.emits [.rotate, .pop, .pop]
      Surroundings.putLabel done
  | .assign _ _ _ => pure ()
  | .sequence first second => do
    first.emit env
    env.emit .pop
    second.emit env
  | .call place (.member memberPlace base name) args => do
    base.emit (env.atPlace memberPlace)
    (env.atPlace memberPlace).emit (.getMethod name)
    emitArgs env args
    (env.atPlace place).emit (.call args.length)
  | .call place (.index indexPlace base index) args => do
    base.emit (env.atPlace indexPlace)
    index.emit (env.atPlace indexPlace)
    (env.atPlace indexPlace).emit .getIndexMethod
    emitArgs env args
    (env.atPlace place).emit (.call args.length)
  | .call place (.name _ "eval") args => do
    env.emits [.push .undefined, .loadName "eval"]
    emitArgs env args
    (env.atPlace place).emit (.callEval args.length)
  | .call place callee args => do
    env.emit (.push .undefined)
    callee.emit env
    emitArgs env args
    (env.atPlace place).emit (.call args.length)
  | .construct place callee args => do
    let env := env.atPlace place
    callee.emit env
    emitArgs env args
    env.emit (.construct args.length)
  | .member place base name => do
    let env := env.atPlace place
    base.emit env
    env.emit (.getMember name)
  | .index place base index => do
    let env := env.atPlace place
    base.emit env
    index.emit env
    env.emit .getIndex
  | .await _ operand => do
    operand.emit env
    env.emit .await
  | .importCall _ specifier => do
    specifier.emit env
    env.emit .importCall
  | .importMeta _ => env.emit .importMeta
termination_by structural e => e

/-- Emit the functions declared among statements, so that their names can be bound before the
statements run. -/
def emitDeclared (env : Surroundings) : List Stmt → Emit (List (String × Nat))
  | [] => pure []
  | .function _ head body :: rest => do
    let inner := env.inside head
    let index ← emitFunction env head head.shownName none body (emitDeclared inner body)
      (emitStmts inner body)
    let others ← emitDeclared env rest
    pure ((head.name.getD "", index) :: others)
  | _ :: rest => emitDeclared env rest
termination_by structural body => body

/-- Append elements to the array on the stack. -/
def emitItems (env : Surroundings) : List Expr → Emit Unit
  | [] => pure ()
  | .hole :: rest => do
    env.emit .appendHole
    emitItems env rest
  | item :: rest => do
    item.emit env
    env.emit .appendItem
    emitItems env rest
termination_by structural es => es

def emitArgs (env : Surroundings) : List Expr → Emit Unit
  | [] => pure ()
  | arg :: rest => do
    arg.emit env
    emitArgs env rest
termination_by structural es => es

def emitMembers (env : Surroundings) : List Member → Emit Unit
  | [] => pure ()
  | .fixed name value :: rest => do
    value.emit env name
    env.emit (.defineMember name false)
    emitMembers env rest
  | .computed name value :: rest => do
    name.emit env
    value.emit env
    env.emit (.defineIndex value.isNameless)
    emitMembers env rest
  | .proto value :: rest => do
    value.emit env
    env.emit .setPrototype
    emitMembers env rest
termination_by structural ms => ms

def Stmt.emit (env : Surroundings) : Stmt → Emit Unit
  | .empty => pure ()
  | .expression value => do
    value.emit env
    env.emit (if env.completes then .setCompletion else .pop)
  | .declare kind bindings => emitBindings env kind bindings
  | .function _ _ _ => pure ()
  | .block body => emitBlock env body (emitDeclared env body) fun env => emitStmts env body
  | .ifElse test yes no => do
    if env.completes then env.emits [.push .undefined, .setCompletion]
    let env := { env with labels := [] }
    let otherwise ← Surroundings.newLabel
    let done ← Surroundings.newLabel
    test.emit env
    env.emit (.jumpIfFalse otherwise)
    yes.emit env
    env.emit (.jump done)
    Surroundings.putLabel otherwise
    match no with
    | some no => no.emit env
    | none => pure ()
    Surroundings.putLabel done
  | .forLoop start test update body => do
    if env.completes then env.emits [.push .undefined, .setCompletion]
    let names :=
      match start with
      | some s => lexicalBindings [s]
      | none => []
    let outer := env
    let env := if names.isEmpty then env else env.undoing (env.emit .leaveScope)
    if !names.isEmpty then outer.emit (.enterScope names)
    match start with
    | some s => s.emit { env with labels := [], completes := false }
    | none => pure ()
    if !names.isEmpty then env.emit .copyScope
    let next ← Surroundings.newLabel
    let check ← Surroundings.newLabel
    let done ← Surroundings.newLabel
    env.emit (.jump check)
    Surroundings.putLabel next
    env.emit .countRound
    if !names.isEmpty then env.emit .copyScope
    match update with
    | some e => do
      e.emit env
      env.emit .pop
    | none => pure ()
    Surroundings.putLabel check
    match test with
    | some e => do
      e.emit env
      env.emit (.jumpIfFalse done)
    | none => pure ()
    body.emit { env with exits := .loop env.labels done next :: env.exits, labels := [] }
    env.emit (.jump next)
    Surroundings.putLabel done
    if !names.isEmpty then outer.emit .leaveScope
  | .whileLoop test body => do
    if env.completes then env.emits [.push .undefined, .setCompletion]
    let next ← Surroundings.newLabel
    let done ← Surroundings.newLabel
    Surroundings.putLabel next
    env.emit .countRound
    test.emit env
    env.emit (.jumpIfFalse done)
    body.emit { env with exits := .loop env.labels done next :: env.exits, labels := [] }
    env.emit (.jump next)
    Surroundings.putLabel done
  | .doWhile body test => do
    if env.completes then env.emits [.push .undefined, .setCompletion]
    let again ← Surroundings.newLabel
    let next ← Surroundings.newLabel
    let done ← Surroundings.newLabel
    Surroundings.putLabel again
    body.emit { env with exits := .loop env.labels done next :: env.exits, labels := [] }
    Surroundings.putLabel next
    env.emit .countRound
    test.emit env
    env.emit (.jumpIfTrue again)
    Surroundings.putLabel done
  | .breaks label => env.breakOut label env.exits
  | .continues label => env.continueOut label env.exits
  | .returns value => do
    match value with
    | some e => e.emit env
    | none => env.emit (.push .undefined)
    Surroundings.undoAll env.exits
    env.emit .ret
  | .throws value => do
    let env := env.atPlace value.start
    value.emit env
    env.emit .throw
  | .tries body handler none => do
    if env.completes then env.emits [.push .undefined, .setCompletion]
    let block := fun env => emitBlock env body (emitDeclared env body) fun env => emitStmts env body
    emitGuarded { env with labels := [] } block handler
  | .tries body handler (some finalizer) => do
    if env.completes then env.emits [.push .undefined, .setCompletion]
    let env := { env with labels := [] }
    let quiet := { env with completes := false }
    let finish : Emit Unit :=
      emitBlock quiet finalizer (emitDeclared quiet finalizer) fun env => emitStmts env finalizer
    let block := fun env => emitBlock env body (emitDeclared env body) fun env => emitStmts env body
    let failed ← Surroundings.newLabel
    let done ← Surroundings.newLabel
    env.emit (.enterFinally failed)
    emitGuarded
      (env.undoing (do
        env.emit .leaveTry
        finish)) block handler
    env.emit .leaveTry
    finish
    env.emit (.jump done)
    Surroundings.putLabel failed
    finish
    env.emit .rethrow
    Surroundings.putLabel done
  | .labelled label body => do
    if body.isLoop then body.emit { env with labels := label :: env.labels }
    else
      let done ← Surroundings.newLabel
      body.emit { env with exits := .labelled label done :: env.exits, labels := [] }
      Surroundings.putLabel done
termination_by structural s => s

def emitStmts (env : Surroundings) : List Stmt → Emit Unit
  | [] => pure ()
  | statement :: rest => do
    statement.emit env
    emitStmts env rest
termination_by structural body => body

/-- Emit a block whose failures go to a handler, if there is one. -/
def emitGuarded (env : Surroundings) (block : Surroundings → Emit Unit) :
    Option Handler → Emit Unit
  | none => block env
  | some (.mk param handler) => do
    let failed ← Surroundings.newLabel
    let done ← Surroundings.newLabel
    env.emit (.enterTry failed)
    block (env.undoing (env.emit .leaveTry))
    env.emits [.leaveTry, .jump done]
    Surroundings.putLabel failed
    match param with
    | none => do
      env.emit .pop
      emitBlock env handler (emitDeclared env handler) fun env => emitStmts env handler
    | some pattern => do
      env.emit (.enterScope (pattern.names.map (·, .mutable)))
      pattern.emitBind env .initName
      let inner := env.undoing (env.emit .leaveScope)
      emitBlock inner handler (emitDeclared inner handler) fun env => emitStmts env handler
      env.emit .leaveScope
    Surroundings.putLabel done
termination_by structural h => h

def emitBindings (env : Surroundings) (kind : DeclarationKind) : List Declarator → Emit Unit
  | [] => pure ()
  | .mk pattern none :: rest => do
    if kind ≠ .var then
      env.emit (.push .undefined)
      pattern.emitBind env .initName
    emitBindings env kind rest
  | .mk pattern (some value) :: rest => do
    match pattern with
    | .name _ name =>
      let shown := if name = Grammar.defaultName then "default" else name
      value.emit env (Text.Units.ofString shown)
    | _ => value.emit env
    pattern.emitBind env (if kind = .var then .storeName else .initName)
    emitBindings env kind rest
termination_by structural bs => bs

end

def unitOf (action : Emit Nat) : UnitCode := ⟨(action.run {}).2.functions⟩

def ScriptTree.code (tree : ScriptTree) (text : List Char) : UnitCode :=
  let env : Surroundings := { isStrict := tree.isStrict, completes := true, text }
  let head : FunctionHead := { name := none, params := [], isStrict := tree.isStrict }
  unitOf (emitFunctionWith text head [] none (varNames tree.body) (topLexicalBindings tree.body)
    (emitDeclared env tree.body) (do
      emitStmts env tree.body
      env.emits [.loadCompletion, .ret]))

def ModuleTree.code (tree : ModuleTree) (text : List Char) : UnitCode :=
  let env : Surroundings := { isStrict := true, text }
  let head : FunctionHead := { name := none, params := [], isStrict := true, isAsync := tree.awaits }
  unitOf (emitFunctionWith text head [] none (varNames tree.body) (topLexicalBindings tree.body)
    (emitDeclared env tree.body) (do
      emitStmts env tree.body
      env.emits [.push .undefined, .ret]))

end Isolate.Script
