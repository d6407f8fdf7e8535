import Isolate.Script.Tree

/-!
# Names that a text declares

Which names a list of statements binds: a lexical declaration binds in the block that it stands in,
and `var` in the whole function. A function declaration binds lexically inside a block and like `var`
at the top of a function or script. Also which jumps have a place to go to, and whether a module
awaits outside its functions.
-/

namespace Isolate.Script

mutual

def Pattern.names : Pattern → List String
  | .name _ n => [n]
  | .array items => Pattern.itemNames items
  | .object members => Pattern.memberNames members

def Pattern.itemNames : List (Option Pattern) → List String
  | [] => []
  | none :: rest => Pattern.itemNames rest
  | some pattern :: rest => pattern.names ++ Pattern.itemNames rest

def Pattern.memberNames : List (Text.Units × Pattern) → List String
  | [] => []
  | (_, pattern) :: rest => pattern.names ++ Pattern.memberNames rest

end

def Declarator.pattern : Declarator → Pattern
  | .mk pattern _ => pattern

def Declarator.value? : Declarator → Option Expr
  | .mk _ value => value

def declaredNames (bindings : List Declarator) : List String :=
  bindings.flatMap fun binding => binding.pattern.names

def lexicalNames : List Stmt → List String
  | [] => []
  | .declare .var _ :: rest => lexicalNames rest
  | .declare _ bindings :: rest => declaredNames bindings ++ lexicalNames rest
  | .function _ head _ :: rest => head.name.toList ++ lexicalNames rest
  | _ :: rest => lexicalNames rest

/-- The names bound lexically at the top of a function or script, functions left out. -/
def topLexicalNames : List Stmt → List String
  | [] => []
  | .declare .var _ :: rest => topLexicalNames rest
  | .declare _ bindings :: rest => declaredNames bindings ++ topLexicalNames rest
  | _ :: rest => topLexicalNames rest

def declaredFunctions : List Stmt → List (Position × FunctionHead × List Stmt)
  | [] => []
  | .function place head body :: rest => (place, head, body) :: declaredFunctions rest
  | _ :: rest => declaredFunctions rest

mutual

def Stmt.varNames : Stmt → List String
  | .declare .var bindings => declaredNames bindings
  | .block body => varNames body
  | .ifElse _ yes none => yes.varNames
  | .ifElse _ yes (some no) => yes.varNames ++ no.varNames
  | .forLoop none _ _ body => body.varNames
  | .forLoop (some start) _ _ body => start.varNames ++ body.varNames
  | .whileLoop _ body => body.varNames
  | .doWhile body _ => body.varNames
  | .tries body none none => varNames body
  | .tries body (some (.mk _ handler)) none => varNames body ++ varNames handler
  | .tries body none (some finalizer) => varNames body ++ varNames finalizer
  | .tries body (some (.mk _ handler)) (some finalizer) =>
    varNames body ++ varNames handler ++ varNames finalizer
  | .labelled _ body => body.varNames
  | _ => []
termination_by structural s => s

def varNames : List Stmt → List String
  | [] => []
  | statement :: rest => statement.varNames ++ varNames rest
termination_by structural s => s

end

def hasRepeated : List String → Bool
  | [] => false
  | name :: rest => rest.contains name || hasRepeated rest

def shareName (a b : List String) : Bool := a.any b.contains

def blockConflicts (body : List Stmt) : Bool :=
  hasRepeated (lexicalNames body) || shareName (lexicalNames body) (varNames body)

def topConflicts (body : List Stmt) : Bool :=
  let lexical := topLexicalNames body
  let functions := (declaredFunctions body).filterMap fun (_, head, _) => head.name
  hasRepeated lexical || shareName lexical (varNames body ++ functions)

/-- The places that a jump can go to. -/
structure JumpTargets where
  inLoop : Bool := false
  labels : List String := []
  loopLabels : List String := []

def JumpTargets.canBreak (targets : JumpTargets) : Option String → Bool
  | none => targets.inLoop
  | some label => targets.labels.contains label

def JumpTargets.canContinue (targets : JumpTargets) : Option String → Bool
  | none => targets.inLoop
  | some label => targets.loopLabels.contains label

def Stmt.isLoop : Stmt → Bool
  | .forLoop _ _ _ _ => true
  | .whileLoop _ _ => true
  | .doWhile _ _ => true
  | _ => false

mutual

/-- Whether the functions inside an expression are free of conflicts. -/
def Expr.isSound : Expr → Bool
  | .array _ items => allSound items
  | .object _ members => membersSound members
  | .function _ head body =>
    let params := head.params.flatMap Pattern.names
    !topConflicts body && !shareName params (topLexicalNames body)
      && !((head.isStrict || head.isArrow) && hasRepeated params) && statementsSound {} body
  | .unary _ _ operand => operand.isSound
  | .update _ _ _ target => target.isSound
  | .binary _ left right => left.isSound && right.isSound
  | .logical _ left right => left.isSound && right.isSound
  | .conditional test yes no => test.isSound && yes.isSound && no.isSound
  | .assign _ target value => target.isSound && value.isSound
  | .sequence first second => first.isSound && second.isSound
  | .call _ callee args => callee.isSound && allSound args
  | .construct _ callee args => callee.isSound && allSound args
  | .member _ base _ => base.isSound
  | .index _ base index => base.isSound && index.isSound
  | .await _ operand => operand.isSound
  | .importCall _ specifier => specifier.isSound
  | _ => true
termination_by structural e => e

/-- Whether the functions inside expressions are free of conflicts. -/
def allSound : List Expr → Bool
  | [] => true
  | e :: rest => e.isSound && allSound rest
termination_by structural es => es

/-- Whether the functions inside members are free of conflicts. -/
def membersSound : List Member → Bool
  | [] => true
  | .fixed _ value :: rest => value.isSound && membersSound rest
  | .computed name value :: rest => name.isSound && value.isSound && membersSound rest
  | .proto value :: rest => value.isSound && membersSound rest
termination_by structural ms => ms

/-- Whether a statement is free of conflicts and all its jumps have a place to go to. -/
def Stmt.isSound (targets : JumpTargets) : Stmt → Bool
  | .empty => true
  | .expression value => value.isSound
  | .declare _ bindings => bindingsSound bindings
  | .function _ head body =>
    let params := head.params.flatMap Pattern.names
    !topConflicts body && !shareName params (topLexicalNames body)
      && !(head.isStrict && hasRepeated params) && statementsSound {} body
  | .block body => !blockConflicts body && statementsSound targets body
  | .ifElse test yes none => test.isSound && yes.isSound targets
  | .ifElse test yes (some no) => test.isSound && yes.isSound targets && no.isSound targets
  | .forLoop start test update body =>
    (match start with | some s => s.isSound targets | none => true)
      && (match test with | some e => e.isSound | none => true)
      && (match update with | some e => e.isSound | none => true)
      && body.isSound { targets with inLoop := true }
  | .whileLoop test body => test.isSound && body.isSound { targets with inLoop := true }
  | .doWhile body test => test.isSound && body.isSound { targets with inLoop := true }
  | .breaks label => targets.canBreak label
  | .continues label => targets.canContinue label
  | .returns none => true
  | .returns (some value) => value.isSound
  | .throws value => value.isSound
  | .tries body handler finalizer =>
    !blockConflicts body && statementsSound targets body
      && (match handler with
        | some (.mk param handler) =>
          !blockConflicts handler && statementsSound targets handler
            && !shareName ((param.map Pattern.names).getD []) (lexicalNames handler)
        | none => true)
      && (match finalizer with
        | some finalizer => !blockConflicts finalizer && statementsSound targets finalizer
        | none => true)
  | .labelled label body =>
    !targets.labels.contains label
      && body.isSound
        { targets with
          labels := label :: targets.labels
          loopLabels := if body.isLoop then label :: targets.loopLabels else targets.loopLabels }
termination_by structural s => s

/-- Whether statements are free of conflicts among their functions and blocks. -/
def statementsSound (targets : JumpTargets) : List Stmt → Bool
  | [] => true
  | s :: rest => s.isSound targets && statementsSound targets rest
termination_by structural ss => ss

def bindingsSound : List Declarator → Bool
  | [] => true
  | .mk _ none :: rest => bindingsSound rest
  | .mk _ (some value) :: rest => value.isSound && bindingsSound rest
termination_by structural bs => bs

end

def ScriptTree.isSound (tree : ScriptTree) : Bool :=
  !topConflicts tree.body && statementsSound {} tree.body

mutual

/-- Whether an expression awaits outside its functions. -/
def Expr.awaits : Expr → Bool
  | .await _ _ => true
  | .array _ items => anyAwaits items
  | .object _ members => membersAwait members
  | .unary _ _ operand => operand.awaits
  | .update _ _ _ target => target.awaits
  | .binary _ left right => left.awaits || right.awaits
  | .logical _ left right => left.awaits || right.awaits
  | .conditional test yes no => test.awaits || yes.awaits || no.awaits
  | .assign _ target value => target.awaits || value.awaits
  | .sequence first second => first.awaits || second.awaits
  | .call _ callee args => callee.awaits || anyAwaits args
  | .construct _ callee args => callee.awaits || anyAwaits args
  | .member _ base _ => base.awaits
  | .index _ base index => base.awaits || index.awaits
  | .importCall _ specifier => specifier.awaits
  | _ => false
termination_by structural e => e

def anyAwaits : List Expr → Bool
  | [] => false
  | e :: rest => e.awaits || anyAwaits rest
termination_by structural es => es

def membersAwait : List Member → Bool
  | [] => false
  | .fixed _ value :: rest => value.awaits || membersAwait rest
  | .computed name value :: rest => name.awaits || value.awaits || membersAwait rest
  | .proto value :: rest => value.awaits || membersAwait rest
termination_by structural ms => ms

end

mutual

/-- Whether a statement awaits outside its functions. -/
def Stmt.awaits : Stmt → Bool
  | .expression value => value.awaits
  | .declare _ bindings => bindings.any fun b => (b.value?.map Expr.awaits).getD false
  | .block body => statementsAwait body
  | .ifElse test yes none => test.awaits || yes.awaits
  | .ifElse test yes (some no) => test.awaits || yes.awaits || no.awaits
  | .forLoop start test update body =>
    (match start with | some s => s.awaits | none => false)
      || (test.map Expr.awaits).getD false || (update.map Expr.awaits).getD false || body.awaits
  | .whileLoop test body => test.awaits || body.awaits
  | .doWhile body test => test.awaits || body.awaits
  | .returns value => (value.map Expr.awaits).getD false
  | .throws value => value.awaits
  | .tries body handler finalizer =>
    statementsAwait body
      || (match handler with | some (.mk _ handler) => statementsAwait handler | none => false)
      || (match finalizer with | some finalizer => statementsAwait finalizer | none => false)
  | .labelled _ body => body.awaits
  | _ => false
termination_by structural s => s

def statementsAwait : List Stmt → Bool
  | [] => false
  | s :: rest => s.awaits || statementsAwait rest
termination_by structural ss => ss

end

end Isolate.Script
