import Isolate.Script.Token

/-!
# Syntax trees of scripts

Expressions and statements as the grammar reads them. A node that can fail when it runs remembers
where it stands: a call its opening parenthesis, an access to a member the member's name, `new` its
keyword.
-/

namespace Isolate.Script

/-- Operators in front of their operand. -/
inductive UnaryOp where
  | neg | plus | not | bitNot | typeof | void | delete
  deriving Repr, DecidableEq

/-- Operators between two operands that are both evaluated. -/
inductive BinaryOp where
  | add | sub | mul | div | mod | pow
  | shiftLeft | shiftRight | shiftRightUnsigned | bitAnd | bitOr | bitXor
  | equal | notEqual | strictEqual | strictNotEqual
  | less | greater | lessEqual | greaterEqual | isIn | isInstance
  deriving Repr, DecidableEq

/-- Operators that may leave their second operand out. -/
inductive LogicalOp where
  | and | or | coalesce
  deriving Repr, DecidableEq

/-- How an assignment uses the old value. -/
inductive AssignOp where
  | replace
  | combine (op : BinaryOp)
  | conditional (op : LogicalOp)
  deriving Repr, DecidableEq

/-- Values written in a script. -/
inductive Literal where
  | undefined
  | null
  | bool (value : Bool)
  | number (value : Number)
  | string (value : Text.Units)
  deriving Repr

inductive DeclarationKind where
  | var | letting | const
  deriving Repr, DecidableEq

/-- What a declaration binds. -/
inductive Pattern where
  | name (place : Position) (name : String)
  /-- Elements by their index; a missing one is passed over. -/
  | array (items : List (Option Pattern))
  /-- Members by their name. -/
  | object (members : List (Text.Units × Pattern))
  deriving Repr, Inhabited

/-- What is known of a function apart from its body. -/
structure FunctionHead where
  /-- The name under which it is declared or knows itself. -/
  name : Option String
  params : List Pattern
  isAsync : Bool := false
  isGenerator : Bool := false
  /-- An arrow function has no `this` of its own. -/
  isArrow : Bool := false
  /-- A method cannot be constructed. -/
  isMethod : Bool := false
  isStrict : Bool := false
  /-- The characters of the script that it stands in. -/
  start : Nat := 0
  stop : Nat := 0
  deriving Repr

mutual

/-- An expression. -/
inductive Expr where
  | literal (place : Position) (value : Literal)
  | name (place : Position) (name : String)
  | this (place : Position)
  /-- A missing element of an array. -/
  | hole
  | array (place : Position) (items : List Expr)
  | object (place : Position) (members : List Member)
  | function (place : Position) (head : FunctionHead) (body : List Stmt)
  | unary (place : Position) (op : UnaryOp) (operand : Expr)
  /-- Add to a target; the value is the new one if `before`, else the old one. -/
  | update (place : Position) (before increment : Bool) (target : Expr)
  | binary (op : BinaryOp) (left right : Expr)
  | logical (op : LogicalOp) (left right : Expr)
  | conditional (test yes no : Expr)
  | assign (op : AssignOp) (target value : Expr)
  | sequence (first second : Expr)
  | call (place : Position) (callee : Expr) (args : List Expr)
  | construct (place : Position) (callee : Expr) (args : List Expr)
  | member (place : Position) (object : Expr) (name : Text.Units)
  | index (place : Position) (object index : Expr)
  | await (place : Position) (operand : Expr)
  | importCall (place : Position) (specifier : Expr)
  | importMeta (place : Position)

/-- A member of an object literal. -/
inductive Member where
  | fixed (name : Text.Units) (value : Expr)
  | computed (name value : Expr)
  /-- The prototype of the object. -/
  | proto (value : Expr)

/-- A statement. -/
inductive Stmt where
  | empty
  | expression (value : Expr)
  | declare (kind : DeclarationKind) (bindings : List Declarator)
  | function (place : Position) (head : FunctionHead) (body : List Stmt)
  | block (body : List Stmt)
  | ifElse (test : Expr) (yes : Stmt) (no : Option Stmt)
  | forLoop (start : Option Stmt) (test update : Option Expr) (body : Stmt)
  | whileLoop (test : Expr) (body : Stmt)
  | doWhile (body : Stmt) (test : Expr)
  | breaks (label : Option String)
  | continues (label : Option String)
  | returns (value : Option Expr)
  | throws (value : Expr)
  | tries (body : List Stmt) (handler : Option Handler) (finalizer : Option (List Stmt))
  | labelled (label : String) (body : Stmt)

/-- A binding and its first value. -/
inductive Declarator where
  | mk (pattern : Pattern) (value : Option Expr)

/-- The part of a `try` statement that takes an error. -/
inductive Handler where
  | mk (param : Option Pattern) (body : List Stmt)

end

instance : Inhabited Expr := ⟨.hole⟩
instance : Inhabited Stmt := ⟨.empty⟩

/-- One name taken over from another module. -/
inductive ImportedName where
  | named (name : Text.Units)
  | everything
  deriving Repr, DecidableEq

/-- A name that a module binds to what another module exports. -/
structure ImportEntry where
  specifier : Text.Units
  imported : ImportedName
  localName : String
  deriving Repr

inductive ExportEntry where
  /-- A binding of the module itself. -/
  | own (name : Text.Units) (localName : String)
  /-- An export of another module. -/
  | indirect (name : Text.Units) (specifier : Text.Units) (imported : ImportedName)
  /-- All exports of another module but its default. -/
  | star (specifier : Text.Units)
  deriving Repr

structure ScriptTree where
  body : List Stmt
  isStrict : Bool

structure ModuleTree where
  body : List Stmt
  /-- The specifiers that the module names, each once, in the order of its text. -/
  requests : List Text.Units
  imports : List ImportEntry
  exports : List ExportEntry
  /-- Whether the module awaits outside its functions. -/
  awaits : Bool

namespace Expr

/-- Where an expression starts, as far as a failure of a `throw` or an assignment is concerned: a call
stands at its opening parenthesis. -/
def start : Expr → Position
  | literal place _ => place
  | name place _ => place
  | this place => place
  | hole => ⟨1, 1⟩
  | array place _ => place
  | object place _ => place
  | function place _ _ => place
  | unary place _ _ => place
  | update place before _ target => if before then place else target.start
  | binary _ left _ => left.start
  | logical _ left _ => left.start
  | conditional test _ _ => test.start
  | assign _ target _ => target.start
  | sequence first _ => first.start
  | call place _ _ => place
  | construct place _ _ => place
  | member _ base _ => base.start
  | index _ base _ => base.start
  | await place _ => place
  | importCall place _ => place
  | importMeta place => place

end Expr
end Isolate.Script
