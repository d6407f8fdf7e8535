import Isolate.Script.Tree

/-!
# Code of scripts

A function runs as a sequence of instructions on a stack of values. Every instruction has a place in
the text, or none: an instruction without a place of its own has that of the instruction emitted
before it. Jumps go to labels until the code is finished, and to indices from then on.
-/

namespace Isolate.Script

/-- How a name is bound in a scope. -/
inductive BindingKind where
  | mutable
  /-- Assigning to it fails. -/
  | constant
  /-- Assigning to it fails in strict code and does nothing elsewhere. -/
  | selfName
  /-- Assigning to it fails, and once it has a value no code binds the name anew. -/
  | fixed
  deriving Repr, DecidableEq

/-- An instruction. In the comments the top of the stack is on the right. -/
inductive Instr where
  /-- `… → … v` -/
  | push (value : Literal)
  /-- `… v → …` -/
  | pop
  /-- `… v → … v v` -/
  | dup
  /-- `… u v → … u v u v` -/
  | dupPair
  /-- `… u v → … v u` -/
  | swap
  /-- `… u v w → … w u v` -/
  | rotate
  /-- `… t u v w → … w t u v` -/
  | rotateFour
  /-- `… → … v`, the value of a name. -/
  | loadName (name : String)
  /-- `… → … v`, undefined for a name that is not bound. -/
  | loadNameIfBound (name : String)
  /-- `… v → …`, assign to a name. -/
  | storeName (name : String)
  /-- `… v → …`, give a name its first value in the scope in force. -/
  | initName (name : String)
  /-- `… → … b`, take a name away from the global object. -/
  | deleteName (name : String)
  /-- `… → … this` -/
  | loadThis
  /-- `… → … v`, an argument of the call. -/
  | loadArgument (index : Nat)
  /-- `… o → … v` -/
  | getMember (name : Text.Units)
  /-- `… o → … o v` -/
  | getMethod (name : Text.Units)
  /-- `… o k → … v` -/
  | getIndex
  /-- `… o k → … o v` -/
  | getIndexMethod
  /-- `… o k → … o k v` -/
  | getIndexKeep
  /-- `… o v → … v` -/
  | setMember (name : Text.Units)
  /-- `… o k v → … v` -/
  | setIndex
  /-- `… o → … b` -/
  | deleteMember (name : Text.Units)
  /-- `… o k → … b` -/
  | deleteIndex
  /-- `… → … o` -/
  | newObject
  /-- `… → … a` -/
  | newArray
  /-- `… a v → … a` -/
  | appendItem
  /-- `… a → … a` -/
  | appendHole
  /-- `… o v → … o`; with `named` a nameless function takes the name of the member. -/
  | defineMember (name : Text.Units) (named : Bool)
  /-- `… o k v → … o` -/
  | defineIndex (named : Bool)
  /-- `… o v → … o` -/
  | setPrototype
  /-- `… v → … v`, fail if there is nothing to take apart. -/
  | requireObject
  /-- `… v → … v`, turn a value into an array to take apart. -/
  | spreadItems
  /-- `… → … f`, a function of the unit. -/
  | closure (index : Nat)
  /-- `… f → … f`, name a nameless function. -/
  | nameFunction (name : Text.Units)
  /-- `… v → … w` -/
  | unary (op : UnaryOp)
  /-- `… u v → … w` -/
  | binary (op : BinaryOp)
  /-- `… v → … n`, make a number. -/
  | toNumeric
  | jump (target : Nat)
  /-- `… v → …` -/
  | jumpIfFalse (target : Nat)
  /-- `… v → …` -/
  | jumpIfTrue (target : Nat)
  /-- `… v → … v` if it jumps, else `… v → …`. -/
  | jumpIfDecided (op : LogicalOp) (target : Nat)
  /-- `… this f a₁ … aₙ → … v` -/
  | call (count : Nat)
  /-- A call written `eval(…)`. -/
  | callEval (count : Nat)
  /-- `… f a₁ … aₙ → … v` -/
  | construct (count : Nat)
  /-- `… v → `, leave the function. -/
  | ret
  /-- `… v → `, fail with a value. -/
  | throw
  /-- Go to the target with the value of a failure from here on. -/
  | enterTry (target : Nat)
  /-- Go to the target with the value of a failure from here on, to `rethrow` it there. -/
  | enterFinally (target : Nat)
  | leaveTry
  /-- `… v → `, fail as before. -/
  | rethrow
  /-- Open a scope with names that have no value yet. -/
  | enterScope (names : List (String × BindingKind))
  | leaveScope
  /-- Put a copy in the place of the scope in force. -/
  | copyScope
  /-- Count a round of a loop. -/
  | countRound
  /-- `… v → …`, the value of the statement. -/
  | setCompletion
  /-- `… → … v` -/
  | loadCompletion
  /-- `… v → … w`, wait for a promise. -/
  | await
  /-- `… v → … p`, load a module. -/
  | importCall
  /-- `… → … o` -/
  | importMeta
  deriving Repr, Inhabited

/-- A function's code. -/
structure FunctionCode where
  name : Text.Units := []
  /-- The number of parameters. -/
  length : Nat := 0
  isAsync : Bool := false
  isGenerator : Bool := false
  isArrow : Bool := false
  isMethod : Bool := false
  isStrict : Bool := false
  /-- The name by which a function expression knows itself. -/
  selfName : Option String := none
  /-- Names of parameters. -/
  params : List String := []
  /-- Names declared with `var`. -/
  vars : List String := []
  /-- Functions declared at the top, by their names and their indices in the unit. -/
  functions : List (String × Nat) := []
  /-- Names bound lexically at the top. -/
  lexicals : List (String × BindingKind) := []
  usesArguments : Bool := false
  instrs : Array Instr := #[]
  places : Array (Option Position) := #[]
  source : Text.Units := []
  deriving Repr, Inhabited

/-- The code of a script or module: its own function is the last one. -/
structure UnitCode where
  functions : Array FunctionCode := #[]
  deriving Repr, Inhabited

end Isolate.Script
