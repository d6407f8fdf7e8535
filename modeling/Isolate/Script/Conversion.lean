import Isolate.Script.Property

/-!
# Conversions and operators

How values become texts, numbers and truth values, and what the operators make of them. Objects are
converted through their own methods, so these actions take the way to call a function.
-/

namespace Isolate.Script

/-- A way to call a function: the function, `this` and the arguments. -/
abbrev Invoke := Value → Value → List Value → Action Value

namespace Value

def ofString (text : String) : Value := .string (Text.Units.ofString text)

def isTrue : Value → Bool
  | undefined => false
  | null => false
  | bool b => b
  | number n => !(n.isZero || n.isNaN)
  | string s => !s.isEmpty
  | object _ => true

def isNothing : Value → Bool
  | undefined => true
  | null => true
  | _ => false

/-- Whether two values are the same kind of thing and equal. -/
def strictEq : Value → Value → Bool
  | undefined, undefined => true
  | null, null => true
  | bool a, bool b => a == b
  | number a, number b => a.eq b
  | string a, string b => a == b
  | object a, object b => a == b
  | _, _ => false

def plainText : Value → Text.Units
  | undefined => Text.Units.ofString "undefined"
  | null => Text.Units.ofString "null"
  | bool b => Text.Units.ofString (if b then "true" else "false")
  | number n => n.toUnits
  | string s => s
  | object _ => []

def plainNumber : Value → Number
  | undefined => .nan
  | null => .int 0
  | bool b => .int (if b then 1 else 0)
  | number n => n
  | string s => .ofUnits s
  | object _ => .nan

end Value

def World.typeName (w : World) : Value → String
  | .undefined => "undefined"
  | .null => "object"
  | .bool _ => "boolean"
  | .number _ => "number"
  | .string _ => "string"
  | .object id =>
    match (w.object id).nature with
    | .function _ => "function"
    | _ => "object"

/-- The result of the first of an object's methods that gives a value that is no object. -/
def primitiveBy (call : Invoke) (value : Value) : List String → Action Value
  | [] => failWith .type "cannot convert object to primitive value"
  | name :: rest => do
    let method ← getMember value (Text.Units.ofString name)
    if ← isCallable method then
      match ← call method value [] with
      | .object _ => primitiveBy call value rest
      | result => pure result
    else primitiveBy call value rest

/-- A value that is no object, made from a value; a text is sought before a number if `wantsText`. -/
def toPrimitive (call : Invoke) (wantsText : Bool) : Value → Action Value
  | .object id =>
    primitiveBy call (.object id)
      (if wantsText then ["toString", "valueOf"] else ["valueOf", "toString"])
  | value => pure value

def toText (call : Invoke) (value : Value) : Action Text.Units := do
  pure (← toPrimitive call true value).plainText

def toNumber (call : Invoke) (value : Value) : Action Number := do
  pure (← toPrimitive call false value).plainNumber

/-- Whether two values are equal after conversion. -/
def looseEq (call : Invoke) (a b : Value) : Action Bool := do
  if a.isNothing || b.isNothing then pure (a.isNothing && b.isNothing)
  else
    match a, b with
    | .object i, .object j => pure (i == j)
    | a, b => do
      let a ← toPrimitive call false a
      let b ← toPrimitive call false b
      match a, b with
      | .string s, .string t => pure (s == t)
      | a, b => pure (!(a.isNothing || b.isNothing) && a.plainNumber.eq b.plainNumber)

/-- Whether one value comes before another one: as texts if both are, else as numbers. -/
def isLess (call : Invoke) (orEqual : Bool) (a b : Value) : Action Bool := do
  let a ← toPrimitive call false a
  let b ← toPrimitive call false b
  match a, b with
  | .string s, .string t =>
    let order := Text.Units.compare s t
    pure (order == .lt || (orEqual && order == .eq))
  | a, b =>
    let x := a.plainNumber
    let y := b.plainNumber
    pure (if orEqual then x.le y else x.lt y)

/-- As `isLess` with the operands exchanged, but still converting the first one first. -/
def isGreater (call : Invoke) (orEqual : Bool) (a b : Value) : Action Bool := do
  let a ← toPrimitive call false a
  let b ← toPrimitive call false b
  isLess call orEqual b a

/-- The sum of two values: their texts in a row if one of them is a text. -/
def add (call : Invoke) (a b : Value) : Action Value := do
  let a ← toPrimitive call false a
  let b ← toPrimitive call false b
  match a, b with
  | .number x, .number y => pure (.number (x.add y))
  | .string s, b => pure (.string (s ++ b.plainText))
  | a, .string t => pure (.string (a.plainText ++ t))
  | a, b => pure (.number (a.plainNumber.add b.plainNumber))

/-- Whether an object was made by a constructor, as its prototypes tell. -/
def isInstance (value target : Value) : Action Bool := do
  let w ← get
  match target with
  | .object id =>
    match (w.object id).nature with
    | .function callable =>
      let target := match callable with
        | .bound target _ _ => target
        | _ => target
      match value with
      | .object o =>
        match ← getMember target (Text.Units.ofString "prototype") with
        | .object proto => pure (w.hasAncestor proto w.searchDepth (w.object o).proto)
        | _ => failWith .type "function has non-object prototype in instanceof check"
      | _ => pure false
    | _ => failWith .type "right-hand side of 'instanceof' is not callable"
  | _ =>
    let kind := w.typeName target
    failWith .type s!"right-hand side of 'instanceof' should be an object, got `{kind}`"

def isMember (call : Invoke) (name target : Value) : Action Bool := do
  let w ← get
  match target with
  | .object id => do
    let name ← toText call name
    hasMember name w.searchDepth (some id)
  | _ =>
    let kind := w.typeName target
    failWith .type s!"right-hand side of 'in' should be an object, got `{kind}`"

def onNumbers (call : Invoke) (op : Number → Number → Number) (a b : Value) : Action Value := do
  let x ← toNumber call a
  let y ← toNumber call b
  pure (.number (op x y))

/-- The value of an operator between two values. -/
def BinaryOp.apply (call : Invoke) (op : BinaryOp) (a b : Value) : Action Value := do
  match op with
  | add => Script.add call a b
  | sub => onNumbers call Number.sub a b
  | mul => onNumbers call Number.mul a b
  | div => onNumbers call Number.div a b
  | mod => onNumbers call Number.mod a b
  | pow => onNumbers call Number.pow a b
  | shiftLeft => onNumbers call Number.shiftLeft a b
  | shiftRight => onNumbers call Number.shiftRight a b
  | shiftRightUnsigned => onNumbers call Number.shiftRightUnsigned a b
  | bitAnd => onNumbers call (Number.bitwise Nat.land) a b
  | bitOr => onNumbers call (Number.bitwise Nat.lor) a b
  | bitXor => onNumbers call (Number.bitwise Nat.xor) a b
  | equal => do pure (.bool (← looseEq call a b))
  | notEqual => do pure (.bool !(← looseEq call a b))
  | strictEqual => pure (.bool (a.strictEq b))
  | strictNotEqual => pure (.bool !(a.strictEq b))
  | less => do pure (.bool (← isLess call false a b))
  | greater => do pure (.bool (← isGreater call false a b))
  | lessEqual => do pure (.bool (← isLess call true a b))
  | greaterEqual => do pure (.bool (← isGreater call true a b))
  | isIn => do pure (.bool (← isMember call a b))
  | isInstance => do pure (.bool (← Script.isInstance a b))

def UnaryOp.apply (call : Invoke) (op : UnaryOp) (a : Value) : Action Value := do
  match op with
  | neg => do pure (.number (← toNumber call a).neg)
  | plus => do pure (.number (← toNumber call a))
  | not => pure (.bool !a.isTrue)
  | bitNot => do
    let x ← toNumber call a
    pure (.number ((Number.bitwise Nat.xor) x (.int (-1))))
  | typeof => do pure (.ofString ((← get).typeName a))
  | void => pure .undefined
  | delete => pure (.bool true)

/-- Whether an operator takes its first operand as its value. -/
def LogicalOp.isDecided (op : LogicalOp) (a : Value) : Bool :=
  match op with
  | and => !a.isTrue
  | or => a.isTrue
  | coalesce => !a.isNothing

def toObject (value : Value) : Action ObjectId := do
  match value with
  | .object id => pure id
  | .undefined => failNoObject
  | .null => failNoObject
  | value => allocate { proto := prototypeOf? value, nature := .wrapper value }

end Isolate.Script
