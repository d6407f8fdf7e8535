import Isolate.Text.Utf8
import Isolate.Wasm.Outline

/-!
# Reading WebAssembly binaries

The primitives of the binary format: bytes, numbers of variable length, names, vectors and parts whose
length is stated in front of them. A number may have more bytes than it needs, up to those that its
width allows.
-/

namespace Isolate.Wasm

/-- A reader takes bytes from the front; it fails on bytes that are not of the format. -/
abbrev Read := StateT (List UInt8) Option

inductive ValueType where
  | i32 | i64 | f32 | f64 | v128 | funcref | externref
  deriving Repr, DecidableEq

/-- Whether values of a type refer to something outside the memory. -/
def ValueType.isReference : ValueType → Bool
  | funcref => true
  | externref => true
  | _ => false

structure FunctionType where
  params : List ValueType
  results : List ValueType
  deriving Repr, DecidableEq

namespace Read

def byte : Read UInt8 := fun
  | [] => none
  | b :: rest => some (b, rest)

def require (condition : Bool) : Read PUnit := fun bytes => if condition then some (⟨⟩, bytes) else none

def fail {α : Type} : Read α := fun _ => none

/-- The unsigned number of at most `width` bits at the start of bytes. -/
def unsignedFrom : (width : Nat) → List UInt8 → Option (Nat × List UInt8)
  | _, [] => none
  | width, b :: rest =>
    let n := b.toNat
    if n < 128 then if n < Nat.pow 2 width then some (n, rest) else none
    else if 7 < width then
      match unsignedFrom (width - 7) rest with
      | some (m, rest) => some (n - 128 + 128 * m, rest)
      | none => none
    else none

/-- The signed number of at most `width` bits at the start of bytes. -/
def signedFrom : (width : Nat) → List UInt8 → Option (Int × List UInt8)
  | _, [] => none
  | width, b :: rest =>
    let n := b.toNat
    if n < 64 then if n < Nat.pow 2 (width - 1) then some (n, rest) else none
    else if n < 128 then if 128 - n ≤ Nat.pow 2 (width - 1) then some ((n : Int) - 128, rest) else none
    else if 7 < width then
      match signedFrom (width - 7) rest with
      | some (m, rest) => some (((n - 128 : Nat) : Int) + 128 * m, rest)
      | none => none
    else none

def index : Read Nat := unsignedFrom 32

def take (count : Nat) : Read (List UInt8) := fun bytes =>
  if bytes.length < count then none else some (bytes.take count, bytes.drop count)

def name : Read String := do
  let length ← index
  require (length ≤ 100000)
  let bytes ← take length
  match Text.Utf8.decode bytes with
  | .ok text => pure (String.ofList text)
  | .error _ => fail

def items {α : Type} (item : Read α) : (count : Nat) → Read (List α)
  | 0 => pure []
  | count + 1 => do
    let first ← item
    pure (first :: (← items item count))

def vector {α : Type} (item : Read α) : Read (List α) := do
  let count ← index
  -- every item has at least one byte
  require (count ≤ (← get).length)
  items item count

def sized {α : Type} (size : Nat) (read : Read α) : Read α := do
  let part ← take size
  match read part with
  | some (value, []) => pure value
  | _ => fail

def valueType? (b : UInt8) : Option ValueType :=
  if b = 0x7f then some .i32
  else if b = 0x7e then some .i64
  else if b = 0x7d then some .f32
  else if b = 0x7c then some .f64
  else if b = 0x7b then some .v128
  else if b = 0x70 then some .funcref
  else if b = 0x6f then some .externref
  else none

def valueType : Read ValueType := do
  match valueType? (← byte) with
  | some type => pure type
  | none => fail

def referenceType : Read ValueType := do
  let type ← valueType
  require type.isReference
  pure type

def functionType : Read FunctionType := do
  require ((← byte) = 0x60)
  let params ← vector valueType
  let results ← vector valueType
  require (params.length ≤ 1000 && results.length ≤ 1000)
  pure ⟨params, results⟩

/-- A size with perhaps an upper bound for it. -/
def limits : Read (Nat × Option Nat) := do
  let flag ← byte
  let least ← index
  if flag = 0 then pure (least, none)
  else if flag = 1 then do
    let most ← index
    require (least ≤ most)
    pure (least, some most)
  else fail

def tableType : Read ValueType := do
  let type ← referenceType
  let (least, _) ← limits
  require (least ≤ 10000000)
  pure type

def memoryType : Read PUnit := do
  let (least, most) ← limits
  require (least ≤ 65536 && most.all (· ≤ 65536))

def globalType : Read (ValueType × Bool) := do
  let type ← valueType
  let flag ← byte
  require (flag ≤ 1)
  pure (type, flag = 1)

end Read
end Isolate.Wasm
