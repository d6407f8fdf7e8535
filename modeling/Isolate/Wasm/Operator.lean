import Isolate.Wasm.Reader

/-!
# Plain operators of WebAssembly

The types of the operators that take values and give a value, by their codes. What an operator has
behind its code, such as a lane or an address, is stated with it.
-/

namespace Isolate.Wasm

structure Operator where
  takes : List ValueType
  gives : List ValueType

namespace Operator

def unary (type result : ValueType) : Operator := ⟨[type], [result]⟩

def binary (type result : ValueType) : Operator := ⟨[type, type], [result]⟩

def numeric? (code : Nat) : Option Operator :=
  if code < 0x45 then none
  else if code = 0x45 then some (unary .i32 .i32)
  else if code ≤ 0x4f then some (binary .i32 .i32)
  else if code = 0x50 then some (unary .i64 .i32)
  else if code ≤ 0x5a then some (binary .i64 .i32)
  else if code ≤ 0x60 then some (binary .f32 .i32)
  else if code ≤ 0x66 then some (binary .f64 .i32)
  else if code ≤ 0x69 then some (unary .i32 .i32)
  else if code ≤ 0x78 then some (binary .i32 .i32)
  else if code ≤ 0x7b then some (unary .i64 .i64)
  else if code ≤ 0x8a then some (binary .i64 .i64)
  else if code ≤ 0x91 then some (unary .f32 .f32)
  else if code ≤ 0x98 then some (binary .f32 .f32)
  else if code ≤ 0x9f then some (unary .f64 .f64)
  else if code ≤ 0xa6 then some (binary .f64 .f64)
  else if code = 0xa7 then some (unary .i64 .i32)
  else if code ≤ 0xa9 then some (unary .f32 .i32)
  else if code ≤ 0xab then some (unary .f64 .i32)
  else if code ≤ 0xad then some (unary .i32 .i64)
  else if code ≤ 0xaf then some (unary .f32 .i64)
  else if code ≤ 0xb1 then some (unary .f64 .i64)
  else if code ≤ 0xb3 then some (unary .i32 .f32)
  else if code ≤ 0xb5 then some (unary .i64 .f32)
  else if code = 0xb6 then some (unary .f64 .f32)
  else if code ≤ 0xb8 then some (unary .i32 .f64)
  else if code ≤ 0xba then some (unary .i64 .f64)
  else if code = 0xbb then some (unary .f32 .f64)
  else if code = 0xbc then some (unary .f32 .i32)
  else if code = 0xbd then some (unary .f64 .i64)
  else if code = 0xbe then some (unary .i32 .f32)
  else if code = 0xbf then some (unary .i64 .f64)
  else if code ≤ 0xc1 then some (unary .i32 .i32)
  else if code ≤ 0xc4 then some (unary .i64 .i64)
  else none

/-- The conversion of a code behind the byte 0xfc: it never fails but clamps. -/
def clamping? (code : Nat) : Option Operator :=
  if code ≤ 1 then some (unary .f32 .i32)
  else if code ≤ 3 then some (unary .f64 .i32)
  else if code ≤ 5 then some (unary .f32 .i64)
  else if code ≤ 7 then some (unary .f64 .i64)
  else none

/-- The load or store of a code, and the largest power of two that its address may be aligned to. -/
def memory? (code : Nat) : Option (Operator × Nat) :=
  let load (type : ValueType) (align : Nat) := some ((⟨[.i32], [type]⟩ : Operator), align)
  let store (type : ValueType) (align : Nat) := some ((⟨[.i32, type], []⟩ : Operator), align)
  match code with
  | 0x28 => load .i32 2
  | 0x29 => load .i64 3
  | 0x2a => load .f32 2
  | 0x2b => load .f64 3
  | 0x2c => load .i32 0
  | 0x2d => load .i32 0
  | 0x2e => load .i32 1
  | 0x2f => load .i32 1
  | 0x30 => load .i64 0
  | 0x31 => load .i64 0
  | 0x32 => load .i64 1
  | 0x33 => load .i64 1
  | 0x34 => load .i64 2
  | 0x35 => load .i64 2
  | 0x36 => store .i32 2
  | 0x37 => store .i64 3
  | 0x38 => store .f32 2
  | 0x39 => store .f64 3
  | 0x3a => store .i32 0
  | 0x3b => store .i32 1
  | 0x3c => store .i64 0
  | 0x3d => store .i64 1
  | 0x3e => store .i64 2
  | _ => none

end Operator

/-- What stands behind the code of a vector operator. -/
inductive VectorDetail where
  | nothing
  /-- An address with the largest power of two that it may be aligned to. -/
  | address (align : Nat)
  /-- A lane below a number. -/
  | lane (count : Nat)
  | addressAndLane (align count : Nat)
  /-- The sixteen bytes of a constant. -/
  | constant
  /-- Sixteen lanes of two vectors. -/
  | lanes
  deriving Repr, DecidableEq

namespace Operator

def isUnaryVector (code : Nat) : Bool :=
  [77, 94, 95, 96, 97, 98, 103, 104, 105, 106, 116, 117, 122, 124, 125, 126, 127, 128, 129, 135, 136,
    137, 138, 148, 160, 161, 167, 168, 169, 170, 192, 193, 199, 200, 201, 202, 224, 225, 227, 236,
    237, 239].contains code || (248 ≤ code && code ≤ 255)

def isBinaryVector (code : Nat) : Bool :=
  code = 14 || (35 ≤ code && code ≤ 76) || (78 ≤ code && code ≤ 81)
    || [101, 102, 123, 130, 133, 134, 155, 174, 177, 181, 206, 209, 213].contains code
    || (110 ≤ code && code ≤ 115) || (118 ≤ code && code ≤ 121) || (142 ≤ code && code ≤ 147)
    || (149 ≤ code && code ≤ 153) || (156 ≤ code && code ≤ 159) || (182 ≤ code && code ≤ 186)
    || (188 ≤ code && code ≤ 191) || (214 ≤ code && code ≤ 223) || (228 ≤ code && code ≤ 235)
    || (240 ≤ code && code ≤ 247)

/-- The vector operator of a code behind the byte 0xfd. -/
def vector? (code : Nat) : Option (Operator × VectorDetail) :=
  let load (align : Nat) := some ((unary .i32 .v128), VectorDetail.address align)
  let extract (type : ValueType) (count : Nat) := some (unary .v128 type, VectorDetail.lane count)
  let replace (type : ValueType) (count : Nat) :=
    some ((⟨[.v128, type], [.v128]⟩ : Operator), VectorDetail.lane count)
  let loadLane (align count : Nat) :=
    some ((⟨[.i32, .v128], [.v128]⟩ : Operator), VectorDetail.addressAndLane align count)
  let storeLane (align count : Nat) :=
    some ((⟨[.i32, .v128], []⟩ : Operator), VectorDetail.addressAndLane align count)
  let splat (type : ValueType) := some (unary type .v128, VectorDetail.nothing)
  let shift := some ((⟨[.v128, .i32], [.v128]⟩ : Operator), VectorDetail.nothing)
  let test := some (unary .v128 .i32, VectorDetail.nothing)
  if code = 0 then load 4
  else if code ≤ 6 then load 3
  else if code ≤ 10 then load (code - 7)
  else if code = 11 then some (⟨[.i32, .v128], []⟩, .address 4)
  else if code = 12 then some (⟨[], [.v128]⟩, .constant)
  else if code = 13 then some (binary .v128 .v128, .lanes)
  else if isBinaryVector code then some (binary .v128 .v128, .nothing)
  else if isUnaryVector code then some (unary .v128 .v128, .nothing)
  else
    match code with
    | 15 => splat .i32
    | 16 => splat .i32
    | 17 => splat .i32
    | 18 => splat .i64
    | 19 => splat .f32
    | 20 => splat .f64
    | 21 => extract .i32 16
    | 22 => extract .i32 16
    | 23 => replace .i32 16
    | 24 => extract .i32 8
    | 25 => extract .i32 8
    | 26 => replace .i32 8
    | 27 => extract .i32 4
    | 28 => replace .i32 4
    | 29 => extract .i64 2
    | 30 => replace .i64 2
    | 31 => extract .f32 4
    | 32 => replace .f32 4
    | 33 => extract .f64 2
    | 34 => replace .f64 2
    | 82 => some (⟨[.v128, .v128, .v128], [.v128]⟩, .nothing)
    | 84 => loadLane 0 16
    | 85 => loadLane 1 8
    | 86 => loadLane 2 4
    | 87 => loadLane 3 2
    | 88 => storeLane 0 16
    | 89 => storeLane 1 8
    | 90 => storeLane 2 4
    | 91 => storeLane 3 2
    | 92 => load 2
    | 93 => load 3
    | code =>
      if [83, 99, 100, 131, 132, 163, 164, 195, 196].contains code then test
      else if [107, 108, 109, 139, 140, 141, 171, 172, 173, 203, 204, 205].contains code then shift
      else none

end Operator
end Isolate.Wasm
