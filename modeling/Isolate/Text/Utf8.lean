/-!
# UTF-8

Characters as one to four bytes. Decoding is strict: it refuses overlong forms, surrogates and code
points past the last one, and says where it stopped. A fault is *incomplete* when the bytes end
inside a character whose bytes so far are right, and *invalid* otherwise; an invalid fault counts the
bytes of the longest good beginning of a character, or one byte if there is none.
-/

namespace Isolate.Text.Utf8

/-- Where and how a byte text stops being UTF-8. -/
structure Fault where
  /-- The number of bytes before the fault; they decode. -/
  index : Nat
  /-- The number of bytes that can never continue; `none` if the text just ends too soon. -/
  length : Option Nat
  deriving Repr, DecidableEq

def Fault.message (fault : Fault) : String :=
  match fault.length with
  | some n => s!"invalid utf-8 sequence of {n} bytes from index {fault.index}"
  | none => s!"incomplete utf-8 byte sequence from index {fault.index}"

def isContinuation (b : UInt8) : Bool := 0x80 ≤ b && b ≤ 0xbf

/-- Whether `b` may stand second after the first byte `a` of a three-byte character. -/
def secondOfThree (a b : UInt8) : Bool :=
  if a = 0xe0 then 0xa0 ≤ b && b ≤ 0xbf
  else if a = 0xed then 0x80 ≤ b && b ≤ 0x9f
  else isContinuation b

/-- Whether `b` may stand second after the first byte `a` of a four-byte character. -/
def secondOfFour (a b : UInt8) : Bool :=
  if a = 0xf0 then 0x90 ≤ b && b ≤ 0xbf
  else if a = 0xf4 then 0x80 ≤ b && b ≤ 0x8f
  else isContinuation b

def payload (b : UInt8) : Nat := b.toNat - 0x80

/-- Decode bytes of which `index` came before. -/
def decodeFrom (index : Nat) : List UInt8 → Except Fault (List Char)
  | [] => .ok []
  | a :: rest =>
    if a < 0x80 then
      match decodeFrom (index + 1) rest with
      | .ok cs => .ok (Char.ofNat a.toNat :: cs)
      | .error e => .error e
    else if 0xc2 ≤ a ∧ a ≤ 0xdf then
      match rest with
      | [] => .error ⟨index, none⟩
      | b :: rest =>
        if isContinuation b then
          match decodeFrom (index + 2) rest with
          | .ok cs => .ok (Char.ofNat ((a.toNat - 0xc0) * 0x40 + payload b) :: cs)
          | .error e => .error e
        else .error ⟨index, some 1⟩
    else if 0xe0 ≤ a ∧ a ≤ 0xef then
      match rest with
      | [] => .error ⟨index, none⟩
      | b :: rest =>
        if secondOfThree a b then
          match rest with
          | [] => .error ⟨index, none⟩
          | c :: rest =>
            if isContinuation c then
              match decodeFrom (index + 3) rest with
              | .ok cs =>
                .ok (Char.ofNat ((a.toNat - 0xe0) * 0x1000 + payload b * 0x40 + payload c) :: cs)
              | .error e => .error e
            else .error ⟨index, some 2⟩
        else .error ⟨index, some 1⟩
    else if 0xf0 ≤ a ∧ a ≤ 0xf4 then
      match rest with
      | [] => .error ⟨index, none⟩
      | b :: rest =>
        if secondOfFour a b then
          match rest with
          | [] => .error ⟨index, none⟩
          | c :: rest =>
            if isContinuation c then
              match rest with
              | [] => .error ⟨index, none⟩
              | d :: rest =>
                if isContinuation d then
                  match decodeFrom (index + 4) rest with
                  | .ok cs =>
                    .ok (Char.ofNat ((a.toNat - 0xf0) * 0x40000 + payload b * 0x1000
                      + payload c * 0x40 + payload d) :: cs)
                  | .error e => .error e
                else .error ⟨index, some 3⟩
            else .error ⟨index, some 2⟩
        else .error ⟨index, some 1⟩
    else .error ⟨index, some 1⟩

def decode (bytes : List UInt8) : Except Fault (List Char) := decodeFrom 0 bytes

def encodeChar (c : Char) : List UInt8 :=
  let n := c.toNat
  if n < 0x80 then [n.toUInt8]
  else if n < 0x800 then [(0xc0 + n / 0x40).toUInt8, (0x80 + n % 0x40).toUInt8]
  else if n < 0x10000 then
    [(0xe0 + n / 0x1000).toUInt8, (0x80 + n / 0x40 % 0x40).toUInt8, (0x80 + n % 0x40).toUInt8]
  else
    [(0xf0 + n / 0x40000).toUInt8, (0x80 + n / 0x1000 % 0x40).toUInt8,
      (0x80 + n / 0x40 % 0x40).toUInt8, (0x80 + n % 0x40).toUInt8]

def encode (text : List Char) : List UInt8 := text.flatMap encodeChar

end Isolate.Text.Utf8
