import Isolate.Text.Utf8
import Mathlib.Tactic.ByContra

/-!
# UTF-8 both ways

Encoding a text and decoding it gives the text back, and only the encoding of a text decodes to it. So
what decodes is exactly what is valid UTF-8: overlong forms, surrogates and bytes that stop inside a
character encode nothing.
-/

namespace Isolate.Text.Utf8

theorem toNat_toUInt8 {n : Nat} (small : n < 256) : n.toUInt8.toNat = n := by
  rw [UInt8.toNat_ofNat', Nat.mod_eq_of_lt small]

theorem isContinuation_iff {b : UInt8} :
    isContinuation b = true ↔ 0x80 ≤ b.toNat ∧ b.toNat ≤ 0xbf := by
  simp [isContinuation, UInt8.le_iff_toNat_le]

theorem secondOfThree_iff {a b : UInt8} :
    secondOfThree a b = true ↔
      0x80 ≤ b.toNat ∧ b.toNat ≤ 0xbf ∧ (a.toNat = 0xe0 → 0xa0 ≤ b.toNat) ∧
        (a.toNat = 0xed → b.toNat ≤ 0x9f) := by
  rw [secondOfThree]
  split
  case isTrue first =>
    subst first
    simp [UInt8.le_iff_toNat_le]
    omega
  case isFalse =>
    split
    case isTrue first =>
      subst first
      simp [UInt8.le_iff_toNat_le]
      omega
    case isFalse =>
      simp_all [isContinuation_iff, ← UInt8.toNat_inj]

theorem secondOfFour_iff {a b : UInt8} :
    secondOfFour a b = true ↔
      0x80 ≤ b.toNat ∧ b.toNat ≤ 0xbf ∧ (a.toNat = 0xf0 → 0x90 ≤ b.toNat) ∧
        (a.toNat = 0xf4 → b.toNat ≤ 0x8f) := by
  rw [secondOfFour]
  split
  case isTrue first =>
    subst first
    simp [UInt8.le_iff_toNat_le]
    omega
  case isFalse =>
    split
    case isTrue first =>
      subst first
      simp [UInt8.le_iff_toNat_le]
      omega
    case isFalse =>
      simp_all [isContinuation_iff, ← UInt8.toNat_inj]

theorem payload_eq (b : UInt8) : payload b = b.toNat - 0x80 := rfl

theorem payload_toUInt8 {n : Nat} (small : n < 0x40) : payload (0x80 + n).toUInt8 = n := by
  have value : (0x80 + n).toUInt8.toNat = 0x80 + n := toNat_toUInt8 (by omega)
  simp only [payload_eq]
  omega

variable {index : Nat} {rest : List UInt8}

theorem decodeFrom_one {a : UInt8} (low : a.toNat < 0x80) :
    decodeFrom index (a :: rest) = (decodeFrom (index + 1) rest).map (Char.ofNat a.toNat :: ·) := by
  have ascii : a < 0x80 := UInt8.lt_iff_toNat_lt.mpr low
  rw [decodeFrom.eq_def]
  dsimp only
  rw [if_pos ascii]
  cases decodeFrom (index + 1) rest <;> rfl

theorem decodeFrom_two {a b : UInt8} (first : 0xc2 ≤ a.toNat ∧ a.toNat ≤ 0xdf)
    (second : isContinuation b = true) :
    decodeFrom index (a :: b :: rest) =
      (decodeFrom (index + 2) rest).map
        (Char.ofNat ((a.toNat - 0xc0) * 0x40 + payload b) :: ·) := by
  rw [decodeFrom.eq_def]
  simp only [UInt8.lt_iff_toNat_lt, UInt8.le_iff_toNat_le, UInt8.reduceToNat]
  rw [if_neg (by omega), if_pos first, if_pos second]
  cases decodeFrom (index + 2) rest <;> rfl

theorem decodeFrom_three {a b c : UInt8} (first : 0xe0 ≤ a.toNat ∧ a.toNat ≤ 0xef)
    (second : secondOfThree a b = true) (third : isContinuation c = true) :
    decodeFrom index (a :: b :: c :: rest) =
      (decodeFrom (index + 3) rest).map
        (Char.ofNat ((a.toNat - 0xe0) * 0x1000 + payload b * 0x40 + payload c) :: ·) := by
  rw [decodeFrom.eq_def]
  simp only [UInt8.lt_iff_toNat_lt, UInt8.le_iff_toNat_le, UInt8.reduceToNat]
  rw [if_neg (by omega), if_neg (by omega), if_pos first, if_pos second, if_pos third]
  cases decodeFrom (index + 3) rest <;> rfl

theorem decodeFrom_four {a b c d : UInt8} (first : 0xf0 ≤ a.toNat ∧ a.toNat ≤ 0xf4)
    (second : secondOfFour a b = true) (third : isContinuation c = true)
    (fourth : isContinuation d = true) :
    decodeFrom index (a :: b :: c :: d :: rest) =
      (decodeFrom (index + 4) rest).map
        (Char.ofNat ((a.toNat - 0xf0) * 0x40000 + payload b * 0x1000 + payload c * 0x40
          + payload d) :: ·) := by
  rw [decodeFrom.eq_def]
  simp only [UInt8.lt_iff_toNat_lt, UInt8.le_iff_toNat_le, UInt8.reduceToNat]
  rw [if_neg (by omega), if_neg (by omega), if_neg (by omega), if_pos first, if_pos second,
    if_pos third, if_pos fourth]
  cases decodeFrom (index + 4) rest <;> rfl

theorem encodeChar_one {c : Char} (small : c.toNat < 0x80) : encodeChar c = [c.toNat.toUInt8] :=
  if_pos small

theorem encodeChar_two {c : Char} (past : 0x80 ≤ c.toNat) (small : c.toNat < 0x800) :
    encodeChar c = [(0xc0 + c.toNat / 0x40).toUInt8, (0x80 + c.toNat % 0x40).toUInt8] := by
  rw [encodeChar]
  exact (if_neg (by omega)).trans (if_pos small)

theorem encodeChar_three {c : Char} (past : 0x800 ≤ c.toNat) (small : c.toNat < 0x10000) :
    encodeChar c =
      [(0xe0 + c.toNat / 0x1000).toUInt8, (0x80 + c.toNat / 0x40 % 0x40).toUInt8,
        (0x80 + c.toNat % 0x40).toUInt8] := by
  rw [encodeChar]
  exact (if_neg (by omega)).trans ((if_neg (by omega)).trans (if_pos small))

theorem encodeChar_four {c : Char} (past : 0x10000 ≤ c.toNat) :
    encodeChar c =
      [(0xf0 + c.toNat / 0x40000).toUInt8, (0x80 + c.toNat / 0x1000 % 0x40).toUInt8,
        (0x80 + c.toNat / 0x40 % 0x40).toUInt8, (0x80 + c.toNat % 0x40).toUInt8] := by
  rw [encodeChar]
  exact (if_neg (by omega)).trans ((if_neg (by omega)).trans (if_neg (by omega)))

theorem toNat_valid (c : Char) :
    c.toNat < 0xd800 ∨ 0xdfff < c.toNat ∧ c.toNat < 0x110000 :=
  c.valid

/-- The bytes of a character decode to it, whatever follows. -/
theorem decodeFrom_encodeChar (c : Char) :
    decodeFrom index (encodeChar c ++ rest) =
      (decodeFrom (index + (encodeChar c).length) rest).map (c :: ·) := by
  have valid := toNat_valid c
  by_cases one : c.toNat < 0x80
  · rw [encodeChar_one one, List.singleton_append, decodeFrom_one, toNat_toUInt8 (by omega),
      Char.ofNat_toNat, List.length_singleton]
    rwa [toNat_toUInt8 (by omega)]
  by_cases two : c.toNat < 0x800
  · rw [encodeChar_two (by omega) two, List.cons_append, List.singleton_append,
      decodeFrom_two (by rw [toNat_toUInt8] <;> omega)
        (by rw [isContinuation_iff, toNat_toUInt8] <;> omega),
      toNat_toUInt8 (by omega), payload_toUInt8 (by omega)]
    have joined : (0xc0 + c.toNat / 0x40 - 0xc0) * 0x40 + c.toNat % 0x40 = c.toNat := by omega
    rw [joined, Char.ofNat_toNat]
    rfl
  by_cases three : c.toNat < 0x10000
  · rw [encodeChar_three (by omega) three, List.cons_append, List.cons_append,
      List.singleton_append,
      decodeFrom_three (by rw [toNat_toUInt8] <;> omega)
        (by rw [secondOfThree_iff, toNat_toUInt8, toNat_toUInt8] <;> omega)
        (by rw [isContinuation_iff, toNat_toUInt8] <;> omega),
      toNat_toUInt8 (by omega), payload_toUInt8 (by omega), payload_toUInt8 (by omega)]
    have joined :
        (0xe0 + c.toNat / 0x1000 - 0xe0) * 0x1000 + c.toNat / 0x40 % 0x40 * 0x40 + c.toNat % 0x40
          = c.toNat := by
      omega
    rw [joined, Char.ofNat_toNat]
    rfl
  · rw [encodeChar_four (by omega), List.cons_append, List.cons_append, List.cons_append,
      List.singleton_append,
      decodeFrom_four (by rw [toNat_toUInt8] <;> omega)
        (by rw [secondOfFour_iff, toNat_toUInt8, toNat_toUInt8] <;> omega)
        (by rw [isContinuation_iff, toNat_toUInt8] <;> omega)
        (by rw [isContinuation_iff, toNat_toUInt8] <;> omega),
      toNat_toUInt8 (by omega), payload_toUInt8 (by omega), payload_toUInt8 (by omega),
      payload_toUInt8 (by omega)]
    have joined :
        (0xf0 + c.toNat / 0x40000 - 0xf0) * 0x40000 + c.toNat / 0x1000 % 0x40 * 0x1000
          + c.toNat / 0x40 % 0x40 * 0x40 + c.toNat % 0x40 = c.toNat := by
      omega
    rw [joined, Char.ofNat_toNat]
    rfl

theorem toUInt8_toNat (a : UInt8) : a.toNat.toUInt8 = a := by simp

theorem toUInt8_eq {n : Nat} {a : UInt8} (value : n = a.toNat) : n.toUInt8 = a := by
  rw [value, toUInt8_toNat]

theorem toNat_ofNat {n : Nat} (valid : n < 0xd800 ∨ 0xdfff < n ∧ n < 0x110000) :
    (Char.ofNat n).toNat = n := by
  rw [Char.ofNat, dif_pos valid]
  rfl

theorem encodeChar_ofNat_one {a : UInt8} (low : a.toNat < 0x80) :
    encodeChar (Char.ofNat a.toNat) = [a] := by
  have value : (Char.ofNat a.toNat).toNat = a.toNat := toNat_ofNat (.inl (by omega))
  rw [encodeChar_one (by omega), toUInt8_eq value]

theorem encodeChar_ofNat_two {a b : UInt8} (first : 0xc2 ≤ a.toNat ∧ a.toNat ≤ 0xdf)
    (second : isContinuation b = true) :
    encodeChar (Char.ofNat ((a.toNat - 0xc0) * 0x40 + payload b)) = [a, b] := by
  rw [isContinuation_iff] at second
  simp only [payload_eq]
  generalize joined : (a.toNat - 0xc0) * 0x40 + (b.toNat - 0x80) = n
  have value : (Char.ofNat n).toNat = n := toNat_ofNat (by omega)
  rw [encodeChar_two (by omega) (by omega), value, toUInt8_eq (a := a) (by omega),
    toUInt8_eq (a := b) (by omega)]

theorem encodeChar_ofNat_three {a b c : UInt8} (first : 0xe0 ≤ a.toNat ∧ a.toNat ≤ 0xef)
    (second : secondOfThree a b = true) (third : isContinuation c = true) :
    encodeChar (Char.ofNat ((a.toNat - 0xe0) * 0x1000 + payload b * 0x40 + payload c)) =
      [a, b, c] := by
  rw [secondOfThree_iff] at second
  rw [isContinuation_iff] at third
  simp only [payload_eq]
  generalize joined : (a.toNat - 0xe0) * 0x1000 + (b.toNat - 0x80) * 0x40 + (c.toNat - 0x80) = n
  have value : (Char.ofNat n).toNat = n := toNat_ofNat (by omega)
  rw [encodeChar_three (by omega) (by omega), value, toUInt8_eq (a := a) (by omega),
    toUInt8_eq (a := b) (by omega), toUInt8_eq (a := c) (by omega)]

theorem encodeChar_ofNat_four {a b c d : UInt8} (first : 0xf0 ≤ a.toNat ∧ a.toNat ≤ 0xf4)
    (second : secondOfFour a b = true) (third : isContinuation c = true)
    (fourth : isContinuation d = true) :
    encodeChar
        (Char.ofNat ((a.toNat - 0xf0) * 0x40000 + payload b * 0x1000 + payload c * 0x40
          + payload d)) =
      [a, b, c, d] := by
  rw [secondOfFour_iff] at second
  rw [isContinuation_iff] at third fourth
  simp only [payload_eq]
  generalize joined :
    (a.toNat - 0xf0) * 0x40000 + (b.toNat - 0x80) * 0x1000 + (c.toNat - 0x80) * 0x40
      + (d.toNat - 0x80) = n
  have value : (Char.ofNat n).toNat = n := toNat_ofNat (by omega)
  rw [encodeChar_four (by omega), value, toUInt8_eq (a := a) (by omega),
    toUInt8_eq (a := b) (by omega), toUInt8_eq (a := c) (by omega), toUInt8_eq (a := d) (by omega)]

@[simp] theorem encode_nil : encode [] = [] := rfl

theorem encode_cons (c : Char) (text : List Char) :
    encode (c :: text) = encodeChar c ++ encode text := List.flatMap_cons ..

theorem encode_append (text text' : List Char) :
    encode (text ++ text') = encode text ++ encode text' := List.flatMap_append

theorem decodeFrom_encode (text : List Char) : decodeFrom index (encode text) = .ok text := by
  induction text generalizing index with
  | nil => rfl
  | cons c text ih => rw [encode_cons, decodeFrom_encodeChar, ih]; rfl

theorem eq_encode_of_decodeFrom {bytes : List UInt8} {text : List Char}
    (decoded : decodeFrom index bytes = .ok text) : bytes = encode text := by
  fun_induction decodeFrom index bytes generalizing text with
  | case1 => cases decoded; rfl
  | case2 _ _ _ low _ later ih =>
    cases decoded
    rw [encode_cons, encodeChar_ofNat_one (UInt8.lt_iff_toNat_lt.mp low), ← ih later]
    rfl
  | case5 _ _ _ first _ _ second _ later ih =>
    cases decoded
    rw [encode_cons, encodeChar_ofNat_two first second, ← ih later]
    rfl
  | case10 _ _ _ _ first _ second _ _ third _ later ih =>
    cases decoded
    rw [encode_cons, encodeChar_ofNat_three first second third, ← ih later]
    rfl
  | case17 _ _ _ _ _ first _ second _ third _ _ fourth _ later ih =>
    cases decoded
    rw [encode_cons, encodeChar_ofNat_four first second third fourth, ← ih later]
    rfl
  | _ => cases decoded

/-- Bytes decode to a text just if they are its encoding. -/
theorem decode_eq_ok_iff {bytes : List UInt8} {text : List Char} :
    decode bytes = .ok text ↔ bytes = encode text :=
  ⟨eq_encode_of_decodeFrom, fun encoded => encoded ▸ decodeFrom_encode text⟩

theorem decode_encode (text : List Char) : decode (encode text) = .ok text := decodeFrom_encode text

theorem encode_injective : Function.Injective encode := fun text text' same => by
  simpa [decode_encode] using congrArg decode same

/-- The encoding is that of the characters of a string. -/
theorem encodeChar_eq (c : Char) : encodeChar c = String.utf8EncodeChar c := by
  have valid := toNat_valid c
  rw [String.utf8EncodeChar, Char.toNat_val]
  by_cases one : c.toNat < 0x80
  · rw [encodeChar_one one]
    exact (if_pos (by omega)).symm
  by_cases two : c.toNat < 0x800
  · rw [encodeChar_two (by omega) two]
    refine .trans ?_ ((if_neg (by omega)).trans (if_pos (by omega))).symm
    rw [Nat.mod_eq_of_lt (a := c.toNat / 64) (by omega), Nat.add_comm, Nat.add_comm 0x80]
  by_cases three : c.toNat < 0x10000
  · rw [encodeChar_three (by omega) three]
    refine .trans ?_
      ((if_neg (by omega)).trans ((if_neg (by omega)).trans (if_pos (by omega)))).symm
    rw [Nat.mod_eq_of_lt (a := c.toNat / 4096) (by omega), Nat.add_comm, Nat.add_comm 0x80,
      Nat.add_comm 0x80]
  · rw [encodeChar_four (by omega)]
    refine .trans ?_
      ((if_neg (by omega)).trans ((if_neg (by omega)).trans (if_neg (by omega)))).symm
    rw [Nat.mod_eq_of_lt (a := c.toNat / 262144) (by omega), Nat.add_comm, Nat.add_comm 0x80,
      Nat.add_comm 0x80, Nat.add_comm 0x80]

theorem toByteArray_encode (text : String) : (encode text.toList).toByteArray = text.toUTF8 := by
  rw [String.toUTF8_eq_toByteArray, ← String.ofList_toList (s := text), String.toByteArray_ofList,
    List.utf8Encode, encode, funext encodeChar_eq, String.toList_ofList]

theorem decode_eq_ok_iff_toUTF8 {bytes : List UInt8} {text : String} :
    decode bytes = .ok text.toList ↔ bytes.toByteArray = text.toUTF8 := by
  rw [decode_eq_ok_iff, ← toByteArray_encode, List.toByteArray_inj]

/-- The bytes of other characters are not ASCII. -/
theorem le_of_mem_encodeChar {c : Char} {b : UInt8} (past : 0x80 ≤ c.toNat)
    (member : b ∈ encodeChar c) : 0x80 ≤ b.toNat := by
  have valid := toNat_valid c
  by_cases two : c.toNat < 0x800
  · rw [encodeChar_two past two] at member
    simp only [List.mem_cons, List.not_mem_nil, or_false] at member
    obtain rfl | rfl := member
    all_goals rw [toNat_toUInt8] <;> omega
  by_cases three : c.toNat < 0x10000
  · rw [encodeChar_three (by omega) three] at member
    simp only [List.mem_cons, List.not_mem_nil, or_false] at member
    obtain rfl | rfl | rfl := member
    all_goals rw [toNat_toUInt8] <;> omega
  · rw [encodeChar_four (by omega)] at member
    simp only [List.mem_cons, List.not_mem_nil, or_false] at member
    obtain rfl | rfl | rfl | rfl := member
    all_goals rw [toNat_toUInt8] <;> omega

theorem encode_cons_ascii {c : Char} (low : c.toNat < 0x80) (text : List Char) :
    encode (c :: text) = c.toNat.toUInt8 :: encode text := by
  rw [encode_cons, encodeChar_one low, List.singleton_append]

/-- An ASCII byte in front is the whole first character. -/
theorem eq_cons_of_encode {text : List Char} {b : UInt8} {bytes : List UInt8}
    (front : encode text = b :: bytes) (low : b.toNat < 0x80) :
    ∃ later, text = Char.ofNat b.toNat :: later ∧ bytes = encode later := by
  obtain _ | ⟨c, later⟩ := text
  · contradiction
  have small : c.toNat < 0x80 := by
    by_contra past
    obtain ⟨first, more, split⟩ : ∃ first more, encodeChar c = first :: more := by
      rw [encodeChar_eq]
      exact List.exists_cons_of_ne_nil String.utf8EncodeChar_ne_nil
    rw [encode_cons, split] at front
    obtain ⟨rfl, -⟩ := List.cons.inj front
    have high := le_of_mem_encodeChar (c := c) (by omega) (split ▸ List.mem_cons_self)
    omega
  rw [encode_cons_ascii small] at front
  obtain ⟨rfl, rfl⟩ := List.cons.inj front
  exact ⟨later, by rw [toNat_toUInt8 (by omega), Char.ofNat_toNat], rfl⟩

end Isolate.Text.Utf8
