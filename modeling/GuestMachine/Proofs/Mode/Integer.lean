import GuestMachine.Mode.Integer
import Mathlib.Data.Nat.Digits.Defs

/-!
Integers and the bytes that spell them. The digits of a value to the base of 256, lowest first, are
what both orders arrange; shifting bytes in one after another adds the digits up again.
-/

namespace GuestMachine.Mode

/-- Digits in the byte order of a mode, given lowest first, or lowest first, given in that
order. -/
def arrange (mode : Mode) (digits : List UInt8) : List UInt8 :=
  if mode.isBigEndian then digits.reverse else digits

/-- The number of which bytes are the digits, lowest first. -/
def number (digits : List UInt8) : Nat :=
  Nat.ofDigits 256 (digits.map UInt8.toNat)

variable {mode : Mode} {digits : List UInt8} {value : UInt64} {size : Nat}

@[simp] theorem arrange_arrange (mode : Mode) (digits : List UInt8) :
    mode.arrange (mode.arrange digits) = digits := by
  unfold arrange
  split
  · exact digits.reverse_reverse
  · rfl

@[simp] theorem length_arrange (mode : Mode) (digits : List UInt8) :
    (mode.arrange digits).length = digits.length := by
  unfold arrange
  split
  · exact digits.length_reverse
  · rfl

/-- The other byte order is the reverse one. -/
theorem arrange_of_isBigEndian_ne {other : Mode} (differ : other.isBigEndian ≠ mode.isBigEndian)
    (digits : List UInt8) : other.arrange digits = (mode.arrange digits).reverse := by
  unfold arrange
  cases big : mode.isBigEndian with
  | true => simp [show other.isBigEndian = false by simpa [big] using differ]
  | false => simp [show other.isBigEndian = true by simpa [big] using differ]

/-! Digits. -/

@[simp] theorem number_nil : number [] = 0 := rfl

theorem number_cons (digit : UInt8) (rest : List UInt8) :
    number (digit :: rest) = digit.toNat + 256 * number rest :=
  Nat.ofDigits_cons

theorem number_append (low high : List UInt8) :
    number (low ++ high) = number low + 256 ^ low.length * number high := by
  simp [number, Nat.ofDigits_append]

/-- The bit operations on a byte and what has been read append the byte as a lowest digit. -/
theorem pushByte_ofNat (n : Nat) (byte : UInt8) :
    pushByte (UInt64.ofNat n) byte = UInt64.ofNat (byte.toNat + 256 * n) := by
  have small : byte.toNat < 2 ^ 8 := byte.toNat_lt
  apply UInt64.toNat_inj.mp
  have shifted : (UInt64.ofNat n <<< 8).toNat = 2 ^ 8 * (n % 2 ^ 56) := by
    rw [UInt64.toNat_shiftLeft, UInt64.toNat_ofNat', show UInt64.toNat 8 % 64 = 8 from rfl,
      Nat.shiftLeft_eq]
    omega
  rw [pushByte, UInt64.toNat_or, shifted, UInt8.toNat_toUInt64,
    ← Nat.two_pow_add_eq_or_of_lt small, UInt64.toNat_ofNat']
  omega

/-- Pushing digits in from the highest one on gives their number. -/
theorem foldl_pushByte_reverse (digits : List UInt8) :
    digits.reverse.foldl pushByte 0 = UInt64.ofNat (number digits) := by
  rw [List.foldl_reverse]
  induction digits with
  | nil => rfl
  | cons digit rest ih => rw [List.foldr_cons, ih, pushByte_ofNat, number_cons]

@[simp] theorem length_lowBytes (value : UInt64) (size : Nat) :
    (lowBytes value size).length = size := by
  simp [lowBytes]

theorem lowBytes_succ (value : UInt64) (size : Nat) :
    lowBytes value (size + 1) =
      lowBytes value size ++ [(value >>> UInt64.ofNat (8 * size)).toUInt8] := by
  simp [lowBytes, List.range_succ]

/-- The low bytes of a value are its digits. -/
theorem toNat_lowByte (value : UInt64) {i : Nat} (small : i < 8) :
    (value >>> UInt64.ofNat (8 * i)).toUInt8.toNat = value.toNat / 256 ^ i % 256 := by
  have shift : (UInt64.ofNat (8 * i)).toNat % 64 = 8 * i := by
    rw [UInt64.toNat_ofNat']
    omega
  rw [UInt64.toNat_toUInt8, UInt64.toNat_shiftRight, shift, Nat.shiftRight_eq_div_pow, Nat.pow_mul]

/-- They make up what is left of the value in so many bytes. -/
theorem number_lowBytes (value : UInt64) (few : size ≤ 8) :
    number (lowBytes value size) = value.toNat % 256 ^ size := by
  induction size with
  | zero => simp [lowBytes, Nat.mod_one]
  | succ size ih =>
    have digit := toNat_lowByte value (show size < 8 by omega)
    rw [lowBytes_succ, number_append, ih (by omega), length_lowBytes, number_cons, digit,
      number_nil, Nat.mul_zero, Nat.add_zero, Nat.mod_pow_succ]

/-! Encoding and decoding. -/

theorem toList_encodeUInt (mode : Mode) (value : UInt64) (size : Nat) :
    (mode.encodeUInt value size).data.toList = mode.arrange (lowBytes value (min size 8)) :=
  rfl

@[simp] theorem length_encodeUInt (mode : Mode) (value : UInt64) (size : Nat) :
    (mode.encodeUInt value size).data.toList.length = min size 8 := by
  rw [toList_encodeUInt, length_arrange, length_lowBytes]

@[simp] theorem size_encodeUInt (mode : Mode) (value : UInt64) (size : Nat) :
    (mode.encodeUInt value size).size = min size 8 := by
  rw [← ByteArray.size_data, ← Array.length_toList, length_encodeUInt]

/-- Byte `i` of a spelling is digit `i`, counted from the end if the order is big-endian. -/
theorem getElem?_encodeUInt (mode : Mode) (value : UInt64) {i : Nat} (small : i < min size 8) :
    (mode.encodeUInt value size).data.toList[i]? = some (UInt8.ofNat
      (value.toNat / 256 ^ (if mode.isBigEndian then min size 8 - 1 - i else i))) := by
  have digit (j : Nat) (fits : j < min size 8) :
      (lowBytes value (min size 8))[j]? = some (UInt8.ofNat (value.toNat / 256 ^ j)) := by
    have byte := toNat_lowByte value (show j < 8 by omega)
    simp only [lowBytes, List.getElem?_map, List.getElem?_range fits, Option.map_some,
      Option.some.injEq]
    rw [← UInt8.toNat_inj, byte, UInt8.toNat_ofNat']
  rw [toList_encodeUInt, arrange]
  split
  · rw [List.getElem?_reverse (by rwa [length_lowBytes]), length_lowBytes]
    exact digit _ (by omega)
  · exact digit i small

/-- Decoding takes up to eight bytes for digits in the order of the mode. -/
theorem decodeUInt_eq (mode : Mode) (bytes : ByteArray) :
    mode.decodeUInt bytes =
      UInt64.ofNat (number (mode.arrange (bytes.data.toList.take 8))) := by
  have digits : (bytes.extract 0 8).data.toList = bytes.data.toList.take 8 := by simp
  simp only [decodeUInt, arrange, digits, ← foldl_pushByte_reverse]
  split
  · rw [List.reverse_reverse]
  · rfl

/-- Bytes that begin with a value's spelling, as far as they count, are decoded to what is left of
the value. -/
theorem decodeUInt_of_take_eq {bytes : ByteArray}
    (spelled : bytes.data.toList.take 8 = (mode.encodeUInt value size).data.toList) :
    mode.decodeUInt bytes = UInt64.ofNat (value.toNat % 256 ^ min size 8) := by
  rw [decodeUInt_eq, spelled, toList_encodeUInt, arrange_arrange,
    number_lowBytes value (Nat.min_le_right size 8)]

theorem decodeUInt_encodeUInt (mode : Mode) (value : UInt64) (size : Nat) :
    mode.decodeUInt (mode.encodeUInt value size) =
      UInt64.ofNat (value.toNat % 256 ^ min size 8) := by
  refine decodeUInt_of_take_eq (List.take_of_length_le ?_)
  rw [length_encodeUInt]
  exact Nat.min_le_right size 8

/-- The other byte order spells a value in reverse. -/
theorem encodeUInt_of_isBigEndian_ne {other : Mode}
    (differ : other.isBigEndian ≠ mode.isBigEndian) (value : UInt64) (size : Nat) :
    (other.encodeUInt value size).data.toList =
      (mode.encodeUInt value size).data.toList.reverse := by
  rw [toList_encodeUInt, toList_encodeUInt, arrange_of_isBigEndian_ne differ]

end GuestMachine.Mode
