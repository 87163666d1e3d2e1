import GuestMachine.Proofs.Mode.Integer
import Mathlib.Data.Nat.Bitwise
import Mathlib.Data.Nat.Digits.Lemmas
import Mathlib.Data.Set.Function

/-!
Encoding and decoding of integers as inverses. A value comes back cut to the bytes that spell it,
and up to eight bytes come back whole, in either byte order. One bit of the mode picks the order:
the other bits do not matter, and switching this one reverses the bytes.
-/

namespace GuestMachine

namespace Bytes

/-- The bytes of a block, last one first. -/
def reversed (block : ByteArray) : ByteArray :=
  ⟨block.data.reverse⟩

@[simp] theorem toList_reversed (block : ByteArray) :
    (reversed block).data.toList = block.data.toList.reverse :=
  Array.toList_reverse

theorem ext_toList {a b : ByteArray} (same : a.data.toList = b.data.toList) : a = b :=
  ByteArray.ext (Array.toList_inj.mp same)

/-- A block has nothing to take behind its end. -/
theorem extract_min (block : ByteArray) (stop : Nat) :
    block.extract 0 (min stop block.size) = block.extract 0 stop := by
  apply ext_toList
  simp

end Bytes

namespace Mode

/-- The mode with the other byte order and the same flags otherwise. -/
def switched (mode : Mode) : Mode :=
  ⟨mode.bits ^^^ bigEndian.bits⟩

variable {mode other : Mode}

/-! The bit of the byte order. -/

theorem isBigEndian_eq_testBit (mode : Mode) : mode.isBigEndian = mode.bits.toNat.testBit 30 := by
  have flag : bigEndian.bits.toNat = 2 ^ 30 := rfl
  rw [Bool.eq_iff_iff, isBigEndian, Flags.includes, beq_iff_eq, ← UInt32.toNat_inj,
    UInt32.toNat_and, flag, Nat.and_two_pow]
  cases mode.bits.toNat.testBit 30 <;> simp

theorem isBigEndian_congr
    (same : other.bits &&& bigEndian.bits = mode.bits &&& bigEndian.bits) :
    other.isBigEndian = mode.isBigEndian := by
  rw [isBigEndian, isBigEndian, Flags.includes, Flags.includes, same]

@[simp] theorem isBigEndian_switched (mode : Mode) :
    mode.switched.isBigEndian = !mode.isBigEndian := by
  have flag : bigEndian.bits.toNat.testBit 30 = true := rfl
  rw [isBigEndian_eq_testBit, isBigEndian_eq_testBit, switched, UInt32.toNat_xor, Nat.testBit_xor,
    flag, Bool.xor_true]

theorem isBigEndian_switched_ne (mode : Mode) : mode.switched.isBigEndian ≠ mode.isBigEndian := by
  rw [isBigEndian_switched]
  exact Bool.not_ne_self _

theorem arrange_congr (same : other.isBigEndian = mode.isBigEndian) (digits : List UInt8) :
    other.arrange digits = mode.arrange digits := by
  rw [arrange, arrange, same]

/-! Digits that are told by their number. -/

theorem forall_map_toNat_lt (digits : List UInt8) :
    ∀ digit ∈ digits.map UInt8.toNat, digit < 256 := by
  simpa using fun digit _ => digit.toNat_lt

theorem number_lt (digits : List UInt8) : number digits < 256 ^ digits.length := by
  simpa [number] using Nat.ofDigits_lt_base_pow_length (by omega) (forall_map_toNat_lt digits)

/-- As many digits that make up the same number are the same. -/
theorem eq_of_number_eq {a b : List UInt8} (length : a.length = b.length)
    (same : number a = number b) : a = b := by
  have digits := Nat.ofDigits_inj_of_len_eq (show 1 < 256 by omega) (by simpa using length)
    (forall_map_toNat_lt a) (forall_map_toNat_lt b) same
  exact List.map_injective_iff.mpr (fun _ _ => UInt8.toNat_inj.mp) digits

/-- Up to eight digits are the low bytes of their number. -/
theorem lowBytes_number {digits : List UInt8} (few : digits.length ≤ 8) :
    lowBytes (UInt64.ofNat (number digits)) digits.length = digits := by
  have bound := number_lt digits
  have word : 256 ^ digits.length ≤ 2 ^ 64 :=
    Nat.pow_le_pow_right (by omega : 0 < 256) few
  refine eq_of_number_eq (length_lowBytes _ _) ?_
  rw [number_lowBytes _ few, UInt64.toNat_ofNat', Nat.mod_eq_of_lt (Nat.lt_of_lt_of_le bound word),
    Nat.mod_eq_of_lt bound]

/-! Both ways round. -/

theorem toNat_decodeUInt_encodeUInt (mode : Mode) (value : UInt64) (size : Nat) :
    (mode.decodeUInt (mode.encodeUInt value size)).toNat = value.toNat % 256 ^ min size 8 := by
  have small : value.toNat % 256 ^ min size 8 < 2 ^ 64 :=
    Nat.lt_of_le_of_lt (Nat.mod_le _ _) value.toNat_lt
  rw [decodeUInt_encodeUInt, UInt64.toNat_ofNat', Nat.mod_eq_of_lt small]

theorem encodeUInt_decodeUInt (mode : Mode) (bytes : ByteArray) :
    mode.encodeUInt (mode.decodeUInt bytes) bytes.size = bytes.extract 0 8 := by
  have length : min bytes.size 8 = (mode.arrange (bytes.data.toList.take 8)).length := by
    rw [length_arrange, List.length_take, Array.length_toList, ByteArray.size_data, Nat.min_comm]
  have few : (mode.arrange (bytes.data.toList.take 8)).length ≤ 8 := by omega
  apply Bytes.ext_toList
  rw [toList_encodeUInt, decodeUInt_eq, length, lowBytes_number few, arrange_arrange]
  simp

/-- What is spelled alike is left of the values in so many bytes alike. -/
theorem mod_eq_of_encodeUInt_eq {a b : UInt64} {size : Nat}
    (same : mode.encodeUInt a size = mode.encodeUInt b size) :
    a.toNat % 256 ^ min size 8 = b.toNat % 256 ^ min size 8 := by
  rw [← toNat_decodeUInt_encodeUInt mode a, same, toNat_decodeUInt_encodeUInt]

/-! The two byte orders. -/

theorem encodeUInt_congr (same : other.isBigEndian = mode.isBigEndian) :
    other.encodeUInt = mode.encodeUInt := by
  funext value size
  apply Bytes.ext_toList
  rw [toList_encodeUInt, toList_encodeUInt, arrange_congr same]

theorem decodeUInt_congr (same : other.isBigEndian = mode.isBigEndian) :
    other.decodeUInt = mode.decodeUInt := by
  funext bytes
  rw [decodeUInt_eq, decodeUInt_eq, arrange_congr same]

theorem encodeUInt_switched (mode : Mode) (value : UInt64) (size : Nat) :
    mode.switched.encodeUInt value size = Bytes.reversed (mode.encodeUInt value size) := by
  apply Bytes.ext_toList
  rw [encodeUInt_of_isBigEndian_ne mode.isBigEndian_switched_ne, Bytes.toList_reversed]

theorem arrange_reverse (mode : Mode) (digits : List UInt8) :
    mode.arrange digits.reverse = (mode.arrange digits).reverse := by
  unfold arrange
  split <;> rfl

theorem decodeUInt_switched (mode : Mode) (bytes : ByteArray) :
    mode.switched.decodeUInt bytes = mode.decodeUInt (Bytes.reversed (bytes.extract 0 8)) := by
  have all : (Bytes.reversed (bytes.extract 0 8)).data.toList.take 8 =
      (bytes.data.toList.take 8).reverse := by
    rw [Bytes.toList_reversed, List.take_of_length_le (by simp)]
    simp
  rw [decodeUInt_eq, decodeUInt_eq, all, arrange_of_isBigEndian_ne mode.isBigEndian_switched_ne,
    arrange_reverse]

/-! The law. -/

/-- What encoding and decoding are to each other in a mode, and to those in other modes. -/
structure Codec (mode : Mode) : Prop where
  decodes : ∀ (value : UInt64) (size : Nat),
    (mode.decodeUInt (mode.encodeUInt value size)).toNat = value.toNat % 256 ^ min size 8
  encodes : ∀ bytes : ByteArray,
    mode.encodeUInt (mode.decodeUInt bytes) bytes.size = bytes.extract 0 (min 8 bytes.size)
  length : ∀ (value : UInt64) (size : Nat), (mode.encodeUInt value size).size = min size 8
  injective : ∀ size : Nat,
    Set.InjOn (mode.encodeUInt · size) {value | value.toNat < 256 ^ min size 8}
  /-- The highest byte comes first in big-endian order and last otherwise. -/
  order : ∀ (value : UInt64) (size i : Nat), i < min size 8 →
    (mode.encodeUInt value size)[i]? = some (UInt8.ofNat
      (value.toNat / 256 ^ (if mode.isBigEndian then min size 8 - 1 - i else i)))
  /-- No other bit of the mode matters. -/
  depends : ∀ other : Mode,
    other.bits &&& bigEndian.bits = mode.bits &&& bigEndian.bits →
      other.encodeUInt = mode.encodeUInt ∧ other.decodeUInt = mode.decodeUInt
  switchedEncodes : ∀ (value : UInt64) (size : Nat),
    mode.switched.encodeUInt value size = Bytes.reversed (mode.encodeUInt value size)
  switchedDecodes : ∀ bytes : ByteArray,
    mode.switched.decodeUInt bytes = mode.decodeUInt (Bytes.reversed (bytes.extract 0 8))

/-- In every mode encoding and decoding are inverse to each other, as far as eight bytes go, and the
mode tells them only in which order to take the bytes. -/
theorem integer_codec (mode : Mode) : mode.Codec where
  decodes := mode.toNat_decodeUInt_encodeUInt
  encodes bytes := by
    rw [encodeUInt_decodeUInt, Bytes.extract_min]
  length := mode.size_encodeUInt
  injective size a small b bound same := by
    have left := mod_eq_of_encodeUInt_eq same
    rw [Nat.mod_eq_of_lt small, Nat.mod_eq_of_lt bound] at left
    exact UInt64.toNat_inj.mp left
  order value size i small := by
    rw [← mode.getElem?_encodeUInt value small]
    exact Array.getElem?_toList.symm
  depends other same :=
    ⟨encodeUInt_congr (isBigEndian_congr same), decodeUInt_congr (isBigEndian_congr same)⟩
  switchedEncodes := mode.encodeUInt_switched
  switchedDecodes := mode.decodeUInt_switched

end Mode

end GuestMachine
