import GuestMachine.Mode

/-!
Integers of up to eight bytes in the byte order of a mode. Reading folds shifts over the bytes;
writing cuts the value into bytes and turns them round for big-endian order.
-/

namespace GuestMachine.Mode

/-- Appends one byte below the digits read so far. -/
def pushByte (value : UInt64) (byte : UInt8) : UInt64 :=
  (value <<< 8) ||| byte.toUInt64

/-- Integer spelled by the first eight of `bytes`; later bytes are ignored. -/
def decodeUInt (mode : Mode) (bytes : ByteArray) : UInt64 :=
  let digits := (bytes.extract 0 8).data.toList
  if mode.isBigEndian then digits.foldl pushByte 0
  else digits.reverse.foldl pushByte 0

def lowBytes (value : UInt64) (size : Nat) : List UInt8 :=
  (List.range size).map fun i => (value >>> UInt64.ofNat (8 * i)).toUInt8

/-- The low `size` bytes of `value`, at most eight, in the byte order of the mode. -/
def encodeUInt (mode : Mode) (value : UInt64) (size : Nat) : ByteArray :=
  let digits := lowBytes value (min size 8)
  ⟨(if mode.isBigEndian then digits.reverse else digits).toArray⟩

example : empty.encodeUInt 0x11223344 2 = ⟨#[0x44, 0x33]⟩ := by decide +kernel

example : bigEndian.decodeUInt ⟨#[0x12, 0x34]⟩ = 0x1234 := by decide +kernel

end GuestMachine.Mode
