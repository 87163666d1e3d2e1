import GuestMachine.Format.Flags

/-!
Mode flags of a guest: operating width, byte order and instruction-set variant. The empty set
means little-endian with the default width of the family. Unknown bits are kept.
-/

namespace GuestMachine

/-- Set of mode flags. -/
structure Mode where
  bits : UInt32
  deriving DecidableEq, Repr

namespace Mode

/-- No flag at all; the default. -/
def empty : Mode := ⟨0⟩

instance : Inhabited Mode := ⟨empty⟩

/-- Big-endian order of multi-byte guest values. -/
def bigEndian : Mode := ⟨0x40000000⟩

def bits16 : Mode := ⟨2⟩

def bits32 : Mode := ⟨4⟩

def bits64 : Mode := ⟨8⟩

/-- Compressed instruction set of the ARM family. -/
def thumb : Mode := ⟨16⟩

/-- Microcontroller profile of the ARM family. -/
def mclass : Mode := ⟨32⟩

/-- Compressed encoding of the MIPS family. -/
def micro : Mode := ⟨64⟩

def flags : List Flags.Named :=
  [⟨"BIG_ENDIAN", bigEndian.bits⟩, ⟨"BITS_16", bits16.bits⟩, ⟨"BITS_32", bits32.bits⟩,
    ⟨"BITS_64", bits64.bits⟩, ⟨"THUMB", thumb.bits⟩, ⟨"MCLASS", mclass.bits⟩,
    ⟨"MICRO", micro.bits⟩]

/-- Whether multi-byte guest values are stored with their highest byte first. -/
def isBigEndian (mode : Mode) : Bool :=
  Flags.includes mode.bits bigEndian.bits

/-- Text of the set with its type in front, for diagnostics. -/
def describe (mode : Mode) : String :=
  "Mode(" ++ Flags.text flags mode.bits ++ ")"

example : empty.describe = "Mode(0x0)" := by decide +kernel

example : (⟨0x40000084⟩ : Mode).describe = "Mode(BIG_ENDIAN | BITS_32 | 0x80)" := by decide +kernel

end Mode

end GuestMachine
