/-!
Blocks of bytes: zeroed storage, and copying part of one block over another of the same size.
-/

namespace GuestMachine.Bytes

/-- Blocks are compared as a whole. -/
instance decidableEq : DecidableEq ByteArray :=
  ByteArray.decEq

def zeros (size : Nat) : ByteArray :=
  ⟨Array.replicate size 0⟩

@[simp] theorem size_zeros (size : Nat) : (zeros size).size = size := by
  simp [zeros, ByteArray.size]

/-- Copies `count` bytes of `source`, from `start` on, over those of `block` from `offset` on. -/
def overwrite (block : ByteArray) (offset : Nat) (source : ByteArray) (start count : Nat) :
    ByteArray :=
  source.copySlice start block offset count

/-- Overwriting inside both blocks keeps the size. -/
theorem size_overwrite {block source : ByteArray} {offset start count : Nat}
    (inside : offset + count ≤ block.size) (enough : start + count ≤ source.size) :
    (overwrite block offset source start count).size = block.size := by
  simp only [ByteArray.size] at *
  simp only [overwrite, ByteArray.copySlice, Array.size_append, Array.size_extract]
  omega

end GuestMachine.Bytes
