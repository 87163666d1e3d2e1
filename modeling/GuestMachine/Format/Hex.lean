/-!
Hexadecimal text of numbers, as diagnostics show addresses and sizes.
-/

namespace GuestMachine.Hex

/-- The fewest lowercase digits after `0x`; zero is `0x0`. -/
def text (n : Nat) : String :=
  "0x" ++ String.ofList (Nat.toDigits 16 n)

def word (w : UInt64) : String :=
  text w.toNat

example : text 0 = "0x0" := by decide

example : text 0xBEEF = "0xbeef" := by decide

end GuestMachine.Hex
