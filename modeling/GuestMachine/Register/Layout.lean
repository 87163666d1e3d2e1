/-!
Registers that an engine declares for a guest: their identifiers, names and widths, and which
of them is the program counter.
-/

namespace GuestMachine

structure RegId where
  number : Nat
  deriving DecidableEq, Repr, Inhabited

def RegId.text (id : RegId) : String :=
  "reg#" ++ toString id.number

/-- One register: its identifier, conventional name and width in bits. -/
structure RegisterSpec where
  id : RegId
  name : String
  bits : Nat
  deriving DecidableEq, Repr, Inhabited

namespace RegisterSpec

/-- Bits of a word that fit the register. -/
def mask (spec : RegisterSpec) : UInt64 :=
  if 64 ≤ spec.bits then 0xFFFFFFFFFFFFFFFF else UInt64.ofNat ((1 <<< spec.bits) - 1)

/-- Whether the register goes by `text`; the case of ASCII letters does not matter. -/
def isNamed (spec : RegisterSpec) (text : String) : Bool :=
  spec.name.toList.map Char.toLower == text.toList.map Char.toLower

end RegisterSpec

/-- Registers of a guest in the order the engine prefers, with its program counter. -/
structure RegisterLayout where
  pc : RegId
  registers : List RegisterSpec
  deriving DecidableEq, Repr, Inhabited

end GuestMachine
