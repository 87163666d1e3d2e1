/-!
Instruction-set families. The family only selects an engine and its registers; nothing here
depends on what the instructions of a family do.
-/

namespace GuestMachine

/-- Instruction-set family of a guest. -/
inductive Arch where
  | arm
  | arm64
  | mips
  | x86
  | ppc
  | sparc
  | m68k
  | riscv
  deriving DecidableEq, Repr, Inhabited

namespace Arch

def all : List Arch :=
  [arm, arm64, mips, x86, ppc, sparc, m68k, riscv]

def name : Arch → String
  | arm => "arm"
  | arm64 => "arm64"
  | mips => "mips"
  | x86 => "x86"
  | ppc => "ppc"
  | sparc => "sparc"
  | m68k => "m68k"
  | riscv => "riscv"

def ofName? (text : String) : Option Arch :=
  all.find? fun arch => arch.name == text

end Arch

def version : Nat × Nat :=
  (1, 0)

end GuestMachine
