import GuestMachine.Format.Flags

/-!
Permissions of mapped memory and the kinds of guest access checked against them. Unknown bits
of a permission set are kept and can be asked for.
-/

namespace GuestMachine

structure Permissions where
  bits : UInt32
  deriving DecidableEq, Repr, Inhabited

namespace Permissions

def read : Permissions := ⟨1⟩

def write : Permissions := ⟨2⟩

def exec : Permissions := ⟨4⟩

def all : Permissions := ⟨read.bits ||| write.bits ||| exec.bits⟩

def flags : List Flags.Named :=
  [⟨"READ", read.bits⟩, ⟨"WRITE", write.bits⟩, ⟨"EXEC", exec.bits⟩, ⟨"ALL", all.bits⟩]

/-- Whether every permission of `needed` is granted. -/
def grants (perms needed : Permissions) : Bool :=
  Flags.includes perms.bits needed.bits

/-- Three letters, one a permission, with a dash for each one missing. -/
def text (perms : Permissions) : String :=
  let letter (needed : Permissions) (c : Char) : Char := if perms.grants needed then c else '-'
  String.ofList [letter read 'r', letter write 'w', letter exec 'x']

/-- Text of the set with its type in front, for diagnostics. -/
def describe (perms : Permissions) : String :=
  "Permissions(" ++ Flags.text flags perms.bits ++ ")"

example : all.text = "rwx" := by decide +kernel

example : all.describe = "Permissions(READ | WRITE | EXEC)" := by decide +kernel

end Permissions

inductive AccessKind where
  | read
  | write
  | fetch
  deriving DecidableEq, Repr

namespace AccessKind

/-- Permission that a region must grant for the access. -/
def required : AccessKind → Permissions
  | read => Permissions.read
  | write => Permissions.write
  | fetch => Permissions.exec

def name : AccessKind → String
  | read => "read"
  | write => "write"
  | fetch => "fetch"

def ofName? (text : String) : Option AccessKind :=
  [read, write, fetch].find? fun kind => kind.name == text

end AccessKind

end GuestMachine
