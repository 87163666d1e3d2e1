/-!
Stop flags and the handles that share them. A clone of a handle names the same flag, so a stop
requested through either is seen through both.
-/

namespace GuestMachine

structure StopHandle where
  flag : Nat
  deriving DecidableEq, Repr, Inhabited

/-- A handle of the same flag. -/
def StopHandle.clone (handle : StopHandle) : StopHandle := handle

/-- Stop flags by number. -/
structure StopBoard where
  flags : List Bool
  deriving DecidableEq, Repr, Inhabited

namespace StopBoard

def empty : StopBoard := ⟨[]⟩

/-- A new flag, with no stop requested, and a handle of it. -/
def create (board : StopBoard) : StopHandle × StopBoard :=
  (⟨board.flags.length⟩, ⟨board.flags ++ [false]⟩)

def request (board : StopBoard) (handle : StopHandle) : StopBoard :=
  ⟨board.flags.set handle.flag true⟩

def clear (board : StopBoard) (handle : StopHandle) : StopBoard :=
  ⟨board.flags.set handle.flag false⟩

/-- Whether a stop is requested. A handle of no flag never sees one. -/
def isRequested (board : StopBoard) (handle : StopHandle) : Bool :=
  (board.flags[handle.flag]?).getD false

end StopBoard

end GuestMachine
