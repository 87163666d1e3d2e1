import GuestMachine.Memory.Bytes
import GuestMachine.Memory.Permissions

/-!
Regions of guest memory. A region is as long as the storage it owns; its description, which is
all a caller sees, carries the length as a number.
-/

namespace GuestMachine

/-- Identifier given to a region when it is mapped. -/
structure RegionId where
  number : UInt32
  deriving DecidableEq, Repr

def RegionId.text (id : RegionId) : String :=
  "region#" ++ toString id.number.toNat

structure RegionInfo where
  id : RegionId
  base : UInt64
  size : UInt64
  perms : Permissions
  deriving DecidableEq, Repr

namespace RegionInfo

/-- One past the last address. -/
def endAddr (info : RegionInfo) : UInt64 :=
  info.base + info.size

def contains (info : RegionInfo) (address : UInt64) : Bool :=
  info.base ≤ address && address < info.endAddr

/-- Text of every field, for diagnostics. -/
def describe (info : RegionInfo) : String :=
  "MemoryRegion \x7b id: RegionId(" ++ toString info.id.number.toNat ++ "), base: "
    ++ toString info.base.toNat ++ ", size: " ++ toString info.size.toNat ++ ", perms: "
    ++ info.perms.describe ++ " \x7d"

end RegionInfo

/-- A mapped region with its storage. -/
structure Region where
  base : UInt64
  id : RegionId
  perms : Permissions
  bytes : ByteArray
  deriving DecidableEq

namespace Region

def size (region : Region) : Nat :=
  region.bytes.size

def endAddr (region : Region) : UInt64 :=
  region.base + UInt64.ofNat region.size

def offset (region : Region) (address : UInt64) : Nat :=
  address.toNat - region.base.toNat

/-- What a caller sees of the region. -/
def info (region : Region) : RegionInfo where
  id := region.id
  base := region.base
  size := UInt64.ofNat region.size
  perms := region.perms

end Region

end GuestMachine
