import GuestMachine.Format.Hex

/-!
Text of a set of named flags. Names come in the order of their table, joined by a bar; bits
that no name accounts for follow as one hexadecimal number.
-/

namespace GuestMachine.Flags

structure Named where
  name : String
  bits : UInt32
  deriving DecidableEq, Repr

/-- Whether every bit of `part` is set in `whole`. -/
def includes (whole part : UInt32) : Bool :=
  whole &&& part == part

/-- Names of the groups that `source` includes and that still account for a bit of `left`,
with the bits that remain afterwards. A group whose bits are all named already adds no name. -/
def names (source : UInt32) : List Named → UInt32 → List String × UInt32
  | [], left => ([], left)
  | flag :: rest, left =>
    if includes source flag.bits && left &&& flag.bits != 0 then
      let (found, left) := names source rest (left &&& ~~~flag.bits)
      (flag.name :: found, left)
    else
      names source rest left

/-- Text of `bits` over `table`; the empty set is `0x0`. -/
def text (table : List Named) (bits : UInt32) : String :=
  let (found, left) := names bits table bits
  let extra := if left = 0 then [] else [Hex.text left.toNat]
  match found ++ extra with
  | [] => Hex.text 0
  | parts => " | ".intercalate parts

end GuestMachine.Flags
