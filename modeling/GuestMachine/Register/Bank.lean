import GuestMachine.Error

/-!
The registers of a guest with their values. Slots are kept in order of identifier, so a bank
does not depend on the order in which an engine lists its registers, and every value fits the
width of its register.
-/

namespace GuestMachine

structure RegisterSlot where
  spec : RegisterSpec
  value : UInt64
  deriving DecidableEq, Repr

/-- Slots in order of identifier, and the program counter. -/
structure RegisterBank where
  pc : RegId
  slots : List RegisterSlot
  deriving DecidableEq, Repr

namespace RegisterBank

def insertSlot (slot : RegisterSlot) : List RegisterSlot → List RegisterSlot
  | [] => [slot]
  | other :: rest =>
    if slot.spec.id.number < other.spec.id.number then slot :: other :: rest
    else other :: insertSlot slot rest

def slotOf? (slots : List RegisterSlot) (id : RegId) : Option RegisterSlot :=
  slots.find? fun slot => slot.spec.id == id

/-- Adds a zeroed register. Its width is looked at before its identifier. -/
def declare (slots : List RegisterSlot) (spec : RegisterSpec) :
    Except Error (List RegisterSlot) :=
  if spec.bits = 0 ∨ 64 < spec.bits then .error (.invalidArgument Reason.registerWidth)
  else if (slotOf? slots spec.id).isSome then
    .error (.invalidArgument Reason.duplicateRegister)
  else .ok (insertSlot ⟨spec, 0⟩ slots)

/-- Zeroed bank for a layout. Registers are looked at in the order of the layout, the program
counter at last. -/
def ofLayout (layout : RegisterLayout) : Except Error RegisterBank := do
  let slots ← layout.registers.foldlM declare []
  if (slotOf? slots layout.pc).isSome then return ⟨layout.pc, slots⟩
  else throw (.invalidArgument Reason.missingPc)

def spec? (bank : RegisterBank) (id : RegId) : Option RegisterSpec :=
  (slotOf? bank.slots id).map RegisterSlot.spec

def has (bank : RegisterBank) (id : RegId) : Bool :=
  (slotOf? bank.slots id).isSome

def read (bank : RegisterBank) (id : RegId) : Except Error UInt64 :=
  match slotOf? bank.slots id with
  | some slot => .ok slot.value
  | none => .error (.unknownRegister id)

/-- Sets a register the bank has to the bits of `value` that fit it. -/
def store (bank : RegisterBank) (id : RegId) (value : UInt64) : RegisterBank :=
  { bank with
    slots := bank.slots.map fun slot =>
      if slot.spec.id = id then { slot with value := value &&& slot.spec.mask } else slot }

/-- Sets a register to the bits of `value` that fit it. -/
def write (bank : RegisterBank) (id : RegId) (value : UInt64) : Except Error RegisterBank :=
  if bank.has id then .ok (bank.store id value) else .error (.unknownRegister id)

/-- Register with a given name, the one of least identifier if several go by it. -/
def idOf? (bank : RegisterBank) (name : String) : Option RegId :=
  (bank.slots.find? fun slot => slot.spec.isNamed name).map fun slot => slot.spec.id

def size (bank : RegisterBank) : Nat :=
  bank.slots.length

def isEmpty (bank : RegisterBank) : Bool :=
  bank.slots.isEmpty

/-- Every register with its value, in order of identifier. -/
def snapshot (bank : RegisterBank) : List (RegId × UInt64) :=
  bank.slots.map fun slot => (slot.spec.id, slot.value)

/-- Writes values in order of the list, or none at all if one names an unknown register. -/
def restore (bank : RegisterBank) (values : List (RegId × UInt64)) :
    Except Error RegisterBank :=
  match values.find? fun entry => !bank.has entry.1 with
  | some entry => .error (.unknownRegister entry.1)
  | none => values.foldlM (fun bank entry => bank.write entry.1 entry.2) bank

/-- Bits of a word that fit the program counter. -/
def pcMask (bank : RegisterBank) : UInt64 :=
  match bank.spec? bank.pc with
  | some spec => spec.mask
  | none => 0xFFFFFFFFFFFFFFFF

end RegisterBank

end GuestMachine
