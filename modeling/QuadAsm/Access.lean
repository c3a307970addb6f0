import QuadAsm.Diagnostic
import QuadAsm.Instruction

/-!
# Reads and writes

The four sources of an instruction share one read address for file `a` and one for file `b`. A small
immediate takes the place of the address for file `b`. A source in the shared file goes to the file
whose address is already its index, or else to one whose address is free, `a` before `b`.

The add slot writes file `a` and the mul slot file `b`, or with the swap the other way round. A
destination in the shared file goes where the swap leaves its slot. Two slots cannot write one file,
nor one peripheral register.
-/

namespace QuadAsm

/-- What the sources ask of one file: nothing, one index, or different ones. -/
inductive Demand
  | idle
  | one (num : UInt8)
  | several
  deriving DecidableEq

namespace Demand

def ofIndices : List UInt8 → Demand
  | [] => .idle
  | num :: nums => if nums.all (· == num) then .one num else .several

def index? : Demand → Option UInt8
  | .one num => some num
  | _ => none

end Demand

/-- The read addresses that are taken. -/
structure ReadAddresses where
  a : Option UInt8
  b : Option UInt8
  /-- A small immediate stands in place of the address for file `b`. -/
  immediate : Bool
  deriving DecidableEq

namespace ReadAddresses

/-- The file to read the index `num` from, and the addresses after that. -/
def place (taken : ReadAddresses) (num : UInt8) : Option (RegisterFile × ReadAddresses) :=
  if taken.a = some num then some (.a, taken)
  else if taken.b = some num then some (.b, taken)
  else if taken.a = none then some (.a, { taken with a := some num })
  else if taken.b = none ∧ taken.immediate = false then some (.b, { taken with b := some num })
  else none

def bindOperand (taken : ReadAddresses) : Operand → Except Reason (Operand × ReadAddresses)
  | .reg r =>
    if r.file = .shared then
      match taken.place r.num with
      | some (file, taken) => .ok (.reg { r with file := file }, taken)
      | none => .error (.noReadAddress r)
    else .ok (.reg r, taken)
  | operand => .ok (operand, taken)

def bindSlot (taken : ReadAddresses) (s : Slot) : Except Reason (Slot × ReadAddresses) := do
  let (lhs, taken) ← taken.bindOperand s.lhs
  let (rhs, taken) ← taken.bindOperand s.rhs
  return ({ s with lhs := lhs, rhs := rhs }, taken)

end ReadAddresses

namespace Instruction

def sourceRegisters (i : Instruction) : List Register :=
  i.sources.filterMap Operand.reg?

def demand (i : Instruction) (file : RegisterFile) : Demand :=
  .ofIndices ((i.sourceRegisters.filter (·.file = file)).map (·.num))

def readsImmediate (i : Instruction) : Bool :=
  i.demand .smallImmediate != .idle

def readsRotation (i : Instruction) : Bool :=
  i.sourceRegisters.any Register.isRotation

/-- The first rule that the sources break by themselves, before shared ones have a file. -/
def readConflict? (i : Instruction) : Option Reason :=
  if i.demand .smallImmediate = .several then some .severalImmediates
  else if i.readsImmediate ∧ i.signal ≠ .quiet then some (.immediateWithSignal i.signal)
  else if i.readsImmediate ∧ i.demand .b ≠ .idle then some .immediateWithFileB
  else if i.readsRotation ∧ ¬(i.mul.lhs.isAccumulator ∧ i.mul.rhs.isAccumulator) then
    some .rotationOperands
  else if i.demand .a = .several then some (.severalReads .a)
  else if i.demand .b = .several then some (.severalReads .b)
  else none

/-- The addresses that the sources outside the shared file take. -/
def explicitAddresses (i : Instruction) : ReadAddresses :=
  ⟨(i.demand .a).index?, (i.demand .b).index?, i.readsImmediate⟩

def bindReads (i : Instruction) : Except Reason Instruction := do
  let (add, taken) ← i.explicitAddresses.bindSlot i.add
  let (mul, _) ← taken.bindSlot i.mul
  return { i with
    add := add
    mul := mul
    signal := if i.readsImmediate then .smallImmediate else i.signal }

/-- Moves each source of the shared file to a file with an address for it, and marks the use of a
small immediate. An index past the end of the files is a defect. -/
def assignReads (i : Instruction) : Except Failure Instruction :=
  if i.sourceRegisters.any (Register.indexLimit ≤ ·.num) then .error (.defect .shiftLeft)
  else
    let refuse (reason : Reason) : Failure := .diagnostic (.malformed i.line reason)
    match i.readConflict? with
    | some reason => .error (refuse reason)
    | none => i.bindReads.mapError refuse

end Instruction

def Register.bindTo (r : Register) (file : RegisterFile) : Register :=
  if r.file = .shared then { r with file := file } else r

def Slot.writeTo (s : Slot) (file : RegisterFile) : Slot :=
  { s with dst := s.dst.bindTo file }

namespace Instruction

def writeConflict? (i : Instruction) : Option Reason :=
  if i.add.dst.file = i.mul.dst.file ∧ i.add.dst.file ≠ .shared then
    some (.sameWriteFile i.add.dst.file)
  else if i.add.dst = i.mul.dst ∧ i.add.dst.file = .shared ∧ i.add.dst.isPeripheral then
    some (.sameWriteRegister i.add.dst)
  else none

/-- Whether the destinations that name a file themselves ask for the swap. -/
def needsSwap (i : Instruction) : Bool :=
  i.add.dst.file == .b || i.mul.dst.file == .a

def assignWrites (i : Instruction) : Except Diagnostic Instruction :=
  match i.writeConflict? with
  | some reason => .error (.malformed i.line reason)
  | none => .ok { i with
      add := i.add.writeTo (if i.needsSwap then .b else .a)
      mul := i.mul.writeTo (if i.needsSwap then .a else .b)
      writeSwap := i.needsSwap }

end Instruction

end QuadAsm
