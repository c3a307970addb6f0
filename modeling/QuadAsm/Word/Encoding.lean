import QuadAsm.Instruction

/-!
# Encoding

The word pair of an instruction whose registers, conditions and labels are settled. Whatever is not
settled by then is a defect. Operands are looked at before conditions.
-/

namespace QuadAsm

/-- How a source is read: its selector and, unless it is an accumulator, its read address. -/
structure ReadSelect where
  selector : UInt32
  address : Option (BitField × UInt32)

def ReadSelect.addressBits (s : ReadSelect) : UInt32 :=
  match s.address with
  | some (field, num) => field.set num
  | none => 0

def Register.readSelect (r : Register) : Except Defect ReadSelect :=
  match r.file with
  | .accumulator => .ok ⟨r.num.toUInt32, none⟩
  | .a => .ok ⟨Layout.selectA, some (Layout.readA, r.num.toUInt32)⟩
  | .b | .smallImmediate => .ok ⟨Layout.selectB, some (Layout.readB, r.num.toUInt32)⟩
  | .shared => .error (.unboundRegister r)

namespace Operand

/-- The bits of an ALU source whose selector stands in `field`. -/
def readBits (field : BitField) : Operand → Except Defect UInt32
  | .reg r => r.readSelect.map fun s => field.set s.selector ||| s.addressBits
  | operand => .error (.notRegister operand)

def immediate : Operand → Except Defect UInt32
  | .imm value => .ok value
  | operand => .error (.notImmediate operand)

end Operand

def Slot.condCode (s : Slot) : Except Defect UInt32 :=
  match s.cond with
  | some cond => .ok cond.code
  | none => .error .openCondition

/-- The single flags of a high word. -/
structure ControlBits where
  writeSwap : Bool := false
  setFlags : Bool := false
  viaRegister : Bool := false
  viaOffset : Bool := false
  packMode : Bool := false
  deriving DecidableEq

namespace ControlBits

def bits (f : ControlBits) : UInt32 :=
  Layout.writeSwap.flag f.writeSwap ||| Layout.setFlags.flag f.setFlags |||
    Layout.viaRegister.flag f.viaRegister ||| Layout.viaOffset.flag f.viaOffset |||
    Layout.packMode.flag f.packMode

def ofWord (w : UInt32) : ControlBits where
  writeSwap := Layout.writeSwap.isSet w
  setFlags := Layout.setFlags.isSet w
  viaRegister := Layout.viaRegister.isSet w
  viaOffset := Layout.viaOffset.isSet w
  packMode := Layout.packMode.isSet w

end ControlBits

namespace Instruction

/-- The high word of every form but the branch. -/
def highWord (i : Instruction) : Except Defect UInt32 := do
  let addCond ← i.add.condCode
  let mulCond ← i.mul.condCode
  let flags : ControlBits :=
    { writeSwap := i.writeSwap, setFlags := i.setFlags, packMode := i.packMode }
  return Layout.signal.set i.signal.code ||| Layout.unpack.set i.unpack.toUInt32 |||
    Layout.pack.set i.pack.toUInt32 ||| Layout.addCond.set addCond |||
    Layout.mulCond.set mulCond ||| Layout.addDst.set i.add.dst.num.toUInt32 |||
    Layout.mulDst.set i.mul.dst.num.toUInt32 ||| flags.bits

/-- The high word of a branch, whose flags are `flags` but for the swap. -/
def branchHighWord (i : Instruction) (flags : ControlBits) : UInt32 :=
  Layout.signal.set i.signal.code ||| Layout.branchCond.set i.branchCond.toUInt32 |||
    Layout.addDst.set i.add.dst.num.toUInt32 ||| Layout.mulDst.set i.mul.dst.num.toUInt32 |||
    { flags with writeSwap := i.writeSwap : ControlBits }.bits

def encodeAlu (i : Instruction) : Except Defect WordPair := do
  let addLhs ← i.add.lhs.readBits Layout.addLhs
  let addRhs ← i.add.rhs.readBits Layout.addRhs
  let mulLhs ← i.mul.lhs.readBits Layout.mulLhs
  let mulRhs ← i.mul.rhs.readBits Layout.mulRhs
  let hi ← i.highWord
  return ⟨Layout.addOp.set i.add.code.toUInt32 ||| Layout.mulOp.set i.mul.code.toUInt32 |||
    addLhs ||| addRhs ||| mulLhs ||| mulRhs, hi⟩

def encodeLoad (i : Instruction) : Except Defect WordPair := do
  let lo ← i.add.lhs.immediate
  let hi ← i.highWord
  return ⟨lo, hi⟩

def encodeSemaphore (i : Instruction) : Except Defect WordPair := do
  let number ← i.add.lhs.immediate
  let hi ← i.highWord
  return ⟨Layout.semaphoreNumber.set number |||
    Layout.semaphoreDown.flag (i.kind == .semaphore .down), hi⟩

def encodeBranch (i : Instruction) : Except Defect WordPair :=
  match i.targetMode with
  | some .relative => do
    let lo ← i.add.lhs.immediate
    return ⟨lo, i.branchHighWord { viaOffset := true }⟩
  | some .register =>
    match i.add.lhs with
    | .reg r => do
      let lo ← i.add.rhs.immediate
      return ⟨lo, i.branchHighWord { viaRegister := true } |||
        Layout.branchReg.set r.num.toUInt32⟩
    | _ => .error .noTargetRegister
  | none => .error .noTargetMode

def encodeAs (i : Instruction) : Form → Except Defect WordPair
  | .alu => i.encodeAlu
  | .load => i.encodeLoad
  | .semaphore => i.encodeSemaphore
  | .branch => i.encodeBranch

def encode (i : Instruction) : Except Defect WordPair :=
  i.encodeAs i.kind.form

end Instruction

end QuadAsm
