import QuadAsm.Access

/-!
# Settlement

An instruction is settled when each register has its file and each slot its condition. A slot that
cannot have an effect is brought to the form of the NOP. Reading a peripheral register is an effect
of its own, so a slot that reads one stays although it writes nowhere. Each form is settled in its
own way, a semaphore by its statement alone.
-/

namespace QuadAsm

/-- How many sources of a slot are the NOP register, and how many a peripheral register. -/
structure ReadCount where
  nops : Nat
  peripherals : Nat
  deriving DecidableEq

namespace ReadCount

def ofOperand : Operand → ReadCount
  | .reg r => ⟨r.isNop.toNat, r.isPeripheral.toNat⟩
  | _ => ⟨0, 0⟩

def add (c d : ReadCount) : ReadCount :=
  ⟨c.nops + d.nops, c.peripherals + d.peripherals⟩

end ReadCount

/-- The accumulator `r0` in place of the NOP register, which takes a read address but gives no value. -/
def Operand.replaceNop : Operand → Operand
  | .reg r => .reg (if r.isNop then Register.r0 else r)
  | operand => operand

namespace Slot

def readCount (s : Slot) : ReadCount :=
  (ReadCount.ofOperand s.lhs).add (ReadCount.ofOperand s.rhs)

def replaceNops (s : Slot) : Slot :=
  { s with lhs := s.lhs.replaceNop, rhs := s.rhs.replaceNop }

/-- Whether a slot with these reads does nothing: it reads nothing at all, or writes nowhere and
reads nothing that has an effect. -/
def isIdle (s : Slot) (reads : ReadCount) : Bool :=
  reads.nops == 2 || (s.dst.isNop && reads.peripherals == 0)

/-- The NOP for a slot that does nothing or never runs; others run always unless they say when. -/
def normalize (s : Slot) (reads : ReadCount) : Slot :=
  if s.isIdle reads then nop
  else
    match s.cond with
    | some .never => nop
    | some _ => s
    | none => { s with cond := some .always }

/-- A slot that never runs has destination index 0. -/
def clearIdleDst (s : Slot) : Slot :=
  if s.isNever then { s with dst := { s.dst with num := 0 } } else s

def defaultAlways (s : Slot) : Slot :=
  { s with cond := some (s.cond.getD .always) }

/-- The slot of an ALU instruction after its reads have their addresses. -/
def settle (s : Slot) : Slot :=
  s.replaceNops.normalize s.readCount

end Slot

namespace Instruction

def clearIdleDsts (i : Instruction) : Instruction :=
  { i with add := i.add.clearIdleDst, mul := i.mul.clearIdleDst }

/-- A load that writes nothing becomes the NOP. -/
def normalizeLoad (i : Instruction) : Instruction :=
  let i := { i with add := i.add.defaultAlways, mul := i.mul.defaultAlways }
  (if i.add.isNever && i.mul.isNever then i.toNop else i).clearIdleDsts

/-- NOP reads still claim an address, so reads are assigned before idle slots are reduced. -/
def settleAlu (i : Instruction) : Except Failure Instruction := do
  let i ← i.assignReads
  let i := { i with add := i.add.settle, mul := i.mul.settle }
  let i ← i.assignWrites.mapError .diagnostic
  return i.clearIdleDsts

def settleLoad (i : Instruction) : Except Failure Instruction := do
  let i ← i.assignWrites.mapError .diagnostic
  return i.normalizeLoad

def settleBranch (i : Instruction) : Except Failure Instruction :=
  i.assignWrites.mapError .diagnostic

def settleAs (i : Instruction) : Form → Except Failure Instruction
  | .alu => i.settleAlu
  | .load => i.settleLoad
  | .semaphore => .ok i
  | .branch => i.settleBranch

def settle (i : Instruction) : Except Failure Instruction :=
  i.settleAs i.kind.form

end Instruction

end QuadAsm
