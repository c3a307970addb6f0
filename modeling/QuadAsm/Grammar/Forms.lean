import QuadAsm.Grammar.Reader

/-!
# Operands of the forms

After the operation of the add slot of an ALU statement stand its operands, then the operation and
the operands of the mul slot. A slot with code 0 has no operands.

A load writes one immediate through both slots. Its conditions are written for both slots or for
none, and a slot that never writes has the NOP register as its destination. A semaphore statement
has a fixed destination and only says which of the sixteen semaphores it means.

A branch may ask for its flag in all elements or in any, names two link destinations, and then its
target: a label, or a register of file `a` with an offset. Nothing stands between the target and the
end of the statement.
-/

namespace QuadAsm

/-- Reads `[.cond], destination, source, source` into a slot. -/
def Slot.readOperands (s : Slot) : Reader Slot := do
  let cond ← Reader.suffix Reader.condition .commaAfterOpcode
  let dst ← Reader.destination
  Reader.expect ","
  let lhs ← Reader.source
  Reader.expect ","
  let rhs ← Reader.source
  return { s with cond := cond, dst := dst, lhs := .reg lhs, rhs := .reg rhs }

def Slot.readIfUsed (s : Slot) : Reader Slot :=
  if s.code = 0 then pure s else s.readOperands

def Instruction.readAlu (i : Instruction) : Reader Instruction := do
  let add ← i.add.readIfUsed
  let code ← Reader.known Slot.mulCode? .unknownMul
  let mul ← { i.mul with code := code : Slot }.readIfUsed
  return { i with add := add, mul := mul }

namespace Slot

/-- The slot of a load, brought to the form in which the NOP register and `never` go together. -/
def loadInto (s : Slot) (cond : Option Condition) (dst : Register) : Slot :=
  if cond = some .never then { s with cond := cond, dst := Register.nop }
  else if dst.isNop then { s with cond := some .never, dst := dst }
  else { s with cond := cond, dst := dst }

end Slot

namespace Reader

/-- The conditions of both slots, with a point between them. -/
def bothConditions : Reader (Condition × Condition) := do
  let add ← condition
  expect "."
  let mul ← condition
  return (add, mul)

end Reader

namespace Instruction

/-- Reads `[.cond.cond], destination, destination, immediate`. -/
def readLoad (i : Instruction) : Reader Instruction := do
  let conds ← Reader.suffix Reader.bothConditions (.expected ",")
  let addDst ← Reader.destination
  Reader.expect ","
  let mulDst ← Reader.destination
  Reader.take "," .commaBeforeImmediate
  let value ← Reader.immediate
  return { i with
    signal := .loadImmediate
    unpack := match i.kind with
      | .load shape => shape.unpack
      | _ => i.unpack
    add := { i.add.loadInto (conds.map (·.1)) addDst with lhs := .imm value }
    mul := i.mul.loadInto (conds.map (·.2)) mulDst }

/-- Reads `, number`. -/
def readSemaphore (i : Instruction) : Reader Instruction := do
  Reader.expect ","
  let number ← Reader.immediate
  if number < 16 then
    return { i with
      signal := .loadImmediate
      unpack := SemaphoreDirection.unpack
      add := ⟨0, some .always, ⟨.a, Register.nopNum⟩, .imm number, .reg Register.r0⟩
      mul := { Slot.nop with dst := ⟨.b, 0⟩ }
      writeSwap := false }
  else throw (.semaphoreRange number)

end Instruction

/-- Whether a token that names no register can name a label as a branch target. -/
def isLabelToken (token : String) : Bool :=
  token ≠ ";" && token ≠ "," && token ≠ "." && !Reader.startsWithDigit token

/-- Where a branch goes. -/
inductive Target
  | label (name : String)
  | register (num : UInt8) (offset : UInt32)
  deriving DecidableEq

namespace Reader

def allOrAny : Reader Bool :=
  known (fun token => if token = "all" then some false else if token = "any" then some true
    else none) .allOrAny

def target : Reader Target := do
  let token ← next
  match Register.fileA? token with
  | some num =>
    expect ","
    let offset ← immediate
    return .register num offset
  | none => if isLabelToken token then return .label token else throw (.notTarget token)

end Reader

namespace Instruction

def setTarget (i : Instruction) : Target → Instruction
  | .label name => { i with
      targetMode := some .relative
      add := { i.add with lhs := .label name } }
  | .register num offset => { i with
      targetMode := some .register
      add := { i.add with lhs := .reg ⟨.a, num⟩, rhs := .imm offset } }

/-- Reads `[.all | .any], destination, destination, target;`. -/
def readBranch (i : Instruction) : Reader Instruction := do
  match i.kind with
  | .branch test =>
    let any ← Reader.suffix Reader.allOrAny (.expected ",")
    let addDst ← Reader.destination
    Reader.expect ","
    let mulDst ← Reader.destination
    Reader.take "," .commaBeforeTarget
    let target ← Reader.target
    Reader.expect ";"
    return { i with
      signal := .branch
      branchCond := test.cond (any.getD false)
      add := { i.add with cond := some .always, dst := addDst }
      mul := { i.mul with cond := some .always, dst := mulDst } : Instruction }.setTarget target
  | _ => throw .notBranch

end Instruction

end QuadAsm
