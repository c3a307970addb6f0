import QuadAsm.Signal
import QuadAsm.Slot
import QuadAsm.Word.Layout

/-!
# Instructions

An instruction from its first reading to its final words. `Kind` is what the mnemonic says, `Form`
the shape of its operands and words, which several kinds share.
-/

namespace QuadAsm

/-- Loads take the immediate as one word, or as signed or unsigned elements. -/
inductive LoadShape
  | word
  | signed
  | unsigned
  deriving DecidableEq

def LoadShape.unpack : LoadShape → UInt8
  | .word => 0
  | .signed => 1
  | .unsigned => 3

inductive SemaphoreDirection
  | up
  | down
  deriving DecidableEq

/-- The unpack code that makes a load of an immediate a semaphore operation. -/
def SemaphoreDirection.unpack : UInt8 := 4

inductive Flag
  | zero
  | negative
  | carry
  deriving DecidableEq

def Flag.code : Flag → UInt8
  | .zero => 0
  | .negative => 1
  | .carry => 2

/-- A branch is taken always, or if a flag is set or clear. -/
inductive BranchTest
  | always
  | whenSet (flag : Flag)
  | whenClear (flag : Flag)
  deriving DecidableEq

/-- The condition code of a branch that asks for the flag in any element, or else in all. -/
def BranchTest.cond (any : Bool) : BranchTest → UInt8
  | .always => 15
  | .whenSet flag => flag.code * 4 + any.toUInt8 * 2
  | .whenClear flag => flag.code * 4 + any.toUInt8 * 2 + 1

inductive TargetMode
  | relative
  | register
  deriving DecidableEq

inductive Kind
  | alu
  | load (shape : LoadShape)
  | semaphore (direction : SemaphoreDirection)
  | branch (test : BranchTest)
  deriving DecidableEq

inductive Form
  | alu
  | load
  | semaphore
  | branch
  deriving DecidableEq

def Kind.form : Kind → Form
  | .alu => .alu
  | .load _ => .load
  | .semaphore _ => .semaphore
  | .branch _ => .branch

structure Instruction where
  pc : UInt32
  line : Nat
  labels : List String
  kind : Kind := .alu
  add : Slot := Slot.nop
  mul : Slot := Slot.nop
  signal : Signal := .quiet
  setFlags : Bool := false
  packMode : Bool := false
  writeSwap : Bool := false
  pack : UInt8 := 0
  unpack : UInt8 := 0
  branchCond : UInt8 := 15
  targetMode : Option TargetMode := none
  encoding : Option WordPair := none
  deriving DecidableEq

namespace Instruction

/-- The four sources in the order in which read addresses are given to them. -/
def sources (i : Instruction) : List Operand :=
  [i.add.lhs, i.add.rhs, i.mul.lhs, i.mul.rhs]

def definesLabel (i : Instruction) (name : String) : Bool :=
  i.labels.contains name

def isRelativeBranch (i : Instruction) : Bool :=
  i.targetMode == some .relative

def isRegisterBranch (i : Instruction) : Bool :=
  i.targetMode == some .register

/-- The ALU instruction that does nothing, at the place and with the flags of `i`. -/
def toNop (i : Instruction) : Instruction :=
  { i with
    kind := .alu
    add := { Slot.nop with dst := ⟨.a, Register.nopNum⟩ }
    mul := { Slot.nop with dst := ⟨.b, Register.nopNum⟩ }
    signal := .quiet
    writeSwap := false
    pack := 0
    unpack := 0
    targetMode := none }

end Instruction

end QuadAsm
