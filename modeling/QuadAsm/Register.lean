import QuadAsm.Text.Character

/-!
# Registers and operands

A register is an index into a register file. An instruction has one read address and one write
address for each of the files `a` and `b`. A register of the file `shared` can be had from either of
the two, and stays there until one is chosen. Accumulators need no address, and a small immediate is
an index into a fixed table of constants and vector rotations.

What a slot reads is a register, a 32-bit immediate, or a label that has no address yet.
-/

namespace QuadAsm

inductive RegisterFile
  | a
  | b
  | shared
  | accumulator
  | smallImmediate
  deriving DecidableEq

def RegisterFile.name : RegisterFile → String
  | .a => "A"
  | .b => "B"
  | .shared => "AB"
  | .accumulator => "Acc"
  | .smallImmediate => "SmallImm"

structure Register where
  file : RegisterFile
  num : UInt8
  deriving DecidableEq

namespace Register

/-- The index under which an addressed file reads nothing and writes nowhere. -/
def nopNum : UInt8 := 39

/-- The first small immediate that is a vector rotation. -/
def rotationBase : UInt8 := 48

/-- The number of indices that a register file has room for. -/
def indexLimit : UInt8 := 64

def nop : Register := ⟨.shared, nopNum⟩

def r0 : Register := ⟨.accumulator, 0⟩

def isAddressed (r : Register) : Bool :=
  match r.file with
  | .a | .b | .shared => true
  | .accumulator | .smallImmediate => false

def isNop (r : Register) : Bool :=
  r.isAddressed && r.num == nopNum

/-- Peripheral registers stand above the general ones; reading one can have an effect. -/
def isPeripheral (r : Register) : Bool :=
  r.isAddressed && decide (32 ≤ r.num) && r.num != nopNum

def isRotation (r : Register) : Bool :=
  r.file == .smallImmediate && decide (rotationBase ≤ r.num)

def text (r : Register) : String :=
  match r.file with
  | .accumulator => "r" ++ toString r.num.toNat
  | .smallImmediate => "imm:" ++ toString r.num.toNat
  | file => file.name ++ ":" ++ toString r.num.toNat

end Register

inductive Operand
  | reg (r : Register)
  | imm (value : UInt32)
  | label (name : String)
  deriving DecidableEq

namespace Operand

def reg? : Operand → Option Register
  | .reg r => some r
  | _ => none

def isAccumulator : Operand → Bool
  | .reg r => r.file == .accumulator
  | _ => false

/-- The operand as reports of a defect show it. -/
def trace : Operand → String
  | .reg r =>
    "Reg(Reg \x7b file: " ++ r.file.name ++ ", num: " ++ toString r.num.toNat ++ " \x7d)"
  | .imm value => "Imm32(" ++ toString value.toNat ++ ")"
  | .label name => "Label(" ++ Text.quoted name ++ ")"

end Operand

end QuadAsm
