import QuadAsm.Register

/-!
# Slots

An instruction issues two operations at once, one in the add slot and one in the mul slot. A slot
has an operation code, a condition, a destination and two sources. The condition is absent until it
is written or given its default.
-/

namespace QuadAsm

inductive Condition
  | never
  | always
  | zeroSet
  | zeroClear
  | negativeSet
  | negativeClear
  | carrySet
  | carryClear
  deriving DecidableEq

def Condition.code : Condition → UInt32
  | .never => 0
  | .always => 1
  | .zeroSet => 2
  | .zeroClear => 3
  | .negativeSet => 4
  | .negativeClear => 5
  | .carrySet => 6
  | .carryClear => 7

structure Slot where
  code : UInt8
  cond : Option Condition
  dst : Register
  lhs : Operand
  rhs : Operand
  deriving DecidableEq

namespace Slot

def nop : Slot where
  code := 0
  cond := some .never
  dst := Register.nop
  lhs := .reg Register.r0
  rhs := .reg Register.r0

def isNever (s : Slot) : Bool :=
  s.cond == some .never

end Slot

end QuadAsm
