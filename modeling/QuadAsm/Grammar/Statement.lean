import QuadAsm.Grammar.Forms

/-!
# Whole statements

A statement is a mnemonic, the operands of its form and, unless it is a branch, a tail of flags and
signals up to the terminator. Reading starts from an instruction and changes what the statement
speaks of.
-/

namespace QuadAsm

namespace Mnemonic

/-- The instruction of which a statement with this mnemonic is to give the operands. -/
def start (i : Instruction) : Mnemonic → Instruction
  | .add code => { i with kind := .alu, add := { i.add with code := code } }
  | .load shape => { i with kind := .load shape }
  | .semaphore direction => { i with kind := .semaphore direction }
  | .branch test => { i with kind := .branch test }

end Mnemonic

namespace Reader

def mnemonic : Reader Mnemonic :=
  known Mnemonic.ofWord? fun token =>
    if (Slot.mulCode? token).isSome then .mulBeforeAdd token else .unknownMnemonic token

end Reader

namespace Instruction

/-- Applies one token of the tail. Flags and signals are given once, signals only to ALU forms. -/
def applyTail (i : Instruction) (token : String) : Except Reason Instruction :=
  if token = "sf" then
    if i.setFlags then .error (.repeatedFlag token) else .ok { i with setFlags := true }
  else if token = "pm" then
    if i.packMode then .error (.repeatedFlag token) else .ok { i with packMode := true }
  else
    match Signal.ofWord? token with
    | none => .error (.unexpected token)
    | some signal =>
      if i.kind ≠ .alu then .error .signalOutsideAlu
      else if i.signal ≠ .quiet then .error (.secondSignal token)
      else .ok { i with signal := signal }

def readTail (i : Instruction) : Reader Instruction
  | [] => .error .endOfInstruction []
  | token :: rest =>
    if token = ";" then .ok i rest
    else
      match i.applyTail token with
      | .ok i => i.readTail rest
      | .error reason => .error reason rest

/-- Reads the operands that stand after the mnemonic in a given form. -/
def readOperandsAs (i : Instruction) : Form → Reader Instruction
  | .alu => i.readAlu
  | .load => i.readLoad
  | .semaphore => i.readSemaphore
  | .branch => i.readBranch

def read (i : Instruction) : Reader Instruction := do
  let mnemonic ← Reader.mnemonic
  let i := mnemonic.start i
  let i ← i.readOperandsAs i.kind.form
  if i.kind.form = .branch then return i else i.readTail

/-- Reads the text of a statement at the line of the instruction. -/
def parse (i : Instruction) (text : String) : Except Diagnostic Instruction :=
  i.read.runAt i.line text

end Instruction

end QuadAsm
