import QuadAsm.Grammar.Statement
import QuadAsm.Label
import QuadAsm.Program
import QuadAsm.Settlement
import QuadAsm.Statement
import QuadAsm.Word.Encoding

/-!
# Assembly

A source text becomes a program in stages. Each stage handles all statements before the next one
starts, so a later line that cannot be read is reported before an earlier one that cannot be
settled.
-/

namespace QuadAsm

/-- The address of a statement by its place in the program, eight bytes to each. -/
def statementAddress (index : Nat) : Except Defect UInt32 :=
  if index * 8 < UInt32.size then .ok (UInt32.ofNat (index * 8)) else .error .addressRange

namespace Statement

def instruction (s : Statement) (index : Nat) : Except Failure Instruction := do
  let pc ← (statementAddress index).mapError .defect
  let start : Instruction := { pc := pc, line := s.line, labels := s.labels }
  (start.parse s.text).mapError .diagnostic

end Statement

namespace Instruction

def withEncoding (i : Instruction) : Except Defect Instruction := do
  let words ← i.encode
  return { i with encoding := some words }

end Instruction

def readStatements (statements : List Statement) : Except Failure (List Instruction) :=
  statements.zipIdx.mapM fun s => s.1.instruction s.2

def assemble (source : String) : Except Failure Program := do
  let statements ← (Scan.ofSource source).statements.mapError .diagnostic
  let instrs ← readStatements statements
  let instrs ← instrs.mapM Instruction.settle
  let instrs ← (linkAll instrs).mapError .diagnostic
  let instrs ← (instrs.mapM Instruction.withEncoding).mapError .defect
  return ⟨instrs⟩

end QuadAsm
