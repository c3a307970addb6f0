import QuadAsm.Register
import QuadAsm.Signal
import QuadAsm.Text.Numeral

/-!
# Diagnostics and defects

Why a source text is refused. A `Reason` is the cause on its own, and a `Diagnostic` puts it at a
line. A `Defect` is a broken promise between the stages of the assembler: an operand or a bit
position that an earlier stage should have ruled out. A source text is never at fault for one. A
`Failure` is either a diagnostic or a defect.
-/

namespace QuadAsm

inductive Defect
  /-- A shift to the left by at least the width of the word. -/
  | shiftLeft
  /-- A shift to the right by at least the width of the word. -/
  | shiftRight
  /-- A statement whose address has no place in 32 bits. -/
  | addressRange
  | openCondition
  | notImmediate (operand : Operand)
  | notRegister (operand : Operand)
  | unboundRegister (r : Register)
  | noTargetRegister
  | noTargetMode
  deriving DecidableEq

namespace Defect

def unreachable (text : String) : String :=
  "internal error: entered unreachable code: " ++ text

def message : Defect → String
  | .shiftLeft => "attempt to shift left with overflow"
  | .shiftRight => "attempt to shift right with overflow"
  | .addressRange => "attempt to multiply with overflow"
  | .openCondition => unreachable "condition left unresolved at encode time"
  | .notImmediate operand =>
    unreachable (operand.trace ++ " reached the encoder as an immediate")
  | .notRegister operand => unreachable ("ALU operand " ++ operand.trace ++ " is not a register")
  | .unboundRegister r => unreachable (r.text ++ " reached the encoder unresolved")
  | .noTargetRegister => unreachable "register branch without a register"
  | .noTargetMode => unreachable "branch mode left unset"

end Defect

/-- What is wrong with a statement. -/
inductive Reason
  | emptyLabel
  | missingTerminator
  | endOfInstruction
  | expected (want found : String)
  | commaAfterOpcode (found : String)
  | commaBeforeImmediate (found : String)
  | commaBeforeTarget (found : String)
  | allOrAny (found : String)
  | unknownMnemonic (token : String)
  | mulBeforeAdd (token : String)
  | unknownMul (token : String)
  | unknownCondition (token : String)
  | notWritable (token : String)
  | notReadable (token : String)
  | notNumber (token : String)
  | badImmediate (token : String) (fault : Text.NumeralFault)
  | semaphoreRange (number : UInt32)
  | notBranch
  | notTarget (token : String)
  | repeatedFlag (token : String)
  | unexpected (token : String)
  | signalOutsideAlu
  | secondSignal (token : String)
  | severalImmediates
  | immediateWithSignal (signal : Signal)
  | immediateWithFileB
  | rotationOperands
  | severalReads (file : RegisterFile)
  | noReadAddress (r : Register)
  | sameWriteFile (file : RegisterFile)
  | sameWriteRegister (r : Register)
  /-- A cause in the words of whoever reports it. -/
  | remark (text : String)
  deriving DecidableEq

def tick (text : String) : String :=
  "`" ++ text ++ "`"

namespace Reason

def message : Reason → String
  | .emptyLabel => "empty label name"
  | .missingTerminator => "missing ';' at end of instruction"
  | .endOfInstruction => "unexpected end of instruction"
  | .expected want found => "expected " ++ tick want ++ ", found " ++ tick found
  | .commaAfterOpcode found => "expected `,` after opcode, found " ++ tick found
  | .commaBeforeImmediate found => "expected `,` before the immediate, found " ++ tick found
  | .commaBeforeTarget found => "expected `,` before the target, found " ++ tick found
  | .allOrAny found => "expected `all` or `any`, found " ++ tick found
  | .unknownMnemonic token => "unknown mnemonic " ++ tick token
  | .mulBeforeAdd token => tick token ++ " is a mul operation; the add slot comes first"
  | .unknownMul token => "unknown mul operation " ++ tick token
  | .unknownCondition token => "unknown condition " ++ tick token
  | .notWritable token => tick token ++ " is not a writable register"
  | .notReadable token => tick token ++ " is not a readable operand"
  | .notNumber token => "expected a number, found " ++ tick token
  | .badImmediate token fault => "bad immediate " ++ tick token ++ ": " ++ fault.message
  | .semaphoreRange number => "semaphore " ++ toString number.toNat ++ " out of range 0..=15"
  | .notBranch => "not a branch"
  | .notTarget token => tick token ++ " is not a branch target"
  | .repeatedFlag token => tick token ++ " given twice"
  | .unexpected token => "unexpected " ++ tick token
  | .signalOutsideAlu => "signals are only allowed on ALU instructions"
  | .secondSignal token => "second signal " ++ tick token
  | .severalImmediates => "only one distinct small immediate per instruction"
  | .immediateWithSignal signal =>
    "small immediate cannot be combined with signal " ++ signal.name
  | .immediateWithFileB => "small immediate and register file B share read port B"
  | .rotationOperands => "vector rotation needs accumulator sources in the mul slot"
  | .severalReads file => "more than one register read from file " ++ file.name
  | .noReadAddress r => "no read port left for " ++ r.text
  | .sameWriteFile file => "add and mul both write register file " ++ file.name
  | .sameWriteRegister r => "add and mul both write " ++ r.text
  | .remark text => text

end Reason

inductive Diagnostic
  | malformed (line : Nat) (reason : Reason)
  | undefinedLabel (line : Nat) (name : String)
  deriving DecidableEq

namespace Diagnostic

def line : Diagnostic → Nat
  | .malformed line _ => line
  | .undefinedLabel line _ => line

def message : Diagnostic → String
  | .malformed line reason => "line " ++ toString line ++ ": syntax error: " ++ reason.message
  | .undefinedLabel line name => "line " ++ toString line ++ ": undefined label " ++ tick name

/-- The exit code of a run that ends with the diagnostic. -/
def exitCode : Diagnostic → UInt8
  | .malformed _ _ => 2
  | .undefinedLabel _ _ => 3

end Diagnostic

inductive Failure
  | diagnostic (d : Diagnostic)
  | defect (d : Defect)
  deriving DecidableEq

end QuadAsm
