/-!
# Numerals

Reading and writing of unsigned numbers. A 32-bit numeral is read from the left and fails at the
first character that is not a digit or that takes the value past 32 bits. A plain decimal has
neither a sign nor leading zeros, so a number has one plain decimal.
-/

namespace QuadAsm.Text

inductive NumeralFault
  | empty
  | invalidDigit
  | tooLarge
  deriving DecidableEq

def NumeralFault.message : NumeralFault → String
  | .empty => "cannot parse integer from empty string"
  | .invalidDigit => "invalid digit found in string"
  | .tooLarge => "number too large to fit in target type"

def digitValue? (radix : Nat) (c : Char) : Option Nat :=
  let value :=
    if '0' ≤ c ∧ c ≤ '9' then some (c.toNat - '0'.toNat)
    else if 'a' ≤ c ∧ c ≤ 'z' then some (c.toNat - 'a'.toNat + 10)
    else if 'A' ≤ c ∧ c ≤ 'Z' then some (c.toNat - 'A'.toNat + 10)
    else none
  value.filter (· < radix)

/-- The 32-bit value of the digits that follow those with value `acc`. -/
def readDigits (radix acc : Nat) : List Char → Except NumeralFault UInt32
  | [] => .ok (UInt32.ofNat acc)
  | c :: cs =>
    match digitValue? radix c with
    | none => .error .invalidDigit
    | some d =>
      if acc * radix + d < UInt32.size then readDigits radix (acc * radix + d) cs
      else .error .tooLarge

/-- Reads a 32-bit numeral, before which one plus sign may stand. -/
def readNumeral (radix : Nat) : List Char → Except NumeralFault UInt32
  | [] => .error .empty
  | ['+'] => .error .invalidDigit
  | '+' :: cs => readDigits radix 0 cs
  | cs => readDigits radix 0 cs

def isPlainDecimal (cs : List Char) : Bool :=
  !cs.isEmpty && cs.all Char.isDigit && (cs.length = 1 || cs.head? ≠ some '0')

def plainDecimal? (cs : List Char) : Option Nat :=
  if isPlainDecimal cs then
    some (cs.foldl (fun value c => value * 10 + (c.toNat - '0'.toNat)) 0)
  else none

def hexDigit (n : Nat) : Char :=
  Char.ofNat (if n < 10 then '0'.toNat + n else 'a'.toNat + (n - 10))

/-- The last `count` hexadecimal digits of `n`, high digit first. -/
def hexDigits : (count : Nat) → (n : Nat) → List Char
  | 0, _ => []
  | count + 1, n => hexDigits count (n / 16) ++ [hexDigit (n % 16)]

/-- A word as `0x` and eight digits. -/
def hexWord (w : UInt32) : String :=
  "0x" ++ String.ofList (hexDigits 8 w.toNat)

end QuadAsm.Text
