import QuadAsm.Instruction
import QuadAsm.Text.Numeral

/-!
# Programs

A program is shown as an image of bytes, as text and as a listing. All three leave out instructions
that have no words.
-/

namespace QuadAsm

/-- One row of a listing. -/
structure ListingRow where
  pc : UInt32
  line : Nat
  labels : List String
  words : WordPair
  deriving DecidableEq

structure Program where
  instrs : List Instruction
  deriving DecidableEq

def WordPair.text (p : WordPair) : String :=
  Text.hexWord p.lo ++ ", " ++ Text.hexWord p.hi ++ ",\n"

def Instruction.listingRow? (i : Instruction) : Option ListingRow :=
  i.encoding.map (⟨i.pc, i.line, i.labels, ·⟩)

namespace Program

def words (p : Program) : List WordPair :=
  p.instrs.filterMap (·.encoding)

/-- The image, with the low word of each pair first. -/
def bytes (p : Program) : List UInt8 :=
  p.words.flatMap WordPair.bytes

def text (p : Program) : String :=
  String.join (p.words.map WordPair.text)

def listing (p : Program) : List ListingRow :=
  p.instrs.filterMap Instruction.listingRow?

end Program

end QuadAsm
