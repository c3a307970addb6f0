import QuadAsm.Diagnostic

/-!
# Instruction words

An instruction takes eight bytes: a low word and a high word, each with its low byte first. A field
is a run of bits in a word. `set` moves a value, cut to the width of the field, into place; `get`
takes it out again. Bits that would stand above the word are dropped. The checked forms refuse a
field whose position or width is no shift distance of the machine.
-/

namespace QuadAsm

structure WordPair where
  lo : UInt32
  hi : UInt32
  deriving DecidableEq

def wordBytes (w : UInt32) : List UInt8 :=
  [w.toUInt8, (w >>> 8).toUInt8, (w >>> 16).toUInt8, (w >>> 24).toUInt8]

def WordPair.bytes (p : WordPair) : List UInt8 :=
  wordBytes p.lo ++ wordBytes p.hi

structure BitField where
  pos : Nat
  width : Nat
  deriving DecidableEq

namespace BitField

/-- How many values the bits of the field tell apart. -/
def span (f : BitField) : Nat :=
  1 <<< f.width

def mask (f : BitField) : UInt32 :=
  UInt32.ofNat (f.span - 1)

def set (f : BitField) (value : UInt32) : UInt32 :=
  UInt32.ofNat ((value.toNat % f.span) <<< f.pos)

def get (f : BitField) (word : UInt32) : UInt32 :=
  UInt32.ofNat ((word.toNat >>> f.pos) % f.span)

/-- A field of width one as a truth value. -/
def flag (f : BitField) (on : Bool) : UInt32 :=
  f.set (if on then 1 else 0)

def isSet (f : BitField) (word : UInt32) : Bool :=
  f.get word == 1

/-- The mask is made in 64-bit words. -/
def checkedMask (f : BitField) : Except Defect UInt32 :=
  if f.width < 64 then .ok f.mask else .error .shiftLeft

def checkedSet (f : BitField) (value : UInt32) : Except Defect UInt32 :=
  if f.width < 64 ∧ f.pos < 32 then .ok (f.set value) else .error .shiftLeft

def checkedGet (f : BitField) (word : UInt32) : Except Defect UInt32 :=
  if 32 ≤ f.pos then .error .shiftRight
  else if f.width < 64 then .ok (f.get word)
  else .error .shiftLeft

end BitField

/-!
The low word of an ALU instruction holds the operation codes, the read addresses and a selector for
each of the four sources; other forms keep an immediate there. The high word holds signal,
conditions, destinations and single flags. In a branch the fields `branchReg` and `branchCond` take
the place of the conditions and of the pack code.
-/

namespace Layout

def mulRhs : BitField := ⟨0, 3⟩
def mulLhs : BitField := ⟨3, 3⟩
def addRhs : BitField := ⟨6, 3⟩
def addLhs : BitField := ⟨9, 3⟩
def readB : BitField := ⟨12, 6⟩
def readA : BitField := ⟨18, 6⟩
def addOp : BitField := ⟨24, 5⟩
def mulOp : BitField := ⟨29, 3⟩

def semaphoreNumber : BitField := ⟨0, 4⟩
def semaphoreDown : BitField := ⟨4, 1⟩

def mulDst : BitField := ⟨0, 6⟩
def addDst : BitField := ⟨6, 6⟩
def writeSwap : BitField := ⟨12, 1⟩
def setFlags : BitField := ⟨13, 1⟩
def mulCond : BitField := ⟨14, 3⟩
def addCond : BitField := ⟨17, 3⟩
def pack : BitField := ⟨20, 4⟩
def packMode : BitField := ⟨24, 1⟩
def unpack : BitField := ⟨25, 3⟩
def signal : BitField := ⟨28, 4⟩

def branchReg : BitField := ⟨13, 5⟩
def viaRegister : BitField := ⟨18, 1⟩
def viaOffset : BitField := ⟨19, 1⟩
def branchCond : BitField := pack

/-- The selectors of a source that is read by address. Smaller ones are accumulators. -/
def selectA : UInt32 := 6
def selectB : UInt32 := 7

end Layout

end QuadAsm
