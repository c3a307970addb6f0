import QuadAsm.Instruction

/-!
# Words for operations, conditions and signals

The tables list each word with its meaning. Some signals have two words. A word of the mul slot
may also be a word of the add slot, with another code.
-/

namespace QuadAsm

/-- What the first word of a statement says: an operation of the add slot or another kind. -/
inductive Mnemonic
  | add (code : UInt8)
  | load (shape : LoadShape)
  | semaphore (direction : SemaphoreDirection)
  | branch (test : BranchTest)
  deriving DecidableEq

namespace Mnemonic

def table : List (String × Mnemonic) :=
  [("-", .add 0), ("fadd", .add 1), ("fsub", .add 2), ("fmin", .add 3), ("fmax", .add 4),
    ("fminabs", .add 5), ("fmaxabs", .add 6), ("ftoi", .add 7), ("itof", .add 8), ("add", .add 12),
    ("sub", .add 13), ("shr", .add 14), ("asr", .add 15), ("ror", .add 16), ("shl", .add 17),
    ("min", .add 18), ("max", .add 19), ("and", .add 20), ("or", .add 21), ("xor", .add 22),
    ("not", .add 23), ("clz", .add 24), ("v8adds", .add 30), ("v8subs", .add 31),
    ("li", .load .word), ("lis", .load .signed), ("liu", .load .unsigned),
    ("semup", .semaphore .up), ("semdn", .semaphore .down), ("b", .branch .always),
    ("bz", .branch (.whenSet .zero)), ("bnz", .branch (.whenClear .zero)),
    ("bn", .branch (.whenSet .negative)), ("bnn", .branch (.whenClear .negative)),
    ("bc", .branch (.whenSet .carry)), ("bnc", .branch (.whenClear .carry))]

def ofWord? (word : String) : Option Mnemonic :=
  table.lookup word

end Mnemonic

namespace Slot

/-- Operation codes of the mul slot. -/
def mulTable : List (String × UInt8) :=
  [("-", 0), ("fmul", 1), ("mul24", 2), ("v8muld", 3), ("v8min", 4), ("v8max", 5), ("v8adds", 6),
    ("v8subs", 7)]

def mulCode? (word : String) : Option UInt8 :=
  mulTable.lookup word

end Slot

namespace Condition

def table : List (String × Condition) :=
  [("x", .never), ("a", .always), ("z", .zeroSet), ("nz", .zeroClear), ("n", .negativeSet),
    ("nn", .negativeClear), ("c", .carrySet), ("nc", .carryClear)]

def ofWord? (word : String) : Option Condition :=
  table.lookup word

end Condition

namespace Signal

def table : List (String × Signal) :=
  [("bkpt", .breakpoint), ("swt", .threadSwitch), ("endp", .programEnd), ("wtsb", .waitScoreboard),
    ("ulsb", .unlockScoreboard), ("swtl", .lastThreadSwitch), ("ldcvr", .coverageLoad),
    ("ldclr", .colourLoad), ("ldclrep", .colourLoadEnd), ("ldtm0", .loadTmu0), ("ldtm1", .loadTmu1),
    ("ldalpha", .alphaLoad), ("brk", .breakpoint), ("ts", .threadSwitch), ("pe", .programEnd),
    ("wsb", .waitScoreboard), ("usb", .unlockScoreboard), ("lts", .lastThreadSwitch),
    ("cvr", .coverageLoad), ("clr", .colourLoad), ("clrpe", .colourLoadEnd), ("ldtmu0", .loadTmu0),
    ("ldtmu1", .loadTmu1), ("lda", .alphaLoad)]

def ofWord? (word : String) : Option Signal :=
  table.lookup word

end Signal

end QuadAsm
