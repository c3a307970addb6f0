import QuadAsm.Register
import QuadAsm.Text.Numeral

/-!
# Words for registers and small immediates

A general register is a letter and a plain decimal. Peripheral registers have names, which differ
between reading and writing. A small integer, a power of two or a rotation names a small immediate,
which can only be read.
-/

namespace QuadAsm.Register

def readTable : List (String × Register) :=
  [("ele", ⟨.a, 38⟩), ("x", ⟨.a, 41⟩), ("msf", ⟨.a, 42⟩), ("ldbusy", ⟨.a, 49⟩),
    ("ldwait", ⟨.a, 50⟩), ("qpu", ⟨.b, 38⟩), ("y", ⟨.b, 41⟩), ("revf", ⟨.b, 42⟩),
    ("stbusy", ⟨.b, 49⟩), ("stwait", ⟨.b, 50⟩), ("unif", ⟨.shared, 32⟩), ("vary", ⟨.shared, 35⟩),
    ("-", ⟨.shared, 39⟩), ("vpm", ⟨.shared, 48⟩), ("mtxacq", ⟨.shared, 51⟩), ("ele_num", ⟨.a, 38⟩),
    ("x_px_coord", ⟨.a, 41⟩), ("ms_flags", ⟨.a, 42⟩), ("vpm_ld_busy", ⟨.a, 49⟩),
    ("vpm_ld_wait", ⟨.a, 50⟩), ("vdr_wait", ⟨.a, 50⟩), ("qpu_num", ⟨.b, 38⟩),
    ("y_px_coord", ⟨.b, 41⟩), ("rev_flag", ⟨.b, 42⟩), ("vpm_st_busy", ⟨.b, 49⟩),
    ("vpm_st_wait", ⟨.b, 50⟩), ("vdw_wait", ⟨.b, 50⟩), ("uni_rd", ⟨.shared, 32⟩),
    ("vary_rd", ⟨.shared, 35⟩), ("vpm_rd", ⟨.shared, 48⟩), ("vpr", ⟨.shared, 48⟩),
    ("mtx_acq", ⟨.shared, 51⟩)]

def writeTable : List (String × Register) :=
  [("qx", ⟨.a, 41⟩), ("msf", ⟨.a, 42⟩), ("vpmrds", ⟨.a, 49⟩), ("ldaddr", ⟨.a, 50⟩),
    ("qy", ⟨.b, 41⟩), ("revf", ⟨.b, 42⟩), ("vpmwrs", ⟨.b, 49⟩), ("staddr", ⟨.b, 50⟩),
    ("r0", ⟨.shared, 32⟩), ("r1", ⟨.shared, 33⟩), ("r2", ⟨.shared, 34⟩), ("r3", ⟨.shared, 35⟩),
    ("tmunswp", ⟨.shared, 36⟩), ("r5", ⟨.shared, 37⟩), ("hostint", ⟨.shared, 38⟩),
    ("-", ⟨.shared, 39⟩), ("unif", ⟨.shared, 40⟩), ("tlbss", ⟨.shared, 43⟩),
    ("tlbz", ⟨.shared, 44⟩), ("tlbcms", ⟨.shared, 45⟩), ("tlbcall", ⟨.shared, 46⟩),
    ("tlbalpha", ⟨.shared, 47⟩), ("vpm", ⟨.shared, 48⟩), ("mtxrel", ⟨.shared, 51⟩),
    ("rcp", ⟨.shared, 52⟩), ("rcpsqrt", ⟨.shared, 53⟩), ("exp", ⟨.shared, 54⟩),
    ("log", ⟨.shared, 55⟩), ("tmu0s", ⟨.shared, 56⟩), ("tmu0t", ⟨.shared, 57⟩),
    ("tmu0r", ⟨.shared, 58⟩), ("tmu0b", ⟨.shared, 59⟩), ("tmu1s", ⟨.shared, 60⟩),
    ("tmu1t", ⟨.shared, 61⟩), ("tmu1r", ⟨.shared, 62⟩), ("tmu1b", ⟨.shared, 63⟩),
    ("quad_x", ⟨.a, 41⟩), ("ms_flags", ⟨.a, 42⟩), ("vpm_rd_setup", ⟨.a, 49⟩),
    ("vdr_setup", ⟨.a, 49⟩), ("vpr_setup", ⟨.a, 49⟩), ("vpm_ld_addr", ⟨.a, 50⟩),
    ("vdr_addr", ⟨.a, 50⟩), ("quad_y", ⟨.b, 41⟩), ("rev_flag", ⟨.b, 42⟩),
    ("vpm_wr_setup", ⟨.b, 49⟩), ("vdw_setup", ⟨.b, 49⟩), ("vpw_setup", ⟨.b, 49⟩),
    ("vpm_st_addr", ⟨.b, 50⟩), ("vdw_addr", ⟨.b, 50⟩), ("tmu_noswap", ⟨.shared, 36⟩),
    ("host_int", ⟨.shared, 38⟩), ("uni_addr", ⟨.shared, 40⟩), ("tlb_stencil", ⟨.shared, 43⟩),
    ("tlb_z", ⟨.shared, 44⟩), ("tlb_clr_ms", ⟨.shared, 45⟩), ("tlb_clr_all", ⟨.shared, 46⟩),
    ("tlb_amask", ⟨.shared, 47⟩), ("vpm_wr", ⟨.shared, 48⟩), ("vpw", ⟨.shared, 48⟩),
    ("mtx_rel", ⟨.shared, 51⟩), ("sfu_recip", ⟨.shared, 52⟩), ("sfu_rsqrt", ⟨.shared, 53⟩),
    ("sfu_exp", ⟨.shared, 54⟩), ("sfu_log", ⟨.shared, 55⟩), ("tmu0_s", ⟨.shared, 56⟩),
    ("tmu0_t", ⟨.shared, 57⟩), ("tmu0_r", ⟨.shared, 58⟩), ("tmu0_b", ⟨.shared, 59⟩),
    ("tmu1_s", ⟨.shared, 60⟩), ("tmu1_t", ⟨.shared, 61⟩), ("tmu1_r", ⟨.shared, 62⟩),
    ("tmu1_b", ⟨.shared, 63⟩)]

/-- Powers of two, their reciprocals, and rotations. -/
def immediateTable : List (String × UInt8) :=
  [("1f", 32), ("2f", 33), ("4f", 34), ("8f", 35), ("16f", 36), ("32f", 37), ("64f", 38),
    ("128f", 39), ("i256f", 40), ("i128f", 41), ("i64f", 42), ("i32f", 43), ("i16f", 44),
    ("i8f", 45), ("i4f", 46), ("i2f", 47), ("rotr5", 48), ("rot1", 49), ("rot2", 50), ("rot3", 51),
    ("rot4", 52), ("rot5", 53), ("rot6", 54), ("rot7", 55), ("rot8", 56), ("rot9", 57),
    ("rot10", 58), ("rot11", 59), ("rot12", 60), ("rot13", 61), ("rot14", 62), ("rot15", 63)]

/-- The index in a word made of `letter` and a plain decimal below `limit`. -/
def numbered? (letter : Char) (limit : Nat) (word : String) : Option UInt8 :=
  match word.toList with
  | [] => none
  | c :: digits =>
    if c = letter then
      ((Text.plainDecimal? digits).filter (· < limit)).map UInt8.ofNat
    else none

def fileA? (word : String) : Option UInt8 :=
  numbered? 'a' 32 word

def fileB? (word : String) : Option UInt8 :=
  numbered? 'b' 32 word

def accumulator? (word : String) : Option UInt8 :=
  numbered? 'r' 6 word

/-- The index of an integer from -16 to 15, which is its value modulo 32. -/
def smallInteger? (word : String) : Option UInt8 :=
  match word.toList with
  | '-' :: digits =>
    ((Text.plainDecimal? digits).filter fun n => 1 ≤ n && n ≤ 16).map (UInt8.ofNat <| 32 - ·)
  | digits => ((Text.plainDecimal? digits).filter (· ≤ 15)).map UInt8.ofNat

/-- The ways to name what a slot reads, in the order in which they are tried. -/
def readForms : List (String → Option Register) :=
  [fun word => (fileA? word).map (⟨.a, ·⟩),
    fun word => (fileB? word).map (⟨.b, ·⟩),
    fun word => (accumulator? word).map (⟨.accumulator, ·⟩),
    fun word => readTable.lookup word,
    fun word => (smallInteger? word).map (⟨.smallImmediate, ·⟩),
    fun word => (immediateTable.lookup word).map (⟨.smallImmediate, ·⟩)]

/-- The ways to name what a slot writes, in the order in which they are tried. -/
def writeForms : List (String → Option Register) :=
  [fun word => (fileA? word).map (⟨.a, ·⟩),
    fun word => (fileB? word).map (⟨.b, ·⟩),
    fun word => writeTable.lookup word]

def readable? (word : String) : Option Register :=
  readForms.findSome? (· word)

def writable? (word : String) : Option Register :=
  writeForms.findSome? (· word)

end QuadAsm.Register
