import QuadAsm.Proofs.Stages
import QuadAsm.Proofs.WordFields

/-!
# Decoding

A word pair is taken apart along the layout of its fields. The signal tells branches and loads from
ALU instructions, the unpack code tells semaphores from loads, and the swap says which file each
slot writes. Every instruction of an assembled program is given back by its words, apart from its
place in the text.
-/

namespace QuadAsm

namespace Signal

def all : List Signal :=
  [.breakpoint, .quiet, .threadSwitch, .programEnd, .waitScoreboard, .unlockScoreboard,
    .lastThreadSwitch, .coverageLoad, .colourLoad, .colourLoadEnd, .loadTmu0, .loadTmu1, .alphaLoad,
    .smallImmediate, .loadImmediate, .branch]

def ofCode (code : UInt32) : Signal :=
  (all.find? (·.code = code)).getD .quiet

@[simp] theorem ofCode_code (s : Signal) : ofCode s.code = s := by
  cases s <;> decide

end Signal

namespace Condition

def all : List Condition :=
  [.never, .always, .zeroSet, .zeroClear, .negativeSet, .negativeClear, .carrySet, .carryClear]

def ofCode (code : UInt32) : Condition :=
  (all.find? (·.code = code)).getD .never

@[simp] theorem ofCode_code (c : Condition) : ofCode c.code = c := by
  cases c <;> decide

end Condition

namespace BranchTest

def all : List BranchTest :=
  [.always, .whenSet .zero, .whenSet .negative, .whenSet .carry, .whenClear .zero,
    .whenClear .negative, .whenClear .carry]

/-- The test that a branch condition asks for, of any element or of all. -/
def ofCond (cond : UInt8) : BranchTest :=
  (all.find? fun test => test.cond false = cond ∨ test.cond true = cond).getD .always

@[simp] theorem ofCond_cond (test : BranchTest) (any : Bool) : ofCond (test.cond any) = test := by
  cases test with
  | always => cases any <;> decide
  | whenSet flag => cases flag <;> cases any <;> decide
  | whenClear flag => cases flag <;> cases any <;> decide

theorem cond_lt (test : BranchTest) (any : Bool) : (test.cond any).toNat < 16 := by
  cases test with
  | always => cases any <;> decide
  | whenSet flag => cases flag <;> cases any <;> decide
  | whenClear flag => cases flag <;> cases any <;> decide

end BranchTest

namespace LoadShape

def ofUnpack (unpack : UInt8) : LoadShape :=
  if unpack = 0 then .word else if unpack = 1 then .signed else .unsigned

@[simp] theorem ofUnpack_unpack (shape : LoadShape) : ofUnpack shape.unpack = shape := by
  cases shape <;> decide

theorem unpack_ne (shape : LoadShape) : shape.unpack ≠ SemaphoreDirection.unpack := by
  cases shape <;> decide

theorem unpack_lt (shape : LoadShape) : shape.unpack.toNat < 8 := by
  cases shape <;> decide

end LoadShape

namespace WordPair

def signal (w : WordPair) : Signal := .ofCode (Layout.signal.get w.hi)

def flags (w : WordPair) : ControlBits := .ofWord w.hi

def unpack (w : WordPair) : UInt8 := (Layout.unpack.get w.hi).toUInt8

/-- The source whose selector stands in `field`. -/
def source (w : WordPair) (field : BitField) : Register :=
  if field.get w.lo = Layout.selectA then ⟨.a, (Layout.readA.get w.lo).toUInt8⟩
  else if field.get w.lo = Layout.selectB then
    ⟨if w.signal = .smallImmediate then .smallImmediate else .b, (Layout.readB.get w.lo).toUInt8⟩
  else ⟨.accumulator, (field.get w.lo).toUInt8⟩

def cond (w : WordPair) (layout : SlotLayout) : Condition := .ofCode (layout.cond.get w.hi)

def dstNum (w : WordPair) (layout : SlotLayout) : UInt8 := (layout.dst.get w.hi).toUInt8

/-- A slot of an ALU instruction, which writes the file `file`. -/
def slot (w : WordPair) (layout : SlotLayout) (file : RegisterFile) : Slot where
  code := (layout.op.get w.lo).toUInt8
  cond := some (w.cond layout)
  dst := ⟨file, w.dstNum layout⟩
  lhs := .reg (w.source layout.lhs)
  rhs := .reg (w.source layout.rhs)

/-- What all forms but the branch keep in the high word beside their slots. -/
def common (w : WordPair) : Instruction :=
  { Instruction.blank 0 0 [] with
    signal := w.signal
    setFlags := w.flags.setFlags
    packMode := w.flags.packMode
    writeSwap := w.flags.writeSwap
    pack := (Layout.pack.get w.hi).toUInt8
    unpack := w.unpack
    encoding := some w }

def decodeAlu (w : WordPair) : Instruction :=
  { w.common with
    kind := .alu
    add := w.slot .add (addFile w.flags.writeSwap)
    mul := w.slot .mul (mulFile w.flags.writeSwap) }

/-- A load or a semaphore, with the number that it keeps in the low word. -/
def decodeImmediate (w : WordPair) (kind : Kind) (value : UInt32) : Instruction :=
  { w.common with
    kind := kind
    add := ⟨0, some (w.cond .add), ⟨addFile w.flags.writeSwap, w.dstNum .add⟩, .imm value,
      .reg Register.r0⟩
    mul := ⟨0, some (w.cond .mul), ⟨mulFile w.flags.writeSwap, w.dstNum .mul⟩, .reg Register.r0,
      .reg Register.r0⟩ }

def decodeLoad (w : WordPair) : Instruction :=
  w.decodeImmediate (.load (.ofUnpack w.unpack)) w.lo

def decodeSemaphore (w : WordPair) : Instruction :=
  w.decodeImmediate (.semaphore (if Layout.semaphoreDown.isSet w.lo then .down else .up))
    (Layout.semaphoreNumber.get w.lo)

/-- In a branch the condition and the target register take the place of other fields. -/
def decodeBranch (w : WordPair) : Instruction :=
  let cond := (Layout.branchCond.get w.hi).toUInt8
  let swap := w.flags.writeSwap
  let via := w.flags.viaRegister
  { Instruction.blank 0 0 [] with
    kind := .branch (.ofCond cond)
    signal := w.signal
    branchCond := cond
    targetMode := some (if via then .register else .relative)
    writeSwap := swap
    add := ⟨0, some .always, ⟨addFile swap, w.dstNum .add⟩,
      if via then .reg ⟨.a, (Layout.branchReg.get w.hi).toUInt8⟩ else .imm w.lo,
      if via then .imm w.lo else .reg Register.r0⟩
    mul := ⟨0, some .always, ⟨mulFile swap, w.dstNum .mul⟩, .reg Register.r0, .reg Register.r0⟩
    encoding := some w }

def decode (w : WordPair) : Instruction :=
  match w.signal with
  | .branch => w.decodeBranch
  | .loadImmediate =>
    if w.unpack = SemaphoreDirection.unpack then w.decodeSemaphore else w.decodeLoad
  | _ => w.decodeAlu

variable {w : WordPair} {ports : ReadPorts}

theorem cond_eq {layout : SlotLayout} {c : Condition} (h : layout.cond.get w.hi = c.code) :
    w.cond layout = c := by
  rw [cond, h, Condition.ofCode_code]

theorem dstNum_eq {layout : SlotLayout} {n : UInt8} (h : layout.dst.get w.hi = n.toUInt32) :
    w.dstNum layout = n := by
  rw [dstNum, h, UInt8.toUInt8_toUInt32]

theorem source_eq {field : BitField} {r : Register} (hr : r.Fetched ports)
    (hsignal : w.signal = .smallImmediate ↔ ports.immediate = true) (h : r.ReadBack field w.lo) :
    w.source field = r := by
  obtain ⟨file, num⟩ := r
  have hthrough := hr.through
  have hba : ¬ Layout.selectB = Layout.selectA := by decide
  unfold source
  cases file with
  | a =>
      have hsel : field.get w.lo = Layout.selectA := h.selector
      rw [if_pos hsel, h.address Layout.readA rfl, UInt8.toUInt8_toUInt32]
  | b =>
      have hsel : field.get w.lo = Layout.selectB := h.selector
      have hne : w.signal ≠ .smallImmediate := by
        rw [Ne, hsignal, hthrough.2]
        decide
      rw [hsel, if_neg hba, if_pos rfl, if_neg hne, h.address Layout.readB rfl,
        UInt8.toUInt8_toUInt32]
  | smallImmediate =>
      have hsel : field.get w.lo = Layout.selectB := h.selector
      rw [hsel, if_neg hba, if_pos rfl, if_pos (hsignal.mpr hthrough.2),
        h.address Layout.readB rfl, UInt8.toUInt8_toUInt32]
  | accumulator =>
      have hsel : field.get w.lo = num.toUInt32 := h.selector
      have hlt : num.toNat < 6 := hr.accumulator_lt rfl
      have hne : ∀ m : UInt32, 6 ≤ m.toNat → num.toUInt32 ≠ m := by
        rintro m hm rfl
        rw [UInt8.toNat_toUInt32] at hm
        omega
      rw [hsel, if_neg (hne _ (by decide)), if_neg (hne _ (by decide)), UInt8.toUInt8_toUInt32]
  | shared => exact absurd rfl hr.file_ne

theorem slot_eq {limit : ℕ} {layout : SlotLayout} {file : RegisterFile} {s : Slot}
    (hs : s.Settled limit ports file)
    (hsignal : w.signal = .smallImmediate ↔ ports.immediate = true) (h : s.EncodedAt layout w) :
    w.slot layout file = s := by
  obtain ⟨c, hc, hcond⟩ := h.cond
  obtain ⟨l, hl, hlhs⟩ := h.lhs
  obtain ⟨r, hr, hrhs⟩ := h.rhs
  obtain ⟨l', hl', hlf⟩ := hs.lhs
  obtain ⟨r', hr', hrf⟩ := hs.rhs
  cases hl.symm.trans hl'
  cases hr.symm.trans hr'
  rw [slot, source_eq hlf hsignal hlhs, source_eq hrf hsignal hrhs, cond_eq hcond, dstNum_eq h.dst,
    h.code, UInt8.toUInt8_toUInt32, ← hc, ← hl, ← hr, ← hs.dstFile]

theorem decode_of_alu (h : w.signal ≠ .loadImmediate ∧ w.signal ≠ .branch) :
    w.decode = w.decodeAlu := by
  unfold decode
  cases hs : w.signal with
  | loadImmediate => exact absurd hs h.1
  | branch => exact absurd hs h.2
  | _ => rfl

theorem decode_of_load (hsignal : w.signal = .loadImmediate)
    (hunpack : w.unpack ≠ SemaphoreDirection.unpack) : w.decode = w.decodeLoad := by
  simp only [decode, hsignal, if_neg hunpack]

theorem decode_of_semaphore (hsignal : w.signal = .loadImmediate)
    (hunpack : w.unpack = SemaphoreDirection.unpack) : w.decode = w.decodeSemaphore := by
  simp only [decode, hsignal, if_pos hunpack]

theorem decode_of_branch (hsignal : w.signal = .branch) : w.decode = w.decodeBranch := by
  simp only [decode, hsignal]

end WordPair

namespace Instruction

variable {w : WordPair} {i : Instruction} {c d : Condition} {num : Option UInt8}

theorem HighFields.signal_eq (h : HighFields i c d w.hi) : w.signal = i.signal := by
  rw [WordPair.signal, h.signal, Signal.ofCode_code]

theorem HighFields.unpack_eq (h : HighFields i c d w.hi) : w.unpack = i.unpack := by
  rw [WordPair.unpack, h.unpack, UInt8.toUInt8_toUInt32]

theorem HighFields.common_eq (h : HighFields i c d w.hi) :
    w.common = { blank 0 0 [] with
      signal := i.signal, setFlags := i.setFlags, packMode := i.packMode,
      writeSwap := i.writeSwap, pack := i.pack, unpack := i.unpack, encoding := some w } := by
  have hsetFlags : w.flags.setFlags = i.setFlags := h.setFlags
  have hpackMode : w.flags.packMode = i.packMode := h.packMode
  have hswap : w.flags.writeSwap = i.writeSwap := h.writeSwap
  rw [WordPair.common, h.signal_eq, h.unpack_eq, h.pack, UInt8.toUInt8_toUInt32, hsetFlags,
    hpackMode, hswap]

theorem HighFields.decodeImmediate_eq (h : HighFields i c d w.hi) (kind : Kind) (value : UInt32) :
    w.decodeImmediate kind value = { w.common with
      kind := kind
      add := ⟨0, some c, ⟨addFile i.writeSwap, i.add.dst.num⟩, .imm value, .reg Register.r0⟩
      mul := ⟨0, some d, ⟨mulFile i.writeSwap, i.mul.dst.num⟩, .reg Register.r0,
        .reg Register.r0⟩ } := by
  have hswap : w.flags.writeSwap = i.writeSwap := h.writeSwap
  have haddCond : w.cond .add = c := WordPair.cond_eq h.addCond
  have hmulCond : w.cond .mul = d := WordPair.cond_eq h.mulCond
  have haddDst : w.dstNum .add = i.add.dst.num := WordPair.dstNum_eq h.addDst
  have hmulDst : w.dstNum .mul = i.mul.dst.num := WordPair.dstNum_eq h.mulDst
  rw [WordPair.decodeImmediate, hswap, haddCond, hmulCond, haddDst, hmulDst]

theorem BranchFields.signal_eq (h : BranchFields i num w.hi) : w.signal = i.signal := by
  rw [WordPair.signal, h.signal, Signal.ofCode_code]

theorem BranchFields.decodeBranch_eq {test : BranchTest} {any : Bool}
    (h : BranchFields i num w.hi) (hcond : i.branchCond = test.cond any) :
    w.decodeBranch = { blank 0 0 [] with
      kind := .branch test
      signal := i.signal
      branchCond := test.cond any
      targetMode := some (if num.isSome then .register else .relative)
      writeSwap := i.writeSwap
      add := ⟨0, some .always, ⟨addFile i.writeSwap, i.add.dst.num⟩,
        if num.isSome then .reg ⟨.a, num.getD 0⟩ else .imm w.lo,
        if num.isSome then .imm w.lo else .reg Register.r0⟩
      mul := ⟨0, some .always, ⟨mulFile i.writeSwap, i.mul.dst.num⟩, .reg Register.r0,
        .reg Register.r0⟩
      encoding := some w } := by
  have hswap : w.flags.writeSwap = i.writeSwap := h.writeSwap
  have hvia : w.flags.viaRegister = num.isSome := h.viaRegister
  have haddDst : w.dstNum .add = i.add.dst.num := WordPair.dstNum_eq h.addDst
  have hmulDst : w.dstNum .mul = i.mul.dst.num := WordPair.dstNum_eq h.mulDst
  simp only [WordPair.decodeBranch, hswap, hvia, h.signal_eq, haddDst, hmulDst, h.branchCond,
    h.branchReg, UInt8.toUInt8_toUInt32, hcond, BranchTest.ofCond_cond]

/-- The instruction has words, and they give it back at its place in the text. -/
def Decodes (i : Instruction) : Prop :=
  ∃ w, i.encode = .ok w ∧
    { w.decode with pc := i.pc, line := i.line, labels := i.labels } =
      { i with encoding := some w }

variable {pc : UInt32} {line : ℕ} {labels : List String}

theorem decodes_alu {add mul : Slot} {signal : Signal} {setFlags packMode swap : Bool}
    {ports : ReadPorts} (hadd : add.Settled 32 ports (addFile swap))
    (hmul : mul.Settled 8 ports (mulFile swap))
    (himmediate : signal = .smallImmediate ↔ ports.immediate = true)
    (hsignal : signal ≠ .loadImmediate ∧ signal ≠ .branch) :
    Decodes { blank pc line labels with
      add := add, mul := mul, signal := signal, setFlags := setFlags, packMode := packMode,
      writeSwap := swap } := by
  set i : Instruction := { blank pc line labels with
    add := add, mul := mul, signal := signal, setFlags := setFlags, packMode := packMode,
    writeSwap := swap }
  obtain ⟨w, c, d, hencode, haw, hmw, hf⟩ :=
    encodeAlu_fields (i := i) hadd hmul (show (0 : UInt8).toNat < 16 by decide)
      (show (0 : UInt8).toNat < 8 by decide)
  have hws : w.signal = signal := hf.signal_eq
  have hswap : w.flags.writeSwap = swap := hf.writeSwap
  rw [← hws] at himmediate hsignal
  refine ⟨w, hencode, ?_⟩
  rw [WordPair.decode_of_alu hsignal, WordPair.decodeAlu, hf.common_eq, hswap,
    WordPair.slot_eq hadd himmediate haw, WordPair.slot_eq hmul himmediate hmw]
  rfl

theorem decodes_load {shape : LoadShape} {setFlags packMode swap : Bool}
    {addCond mulCond : Condition} {addNum mulNum : UInt8} {value : UInt32}
    (hadd : addNum.toNat < 64) (hmul : mulNum.toNat < 64) :
    Decodes
      { (blank pc line labels).settledLoad shape swap addCond mulCond addNum mulNum value with
        setFlags := setFlags, packMode := packMode } := by
  set i : Instruction :=
    { (blank pc line labels).settledLoad shape swap addCond mulCond addNum mulNum value with
      setFlags := setFlags, packMode := packMode }
  obtain ⟨hi, hhigh, hf⟩ := highWord_fields (i := i) rfl rfl hadd hmul shape.unpack_lt
    (show (0 : UInt8).toNat < 16 by decide)
  set w : WordPair := ⟨value, hi⟩
  have hf : HighFields i addCond mulCond w.hi := hf
  have hu : w.unpack = shape.unpack := hf.unpack_eq
  refine ⟨w, encodeLoad_eq (i := i) rfl hhigh, ?_⟩
  rw [WordPair.decode_of_load hf.signal_eq (hu ▸ shape.unpack_ne), WordPair.decodeLoad,
    hf.decodeImmediate_eq, hf.common_eq, hu, LoadShape.ofUnpack_unpack]
  rfl

theorem decodes_semaphore {direction : SemaphoreDirection} {number : UInt32}
    {setFlags packMode : Bool} (hnumber : number < 16) :
    Decodes { (blank pc line labels).withSemaphore number with
      kind := .semaphore direction, setFlags := setFlags, packMode := packMode } := by
  set i : Instruction := { (blank pc line labels).withSemaphore number with
    kind := .semaphore direction, setFlags := setFlags, packMode := packMode }
  obtain ⟨hi, hhigh, hf⟩ := highWord_fields (i := i) rfl rfl
    (show (39 : UInt8).toNat < 64 by decide) (show (0 : UInt8).toNat < 64 by decide)
    (show (4 : UInt8).toNat < 8 by decide) (show (0 : UInt8).toNat < 16 by decide)
  set w : WordPair := ⟨semaphoreWord number (i.kind == .semaphore .down), hi⟩
  have hf : HighFields i .always .never w.hi := hf
  obtain ⟨hnum, hdown⟩ := semaphoreWord_fields hnumber (i.kind == .semaphore .down)
  refine ⟨w, encodeSemaphore_eq (i := i) rfl hhigh, ?_⟩
  rw [WordPair.decode_of_semaphore hf.signal_eq hf.unpack_eq, WordPair.decodeSemaphore, hnum, hdown,
    hf.decodeImmediate_eq, hf.common_eq]
  cases direction <;> rfl

theorem decodes_jump {test : BranchTest} {any swap : Bool} {addNum mulNum : UInt8}
    {value : UInt32} (hadd : addNum.toNat < 64) (hmul : mulNum.toNat < 64) :
    Decodes ((blank pc line labels).settledBranch test any swap addNum mulNum .relative
      (.imm value) (.reg Register.r0)) := by
  set i := (blank pc line labels).settledBranch test any swap addNum mulNum .relative
    (.imm value) (.reg Register.r0)
  set w : WordPair := ⟨value, BitField.packed (i.branchParts none)⟩
  have hf : BranchFields i none w.hi :=
    branch_fields (test.cond_lt any) hadd hmul (show (0 : UInt8).toNat < 32 by decide)
  refine ⟨w, encodeBranch_relative (i := i) rfl rfl, ?_⟩
  rw [WordPair.decode_of_branch hf.signal_eq, hf.decodeBranch_eq rfl]
  rfl

theorem decodes_jumpVia {test : BranchTest} {any swap : Bool} {addNum mulNum num : UInt8}
    {offset : UInt32} (hadd : addNum.toNat < 64) (hmul : mulNum.toNat < 64)
    (hnum : num.toNat < 32) :
    Decodes ((blank pc line labels).settledBranch test any swap addNum mulNum .register
      (.reg ⟨.a, num⟩) (.imm offset)) := by
  set i := (blank pc line labels).settledBranch test any swap addNum mulNum .register
    (.reg ⟨.a, num⟩) (.imm offset)
  set w : WordPair := ⟨offset, BitField.packed (i.branchParts (some num))⟩
  have hf : BranchFields i (some num) w.hi := branch_fields (test.cond_lt any) hadd hmul hnum
  refine ⟨w, encodeBranch_register (i := i) rfl rfl rfl, ?_⟩
  rw [WordPair.decode_of_branch hf.signal_eq, hf.decodeBranch_eq rfl]
  rfl

theorem Shaped.decodes {l : Instruction} (h : Shaped IsOffset pc line labels l) : l.Decodes := by
  cases h with
  | alu hadd hmul himmediate hsignal => exact decodes_alu hadd hmul himmediate hsignal
  | load hadd hmul => exact decodes_load hadd hmul
  | semaphore hnumber => exact decodes_semaphore hnumber
  | jump hadd hmul htarget =>
      obtain ⟨value, rfl⟩ := htarget
      exact decodes_jump hadd hmul
  | jumpVia hadd hmul hnum => exact decodes_jumpVia hadd hmul hnum

end Instruction

theorem decode_of_mem {source : String} {p : Program} (h : assemble source = .ok p)
    {i : Instruction} (hi : i ∈ p.instrs) :
    ∃ w, i.encoding = some w ∧
      { w.decode with pc := i.pc, line := i.line, labels := i.labels } = i := by
  obtain ⟨settled, k, s, r, j, l, w, hp, rfl⟩ := passage_of_mem h hi
  obtain ⟨v, hv, hdecode⟩ := hp.shaped.decodes
  cases hv.symm.trans hp.encode
  exact ⟨_, rfl, hdecode⟩

/-- The words of an instruction determine all of it but its place in the text. -/
theorem decode_encoding {source : String} {p : Program} (h : assemble source = .ok p) :
    (∀ i ∈ p.instrs, ∃ w, i.encoding = some w ∧
      { w.decode with pc := i.pc, line := i.line, labels := i.labels } = i) ∧
    ∀ other q, assemble other = .ok q → ∀ i ∈ p.instrs, ∀ j ∈ q.instrs,
      i.encoding = j.encoding → { i with pc := j.pc, line := j.line, labels := j.labels } = j := by
  refine ⟨fun i hi => decode_of_mem h hi, ?_⟩
  intro other q hq i hi j hj hij
  obtain ⟨w, hw, hdi⟩ := decode_of_mem h hi
  obtain ⟨v, hv, hdj⟩ := decode_of_mem hq hj
  have hwv : w = v := by
    rw [hw, hv] at hij
    exact Option.some.inj hij
  rw [← hdi, ← hdj, hwv]

/-- A text with a statement of each form. -/
def sampleText : String :=
  "start: fadd, a1, unif, 3 fmul, r0, r1, r2 sf;\nlis.z.x, a3, -, 0x10;\nsemdn, 5;\n" ++
    "bnz.any, -, a4, start;\nb, -, -, a5, 8;\n"

theorem decode_encoding_sampleText :
    ∃ p, assemble sampleText = .ok p ∧ p.instrs.length = 5 ∧
      (∀ i ∈ p.instrs, ∃ w, i.encoding = some w ∧
        { w.decode with pc := i.pc, line := i.line, labels := i.labels } = i) ∧
      ∀ i ∈ p.instrs, ∀ j ∈ p.instrs, i.encoding = j.encoding →
        { i with pc := j.pc, line := j.line, labels := j.labels } = j := by
  obtain ⟨p, hp, hlength⟩ := exists_ok_of_toOption (f := (·.instrs.length)) (b := 5)
    (x := assemble sampleText) (by decide +kernel)
  exact ⟨p, hp, hlength, (decode_encoding hp).1, (decode_encoding hp).2 _ p hp⟩

end QuadAsm
