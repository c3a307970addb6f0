import QuadAsm.Proofs.Decoding
import QuadAsm.Proofs.IdleLoads
import QuadAsm.Proofs.SlotMeaning

/-!
# Words of loads, semaphores and branches

The forms that are no ALU statements keep a number in the low word and lay fields of their own over
the high word. Their words are held here against the statement as it is written. A load that writes
nothing is left out, since it becomes the NOP.
-/

namespace QuadAsm

namespace Slot

variable {cond : Option Condition} {dst : Register}

def loadCond (cond : Option Condition) (dst : Register) : Condition :=
  if cond = some .never ∨ dst = Register.nop then .never else cond.getD .always

def loadNum (cond : Option Condition) (dst : Register) : UInt8 :=
  if cond = some .never ∨ dst = Register.nop then 0 else dst.num

theorem loadNum_lt (cond : Option Condition) (h : dst.Writable) :
    (loadNum cond dst).toNat < 64 := by
  unfold loadNum
  split_ifs
  · decide
  · exact h.num_lt

theorem ofLoad_lhs (cond : Option Condition) (dst : Register) :
    (ofLoad cond dst).lhs = .reg Register.r0 := by
  unfold ofLoad
  split_ifs <;> rfl

theorem settled_ofLoad (cond : Option Condition) (dst : Register) (file : RegisterFile)
    (lhs : Operand) :
    { ofLoad cond dst with
      dst := ⟨file, (ofLoad cond dst).dst.num⟩, lhs := lhs : Slot }.defaultAlways.clearIdleDst =
      ⟨0, some (loadCond cond dst), ⟨file, loadNum cond dst⟩, lhs, .reg Register.r0⟩ := by
  unfold ofLoad loadCond loadNum
  split_ifs with h
  · rfl
  · have hlive : cond.getD .always ≠ .never := by
      intro hnever
      cases cond with
      | none => cases hnever
      | some c => exact h (.inl (congrArg some hnever))
    rw [defaultAlways, Instruction.clearIdleDst_eq, Instruction.liveNum, if_neg hlive]
    rfl

theorem ofLoad_dst_file_iff {file : RegisterFile} (hfile : file ≠ .shared) :
    (ofLoad cond dst).dst.file = file ↔
      ¬ (cond = some .never ∨ dst = Register.nop) ∧ dst.file = file := by
  unfold ofLoad
  split_ifs with h
  · simp only [h, not_true_eq_false, false_and, iff_false]
    exact hfile.symm
  · simp only [h, not_false_eq_true, true_and]

end Slot

/-- The fields of a slot of a load hold its condition and its destination as they are written, or
nothing if the slot is idle. -/
structure WordPair.LoadsTo (layout : SlotLayout) (cond : Option (Named Condition.ofWord?))
    (dst : Named Register.writable?) (w : WordPair) : Prop where
  idle : Slot.LoadIdle cond dst → layout.cond.get w.hi = 0 ∧ layout.dst.get w.hi = 0
  live : ¬ Slot.LoadIdle cond dst →
    layout.cond.get w.hi = ((cond.map Named.value).getD .always).code ∧
      layout.dst.get w.hi = dst.value.num.toUInt32

theorem WordPair.loadsTo_of_fields {α : Type} {layout : SlotLayout} {w : WordPair}
    {conds : Option α} {part : α → Named Condition.ofWord?} {dst : Named Register.writable?}
    (hcond : layout.cond.get w.hi =
      (Slot.loadCond (conds.map fun c => (part c).value) dst.value).code)
    (hdst : layout.dst.get w.hi =
      (Slot.loadNum (conds.map fun c => (part c).value) dst.value).toUInt32) :
    w.LoadsTo layout (conds.map part) dst := by
  have hidle := Slot.loadIdle_iff part conds dst
  constructor
  · intro h
    rw [Slot.loadCond, if_pos (hidle.mp h)] at hcond
    rw [Slot.loadNum, if_pos (hidle.mp h)] at hdst
    exact ⟨hcond, hdst⟩
  · intro h
    rw [Slot.loadCond, if_neg (hidle.not.mp h)] at hcond
    rw [Slot.loadNum, if_neg (hidle.not.mp h)] at hdst
    rw [Option.map_map]
    exact ⟨hcond, hdst⟩

namespace Sentence

structure LoadWords (shape : LoadShape)
    (conds : Option (Named Condition.ofWord? × Named Condition.ofWord?))
    (addDst mulDst : Named Register.writable?) (value : Named Reader.immediate?) (tail : Tail)
    (w : WordPair) : Prop where
  value : w.lo = value.value
  signal : Layout.signal.get w.hi = 14
  unpack : (shape.mnemonic, Layout.unpack.get w.hi) ∈ [("li", 0), ("lis", 1), ("liu", 3)]
  pack : Layout.pack.get w.hi = 0
  add : w.LoadsTo .add (conds.map Prod.fst) addDst
  mul : w.LoadsTo .mul (conds.map Prod.snd) mulDst
  swap : Layout.writeSwap.isSet w.hi = true ↔
    ¬ Slot.LoadIdle (conds.map Prod.fst) addDst ∧ addDst.value.file = .b ∨
      ¬ Slot.LoadIdle (conds.map Prod.snd) mulDst ∧ mulDst.value.file = .a
  setFlags : Layout.setFlags.isSet w.hi = tail.has .setFlags
  packMode : Layout.packMode.isSet w.hi = tail.has .packMode

/-- The words of a semaphore statement. It writes nowhere, but always. -/
structure SemaphoreWords (direction : SemaphoreDirection) (number : UInt32) (tail : Tail)
    (w : WordPair) : Prop where
  value : w.lo.toNat = number.toNat + if direction = .down then 16 else 0
  signal : Layout.signal.get w.hi = 14
  unpack : Layout.unpack.get w.hi = 4
  pack : Layout.pack.get w.hi = 0
  addCond : Layout.addCond.get w.hi = Condition.always.code
  addNum : Layout.addDst.get w.hi = 39
  mulCond : Layout.mulCond.get w.hi = 0
  mulNum : Layout.mulDst.get w.hi = 0
  swap : Layout.writeSwap.isSet w.hi = false
  setFlags : Layout.setFlags.isSet w.hi = tail.has .setFlags
  packMode : Layout.packMode.isSet w.hi = tail.has .packMode

end Sentence

/-- The conditions of the branches by mnemonic, asked of all elements and of any. -/
def BranchTest.codes : List (String × UInt32 × UInt32) :=
  [("b", 15, 15), ("bz", 0, 2), ("bnz", 1, 3), ("bn", 4, 6), ("bnn", 5, 7), ("bc", 8, 10),
    ("bnc", 9, 11)]

theorem BranchTest.cond_mem_codes (test : BranchTest) :
    (test.mnemonic, (test.cond false).toUInt32, (test.cond true).toUInt32) ∈ codes := by
  cases test with
  | always => decide
  | whenSet flag => cases flag <;> decide
  | whenClear flag => cases flag <;> decide

def TargetPhrase.StatedBy (w : WordPair) : TargetPhrase → Prop
  | .register reg offset =>
    Layout.viaRegister.isSet w.hi = true ∧ Layout.viaOffset.isSet w.hi = false ∧
      Layout.branchReg.get w.hi = reg.value.toUInt32 ∧ w.lo = offset.value
  | .label _ =>
    Layout.viaRegister.isSet w.hi = false ∧ Layout.viaOffset.isSet w.hi = true ∧
      Layout.branchReg.get w.hi = 0

/-- The bits of the high word that hold the pack mode and the unpack code in other forms. -/
def Layout.unusedByBranch : BitField := ⟨24, 4⟩

structure Sentence.BranchWords (test : BranchTest) (any : Option Bool)
    (addDst mulDst : Named Register.writable?) (target : TargetPhrase) (w : WordPair) : Prop where
  signal : Layout.signal.get w.hi = 15
  cond : ∃ ofAll ofAny, (test.mnemonic, ofAll, ofAny) ∈ BranchTest.codes ∧
    Layout.branchCond.get w.hi = if any = some true then ofAny else ofAll
  addNum : Layout.addDst.get w.hi = addDst.value.num.toUInt32
  mulNum : Layout.mulDst.get w.hi = mulDst.value.num.toUInt32
  swap : Layout.writeSwap.isSet w.hi = true ↔ addDst.value.file = .b ∨ mulDst.value.file = .a
  unused : Layout.unusedByBranch.get w.hi = 0
  target : target.StatedBy w

/-- The words say what the statement says, if it is no ALU statement and does not become one. -/
def Sentence.StatedBy (w : WordPair) : Sentence → Prop
  | .alu _ _ _ => True
  | .load shape conds addDst mulDst value tail _ =>
    ¬ (Slot.LoadIdle (conds.map Prod.fst) addDst ∧ Slot.LoadIdle (conds.map Prod.snd) mulDst) →
      LoadWords shape conds addDst mulDst value tail w
  | .semaphore direction number _ tail _ => SemaphoreWords direction number.value tail w
  | .branch test any addDst mulDst target => BranchWords test any addDst mulDst target w

namespace Sentence

variable {settled : List Instruction} {k : ℕ} {s : Statement} {j l : Instruction} {w : WordPair}
  {pc : UInt32} {line : ℕ} {labels : List String} {addDst mulDst : Named Register.writable?}
  {shape : LoadShape} {conds : Option (Named Condition.ofWord? × Named Condition.ofWord?)}
  {tail : Tail} {silent : tail.Silent} {test : BranchTest} {any : Option Bool}
  {target : TargetPhrase}

open Instruction

theorem settledLoad_fields {setFlags packMode swap : Bool} {addCond mulCond : Condition}
    {addNum mulNum : UInt8} {value : UInt32}
    (hadd : addNum.toNat < 64) (hmul : mulNum.toNat < 64)
    (h : encode
      { (blank pc line labels).settledLoad shape swap addCond mulCond addNum mulNum value with
        setFlags := setFlags, packMode := packMode } = .ok w) :
    w.lo = value ∧ HighFields
      { (blank pc line labels).settledLoad shape swap addCond mulCond addNum mulNum value with
        setFlags := setFlags, packMode := packMode } addCond mulCond w.hi := by
  set i : Instruction :=
    { (blank pc line labels).settledLoad shape swap addCond mulCond addNum mulNum value with
      setFlags := setFlags, packMode := packMode }
  obtain ⟨hi, hhigh, hf⟩ := highWord_fields (i := i) rfl rfl hadd hmul shape.unpack_lt
    (show (0 : UInt8).toNat < 16 by decide)
  obtain rfl := Except.ok.inj (h.symm.trans (encodeLoad_eq (i := i) rfl hhigh))
  exact ⟨rfl, hf⟩

theorem settle_of_load_live {value : Named Reader.immediate?}
    (h : ((load shape conds addDst mulDst value tail silent).instruction pc line labels).settle =
      .ok j)
    (hlive : ¬ (Slot.LoadIdle (conds.map Prod.fst) addDst ∧
      Slot.LoadIdle (conds.map Prod.snd) mulDst)) :
    j = { (blank pc line labels).settledLoad shape
        ((load shape conds addDst mulDst value tail silent).instruction pc line labels).needsSwap
        (Slot.loadCond (conds.map (·.1.value)) addDst.value)
        (Slot.loadCond (conds.map (·.2.value)) mulDst.value)
        (Slot.loadNum (conds.map (·.1.value)) addDst.value)
        (Slot.loadNum (conds.map (·.2.value)) mulDst.value) value.value with
      setFlags := tail.has .setFlags, packMode := tail.has .packMode } := by
  obtain ⟨_, rfl⟩ := (dstsOf_instruction (.inl rfl)).settleLoad_eq_ok.mp h
  have haddIdle := Slot.loadIdle_iff Prod.fst conds addDst
  have hmulIdle := Slot.loadIdle_iff Prod.snd conds mulDst
  set i := (load shape conds addDst mulDst value tail silent).instruction pc line labels
  have hruns : ¬ (i.withWrites.add.isNever && i.withWrites.mul.isNever) = true := by
    rw [Bool.and_eq_true_iff]
    rintro ⟨ha, hm⟩
    exact hlive ⟨haddIdle.mpr ((Slot.isNever_ofLoad _ _).mp ha),
      hmulIdle.mpr ((Slot.isNever_ofLoad _ _).mp hm)⟩
  have hadd : i.withWrites.add.defaultAlways.clearIdleDst =
      ⟨0, some (Slot.loadCond (conds.map (·.1.value)) addDst.value),
        ⟨addFile i.needsSwap, Slot.loadNum (conds.map (·.1.value)) addDst.value⟩,
        .imm value.value, .reg Register.r0⟩ := Slot.settled_ofLoad _ _ _ _
  have hmul : i.withWrites.mul.defaultAlways.clearIdleDst =
      ⟨0, some (Slot.loadCond (conds.map (·.2.value)) mulDst.value),
        ⟨mulFile i.needsSwap, Slot.loadNum (conds.map (·.2.value)) mulDst.value⟩,
        (Slot.ofLoad (conds.map (·.2.value)) mulDst.value).lhs, .reg Register.r0⟩ :=
    Slot.settled_ofLoad _ _ _ _
  rw [normalizeLoad_of_live hruns, hadd, hmul, Slot.ofLoad_lhs]
  rfl

theorem loadWords_of_passage {value : Named Reader.immediate?}
    (h : Passage settled k s
      ((load shape conds addDst mulDst value tail silent).instruction pc line labels) j l w)
    (hlive : ¬ (Slot.LoadIdle (conds.map Prod.fst) addDst ∧
      Slot.LoadIdle (conds.map Prod.snd) mulDst)) :
    LoadWords shape conds addDst mulDst value tail w := by
  obtain rfl := settle_of_load_live h.settle hlive
  obtain rfl := Except.ok.inj h.link
  obtain ⟨hlo, hf⟩ := settledLoad_fields (Slot.loadNum_lt _ ⟨_, addDst.named⟩)
    (Slot.loadNum_lt _ ⟨_, mulDst.named⟩) h.encode
  have haddIdle := Slot.loadIdle_iff Prod.fst conds addDst
  have hmulIdle := Slot.loadIdle_iff Prod.snd conds mulDst
  refine ⟨hlo, hf.signal, ?_, hf.pack, WordPair.loadsTo_of_fields hf.addCond hf.addDst,
    WordPair.loadsTo_of_fields hf.mulCond hf.mulDst, ?_, hf.setFlags, hf.packMode⟩
  · have hunpack : Layout.unpack.get w.hi = shape.unpack.toUInt32 := hf.unpack
    rw [hunpack]
    cases shape <;> decide
  · have hswap : Layout.writeSwap.isSet w.hi = needsSwap _ := hf.writeSwap
    rw [hswap, needsSwap_iff, haddIdle, hmulIdle, ← Slot.ofLoad_dst_file_iff (by decide),
      ← Slot.ofLoad_dst_file_iff (by decide)]
    rfl

theorem semaphoreWords_of_passage {direction : SemaphoreDirection}
    {number : Named Reader.immediate?} {small : number.value < 16}
    (h : Passage settled k s
      ((semaphore direction number small tail silent).instruction pc line labels) j l w) :
    SemaphoreWords direction number.value tail w := by
  obtain rfl := Except.ok.inj h.settle
  obtain rfl := Except.ok.inj h.link
  obtain ⟨hi, hhigh, hf⟩ := highWord_fields
    (i := (semaphore direction number small tail silent).instruction pc line labels) rfl rfl
    (show (39 : UInt8).toNat < 64 by decide) (show (0 : UInt8).toNat < 64 by decide)
    (show (4 : UInt8).toNat < 8 by decide) (show (0 : UInt8).toNat < 16 by decide)
  obtain rfl := Except.ok.inj (h.encode.symm.trans (encodeSemaphore_eq rfl hhigh))
  refine ⟨?_, hf.signal, hf.unpack, hf.pack, hf.addCond, hf.addDst, hf.mulCond, hf.mulDst,
    hf.writeSwap, hf.setFlags, hf.packMode⟩
  rw [toNat_semaphoreWord small]
  cases direction <;> rfl

theorem branchWords_of_fields {swap : Bool} {mode : TargetMode} {lhs rhs : Operand}
    (num : Option UInt8) (hnum : (num.getD 0).toNat < 32)
    (hswap : swap = true ↔ addDst.value.file = .b ∨ mulDst.value.file = .a)
    (hw : w.hi = BitField.packed (branchParts ((blank pc line labels).settledBranch test
      (any.getD false) swap addDst.value.num mulDst.value.num mode lhs rhs) num))
    (htarget : Layout.viaRegister.isSet w.hi = num.isSome →
      Layout.viaOffset.isSet w.hi = num.isNone →
      Layout.branchReg.get w.hi = (num.getD 0).toUInt32 → target.StatedBy w) :
    BranchWords test any addDst mulDst target w := by
  have hadd : addDst.value.num.toNat < 64 := Register.Writable.num_lt ⟨_, addDst.named⟩
  have hmul : mulDst.value.num.toNat < 64 := Register.Writable.num_lt ⟨_, mulDst.named⟩
  set i := (blank pc line labels).settledBranch test (any.getD false) swap addDst.value.num
    mulDst.value.num mode lhs rhs
  have hf : BranchFields i num w.hi := by
    rw [hw]
    exact branch_fields (test.cond_lt _) hadd hmul hnum
  have hcond : Layout.branchCond.get w.hi = (test.cond (any.getD false)).toUInt32 := hf.branchCond
  have hset : Layout.writeSwap.isSet w.hi = swap := hf.writeSwap
  refine ⟨hf.signal, ⟨_, _, test.cond_mem_codes, ?_⟩, hf.addDst, hf.mulDst, ?_, ?_,
    htarget hf.viaRegister hf.viaOffset hf.branchReg⟩
  · rw [hcond]
    rcases any with _ | _ | _ <;> rfl
  · rw [hset, hswap]
  · have hapart : ∀ g ∈ (i.branchParts num).map Prod.fst, Layout.unusedByBranch.Apart g := by
      change ∀ g ∈ [Layout.signal, Layout.branchCond, Layout.addDst, Layout.mulDst,
        Layout.writeSwap, Layout.viaRegister, Layout.viaOffset, Layout.branchReg],
        Layout.unusedByBranch.Apart g
      decide
    rw [hw, Layout.unusedByBranch.get_packed_of_apart hapart]

theorem branchWords_of_passage
    (h : Passage settled k s ((branch test any addDst mulDst target).instruction pc line labels)
      j l w) :
    BranchWords test any addDst mulDst target w := by
  obtain ⟨_, rfl⟩ :=
    (dstsOf_instruction (.inr rfl)).assignWrites_eq_ok.mp (mapError_eq_ok.mp h.settle)
  set i := (branch test any addDst mulDst target).instruction pc line labels
  have hswap : i.needsSwap = true ↔ addDst.value.file = .b ∨ mulDst.value.file = .a := needsSwap_iff
  cases target with
  | register reg offset =>
      obtain rfl := Except.ok.inj h.link
      have hencode : i.withWrites.encodeBranch = .ok w := h.encode
      obtain rfl := Except.ok.inj (hencode.symm.trans (encodeBranch_register rfl rfl rfl))
      exact branchWords_of_fields (some reg.value) (Register.numbered?_lt (by decide) reg.named)
        hswap rfl fun hvia hoffset hreg => ⟨hvia, hoffset, hreg, rfl⟩
  | label name =>
      obtain ⟨_, _, hl⟩ := (link_eq_ok ⟨rfl, rfl⟩).mp h.link
      have hencode : l.encodeBranch = .ok w := by
        rw [← h.encode, hl]
        rfl
      rw [hl, encodeBranch_relative rfl rfl] at hencode
      obtain rfl := Except.ok.inj hencode
      exact branchWords_of_fields none (by decide) hswap rfl
        fun hvia hoffset hreg => ⟨hvia, hoffset, hreg⟩

end Sentence

/-- In every text that assembles, the words of a load that writes something, of a semaphore
statement and of a branch say what is written, and the fields that have no use in them are zero. -/
theorem words_as_written {source : String} {p : Program} (h : assemble source = .ok p) :
    ∃ statements, (Scan.ofSource source).statements = .ok statements ∧
      p.instrs.length = statements.length ∧
      ∀ (k : ℕ) (s : Statement), statements[k]? = some s →
        ∃ f w, p.instrs[k]? = some f ∧ f.encoding = some w ∧
          ∀ x : Sentence, tokenize s.text = some x.tokens → x.StatedBy w := by
  apply words_of_sentences h
  intro settled k s x j l w hp
  cases x with
  | alu add mul tail => trivial
  | load shape conds addDst mulDst value tail silent => exact Sentence.loadWords_of_passage hp
  | semaphore direction number small tail silent => exact Sentence.semaphoreWords_of_passage hp
  | branch test any addDst mulDst target => exact Sentence.branchWords_of_passage hp

/-- A load of which one slot is idle, a semaphore statement and a branch by way of a register. -/
def formsText : String :=
  "li.nz.x, b7, a3, 0xfffffff0 pm;\nsemdn, 5 sf;\nbnn.any, a3, r2, a9, 16;\n"

theorem words_as_written_forms :
    ∃ p f g e v u w, assemble formsText = .ok p ∧ p.instrs[0]? = some f ∧ p.instrs[1]? = some g ∧
      p.instrs[2]? = some e ∧ f.encoding = some v ∧ g.encoding = some u ∧ e.encoding = some w ∧
      (v.lo = 0xfffffff0 ∧ Layout.addDst.get v.hi = 7 ∧ Layout.mulDst.get v.hi = 0 ∧
        Layout.packMode.isSet v.hi = true) ∧
      (u.lo.toNat = 21 ∧ Layout.setFlags.isSet u.hi = true) ∧
      w.lo = 16 ∧ Layout.branchReg.get w.hi = 9 ∧ Layout.viaOffset.isSet w.hi = false := by
  obtain ⟨p, hp, _⟩ := exists_ok_of_toOption (f := (·.instrs.length)) (b := 3)
    (x := assemble formsText) (by decide +kernel)
  obtain ⟨statements, hscan, _, hwords⟩ := words_as_written hp
  have hthree : (Scan.ofSource formsText).statements.toOption =
      some [⟨1, [], "li.nz.x, b7, a3, 0xfffffff0 pm;"⟩, ⟨2, [], "semdn, 5 sf;"⟩,
        ⟨3, [], "bnn.any, a3, r2, a9, 16;"⟩] := by decide +kernel
  rw [hscan] at hthree
  cases hthree
  obtain ⟨f, v, hf, hv, hload⟩ := hwords 0 _ rfl
  obtain ⟨g, u, hg, hu, hsemaphore⟩ := hwords 1 _ rfl
  obtain ⟨e, w, he, hw, hbranch⟩ := hwords 2 _ rfl
  have hload := hload (.load .word
    (some (⟨"nz", .zeroClear, by decide⟩, ⟨"x", .never, by decide⟩))
    ⟨"b7", ⟨.b, 7⟩, by decide +kernel⟩ ⟨"a3", ⟨.a, 3⟩, by decide +kernel⟩
    ⟨"0xfffffff0", 0xfffffff0, by decide +kernel⟩ ⟨[.packMode], by decide⟩ rfl) (by decide +kernel)
  have hsemaphore := hsemaphore (.semaphore .down ⟨"5", 5, by decide +kernel⟩ (by decide)
    ⟨[.setFlags], by decide⟩ rfl) (by decide +kernel)
  have hbranch := hbranch (.branch (.whenClear .negative) (some true)
    ⟨"a3", ⟨.a, 3⟩, by decide +kernel⟩ ⟨"r2", ⟨.shared, 34⟩, by decide +kernel⟩
    (.register ⟨"a9", 9, by decide +kernel⟩ ⟨"16", 16, by decide +kernel⟩)) (by decide +kernel)
  have hruns : ¬ Slot.LoadIdle (some ⟨"nz", .zeroClear, by decide⟩)
      ⟨"b7", ⟨.b, 7⟩, by decide +kernel⟩ := by
    rintro (⟨_, ⟨⟩, hword⟩ | hword)
    · simp at hword
    · simp at hword
  have hlive := hload fun hidle => hruns hidle.1
  obtain ⟨_, hoffset, hreg, hlow⟩ := hbranch.target
  exact ⟨p, f, g, e, v, u, w, hp, hf, hg, he, hv, hu, hw,
    ⟨hlive.value, (hlive.add.live hruns).2, (hlive.mul.idle (.inl ⟨_, rfl, rfl⟩)).2,
      hlive.packMode⟩,
    ⟨hsemaphore.value, hsemaphore.setFlags⟩, hlow, hreg, hoffset⟩

end QuadAsm
