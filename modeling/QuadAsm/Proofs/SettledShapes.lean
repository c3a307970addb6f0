import QuadAsm.Proofs.DroppedSlots
import QuadAsm.Proofs.WritePorts
import QuadAsm.Settlement

/-!
# Shapes of settled instructions

`Shaped` lists what an instruction can look like once its registers have their files and its slots
their conditions. The list is by what the encoder does, not by what the statement said: a load that
writes nothing has the shape of an ALU instruction from here on. A statement of any of the shapes in
`Parsed` settles to one of these or is refused, and no defect comes of it.
-/

namespace QuadAsm

/-- The register is read through the ports, and its index fits the fields of the words. -/
structure Register.Fetched (ports : ReadPorts) (r : Register) : Prop where
  through : r.ReadThrough ports
  num_lt : r.num.toNat < 64
  accumulator_lt : r.file = .accumulator → r.num.toNat < 6

theorem Register.r0_fetched (ports : ReadPorts) : r0.Fetched ports :=
  ⟨trivial, by decide, fun _ => by decide⟩

namespace Slot

/-- A slot of an ALU instruction that is ready to be encoded. -/
structure Settled (limit : ℕ) (ports : ReadPorts) (file : RegisterFile) (s : Slot) : Prop where
  code : s.code.toNat < limit
  cond : ∃ c, s.cond = some c
  dstFile : s.dst.file = file
  dstNum : s.dst.num.toNat < 64
  lhs : ∃ r, s.lhs = .reg r ∧ r.Fetched ports
  rhs : ∃ r, s.rhs = .reg r ∧ r.Fetched ports

variable {limit : ℕ} {ports : ReadPorts} {s : Slot}

theorem settled_nop (hlimit : 0 < limit) (file : RegisterFile) :
    { nop with dst := ⟨file, 0⟩ : Slot }.Settled limit ports file where
  code := hlimit
  cond := ⟨.never, rfl⟩
  dstFile := rfl
  dstNum := show (0 : UInt8).toNat < 64 by decide
  lhs := ⟨Register.r0, rfl, Register.r0_fetched ports⟩
  rhs := ⟨Register.r0, rfl, Register.r0_fetched ports⟩

theorem fetched_replaceNop {r : Register} {o : Operand} (hr : r.Readable)
    (h : (Operand.reg r).Binds (·.ReadThrough ports) o) :
    ∃ t, o.replaceNop = .reg t ∧ t.Fetched ports := by
  obtain ⟨t, rfl, hb, ht⟩ := h
  by_cases hn : t.isNop
  · exact ⟨Register.r0, by simp [Operand.replaceNop, hn], Register.r0_fetched ports⟩
  · refine ⟨t, by simp [Operand.replaceNop, hn], ht, ?_, ?_⟩
    · rw [hb.num_eq]
      exact hr.num_lt
    · intro hf
      unfold Register.BoundAs at hb
      split_ifs at hb with hshared
      · simp [hf] at hb
      · subst t
        exact hr.accumulator_lt hf

theorem settled_finished {lhs rhs : Operand} (hs : s.Written limit) (hlimit : 0 < limit)
    (hl : s.lhs.Binds (·.ReadThrough ports) lhs) (hr : s.rhs.Binds (·.ReadThrough ports) rhs)
    (file : RegisterFile) : (s.finished file lhs rhs).Settled limit ports file := by
  unfold finished
  by_cases hd : s.Dropped
  · rw [if_pos hd]
    exact settled_nop hlimit file
  · rw [if_neg hd]
    cases hs with
    | unused => exact absurd (Or.inl rfl) hd
    | used _ hlt hdst hlhs hrhs =>
        exact ⟨hlt, ⟨_, rfl⟩, rfl, hdst.num_lt, fetched_replaceNop hlhs hl,
          fetched_replaceNop hrhs hr⟩

theorem Written.dst_isAddressed (hs : s.Written limit) : s.dst.isAddressed := by
  cases hs with
  | unused => rfl
  | used _ _ hdst _ _ => exact Register.isAddressed_iff.mpr hdst.file_cases

theorem Written.reduced_isAddressed (hs : s.Written limit) (lhs rhs : Operand) :
    (s.reduced lhs rhs).dst.isAddressed := by
  unfold reduced
  by_cases hd : s.Dropped
  · rw [if_pos hd]
    rfl
  · rw [if_neg hd]
    exact hs.dst_isAddressed

theorem Written.source_lt {r : Register} (hs : s.Written limit)
    (hr : s.lhs = .reg r ∨ s.rhs = .reg r) : r.num < Register.indexLimit := by
  apply UInt8.lt_iff_toNat_lt.mpr
  cases hs with
  | unused =>
      rcases hr with h | h
      · cases h
        decide
      · cases h
        decide
  | used _ _ _ hlhs hrhs =>
      rcases hr with h | h
      · cases h
        exact hlhs.num_lt
      · cases h
        exact hrhs.num_lt

end Slot

namespace Signal

theorem ne_of_given {signal : Signal}
    (h : signal = .quiet ∨ ∃ word, ofWord? word = some signal) :
    signal ≠ .smallImmediate ∧ signal ≠ .loadImmediate ∧ signal ≠ .branch := by
  rcases h with rfl | ⟨word, hword⟩
  · decide
  · exact ofWord?_ne hword

theorem marked_iff {signal : Signal} (h : signal ≠ .smallImmediate) (immediate : Bool) :
    (if immediate then .smallImmediate else signal) = smallImmediate ↔ immediate = true := by
  cases immediate <;> simp [h]

end Signal

namespace Instruction

variable {i j bound : Instruction}

/-- The ALU instruction `i` when its sources are bound as in `bound` and idle slots are gone. -/
def reducedAs (i bound : Instruction) : Instruction :=
  { bound with
    add := i.add.reduced bound.add.lhs bound.add.rhs
    mul := i.mul.reduced bound.mul.lhs bound.mul.rhs }

/-- The ALU instruction `i` settled, with its sources bound as in `bound`. -/
def finishedAs (i bound : Instruction) : Instruction :=
  let swap := (i.reducedAs bound).needsSwap
  { bound with
    add := i.add.finished (addFile swap) bound.add.lhs bound.add.rhs
    mul := i.mul.finished (mulFile swap) bound.mul.lhs bound.mul.rhs
    writeSwap := swap }

theorem settledSlots_eq (hadd : i.add.Written 32) (hmul : i.mul.Written 8)
    (h : i.assignReads = .ok bound) :
    { bound with add := bound.add.settle, mul := bound.mul.settle : Instruction } =
      i.reducedAs bound := by
  obtain ⟨ports, hb⟩ := readsBound_of_assignReads h
  have ha := Slot.settle_eq_reduced hadd hb.addLhs hb.addRhs
  have hm := Slot.settle_eq_reduced hmul hb.mulLhs hb.mulRhs
  have heq := hb.eq
  have haeq : bound.add = { i.add with lhs := bound.add.lhs, rhs := bound.add.rhs } := by
    rw [heq]
  have hmeq : bound.mul = { i.mul with lhs := bound.mul.lhs, rhs := bound.mul.rhs } := by
    rw [heq]
  rw [reducedAs, ← ha, ← hm, ← haeq, ← hmeq]

theorem settleAlu_eq_ok (hadd : i.add.Written 32) (hmul : i.mul.Written 8) :
    i.settleAlu = .ok j ↔
      ∃ bound, i.assignReads = .ok bound ∧ (i.reducedAs bound).writeConflict? = none ∧
        j = i.finishedAs bound := by
  have hwrites : ∀ bound k, (i.reducedAs bound).assignWrites = .ok k ↔
      (i.reducedAs bound).writeConflict? = none ∧ k = (i.reducedAs bound).withWrites :=
    fun bound k => assignWrites_eq_ok (hadd.reduced_isAddressed _ _) (hmul.reduced_isAddressed _ _)
  have hclear : ∀ bound, (i.reducedAs bound).withWrites.clearIdleDsts = i.finishedAs bound := by
    intro bound
    rw [finishedAs, ← Slot.clearIdleDst_reduced, ← Slot.clearIdleDst_reduced]
    rfl
  simp only [settleAlu, except_bind_eq_ok, mapError_eq_ok, except_pure_eq_ok]
  constructor
  · rintro ⟨bound, hreads, k, hk, rfl⟩
    rw [settledSlots_eq hadd hmul hreads, hwrites] at hk
    obtain ⟨hconflict, rfl⟩ := hk
    exact ⟨bound, hreads, hconflict, hclear bound⟩
  · rintro ⟨bound, hreads, hconflict, rfl⟩
    refine ⟨bound, hreads, (i.reducedAs bound).withWrites, ?_, hclear bound⟩
    rw [settledSlots_eq hadd hmul hreads, hwrites]
    exact ⟨hconflict, rfl⟩

theorem finishedAs_eq {ports : ReadPorts} (hb : ReadsBound ports i bound) :
    i.finishedAs bound = { i with
      add := (i.finishedAs bound).add
      mul := (i.finishedAs bound).mul
      signal := if ports.immediate then .smallImmediate else i.signal
      writeSwap := (i.finishedAs bound).writeSwap } := by
  unfold finishedAs
  rw [hb.eq]

/-- A load that is settled and writes something. -/
def settledLoad (start : Instruction) (shape : LoadShape) (swap : Bool)
    (addCond mulCond : Condition) (addNum mulNum : UInt8) (value : UInt32) : Instruction :=
  { start with
    kind := .load shape
    signal := .loadImmediate
    unpack := shape.unpack
    writeSwap := swap
    add := ⟨0, some addCond, ⟨addFile swap, addNum⟩, .imm value, .reg Register.r0⟩
    mul := ⟨0, some mulCond, ⟨mulFile swap, mulNum⟩, .reg Register.r0, .reg Register.r0⟩ }

/-- A branch that is settled, with the sources of its add slot. -/
def settledBranch (start : Instruction) (test : BranchTest) (any swap : Bool)
    (addNum mulNum : UInt8) (mode : TargetMode) (lhs rhs : Operand) : Instruction :=
  { start with
    kind := .branch test
    signal := .branch
    branchCond := test.cond any
    targetMode := some mode
    writeSwap := swap
    add := ⟨0, some .always, ⟨addFile swap, addNum⟩, lhs, rhs⟩
    mul := ⟨0, some .always, ⟨mulFile swap, mulNum⟩, .reg Register.r0, .reg Register.r0⟩ }

/-- The shapes of a settled instruction, with the targets of relative branches in `P`. -/
inductive Shaped (P : Operand → Prop) (pc : UInt32) (line : ℕ) (labels : List String) :
    Instruction → Prop
  | alu {add mul : Slot} {signal : Signal} {setFlags packMode swap : Bool} {ports : ReadPorts}
      (hadd : add.Settled 32 ports (addFile swap)) (hmul : mul.Settled 8 ports (mulFile swap))
      (himmediate : signal = .smallImmediate ↔ ports.immediate = true)
      (hsignal : signal ≠ .loadImmediate ∧ signal ≠ .branch) :
      Shaped P pc line labels { blank pc line labels with
        add := add, mul := mul, signal := signal, setFlags := setFlags, packMode := packMode,
        writeSwap := swap }
  | load {shape : LoadShape} {setFlags packMode swap : Bool} {addCond mulCond : Condition}
      {addNum mulNum : UInt8} {value : UInt32} (hadd : addNum.toNat < 64)
      (hmul : mulNum.toNat < 64) :
      Shaped P pc line labels
        { (blank pc line labels).settledLoad shape swap addCond mulCond addNum mulNum value with
          setFlags := setFlags, packMode := packMode }
  | semaphore {direction : SemaphoreDirection} {number : UInt32} {setFlags packMode : Bool}
      (hnumber : number < 16) :
      Shaped P pc line labels { (blank pc line labels).withSemaphore number with
        kind := .semaphore direction, setFlags := setFlags, packMode := packMode }
  | jump {test : BranchTest} {any swap : Bool} {addNum mulNum : UInt8} {target : Operand}
      (hadd : addNum.toNat < 64) (hmul : mulNum.toNat < 64) (htarget : P target) :
      Shaped P pc line labels ((blank pc line labels).settledBranch test any swap addNum mulNum
        .relative target (.reg Register.r0))
  | jumpVia {test : BranchTest} {any swap : Bool} {addNum mulNum num : UInt8} {offset : UInt32}
      (hadd : addNum.toNat < 64) (hmul : mulNum.toNat < 64) (hnum : num.toNat < 32) :
      Shaped P pc line labels ((blank pc line labels).settledBranch test any swap addNum mulNum
        .register (.reg ⟨.a, num⟩) (.imm offset))

/-- The targets that a statement can give to a relative branch. -/
def IsLabel (o : Operand) : Prop := ∃ name, o = .label name

variable {pc : UInt32} {line : ℕ} {labels : List String}

theorem shaped_of_settleAlu {add mul : Slot} {signal : Signal} {setFlags packMode : Bool}
    (hadd : add.Written 32) (hmul : mul.Written 8)
    (hsignal : signal = .quiet ∨ ∃ word, Signal.ofWord? word = some signal)
    (h : settleAlu { blank pc line labels with
      add := add, mul := mul, signal := signal, setFlags := setFlags, packMode := packMode } =
        .ok j) : Shaped IsLabel pc line labels j := by
  obtain ⟨bound, hreads, _, rfl⟩ := (settleAlu_eq_ok hadd hmul).mp h
  obtain ⟨ports, hb⟩ := readsBound_of_assignReads hreads
  have hne := Signal.ne_of_given hsignal
  rw [finishedAs_eq hb]
  refine .alu (Slot.settled_finished hadd (by decide) hb.addLhs hb.addRhs _)
    (Slot.settled_finished hmul (by decide) hb.mulLhs hb.mulRhs _) (Signal.marked_iff hne.1 _) ?_
  cases ports.immediate <;> simp [hne]

theorem loadInto_spec (cond : Option Condition) {dst : Register} (hdst : dst.Writable) :
    ∃ cond' dst', dst'.Writable ∧
      Slot.nop.loadInto cond dst = { Slot.nop with cond := cond', dst := dst' } := by
  unfold Slot.loadInto
  split_ifs
  · exact ⟨cond, Register.nop, Register.nop_writable, rfl⟩
  · exact ⟨some .never, dst, hdst, rfl⟩
  · exact ⟨cond, dst, hdst, rfl⟩

/-- The index that a slot writes, which is 0 if it never runs. -/
def liveNum (cond : Condition) (num : UInt8) : UInt8 := if cond = .never then 0 else num

theorem liveNum_lt {cond : Condition} {num : UInt8} (h : num.toNat < 64) :
    (liveNum cond num).toNat < 64 := by
  unfold liveNum
  split_ifs
  · decide
  · exact h

theorem clearIdleDst_eq (code : UInt8) (cond : Condition) (dst : Register) (lhs rhs : Operand) :
    Slot.clearIdleDst ⟨code, some cond, dst, lhs, rhs⟩ =
      ⟨code, some cond, ⟨dst.file, liveNum cond dst.num⟩, lhs, rhs⟩ := by
  unfold Slot.clearIdleDst Slot.isNever liveNum
  by_cases h : cond = .never <;> simp [h]

theorem isNever_defaultAlways (s : Slot) : s.defaultAlways.isNever = s.isNever := by
  unfold Slot.isNever Slot.defaultAlways
  cases s.cond <;> rfl

theorem normalizeLoad_of_idle (h : (i.add.isNever && i.mul.isNever) = true) :
    i.normalizeLoad = i.toNop.clearIdleDsts := by
  unfold normalizeLoad
  dsimp only
  rw [isNever_defaultAlways, isNever_defaultAlways, if_pos h]
  rfl

theorem normalizeLoad_of_live (h : ¬ (i.add.isNever && i.mul.isNever) = true) :
    i.normalizeLoad =
      { i with
        add := i.add.defaultAlways.clearIdleDst, mul := i.mul.defaultAlways.clearIdleDst } := by
  unfold normalizeLoad
  dsimp only
  rw [isNever_defaultAlways, isNever_defaultAlways, if_neg h]
  rfl

theorem shaped_of_settleLoad {shape : LoadShape} {conds : Option (Condition × Condition)}
    {addDst mulDst : Register} {value : UInt32} {setFlags packMode : Bool}
    (hadd : addDst.Writable) (hmul : mulDst.Writable)
    (h : settleLoad { (blank pc line labels).withLoad shape conds addDst mulDst value with
      setFlags := setFlags, packMode := packMode } = .ok j) :
    Shaped IsLabel pc line labels j := by
  obtain ⟨ac, ad, had, haddeq⟩ := loadInto_spec (conds.map (·.1)) hadd
  obtain ⟨mc, md, hmd, hmuleq⟩ := loadInto_spec (conds.map (·.2)) hmul
  simp only [withLoad, blank, haddeq, hmuleq] at h
  simp only [settleLoad, except_bind_eq_ok, mapError_eq_ok, except_pure_eq_ok] at h
  obtain ⟨k, hk, rfl⟩ := h
  obtain ⟨_, rfl⟩ := (assignWrites_eq_ok (Register.isAddressed_iff.mpr had.file_cases)
    (Register.isAddressed_iff.mpr hmd.file_cases)).mp hk
  set k := withWrites _
  by_cases hidle : (k.add.isNever && k.mul.isNever) = true
  · rw [normalizeLoad_of_idle hidle]
    exact @Shaped.alu _ _ _ _ _ _ .quiet _ _ false ⟨0, 0, false⟩
      (Slot.settled_nop (by decide) .a) (Slot.settled_nop (by decide) .b) (by decide) (by decide)
  · rw [normalizeLoad_of_live hidle, Slot.defaultAlways, Slot.defaultAlways, clearIdleDst_eq,
      clearIdleDst_eq]
    exact .load (liveNum_lt had.num_lt) (liveNum_lt hmd.num_lt)

theorem shaped_of_settleBranch {test : BranchTest} {any : Option Bool} {addDst mulDst : Register}
    {target : Target} (hadd : addDst.Writable) (hmul : mulDst.Writable)
    (htarget : ∀ num offset, target = .register num offset → num.toNat < 32)
    (h : settleBranch ((blank pc line labels).withBranch test any addDst mulDst target) = .ok j) :
    Shaped IsLabel pc line labels j := by
  cases target with
  | label name =>
      obtain ⟨_, rfl⟩ := (assignWrites_eq_ok (Register.isAddressed_iff.mpr hadd.file_cases)
        (Register.isAddressed_iff.mpr hmul.file_cases)).mp (mapError_eq_ok.mp h)
      exact .jump hadd.num_lt hmul.num_lt ⟨name, rfl⟩
  | register num offset =>
      obtain ⟨_, rfl⟩ := (assignWrites_eq_ok (Register.isAddressed_iff.mpr hadd.file_cases)
        (Register.isAddressed_iff.mpr hmul.file_cases)).mp (mapError_eq_ok.mp h)
      exact .jumpVia hadd.num_lt hmul.num_lt (htarget num offset rfl)

theorem settleAlu_ne_defect (hadd : i.add.Written 32) (hmul : i.mul.Written 8) (d : Defect) :
    i.settleAlu ≠ .error (.defect d) := by
  have hlt : ∀ r ∈ i.sourceRegisters, r.num < Register.indexLimit := by
    intro r hr
    have hmem := mem_sourceRegisters.mp hr
    simp only [sources, List.mem_cons, List.not_mem_nil, or_false] at hmem
    rcases hmem with h | h | h | h
    · exact hadd.source_lt (.inl h.symm)
    · exact hadd.source_lt (.inr h.symm)
    · exact hmul.source_lt (.inl h.symm)
    · exact hmul.source_lt (.inr h.symm)
  intro h
  rcases except_bind_eq_error.mp h with h | ⟨bound, _, h⟩
  · exact assignReads_ne_defect hlt d h
  · rcases except_bind_eq_error.mp h with h | ⟨_, _, h⟩
    · exact assignWrites_ne_defect d h
    · cases h

theorem settle_ne_defect (hi : Parsed pc line labels i) (d : Defect) :
    i.settle ≠ .error (.defect d) := by
  intro h
  cases hi with
  | alu hadd hmul _ => exact settleAlu_ne_defect hadd hmul d h
  | load _ _ =>
      rcases except_bind_eq_error.mp h with h | ⟨_, _, h⟩
      · exact assignWrites_ne_defect d h
      · cases h
  | semaphore _ => cases h
  | @branch _ _ _ _ target _ _ _ =>
      cases target with
      | label name => exact assignWrites_ne_defect d h
      | register num offset => exact assignWrites_ne_defect d h

theorem shaped_of_settle (hi : Parsed pc line labels i) (h : i.settle = .ok j) :
    Shaped IsLabel pc line labels j := by
  cases hi with
  | alu hadd hmul hsignal => exact shaped_of_settleAlu hadd hmul hsignal h
  | load hadd hmul => exact shaped_of_settleLoad hadd hmul h
  | semaphore hnumber =>
      cases h
      exact .semaphore hnumber
  | @branch test any addDst mulDst target hadd hmul htarget =>
      cases target with
      | label name => exact shaped_of_settleBranch hadd hmul htarget h
      | register num offset => exact shaped_of_settleBranch hadd hmul htarget h

end Instruction

end QuadAsm
