import QuadAsm.Proofs.SentenceReading

/-!
# When two slots write the same register

An index is either shared by both files or means a register of its own in each of them; no name of
a destination breaks this rule. So two slots that run can only meet in one register if they name the
same one, and that is refused. Conversely, only the destinations of slots that are not dropped
count: `Sentence.addWrite?` and `mulWrite?` say which these are, from the statement as it is written.
-/

namespace QuadAsm

namespace Register

variable {r t : Register}

/-- The indices past the general registers that mean another register in each file. -/
def bankIndices : List UInt8 := [41, 42, 49, 50]

theorem Writable.index_cases (h : r.Writable) :
    r.file ≠ .shared ∧ (r.num < 32 ∨ r.num ∈ bankIndices) ∨
      r.file = .shared ∧ 32 ≤ r.num ∧ r.num ∉ bankIndices := by
  have htable : ∀ r ∈ writeTable.map Prod.snd, r.file ≠ .shared ∧ r.num ∈ bankIndices ∨
      r.file = .shared ∧ 32 ≤ r.num ∧ r.num ∉ bankIndices := by decide
  rcases h.cases with ⟨hfile, hlt⟩ | hmem
  · refine .inl ⟨?_, .inl (UInt8.lt_iff_toNat_lt.mpr hlt)⟩
    rcases hfile with hfile | hfile <;> simp [hfile]
  · exact (htable r hmem).imp (fun h => ⟨h.1, .inr h.2⟩) id

/-- The two cannot be written at once: they ask for the same file by name, or they are the same
register of the shared file. Writing nowhere is in nobody's way. -/
def Collides (r t : Register) : Prop :=
  r.file = t.file ∧ r.file ≠ .shared ∨ r = t ∧ r.file = .shared ∧ r ≠ nop

theorem not_collides_nop_left : ¬ nop.Collides t := by
  rintro (⟨_, h⟩ | ⟨_, _, h⟩)
  · exact h rfl
  · exact h rfl

theorem not_collides_nop_right : ¬ r.Collides nop := by
  rintro (⟨he, h⟩ | ⟨he, _, h⟩)
  · exact h he
  · exact h he

theorem Writable.isPeripheral_iff (h : r.Writable) (hf : r.file = .shared) :
    r.isPeripheral = true ↔ r ≠ nop := by
  have hle : 32 ≤ r.num := by
    rcases h.index_cases with ⟨hne, _⟩ | ⟨_, hle, _⟩
    · exact absurd hf hne
    · exact hle
  have hnop : r = nop ↔ r.num = nopNum := by
    constructor
    · intro he
      rw [he]
      rfl
    · intro he
      rw [nop, ← hf, ← he]
  simp [isPeripheral, isAddressed, hf, hle, hnop]

/-- Registers that do not collide have one index only if it is no shared one. -/
theorem Writable.num_of_not_collides (hr : r.Writable) (ht : t.Writable) (h : ¬ r.Collides t)
    (hnum : r.num = t.num) : r.num < 32 ∨ r.num = nopNum ∨ r.num ∈ bankIndices := by
  rcases hr.index_cases with ⟨_, hindex⟩ | ⟨hfile, hle, hbank⟩
  · exact hindex.imp id .inr
  · rcases ht.index_cases with ⟨_, hindex⟩ | ⟨hfile', _, _⟩
    · rw [← hnum] at hindex
      exact hindex.imp id .inr
    · have hsame : r = t := by
        cases r
        cases t
        simp_all
      have hnop : r = nop := by
        by_contra hne
        exact h (.inr ⟨hsame, hfile, hne⟩)
      rw [hnop]
      exact .inr (.inl rfl)

/-- The register of the machine that a destination stands for, if any. -/
def hardware? (r : Register) : Option Register :=
  if r.num = nopNum then none
  else if r.num < 32 ∨ r.num ∈ bankIndices then some r
  else some ⟨.shared, r.num⟩

theorem num_of_hardware? (h : r.hardware? = some t) : t.num = r.num := by
  unfold hardware? at h
  split_ifs at h
  · cases h
    rfl
  · cases h
    rfl

theorem hardware?_ne (hfile : r.file ≠ t.file)
    (hnum : r.num = t.num → r.num < 32 ∨ r.num = nopNum ∨ r.num ∈ bankIndices) {m : Register}
    (hr : r.hardware? = some m) : t.hardware? ≠ some m := by
  intro ht
  have hsame : r.num = t.num := (num_of_hardware? hr).symm.trans (num_of_hardware? ht)
  by_cases hnop : r.num = nopNum
  · rw [hardware?, if_pos hnop] at hr
    cases hr
  · have hown : r.num < 32 ∨ r.num ∈ bankIndices := by
      rcases hnum hsame with h | h | h
      · exact .inl h
      · exact absurd h hnop
      · exact .inr h
    rw [hardware?, if_neg hnop, if_pos hown] at hr
    rw [hsame] at hnop hown
    rw [hardware?, if_neg hnop, if_pos hown] at ht
    apply hfile
    rw [Option.some.inj hr, Option.some.inj ht]

end Register

/-- The reasons that find fault with the destinations. -/
def Reason.OfWrites : Reason → Prop
  | .sameWriteFile _ | .sameWriteRegister _ => True
  | _ => False

namespace Instruction

variable {i j : Instruction}

theorem ofWrites_of_writeConflict? {reason : Reason} (h : i.writeConflict? = some reason) :
    reason.OfWrites := by
  unfold writeConflict? at h
  split_ifs at h
  · cases h
    trivial
  · cases h
    trivial

theorem writeConflict?_eq_none (hadd : i.add.dst.Writable) :
    i.writeConflict? = none ↔ ¬ i.add.dst.Collides i.mul.dst := by
  unfold writeConflict?
  split_ifs with hfile hsame
  · simp only [false_iff, not_not]
    exact .inl hfile
  · obtain ⟨he, hs, hp⟩ := hsame
    simp only [false_iff, not_not]
    exact .inr ⟨he, hs, (hadd.isPeripheral_iff hs).mp hp⟩
  · simp only [true_iff]
    rintro (h | ⟨he, hs, hne⟩)
    · exact hfile h
    · exact hsame ⟨he, hs, (hadd.isPeripheral_iff hs).mpr hne⟩

theorem assignWrites_eq_error {d : Diagnostic} :
    i.assignWrites = .error d ↔
      ∃ reason, i.writeConflict? = some reason ∧ d = .malformed i.line reason := by
  unfold assignWrites
  cases i.writeConflict? with
  | none => simp
  | some reason => simp [eq_comm]

theorem not_ofWrites_of_readConflict? {reason : Reason} (h : i.readConflict? = some reason) :
    ¬ reason.OfWrites := by
  unfold readConflict? at h
  split_ifs at h <;> cases h <;> exact not_false

end Instruction

theorem ReadAddresses.not_ofWrites_of_bindSlot {taken : ReadAddresses} {s : Slot} {reason : Reason}
    (h : taken.bindSlot s = .error reason) : ¬ reason.OfWrites := by
  have hoperand : ∀ (taken : ReadAddresses) (o : Operand),
      taken.bindOperand o = .error reason → ¬ reason.OfWrites := by
    intro taken o ho
    cases o with
    | reg r =>
        simp only [bindOperand] at ho
        split_ifs at ho
        split at ho
        · cases ho
        · cases ho
          exact not_false
    | imm value => cases ho
    | label name => cases ho
  rcases except_bind_eq_error.mp h with h | ⟨_, _, h⟩
  · exact hoperand _ _ h
  · rcases except_bind_eq_error.mp h with h | ⟨_, _, h⟩
    · exact hoperand _ _ h
    · cases h

namespace Instruction

variable {i j bound : Instruction}

theorem not_ofWrites_of_assignReads {line : ℕ} {reason : Reason}
    (h : i.assignReads = .error (.diagnostic (.malformed line reason))) : ¬ reason.OfWrites := by
  unfold assignReads at h
  split_ifs at h
  · cases h
  · cases hc : i.readConflict? with
    | some found =>
        simp only [hc] at h
        cases h
        exact not_ofWrites_of_readConflict? hc
    | none =>
        simp only [hc, mapError_eq_error] at h
        obtain ⟨found, hbind, he⟩ := h
        cases he
        rcases except_bind_eq_error.mp hbind with h | ⟨_, _, h⟩
        · exact ReadAddresses.not_ofWrites_of_bindSlot h
        · rcases except_bind_eq_error.mp h with h | ⟨_, _, h⟩
          · exact ReadAddresses.not_ofWrites_of_bindSlot h
          · cases h

end Instruction

namespace Slot

def aluWrite? (s : Slot) : Option Register := if s.Dropped then none else some s.dst

def loadWrite? (cond : Option Condition) (dst : Register) : Option Register :=
  if cond = some .never ∨ dst = Register.nop then none else some dst

theorem reduced_dst (s : Slot) (lhs rhs : Operand) :
    (s.reduced lhs rhs).dst = s.aluWrite?.getD Register.nop := by
  unfold reduced aluWrite?
  split_ifs <;> rfl

theorem ofLoad_dst (cond : Option Condition) (dst : Register) :
    (ofLoad cond dst).dst = (loadWrite? cond dst).getD Register.nop := by
  unfold ofLoad loadWrite?
  split_ifs <;> rfl

theorem Written.write_writable {limit : ℕ} {s : Slot} (h : s.Written limit) :
    (s.aluWrite?.getD Register.nop).Writable := by
  unfold aluWrite?
  split_ifs
  · exact Register.nop_writable
  · cases h with
    | unused => exact Register.nop_writable
    | used _ _ hdst _ _ => exact hdst

theorem loadWrite_writable (cond : Option Condition) {dst : Register} (h : dst.Writable) :
    ((loadWrite? cond dst).getD Register.nop).Writable := by
  unfold loadWrite?
  split_ifs
  · exact Register.nop_writable
  · exact h

theorem finished_dst_num {s : Slot} {file : RegisterFile} {lhs rhs : Operand}
    (h : (s.finished file lhs rhs).cond ≠ some .never) :
    ∃ r, s.aluWrite? = some r ∧ (s.finished file lhs rhs).dst.num = r.num := by
  unfold finished aluWrite? at *
  split_ifs at h ⊢
  · exact absurd rfl h
  · exact ⟨s.dst, rfl, rfl⟩

theorem finished_dst_file (s : Slot) (file : RegisterFile) (lhs rhs : Operand) :
    (s.finished file lhs rhs).dst.file = file := by
  unfold finished
  split_ifs <;> rfl

theorem clearIdleDst_cond (s : Slot) : s.clearIdleDst.cond = s.cond := by
  unfold clearIdleDst
  split_ifs <;> rfl

theorem clearIdleDst_dst_file (s : Slot) : s.clearIdleDst.dst.file = s.dst.file := by
  unfold clearIdleDst
  split_ifs <;> rfl

theorem live_dst_num {s : Slot} {cond : Option Condition} {dst : Register}
    (hcond : s.cond = (ofLoad cond dst).cond) (hnum : s.dst.num = (ofLoad cond dst).dst.num)
    (h : s.defaultAlways.clearIdleDst.cond ≠ some .never) :
    ∃ r, loadWrite? cond dst = some r ∧ s.defaultAlways.clearIdleDst.dst.num = r.num := by
  rw [clearIdleDst_cond] at h
  have hlive : s.defaultAlways.isNever = false := by simpa [isNever] using h
  have hsame : s.defaultAlways.clearIdleDst = s.defaultAlways := by
    rw [clearIdleDst, if_neg (by simp [hlive])]
  rw [hsame]
  unfold ofLoad at hcond hnum
  unfold loadWrite?
  split_ifs at hcond hnum ⊢ with hdrop
  · rw [Instruction.isNever_defaultAlways, isNever, hcond] at hlive
    cases hlive
  · exact ⟨dst, rfl, hnum⟩

end Slot

namespace Sentence

/-- The destination of the add slot, if the slot is not dropped. -/
def addWrite? : Sentence → Option Register
  | .alu add _ _ => (Operation.slotOf add).aluWrite?
  | .load _ conds addDst _ _ _ _ => Slot.loadWrite? (conds.map (·.1.value)) addDst.value
  | .semaphore _ _ _ _ _ => some Register.nop
  | .branch _ _ addDst _ _ => some addDst.value

def mulWrite? : Sentence → Option Register
  | .alu _ mul _ => (Operation.slotOf mul).aluWrite?
  | .load _ conds _ mulDst _ _ _ => Slot.loadWrite? (conds.map (·.2.value)) mulDst.value
  | .semaphore _ _ _ _ _ => none
  | .branch _ _ _ mulDst _ => some mulDst.value

/-- Neither slot is dropped, and their destinations collide. -/
def Collides (s : Sentence) : Prop :=
  ∃ r t, s.addWrite? = some r ∧ s.mulWrite? = some t ∧ r.Collides t

theorem collides_iff {s : Sentence} :
    s.Collides ↔
      (s.addWrite?.getD Register.nop).Collides (s.mulWrite?.getD Register.nop) := by
  unfold Collides
  cases s.addWrite? with
  | none => simp [Register.not_collides_nop_left]
  | some r =>
      cases s.mulWrite? with
      | none => simp [Register.not_collides_nop_right]
      | some t => simp

theorem writes_writable (s : Sentence) :
    (s.addWrite?.getD Register.nop).Writable ∧ (s.mulWrite?.getD Register.nop).Writable := by
  cases s with
  | alu add mul tail =>
      exact ⟨(Operation.slotOf_written_add add).write_writable,
        (Operation.slotOf_written_mul mul).write_writable⟩
  | load shape conds addDst mulDst value tail silent =>
      exact ⟨Slot.loadWrite_writable _ ⟨_, addDst.named⟩,
        Slot.loadWrite_writable _ ⟨_, mulDst.named⟩⟩
  | semaphore direction number small tail silent =>
      exact ⟨Register.nop_writable, Register.nop_writable⟩
  | branch test any addDst mulDst target => exact ⟨⟨_, addDst.named⟩, ⟨_, mulDst.named⟩⟩

end Sentence

namespace Instruction

variable {s : Sentence} {i j bound : Instruction} {pc : UInt32} {line : ℕ} {labels : List String}

/-- The destinations of `i` are those of the statement, with the NOP register in place of those that
are dropped. So they are before files are assigned. -/
structure DstsOf (s : Sentence) (i : Instruction) : Prop where
  add : i.add.dst = s.addWrite?.getD Register.nop
  mul : i.mul.dst = s.mulWrite?.getD Register.nop

theorem DstsOf.writeConflict?_eq_none (h : DstsOf s i) :
    i.writeConflict? = none ↔ ¬ s.Collides := by
  have hadd : i.add.dst.Writable := h.add ▸ s.writes_writable.1
  rw [Instruction.writeConflict?_eq_none hadd, h.add, h.mul, Sentence.collides_iff]

theorem DstsOf.exists_writeConflict? (h : DstsOf s i) :
    (∃ reason, i.writeConflict? = some reason) ↔ s.Collides := by
  rw [← not_iff_not, ← h.writeConflict?_eq_none]
  cases i.writeConflict? <;> simp

theorem DstsOf.assignWrites_eq_ok (h : DstsOf s i) :
    i.assignWrites = .ok j ↔ ¬ s.Collides ∧ j = i.withWrites := by
  have hadd : i.add.dst.Writable := h.add ▸ s.writes_writable.1
  have hmul : i.mul.dst.Writable := h.mul ▸ s.writes_writable.2
  rw [Instruction.assignWrites_eq_ok (Register.isAddressed_iff.mpr hadd.file_cases)
    (Register.isAddressed_iff.mpr hmul.file_cases), h.writeConflict?_eq_none]

theorem DstsOf.settleLoad_eq_ok (h : DstsOf s i) :
    i.settleLoad = .ok j ↔ ¬ s.Collides ∧ j = i.withWrites.normalizeLoad := by
  simp only [settleLoad, except_bind_eq_ok, mapError_eq_ok, except_pure_eq_ok, h.assignWrites_eq_ok]
  constructor
  · rintro ⟨_, ⟨hapart, rfl⟩, rfl⟩
    exact ⟨hapart, rfl⟩
  · rintro ⟨hapart, rfl⟩
    exact ⟨_, ⟨hapart, rfl⟩, rfl⟩

theorem dstsOf_reducedAs (add : Option (Operation Slot.addCode?))
    (mul : Option (Operation Slot.mulCode?)) (tail : Tail) (bound : Instruction) :
    DstsOf (.alu add mul tail)
      (((Sentence.alu add mul tail).instruction pc line labels).reducedAs bound) :=
  ⟨Slot.reduced_dst _ _ _, Slot.reduced_dst _ _ _⟩

theorem dstsOf_instruction (h : (s.instruction pc line labels).kind.form = .load ∨
    (s.instruction pc line labels).kind.form = .branch) :
    DstsOf s (s.instruction pc line labels) := by
  cases s with
  | alu add mul tail => rcases h with h | h <;> cases h
  | load shape conds addDst mulDst value tail silent =>
      exact ⟨Slot.ofLoad_dst _ _, Slot.ofLoad_dst _ _⟩
  | semaphore direction number small tail silent => rcases h with h | h <;> cases h
  | branch test any addDst mulDst target => exact ⟨rfl, rfl⟩

/-- Each slot of `j` writes the file that the swap leaves to it and, if it runs, the register that
the statement names. -/
structure WritesAs (s : Sentence) (j : Instruction) : Prop where
  addFile : j.add.dst.file = addFile j.writeSwap
  mulFile : j.mul.dst.file = mulFile j.writeSwap
  addNum : j.add.cond ≠ some .never → ∃ r, s.addWrite? = some r ∧ j.add.dst.num = r.num
  mulNum : j.mul.cond ≠ some .never → ∃ r, s.mulWrite? = some r ∧ j.mul.dst.num = r.num

theorem writesAs_of_settle (h : (s.instruction pc line labels).settle = .ok j) :
    WritesAs s j ∧ ¬ s.Collides := by
  cases s with
  | alu add mul tail =>
      obtain ⟨bound, _, hconflict, rfl⟩ := (settleAlu_eq_ok (Operation.slotOf_written_add add)
        (Operation.slotOf_written_mul mul)).mp h
      exact ⟨⟨Slot.finished_dst_file _ _ _ _, Slot.finished_dst_file _ _ _ _,
        Slot.finished_dst_num, Slot.finished_dst_num⟩,
        (dstsOf_reducedAs add mul tail bound).writeConflict?_eq_none.mp hconflict⟩
  | load shape conds addDst mulDst value tail silent =>
      obtain ⟨hapart, rfl⟩ := (dstsOf_instruction (.inl rfl)).settleLoad_eq_ok.mp h
      refine ⟨?_, hapart⟩
      set k := withWrites _
      by_cases hidle : (k.add.isNever && k.mul.isNever) = true
      · rw [normalizeLoad_of_idle hidle]
        exact ⟨rfl, rfl, fun h => absurd rfl h, fun h => absurd rfl h⟩
      · rw [normalizeLoad_of_live hidle]
        exact ⟨Slot.clearIdleDst_dst_file _, Slot.clearIdleDst_dst_file _,
          Slot.live_dst_num rfl rfl, Slot.live_dst_num rfl rfl⟩
  | semaphore direction number small tail silent =>
      cases h
      refine ⟨⟨rfl, rfl, fun _ => ⟨_, rfl, rfl⟩, fun h => absurd rfl h⟩, ?_⟩
      rintro ⟨_, _, _, ⟨⟩, _⟩
  | branch test any addDst mulDst target =>
      obtain ⟨hapart, rfl⟩ :=
        (dstsOf_instruction (.inr rfl)).assignWrites_eq_ok.mp (mapError_eq_ok.mp h)
      exact ⟨⟨rfl, rfl, fun _ => ⟨_, rfl, rfl⟩, fun _ => ⟨_, rfl, rfl⟩⟩, hapart⟩

/-- The statement is refused, and it is for its destinations. -/
def WriteRefused (i : Instruction) : Prop :=
  ∃ reason, reason.OfWrites ∧ i.settle = .error (.diagnostic (.malformed i.line reason))

/-- The sources of an ALU statement find their ports; other statements have no need of any. -/
def ReadsPass (i : Instruction) : Prop := i.kind = .alu → ∃ bound, i.assignReads = .ok bound

theorem readsPass_of_kind (h : i.kind ≠ .alu) : i.ReadsPass := fun he => absurd he h

theorem settleAlu_writeRefused_iff (hadd : i.add.Written 32) (hmul : i.mul.Written 8) :
    (∃ reason, reason.OfWrites ∧
        i.settleAlu = .error (.diagnostic (.malformed i.line reason))) ↔
      ∃ bound, i.assignReads = .ok bound ∧
        ∃ reason, (i.reducedAs bound).writeConflict? = some reason := by
  constructor
  · rintro ⟨reason, hwrites, h⟩
    -- The sources come first, and what is wrong with them is never put on the destinations.
    rcases except_bind_eq_error.mp h with h | ⟨bound, hreads, h⟩
    · exact absurd hwrites (not_ofWrites_of_assignReads h)
    · rcases except_bind_eq_error.mp h with h | ⟨_, _, h⟩
      · obtain ⟨d, hd, _⟩ := mapError_eq_error.mp h
        rw [settledSlots_eq hadd hmul hreads] at hd
        obtain ⟨found, hfound, _⟩ := assignWrites_eq_error.mp hd
        exact ⟨bound, hreads, found, hfound⟩
      · cases h
  · rintro ⟨bound, hreads, reason, h⟩
    obtain ⟨ports, hb⟩ := readsBound_of_assignReads hreads
    have hline : bound.line = i.line := by rw [hb.eq]
    have hwrites := assignWrites_eq_error.mpr ⟨reason, h, rfl⟩
    rw [← settledSlots_eq hadd hmul hreads] at hwrites
    refine ⟨reason, ofWrites_of_writeConflict? h, ?_⟩
    refine except_bind_eq_error.mpr (.inr ⟨bound, hreads, except_bind_eq_error.mpr (.inl ?_)⟩)
    rw [← hline]
    exact mapError_eq_error.mpr ⟨_, hwrites, rfl⟩

theorem assignWrites_writeRefused_iff :
    (∃ reason, reason.OfWrites ∧
        i.assignWrites.mapError Failure.diagnostic =
          .error (.diagnostic (.malformed i.line reason))) ↔
      ∃ reason, i.writeConflict? = some reason := by
  constructor
  · rintro ⟨reason, _, h⟩
    obtain ⟨d, hd, _⟩ := mapError_eq_error.mp h
    obtain ⟨found, hfound, _⟩ := assignWrites_eq_error.mp hd
    exact ⟨found, hfound⟩
  · rintro ⟨reason, h⟩
    exact ⟨reason, ofWrites_of_writeConflict? h,
      mapError_eq_error.mpr ⟨_, assignWrites_eq_error.mpr ⟨reason, h, rfl⟩, rfl⟩⟩

theorem settleLoad_eq_error {e : Failure} :
    i.settleLoad = .error e ↔ i.assignWrites.mapError .diagnostic = .error e := by
  rw [settleLoad, except_bind_eq_error]
  constructor
  · rintro (h | ⟨_, _, h⟩)
    · exact h
    · cases h
  · exact .inl

theorem writeRefused_iff :
    (s.instruction pc line labels).WriteRefused ↔
      (s.instruction pc line labels).ReadsPass ∧ s.Collides := by
  cases s with
  | alu add mul tail =>
      refine (settleAlu_writeRefused_iff (Operation.slotOf_written_add add)
        (Operation.slotOf_written_mul mul)).trans ?_
      simp only [(dstsOf_reducedAs add mul tail _).exists_writeConflict?, exists_and_right]
      exact and_congr_left' ⟨fun h _ => h, fun h => h rfl⟩
  | load shape conds addDst mulDst value tail silent =>
      rw [← (dstsOf_instruction (.inl rfl)).exists_writeConflict?, ← assignWrites_writeRefused_iff]
      simp only [← settleLoad_eq_error]
      exact (and_iff_right (readsPass_of_kind (by simp [Sentence.instruction]))).symm
  | semaphore direction number small tail silent =>
      constructor
      · rintro ⟨_, _, ⟨⟩⟩
      · rintro ⟨_, _, _, _, ⟨⟩, _⟩
  | branch test any addDst mulDst target =>
      rw [← (dstsOf_instruction (.inr rfl)).exists_writeConflict?, ← assignWrites_writeRefused_iff]
      exact (and_iff_right (readsPass_of_kind (by simp [Sentence.instruction]))).symm

/-- The slots of `f` write different files, as the swap says, and if both run they do not meet in
one register. -/
structure PortsApart (f : Instruction) : Prop where
  add : f.add.dst.file = if f.writeSwap then .b else .a
  mul : f.mul.dst.file = if f.writeSwap then .a else .b
  index : f.add.cond ≠ some .never → f.mul.cond ≠ some .never → f.add.dst.num = f.mul.dst.num →
    f.add.dst.num < 32 ∨ f.add.dst.num = Register.nopNum ∨ f.add.dst.num ∈ Register.bankIndices
  register : f.add.cond ≠ some .never → f.mul.cond ≠ some .never →
    ∀ m, f.add.dst.hardware? = some m → f.mul.dst.hardware? ≠ some m

theorem WritesAs.portsApart (h : WritesAs s j) (hapart : ¬ s.Collides) : PortsApart j := by
  have hindex : j.add.cond ≠ some .never → j.mul.cond ≠ some .never →
      j.add.dst.num = j.mul.dst.num → j.add.dst.num < 32 ∨ j.add.dst.num = Register.nopNum ∨
        j.add.dst.num ∈ Register.bankIndices := by
    intro ha hm hsame
    obtain ⟨r, hr, hrnum⟩ := h.addNum ha
    obtain ⟨t, ht, htnum⟩ := h.mulNum hm
    obtain ⟨hrw, htw⟩ := s.writes_writable
    rw [hr] at hrw
    rw [ht] at htw
    rw [hrnum, htnum] at hsame
    rw [hrnum]
    exact hrw.num_of_not_collides htw (fun hc => hapart ⟨r, t, hr, ht, hc⟩) hsame
  have hfiles : j.add.dst.file ≠ j.mul.dst.file := by
    rw [h.addFile, h.mulFile]
    cases j.writeSwap <;> decide
  refine ⟨h.addFile, h.mulFile, hindex, ?_⟩
  intro ha hm m hm'
  exact Register.hardware?_ne hfiles (hindex ha hm) hm'

end Instruction

/-- In every program the ports of the two slots are apart. Conversely a statement that is read is
refused for its destinations just if they collide, its sources being in order. -/
theorem write_ports_apart :
    (∀ source p, assemble source = .ok p → ∀ f ∈ p.instrs, f.PortsApart) ∧
      ∀ st k i, Statement.instruction st k = .ok i →
        ∃ s : Sentence, tokenize st.text = some s.tokens ∧
          (i.WriteRefused ↔ i.ReadsPass ∧ s.Collides) := by
  constructor
  · intro source p h f hf
    obtain ⟨settled, k, st, i, j, l, w, hp, rfl⟩ := passage_of_mem h hf
    obtain ⟨_, s, _, rfl⟩ := Statement.instruction_eq_ok_iff.mp hp.read
    obtain ⟨hwrites, hapart⟩ := Instruction.writesAs_of_settle hp.settle
    have hj := hwrites.portsApart hapart
    rw [eq_of_link hp.link]
    exact ⟨hj.add, hj.mul, hj.index, hj.register⟩
  · intro st k i hi
    obtain ⟨_, s, htokens, rfl⟩ := Statement.instruction_eq_ok_iff.mp hi
    exact ⟨s, htokens, Instruction.writeRefused_iff⟩

/-- Two setup registers have one index and are still apart. One register for both slots of a load is
refused, for no other reason than that. -/
theorem write_ports_apart_setup :
    (∃ p f, assemble "add, vpmwrs, r1, r2 fmul, vpmrds, r2, r3;" = .ok p ∧ f ∈ p.instrs ∧
      f.add.dst = ⟨.b, 49⟩ ∧ f.mul.dst = ⟨.a, 49⟩ ∧ f.PortsApart) ∧
    ∃ i, Statement.instruction ⟨1, [], "li, r1, r1, 7;"⟩ 0 = .ok i ∧
      ∃ s : Sentence, tokenize "li, r1, r1, 7;" = some s.tokens ∧ i.WriteRefused ∧ s.Collides := by
  constructor
  · obtain ⟨p, hp, hdsts⟩ := exists_ok_of_toOption
      (f := (·.instrs.map fun f => (f.add.dst, f.mul.dst)))
      (x := assemble "add, vpmwrs, r1, r2 fmul, vpmrds, r2, r3;")
      (b := [(⟨.b, 49⟩, ⟨.a, 49⟩)]) (by decide +kernel)
    obtain ⟨f, hf, hdst⟩ := List.mem_map.mp (hdsts ▸ List.mem_singleton_self _)
    exact ⟨p, f, hp, hf, congrArg Prod.fst hdst, congrArg Prod.snd hdst,
      write_ports_apart.1 _ p hp f hf⟩
  · obtain ⟨i, hi, hdst⟩ := exists_ok_of_toOption
      (f := fun i => (i.kind, i.add.dst, i.mul.dst))
      (x := Statement.instruction ⟨1, [], "li, r1, r1, 7;"⟩ 0)
      (b := (.load .word, ⟨.shared, 33⟩, ⟨.shared, 33⟩)) (by decide +kernel)
    obtain ⟨s, htokens, hrefused⟩ := write_ports_apart.2 _ _ i hi
    obtain ⟨hkind, hadd, hmul⟩ := by simpa only [Prod.mk.injEq] using hdst
    have h : i.WriteRefused := by
      refine ⟨.sameWriteRegister ⟨.shared, 33⟩, trivial, ?_⟩
      rw [Instruction.settle, hkind]
      refine Instruction.settleLoad_eq_error.mpr (mapError_eq_error.mpr ⟨_,
        Instruction.assignWrites_eq_error.mpr ⟨_, ?_, rfl⟩, rfl⟩)
      rw [Instruction.writeConflict?, hadd, hmul]
      decide
    exact ⟨i, hi, s, htokens, h, (hrefused.mp h).2⟩

end QuadAsm
