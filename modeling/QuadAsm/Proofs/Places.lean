import QuadAsm.Proofs.Stages

/-!
# Places of instructions

The place of an instruction is its address, its line and the labels that are attached to it. Reading
and settling do the same at every place: what they make of an instruction stands where it stood, and
what they refuse they refuse at its line, for the same reason. So do the stages as a whole, if lines
are only numbered in another way.
-/

namespace QuadAsm

namespace Diagnostic

def atLine (line : ℕ) : Diagnostic → Diagnostic
  | .malformed _ reason => .malformed line reason
  | .undefinedLabel _ name => .undefinedLabel line name

theorem line_atLine (d : Diagnostic) (line : ℕ) : (d.atLine line).line = line := by
  cases d <;> rfl

end Diagnostic

namespace Failure

def atLine (line : ℕ) : Failure → Failure
  | .diagnostic d => .diagnostic (d.atLine line)
  | .defect d => .defect d

end Failure

theorem Reader.map_run {α β : Type} (f : α → β) (read : Reader α) (tokens : List String) :
    (f <$> read) tokens =
      match read tokens with
      | .ok value rest => .ok (f value) rest
      | .error reason rest => .error reason rest := by
  change EStateM.map f read tokens = _
  unfold EStateM.map
  cases read tokens with
  | ok value rest => rfl
  | error reason rest => rfl

namespace Instruction

/-- The instruction at another place. -/
def placed (pc : UInt32) (line : ℕ) (labels : List String) (i : Instruction) : Instruction :=
  { i with pc := pc, line := line, labels := labels }

/-- The stage does the same at every place. -/
def Placeless (stage : Instruction → Except Failure Instruction) : Prop :=
  ∀ (i : Instruction) (pc : UInt32) (line : ℕ) (labels : List String),
    stage (i.placed pc line labels) =
      mapBoth (Failure.atLine line) (placed pc line labels) (stage i)

/-- An instruction is itself placed where it stands, so what is made of it must stand there too. -/
theorem place_eq_of_placed {ε : Type} {stage : Instruction → Except ε Instruction}
    {i j : Instruction}
    (h : ∀ {i j : Instruction} pc line labels, stage i = .ok j →
      stage (i.placed pc line labels) = .ok (j.placed pc line labels))
    (hi : stage i = .ok j) : j.pc = i.pc ∧ j.line = i.line ∧ j.labels = i.labels := by
  have hplace : j = j.placed i.pc i.line i.labels :=
    Except.ok.inj (hi.symm.trans (h i.pc i.line i.labels hi))
  exact ⟨(congrArg Instruction.pc hplace :), (congrArg Instruction.line hplace :),
    (congrArg Instruction.labels hplace :)⟩

variable {i j : Instruction} {stage next : Instruction → Except Failure Instruction}
  {e : Failure}

namespace Placeless

theorem bind (h : Placeless stage) (h' : Placeless next) :
    Placeless fun i => stage i >>= next := by
  intro i pc line labels
  change stage (i.placed pc line labels) >>= next = _
  rw [h]
  exact mapBoth_bind (fun j => h' j pc line labels) (stage i)

theorem ok (h : Placeless stage) (pc : UInt32) (line : ℕ) (labels : List String)
    (hi : stage i = .ok j) : stage (i.placed pc line labels) = .ok (j.placed pc line labels) := by
  rw [h, hi]
  rfl

theorem place_eq (h : Placeless stage) (hi : stage i = .ok j) :
    j.pc = i.pc ∧ j.line = i.line ∧ j.labels = i.labels :=
  place_eq_of_placed h.ok hi

theorem error_eq (h : Placeless stage) (hi : stage i = .error e) : e = e.atLine i.line := by
  have hplace := h i i.pc i.line i.labels
  rw [hi] at hplace
  exact Except.error.inj (hi.symm.trans hplace)

theorem line_of_error {d : Diagnostic} (h : Placeless stage)
    (hi : stage i = .error (.diagnostic d)) : d.line = i.line := by
  have hline : d = d.atLine i.line := Failure.diagnostic.inj (h.error_eq hi)
  rw [hline, d.line_atLine]

theorem failure?_placed (h : Placeless stage) (pc : UInt32) (labels : List String) :
    failure? (stage (i.placed pc i.line labels)) = failure? (stage i) := by
  rw [h, failure?_mapBoth]
  cases hi : stage i with
  | ok j => rfl
  | error e => exact congrArg some (h.error_eq hi).symm

end Placeless

section Reading

variable (pc : UInt32) (line : ℕ) (labels : List String)

theorem applyTail_placed (token : String) :
    (i.placed pc line labels).applyTail token = (i.applyTail token).map (placed pc line labels) := by
  by_cases hsf : token = "sf"
  · by_cases hset : i.setFlags = true
    · simp [applyTail, placed, hsf, hset, Except.map]
    · simp [applyTail, placed, hsf, hset, Except.map]
  by_cases hpm : token = "pm"
  · by_cases hset : i.packMode = true
    · simp [applyTail, placed, hpm, hset, Except.map]
    · simp [applyTail, placed, hpm, hset, Except.map]
  cases hsignal : Signal.ofWord? token with
  | none => simp [applyTail, hsf, hpm, hsignal, Except.map]
  | some signal =>
      by_cases hkind : i.kind = .alu
      · by_cases hquiet : i.signal = .quiet
        · simp [applyTail, placed, hsf, hpm, hsignal, hkind, hquiet, Except.map]
        · simp [applyTail, placed, hsf, hpm, hsignal, hkind, hquiet, Except.map]
      · simp [applyTail, placed, hsf, hpm, hsignal, hkind, Except.map]

theorem readTail_placed :
    (i.placed pc line labels).readTail = placed pc line labels <$> i.readTail := by
  funext tokens
  induction tokens generalizing i with
  | nil => rfl
  | cons token rest ih =>
      rw [Reader.map_run, readTail, readTail]
      by_cases hend : token = ";"
      · rw [if_pos hend, if_pos hend]
      · rw [if_neg hend, if_neg hend, applyTail_placed]
        cases i.applyTail token with
        | error reason => rfl
        | ok j =>
            change (j.placed pc line labels).readTail rest = _
            rw [ih, Reader.map_run]

theorem start_placed (mnemonic : Mnemonic) :
    mnemonic.start (i.placed pc line labels) = (mnemonic.start i).placed pc line labels := by
  cases mnemonic <;> rfl

theorem setTarget_placed (target : Target) :
    (i.placed pc line labels).setTarget target = (i.setTarget target).placed pc line labels := by
  cases target <;> rfl

theorem readBranch_placed :
    (i.placed pc line labels).readBranch = placed pc line labels <$> i.readBranch := by
  have hkind : (i.placed pc line labels).kind = i.kind := rfl
  simp only [readBranch, hkind]
  cases i.kind with
  | branch test =>
      simp only [map_bind, map_pure, ← setTarget_placed]
      rfl
  | alu => rfl
  | load shape => rfl
  | semaphore direction => rfl

theorem readOperandsAs_placed (form : Form) :
    (i.placed pc line labels).readOperandsAs form =
      placed pc line labels <$> i.readOperandsAs form := by
  cases form with
  | alu =>
      simp only [readOperandsAs, readAlu, map_bind, map_pure]
      rfl
  | load =>
      simp only [readOperandsAs, readLoad, map_bind, map_pure]
      rfl
  | semaphore =>
      simp only [readOperandsAs, readSemaphore, map_bind, apply_ite, map_pure]
      rfl
  | branch => exact readBranch_placed pc line labels

theorem read_placed : (i.placed pc line labels).read = placed pc line labels <$> i.read := by
  simp only [Instruction.read, map_bind, start_placed]
  congr 1
  funext mnemonic
  have hkind : ((mnemonic.start i).placed pc line labels).kind = (mnemonic.start i).kind := rfl
  rw [hkind, readOperandsAs_placed, bind_map_left]
  congr 1
  funext j
  change (if j.kind.form = .branch then _ else _) = _
  by_cases hform : j.kind.form = .branch
  · rw [if_pos hform, if_pos hform, map_pure]
  · rw [if_neg hform, if_neg hform, readTail_placed]

end Reading

theorem parse_placeless (text : String) :
    Placeless fun i => (i.parse text).mapError .diagnostic := by
  intro i pc line labels
  unfold parse Reader.runAt
  cases tokenize text with
  | none => rfl
  | some tokens =>
      simp only [read_placed, Reader.map_run]
      cases i.read tokens with
      | ok j rest => rfl
      | error reason rest => rfl

section Settling

theorem bindReads_placed (pc : UInt32) (line : ℕ) (labels : List String) :
    (i.placed pc line labels).bindReads = i.bindReads.map (placed pc line labels) := by
  unfold bindReads
  change (i.explicitAddresses.bindSlot i.add >>= _) =
    Except.map _ (i.explicitAddresses.bindSlot i.add >>= _)
  cases i.explicitAddresses.bindSlot i.add with
  | error reason => rfl
  | ok bound =>
      obtain ⟨add, taken⟩ := bound
      change (taken.bindSlot i.mul >>= _) = Except.map _ (taken.bindSlot i.mul >>= _)
      cases taken.bindSlot i.mul with
      | error reason => rfl
      | ok last => rfl

theorem assignReads_placeless : Placeless assignReads := by
  intro i pc line labels
  have hregisters : (i.placed pc line labels).sourceRegisters = i.sourceRegisters := rfl
  have hconflict : (i.placed pc line labels).readConflict? = i.readConflict? := rfl
  unfold assignReads
  rw [hregisters, hconflict, bindReads_placed]
  by_cases hlimit : i.sourceRegisters.any (Register.indexLimit ≤ ·.num)
  · rw [if_pos hlimit, if_pos hlimit]
    rfl
  · rw [if_neg hlimit, if_neg hlimit]
    cases i.readConflict? with
    | some reason => rfl
    | none =>
        cases i.bindReads with
        | error reason => rfl
        | ok j => rfl

theorem assignWrites_placeless : Placeless fun i => i.assignWrites.mapError .diagnostic := by
  intro i pc line labels
  have hconflict : (i.placed pc line labels).writeConflict? = i.writeConflict? := rfl
  unfold assignWrites
  simp only [hconflict]
  cases i.writeConflict? with
  | some reason => rfl
  | none => rfl

theorem normalizeLoad_placed (pc : UInt32) (line : ℕ) (labels : List String) :
    (i.placed pc line labels).normalizeLoad = i.normalizeLoad.placed pc line labels := by
  by_cases h : (i.add.defaultAlways.isNever && i.mul.defaultAlways.isNever) = true
  · simp only [normalizeLoad, placed, h, if_true]
    rfl
  · simp only [normalizeLoad, placed, h]
    rfl

theorem settleAlu_placeless : Placeless settleAlu := by
  have hclear : Placeless fun i => pure i.clearIdleDsts := fun i pc line labels => rfl
  apply assignReads_placeless.bind
  apply Placeless.bind _ hclear
  intro i pc line labels
  exact assignWrites_placeless { i with add := i.add.settle, mul := i.mul.settle } pc line labels

theorem settleLoad_placeless : Placeless settleLoad := by
  refine assignWrites_placeless.bind fun i pc line labels => ?_
  rw [normalizeLoad_placed]
  rfl

theorem settle_placeless : Placeless settle := by
  intro i pc line labels
  change (i.placed pc line labels).settleAs i.kind.form = mapBoth _ _ (i.settleAs i.kind.form)
  cases i.kind.form with
  | alu => exact settleAlu_placeless i pc line labels
  | load => exact settleLoad_placeless i pc line labels
  | semaphore => rfl
  | branch => exact assignWrites_placeless i pc line labels

end Settling

section Encoding

variable (pc : UInt32) (line : ℕ) (labels : List String)

theorem encode_placed : (i.placed pc line labels).encode = i.encode := by
  change (i.placed pc line labels).encodeAs i.kind.form = i.encodeAs i.kind.form
  cases i.kind.form <;> rfl

theorem withEncoding_placed :
    (i.placed pc line labels).withEncoding = i.withEncoding.map (placed pc line labels) := by
  unfold withEncoding
  rw [encode_placed]
  cases i.encode with
  | error d => rfl
  | ok w => rfl

end Encoding

end Instruction

end QuadAsm
