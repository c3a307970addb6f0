import QuadAsm.Proofs.PortChoice
import QuadAsm.Proofs.SentenceReading
import QuadAsm.Proofs.SlotMeaning

/-!
# Idle slots

A slot of an ALU statement is idle if it is written so that it can have no effect. Whatever stands
in it, all its fields in the words are zero then, while a slot that is not idle can be told by its
code and its condition. Two idle slots leave nothing in the low word, and in the high word only the
flags and the signal. A small immediate among their sources is gone, but the signal that it claimed
is not.
-/

namespace QuadAsm

theorem Condition.never_written_iff (cond : Option (Named ofWord?)) :
    cond.map (·.value) = some .never ↔ ∃ c ∈ cond, c.word = "x" := by
  rw [Option.map_eq_some_iff]
  exact exists_congr fun c => and_congr_right fun _ => c.value_eq_iff ofWord?_eq_never

namespace Operation

variable {codes : String → Option UInt8}

/-- The slot, as it is written, has no effect: it is left out, its condition never holds, it reads
nothing, or it writes nowhere and reads no peripheral register. -/
def Idle : Option (Operation codes) → Prop
  | none => True
  | some o =>
    (∃ c ∈ o.cond, c.word = "x") ∨ o.lhs.word = "-" ∧ o.rhs.word = "-" ∨
      o.dst.word = "-" ∧ o.lhs.value.isPeripheral = false ∧ o.rhs.value.isPeripheral = false

def reads : Option (Operation codes) → List Register
  | none => []
  | some o => [o.lhs.value, o.rhs.value]

theorem dropped_slotOf_iff (hzero : ∀ {word}, codes word = some 0 ↔ word = "-")
    (o : Option (Operation codes)) : (slotOf o).Dropped ↔ Idle o := by
  cases o with
  | none => exact iff_of_true (.inl rfl) trivial
  | some o =>
      have hcode : o.op.value ≠ 0 := (o.op.value_eq_iff hzero).not.mpr o.used
      simp only [slotOf, slot, Slot.Dropped, hcode, Condition.never_written_iff, false_or,
        Operand.reg.injEq, o.lhs.value_eq_iff Register.readable?_eq_nop,
        o.rhs.value_eq_iff Register.readable?_eq_nop, o.dst.value_eq_iff Register.writable?_eq_nop,
        Operand.isPeripheral, Idle]

theorem mem_reads {o : Option (Operation codes)} {r : Register} (hr : r.file ≠ .accumulator) :
    (.reg r = (slotOf o).lhs ∨ .reg r = (slotOf o).rhs) ↔ r ∈ reads o := by
  cases o with
  | none =>
      refine iff_of_false ?_ List.not_mem_nil
      rintro (h | h)
      · cases h
        exact hr rfl
      · cases h
        exact hr rfl
  | some o => simp [slotOf, slot, reads]

end Operation

structure WordPair.Clears (layout : SlotLayout) (w : WordPair) : Prop where
  op : layout.op.get w.lo = 0
  lhs : layout.lhs.get w.lo = 0
  rhs : layout.rhs.get w.lo = 0
  cond : layout.cond.get w.hi = 0
  dst : layout.dst.get w.hi = 0

/-- The slot has an operation and a condition that can hold. -/
structure WordPair.Fills (layout : SlotLayout) (w : WordPair) : Prop where
  op : layout.op.get w.lo ≠ 0
  cond : layout.cond.get w.hi ≠ 0

theorem Condition.code_ne_zero {c : Condition} (h : c ≠ .never) : c.code ≠ 0 := by
  cases c with
  | never => exact absurd rfl h
  | _ => decide

namespace Slot

variable {layout : SlotLayout} {w : WordPair} {s : Slot} {file : RegisterFile} {lhs rhs : Operand}

theorem clears_of_finished (hd : s.Dropped) (h : (s.finished file lhs rhs).EncodedAt layout w) :
    w.Clears layout := by
  rw [finished, if_pos hd] at h
  obtain ⟨_, ⟨⟩, hcond⟩ := h.cond
  obtain ⟨_, ⟨⟩, hlhs⟩ := h.lhs
  obtain ⟨_, ⟨⟩, hrhs⟩ := h.rhs
  exact ⟨h.code, hlhs.selector, hrhs.selector, hcond, h.dst⟩

theorem fills_of_finished (hd : ¬ s.Dropped) (h : (s.finished file lhs rhs).EncodedAt layout w) :
    w.Fills layout := by
  rw [finished, if_neg hd] at h
  obtain ⟨_, ⟨⟩, hcond⟩ := h.cond
  constructor
  · rw [h.code]
    intro hzero
    exact hd (.inl (UInt8.toUInt32_inj.mp hzero))
  · rw [hcond]
    exact Condition.code_ne_zero (cond_ne_never_of_not_dropped hd)

end Slot

namespace Instruction

open BitField

variable {i bound : Instruction} {pc : UInt32} {line : ℕ} {labels : List String}

def settledNop (pc : UInt32) (line : ℕ) (labels : List String) (signal : Signal)
    (setFlags packMode : Bool) : Instruction :=
  { blank pc line labels with
    add := { Slot.nop with dst := ⟨.a, 0⟩ }
    mul := { Slot.nop with dst := ⟨.b, 0⟩ }
    signal := signal
    setFlags := setFlags
    packMode := packMode }

def nopHighWord (signal : Signal) (setFlags packMode : Bool) : ℕ :=
  signal.code.toNat * 2 ^ 28 + packMode.toNat * 2 ^ 24 + setFlags.toNat * 2 ^ 13

theorem nopHighWord_lt (signal : Signal) (setFlags packMode : Bool) :
    nopHighWord signal setFlags packMode < 2 ^ 32 := by
  have hsignal : signal.code.toNat < 16 := signal.code_holds.2
  have hset := setFlags.toNat_le
  have hpack := packMode.toNat_le
  unfold nopHighWord
  omega

theorem highWord_settledNop (signal : Signal) (setFlags packMode : Bool) :
    (settledNop pc line labels signal setFlags packMode).highWord =
      .ok (UInt32.ofNat (nopHighWord signal setFlags packMode)) := by
  set parts : List (BitField × UInt32) := [(Layout.signal, signal.code),
    (Layout.setFlags, if setFlags then 1 else 0), (Layout.packMode, if packMode then 1 else 0)]
    with hparts
  have hword :
      packed ((settledNop pc line labels signal setFlags packMode).highParts .never .never) =
        packed parts := by
    change packed [(Layout.signal, signal.code), (Layout.unpack, 0), (Layout.pack, 0),
      (Layout.addCond, 0), (Layout.mulCond, 0), (Layout.addDst, 0), (Layout.mulDst, 0),
      (Layout.writeSwap, 0), (Layout.setFlags, if setFlags then 1 else 0),
      (Layout.packMode, if packMode then 1 else 0)] = _
    simp only [hparts, packed, set_zero, UInt32.zero_or]
  have hpairwise : (parts.map Prod.fst).Pairwise Apart := by
    change [Layout.signal, Layout.setFlags, Layout.packMode].Pairwise Apart
    decide
  have hholds : ∀ part ∈ parts, part.1.Holds part.2 := by
    simp [hparts, signal.code_holds, holds_bit, Layout.packMode, Layout.setFlags]
  rw [highWord_eq rfl rfl, hword]
  refine congrArg Except.ok (UInt32.toNat.inj ?_)
  have hbit : ∀ on : Bool, (if on then (1 : UInt32) else 0).toNat = on.toNat := by decide
  rw [UInt32.toNat_ofNat_of_lt' (nopHighWord_lt signal setFlags packMode),
    toNat_packed hpairwise hholds, hparts, List.map_cons, List.sum_cons, List.map_cons,
    List.sum_cons, List.map_singleton, List.sum_singleton, hbit, hbit, nopHighWord, Nat.add_assoc,
    Nat.add_comm (packMode.toNat * _)]
  rfl

theorem encode_settledNop (signal : Signal) (setFlags packMode : Bool) :
    (settledNop pc line labels signal setFlags packMode).encode =
      .ok ⟨0, UInt32.ofNat (nopHighWord signal setFlags packMode)⟩ := by
  have hr0 := Register.r0_fetched ⟨0, 0, false⟩
  have hlow : (settledNop pc line labels signal setFlags packMode).lowWord Register.r0 Register.r0
      Register.r0 Register.r0 = 0 := by
    simp [lowWord, lowParts, packed, settledNop, Slot.nop, Register.selector, Register.r0,
      Register.addressWord, Register.addressBits, Register.port?]
  rw [← hlow]
  exact encodeAlu_eq hr0 hr0 hr0 hr0 rfl rfl rfl rfl (highWord_settledNop signal setFlags packMode)

theorem finishedAs_of_dropped (hadd : i.add.Dropped) (hmul : i.mul.Dropped)
    (h : i.assignReads = .ok bound) :
    i.finishedAs bound = { i with
      add := { Slot.nop with dst := ⟨.a, 0⟩ }
      mul := { Slot.nop with dst := ⟨.b, 0⟩ }
      signal := if i.readsImmediate then .smallImmediate else i.signal
      writeSwap := false } := by
  obtain ⟨_, _, hbind⟩ := assignReads_eq_ok.mp h
  obtain ⟨_, _, hbound⟩ := bindReads_eq_ok.mp hbind
  have hswap : (i.reducedAs bound).needsSwap = false := by
    rw [needsSwap, reducedAs, Slot.reduced, Slot.reduced, if_pos hadd, if_pos hmul]
    rfl
  rw [finishedAs, hswap, Slot.finished, Slot.finished, if_pos hadd, if_pos hmul, hbound]
  rfl

end Instruction

namespace Sentence

variable {add : Option (Operation Slot.addCode?)} {mul : Option (Operation Slot.mulCode?)}
  {tail : Tail} {pc : UInt32} {line : ℕ} {labels : List String} {w : WordPair}

/-- The signal that an ALU statement ends with. A small immediate claims it, in whichever slot it is
written, and otherwise it is the one that the tail names. -/
def aluSignal (add : Option (Operation Slot.addCode?)) (mul : Option (Operation Slot.mulCode?))
    (tail : Tail) : Signal :=
  if ∃ r ∈ Operation.reads add ++ Operation.reads mul, r.file = .smallImmediate then .smallImmediate
  else tail.signal?.getD .quiet

theorem readsImmediate_alu_iff :
    ((alu add mul tail).instruction pc line labels).readsImmediate = true ↔
      ∃ r ∈ Operation.reads add ++ Operation.reads mul, r.file = .smallImmediate := by
  have hread : ∀ n, ((alu add mul tail).instruction pc line labels).Reads .smallImmediate n ↔
      ⟨.smallImmediate, n⟩ ∈ Operation.reads add ++ Operation.reads mul := by
    intro n
    rw [List.mem_append, ← Operation.mem_reads (by simp), ← Operation.mem_reads (by simp)]
    simp [Instruction.Reads, Instruction.sources, instruction, or_assoc]
  rw [Instruction.readsImmediate_iff]
  constructor
  · rintro ⟨n, hn⟩
    exact ⟨_, (hread n).mp hn, rfl⟩
  · rintro ⟨⟨_, n⟩, hr, rfl⟩
    exact ⟨n, (hread n).mpr hr⟩

/-- The words of an ALU statement show which of its slots are idle, and nothing else of those. -/
structure IdleCleared (add : Option (Operation Slot.addCode?))
    (mul : Option (Operation Slot.mulCode?)) (tail : Tail) (w : WordPair) : Prop where
  addIdle : Operation.Idle add → w.Clears .add
  addBusy : ¬ Operation.Idle add → w.Fills .add
  mulIdle : Operation.Idle mul → w.Clears .mul
  mulBusy : ¬ Operation.Idle mul → w.Fills .mul
  low : w.lo = 0 ↔ Operation.Idle add ∧ Operation.Idle mul
  high : Operation.Idle add ∧ Operation.Idle mul →
    w.hi.toNat = (aluSignal add mul tail).code.toNat * 2 ^ 28 +
      (tail.has .packMode).toNat * 2 ^ 24 + (tail.has .setFlags).toNat * 2 ^ 13

theorem words_of_idle {bound : Instruction} {ports : ReadPorts}
    (h : ((alu add mul tail).instruction pc line labels).EncodedAs bound ports w)
    (hadd : Operation.Idle add) (hmul : Operation.Idle mul) :
    w = ⟨0, UInt32.ofNat (Instruction.nopHighWord (aluSignal add mul tail) (tail.has .setFlags)
      (tail.has .packMode))⟩ := by
  have hnop := Instruction.finishedAs_of_dropped
    ((Operation.dropped_slotOf_iff Slot.addCode?_eq_zero add).mpr hadd)
    ((Operation.dropped_slotOf_iff Slot.mulCode?_eq_zero mul).mpr hmul) h.reads
  simp only [readsImmediate_alu_iff] at hnop
  have hencode := h.encode
  rw [hnop] at hencode
  exact Except.ok.inj (hencode.symm.trans (Instruction.encode_settledNop _ _ _))

theorem idleCleared_of_passage {settled : List Instruction} {k : ℕ} {s : Statement}
    {j l : Instruction}
    (h : Passage settled k s ((alu add mul tail).instruction pc line labels) j l w) :
    IdleCleared add mul tail w := by
  obtain ⟨_, _, bound, ports, hencoded⟩ := h.encodedAs rfl
  have hadd := Operation.dropped_slotOf_iff Slot.addCode?_eq_zero add
  have hmul := Operation.dropped_slotOf_iff Slot.mulCode?_eq_zero mul
  have hidle := words_of_idle hencoded
  have haddBusy : ¬ Operation.Idle add → w.Fills .add :=
    fun hbusy => Slot.fills_of_finished (hadd.not.mpr hbusy) hencoded.add
  have hmulBusy : ¬ Operation.Idle mul → w.Fills .mul :=
    fun hbusy => Slot.fills_of_finished (hmul.not.mpr hbusy) hencoded.mul
  refine ⟨fun hi => Slot.clears_of_finished (hadd.mpr hi) hencoded.add, haddBusy,
    fun hi => Slot.clears_of_finished (hmul.mpr hi) hencoded.mul, hmulBusy, ⟨?_, ?_⟩, ?_⟩
  · intro hlow
    constructor
    · by_contra hbusy
      exact (haddBusy hbusy).op (by rw [hlow, BitField.get_zero])
    · by_contra hbusy
      exact (hmulBusy hbusy).op (by rw [hlow, BitField.get_zero])
  · rintro ⟨ha, hm⟩
    rw [hidle ha hm]
  · rintro ⟨ha, hm⟩
    rw [hidle ha hm]
    exact UInt32.toNat_ofNat_of_lt' (Instruction.nopHighWord_lt _ _ _)

end Sentence

/-- In every text that assembles, the words of an ALU statement are empty just where it is idle. -/
theorem idle_slots_cleared {source : String} {p : Program} (h : assemble source = .ok p) :
    ∃ statements, (Scan.ofSource source).statements = .ok statements ∧
      p.instrs.length = statements.length ∧
      ∀ (k : ℕ) (s : Statement), statements[k]? = some s →
        ∃ f w, p.instrs[k]? = some f ∧ f.encoding = some w ∧
          ∀ add mul tail, tokenize s.text = some (Sentence.alu add mul tail).tokens →
            Sentence.IdleCleared add mul tail w := by
  obtain ⟨statements, hscan, hlength, hwords⟩ := words_of_sentences h
    (R := fun x w => ∀ add mul tail, x = .alu add mul tail → Sentence.IdleCleared add mul tail w)
    (by rintro _ _ _ _ _ _ _ hp add mul tail rfl; exact Sentence.idleCleared_of_passage hp)
  refine ⟨statements, hscan, hlength, ?_⟩
  intro k s hs
  obtain ⟨f, w, hf, hw, hR⟩ := hwords k s hs
  exact ⟨f, w, hf, hw, fun add mul tail htokens => hR _ htokens add mul tail rfl⟩

def neverAdd : Operation Slot.addCode? where
  op := ⟨"add", 12, by decide⟩
  used := by decide
  cond := some ⟨"x", .never, by decide⟩
  dst := ⟨"a1", ⟨.a, 1⟩, by decide +kernel⟩
  lhs := ⟨"r1", ⟨.accumulator, 1⟩, by decide +kernel⟩
  rhs := ⟨"-1", ⟨.smallImmediate, 31⟩, by decide +kernel⟩

def nowhereMul : Operation Slot.mulCode? where
  op := ⟨"fmul", 1, by decide⟩
  used := by decide
  cond := none
  dst := ⟨"-", Register.nop, by decide +kernel⟩
  lhs := ⟨"r2", ⟨.accumulator, 2⟩, by decide +kernel⟩
  rhs := ⟨"a3", ⟨.a, 3⟩, by decide +kernel⟩

/-- Both slots are idle, for different reasons, and the small immediate leaves its signal. -/
def idleText : String := "add.x, a1, r1, -1 fmul, -, r2, a3 sf pm;"

theorem idle_slots_cleared_immediate :
    ∃ p f w, assemble idleText = .ok p ∧
      p.instrs[0]? = some f ∧ f.encoding = some w ∧ w.Clears .add ∧ w.Clears .mul ∧ w.lo = 0 ∧
      w.hi.toNat = 13 * 2 ^ 28 + 2 ^ 24 + 2 ^ 13 := by
  obtain ⟨p, hp, _⟩ := exists_ok_of_toOption (f := (·.instrs.length)) (b := 1)
    (x := assemble idleText) (by decide +kernel)
  obtain ⟨statements, hscan, _, hwords⟩ := idle_slots_cleared hp
  have hone : (Scan.ofSource idleText).statements.toOption = some [⟨1, [], idleText⟩] := by
    decide +kernel
  rw [hscan] at hone
  cases hone
  obtain ⟨f, w, hf, hw, hcleared⟩ := hwords 0 _ rfl
  have h := hcleared (some neverAdd) (some nowhereMul) ⟨[.setFlags, .packMode], by decide⟩
    (by decide +kernel)
  have hadd : Operation.Idle (some neverAdd) := .inl ⟨_, rfl, rfl⟩
  have hmul : Operation.Idle (some nowhereMul) := .inr (.inr ⟨rfl, rfl, rfl⟩)
  exact ⟨p, f, w, hp, hf, hw, h.addIdle hadd, h.mulIdle hmul, h.low.mpr ⟨hadd, hmul⟩,
    h.high ⟨hadd, hmul⟩⟩

end QuadAsm
