import QuadAsm.Proofs.Stages
import QuadAsm.Proofs.WordFields

/-!
# What the words of an ALU statement mean

A statement names an operation, a condition, a destination and two sources for each slot. `StatedBy`
says where the words have to hold them. A source in the shared file may be read through either port,
so the words leave a choice there; for everything else they leave none. Every slot that is not
dropped is stated by the words of its instruction.
-/

namespace QuadAsm

def WordPair.Marks (w : WordPair) (ports : ReadPorts) : Prop :=
  Layout.signal.get w.hi = Signal.smallImmediate.code ↔ ports.immediate = true

namespace Register

def ReadFromA (field : BitField) (w : WordPair) (r : Register) : Prop :=
  field.get w.lo = Layout.selectA ∧ Layout.readA.get w.lo = r.num.toUInt32

def ReadFromB (field : BitField) (w : WordPair) (r : Register) : Prop :=
  field.get w.lo = Layout.selectB ∧ Layout.readB.get w.lo = r.num.toUInt32 ∧
    Layout.signal.get w.hi ≠ Signal.smallImmediate.code

def ReadAsImmediate (field : BitField) (w : WordPair) (r : Register) : Prop :=
  field.get w.lo = Layout.selectB ∧ Layout.readB.get w.lo = r.num.toUInt32 ∧
    Layout.signal.get w.hi = Signal.smallImmediate.code

/-- The words make the source whose selector stands in `field` the one that is written `r`. -/
def StatedBy (field : BitField) (w : WordPair) (r : Register) : Prop :=
  match r.file with
  | .accumulator => field.get w.lo = r.num.toUInt32
  | .a => r.ReadFromA field w
  | .b => r.ReadFromB field w
  | .smallImmediate => r.ReadAsImmediate field w
  | .shared =>
    if r.num = nopNum then field.get w.lo = 0 else r.ReadFromA field w ∨ r.ReadFromB field w

variable {field : BitField} {w : WordPair} {ports : ReadPorts} {r t : Register}

theorem statedBy_of_readBack (hthrough : t.ReadThrough ports)
    (hsignal : w.Marks ports)
    (h : t.ReadBack field w.lo) : t.StatedBy field w := by
  obtain ⟨file, num⟩ := t
  cases file with
  | a => exact ⟨h.selector, h.address _ rfl⟩
  | b =>
      refine ⟨h.selector, h.address _ rfl, ?_⟩
      intro hs
      cases hthrough.2.symm.trans (hsignal.mp hs)
  | smallImmediate => exact ⟨h.selector, h.address _ rfl, hsignal.mpr hthrough.2⟩
  | accumulator => exact h.selector
  | shared => exact hthrough.elim

theorem statedBy_of_boundAs (hn : ¬ t.isNop) (hb : r.BoundAs t) (hthrough : t.ReadThrough ports)
    (hsignal : w.Marks ports)
    (h : t.ReadBack field w.lo) : r.StatedBy field w := by
  have ht := statedBy_of_readBack hthrough hsignal h
  by_cases hf : r.file = .shared
  · have hnum : r.num ≠ nopNum := by
      intro he
      apply hn
      rw [hb.isNop_eq]
      simp [isNop, isAddressed, hf, he]
    rw [BoundAs, if_pos hf] at hb
    obtain ⟨hfile, hnumeq⟩ := hb
    simp only [StatedBy, hf, if_neg hnum]
    rcases hfile with hfile | hfile
    · left
      simp only [StatedBy, hfile, ReadFromA, hnumeq] at ht
      exact ht
    · right
      simp only [StatedBy, hfile, ReadFromB, hnumeq] at ht
      exact ht
  · rw [BoundAs, if_neg hf] at hb
    subst t
    exact ht

theorem statedBy_of_replaceNop {o : Operand} (hr : r.Readable)
    (hb : (Operand.reg r).Binds (·.ReadThrough ports) o)
    (hsignal : w.Marks ports)
    (h : ∃ t, o.replaceNop = .reg t ∧ t.ReadBack field w.lo) : r.StatedBy field w := by
  obtain ⟨t, rfl, hb, hthrough⟩ := hb
  obtain ⟨u, hu, h⟩ := h
  by_cases hn : t.isNop
  · have hr0 : u = r0 := by simpa [Operand.replaceNop, hn, eq_comm] using hu
    have hnop : r = nop := hr.eq_nop (by rw [← hb.isNop_eq, hn])
    rw [hnop]
    rw [hr0] at h
    exact h.selector
  · have hut : u = t := by simpa [Operand.replaceNop, hn, eq_comm] using hu
    rw [hut] at h
    exact statedBy_of_boundAs hn hb hthrough hsignal h

end Register

namespace Slot

/-- The words hold the operation of the slot as it is written, under its condition if it has one. -/
structure StatedBy (layout : SlotLayout) (w : WordPair) (s : Slot) : Prop where
  code : layout.op.get w.lo = s.code.toUInt32
  cond : layout.cond.get w.hi = (s.cond.getD .always).code
  dst : layout.dst.get w.hi = s.dst.num.toUInt32
  lhs : ∃ r, s.lhs = .reg r ∧ r.StatedBy layout.lhs w
  rhs : ∃ r, s.rhs = .reg r ∧ r.StatedBy layout.rhs w

theorem statedBy_of_finished {limit : ℕ} {ports : ReadPorts} {layout : SlotLayout}
    {file : RegisterFile} {w : WordPair} {s : Slot} {lhs rhs : Operand} (hs : s.Written limit)
    (hd : ¬ s.Dropped) (hl : s.lhs.Binds (·.ReadThrough ports) lhs)
    (hr : s.rhs.Binds (·.ReadThrough ports) rhs)
    (hsignal : w.Marks ports)
    (h : (s.finished file lhs rhs).EncodedAt layout w) : s.StatedBy layout w := by
  rw [finished, if_neg hd] at h
  obtain ⟨c, hc, hcond⟩ := h.cond
  cases hs with
  | unused => exact absurd (Or.inl rfl) hd
  | used _ _ _ hlhs hrhs =>
      refine ⟨h.code, ?_, h.dst, ⟨_, rfl, ?_⟩, ⟨_, rfl, ?_⟩⟩
      · cases hc
        exact hcond
      · exact Register.statedBy_of_replaceNop hlhs hl hsignal h.lhs
      · exact Register.statedBy_of_replaceNop hrhs hr hsignal h.rhs

end Slot

theorem Signal.code_eq_iff (s : Signal) :
    s.code = smallImmediate.code ↔ s = .smallImmediate := by
  cases s <;> decide

namespace Instruction

variable {pc : UInt32} {line : ℕ} {labels : List String} {j l : Instruction} {w : WordPair}
  {table : LabelMap}

/-- The ALU instruction `i` has the words `w`, with its sources bound as in `bound`. -/
structure EncodedAs (i bound : Instruction) (ports : ReadPorts) (w : WordPair) : Prop where
  reads : i.assignReads = .ok bound
  binds : ReadsBound ports i bound
  encode : (i.finishedAs bound).encodeAlu = .ok w
  add : (i.finishedAs bound).add.EncodedAt .add w
  mul : (i.finishedAs bound).mul.EncodedAt .mul w
  marks : w.Marks ports

theorem encodedAs_of_settleAlu {add mul : Slot} {signal : Signal} {setFlags packMode : Bool}
    (hadd : add.Written 32) (hmul : mul.Written 8) (hsignal : signal ≠ .smallImmediate)
    (h : settleAlu { blank pc line labels with
      add := add, mul := mul, signal := signal, setFlags := setFlags, packMode := packMode } =
        .ok j)
    (hlink : j.link table = .ok l) (hw : l.encode = .ok w) :
    ∃ bound ports, EncodedAs { blank pc line labels with
      add := add, mul := mul, signal := signal, setFlags := setFlags, packMode := packMode }
        bound ports w := by
  obtain ⟨bound, hreads, _, rfl⟩ := (settleAlu_eq_ok hadd hmul).mp h
  obtain ⟨ports, hb⟩ := readsBound_of_assignReads hreads
  set j := finishedAs _ bound
  have heq := finishedAs_eq hb
  have hkind : j.kind = .alu := congrArg Instruction.kind heq
  have hmode : j.targetMode = none := congrArg Instruction.targetMode heq
  have hpack : j.pack = 0 := congrArg Instruction.pack heq
  have hunpack : j.unpack = 0 := congrArg Instruction.unpack heq
  have hmarked : j.signal = if ports.immediate then .smallImmediate else signal :=
    congrArg Instruction.signal heq
  obtain ⟨v, c, d, hv, haw, hmw, hf⟩ := encodeAlu_fields (i := j)
    (Slot.settled_finished hadd (by decide) hb.addLhs hb.addRhs _)
    (Slot.settled_finished hmul (by decide) hb.mulLhs hb.mulRhs _)
    (by rw [hpack]; decide) (by rw [hunpack]; decide)
  have hwv : v = w := by
    rw [link_of_not_branchesTo fun name hname => by cases hmode.symm.trans hname.1] at hlink
    rw [← Except.ok.inj hlink, encode, hkind] at hw
    exact Except.ok.inj (hv.symm.trans hw)
  subst v
  refine ⟨bound, ports, hreads, hb, hv, haw, hmw, ?_⟩
  unfold WordPair.Marks
  rw [hf.signal, Signal.code_eq_iff, hmarked]
  exact Signal.marked_iff hsignal _

theorem EncodedAs.statedBy {i bound : Instruction} {ports : ReadPorts}
    (h : EncodedAs i bound ports w) (hadd : i.add.Written 32) (hmul : i.mul.Written 8) :
    (¬ i.add.Dropped → i.add.StatedBy .add w) ∧ (¬ i.mul.Dropped → i.mul.StatedBy .mul w) := by
  constructor
  · intro hd
    exact Slot.statedBy_of_finished hadd hd h.binds.addLhs h.binds.addRhs h.marks h.add
  · intro hd
    exact Slot.statedBy_of_finished hmul hd h.binds.mulLhs h.binds.mulRhs h.marks h.mul

end Instruction

theorem Passage.encodedAs {settled : List Instruction} {k : ℕ} {s : Statement}
    {i j l : Instruction} {w : WordPair} (h : Passage settled k s i j l w) (hkind : i.kind = .alu) :
    i.add.Written 32 ∧ i.mul.Written 8 ∧ ∃ bound ports, i.EncodedAs bound ports w := by
  obtain ⟨hread, hsettle, _, hlink, hencode⟩ := h
  have hparsed := Statement.parsed_of_instruction hread
  cases hparsed with
  | alu hadd hmul hsignal =>
      exact ⟨hadd, hmul, Instruction.encodedAs_of_settleAlu hadd hmul
        (Signal.ne_of_given hsignal).1 hsettle hlink hencode⟩
  | load _ _ => cases hkind
  | semaphore _ => cases hkind
  | @branch _ _ _ _ target _ _ _ =>
      cases target with
      | label name => cases hkind
      | register num offset => cases hkind

theorem Passage.statedBy {settled : List Instruction} {k : ℕ} {s : Statement}
    {i j l : Instruction} {w : WordPair} (h : Passage settled k s i j l w) (hkind : i.kind = .alu) :
    (¬ i.add.Dropped → i.add.StatedBy .add w) ∧ (¬ i.mul.Dropped → i.mul.StatedBy .mul w) := by
  obtain ⟨hadd, hmul, bound, ports, hencoded⟩ := h.encodedAs hkind
  exact hencoded.statedBy hadd hmul

/-- Each ALU statement of a text that assembles keeps its meaning, slot by slot. -/
theorem alu_slots_stated {source : String} {p : Program} (h : assemble source = .ok p) :
    ∃ statements, (Scan.ofSource source).statements = .ok statements ∧
      p.instrs.length = statements.length ∧
      ∀ (k : ℕ) (s : Statement), statements[k]? = some s →
        ∃ i f w, s.instruction k = .ok i ∧ p.instrs[k]? = some f ∧ f.encoding = some w ∧
          (i.kind = .alu →
            (¬ i.add.Dropped → i.add.StatedBy .add w) ∧
              (¬ i.mul.Dropped → i.mul.StatedBy .mul w)) := by
  obtain ⟨statements, settled, hscan, _, hlength, hpassage⟩ := passage_of_assemble h
  refine ⟨statements, hscan, hlength, ?_⟩
  intro k s hs
  obtain ⟨i, j, l, w, hp, hf⟩ := hpassage k s hs
  exact ⟨i, _, w, hp.read, hf, rfl, hp.statedBy⟩

/-- Both slots read the shared register `unif`, which the first one puts on the port of file `a`,
and the small immediate -1 leaves no other place for it. -/
def sharedText : String := "fadd.z, a1, unif, -1 fmul, r2, r3, unif;"

theorem alu_slots_stated_shared :
    ∃ p f w, assemble sharedText = .ok p ∧
      p.instrs[0]? = some f ∧ f.encoding = some w ∧
      Slot.StatedBy .add w
        ⟨1, some .zeroSet, ⟨.a, 1⟩, .reg ⟨.shared, 32⟩, .reg ⟨.smallImmediate, 31⟩⟩ ∧
      Slot.StatedBy .mul w
        ⟨1, none, ⟨.shared, 34⟩, .reg ⟨.accumulator, 3⟩, .reg ⟨.shared, 32⟩⟩ := by
  obtain ⟨p, hp, -⟩ := exists_ok_of_toOption (f := (·.instrs.length)) (b := 1)
    (x := assemble sharedText) (by decide +kernel)
  obtain ⟨statements, hscan, hlength, hstated⟩ := alu_slots_stated hp
  have hone : (Scan.ofSource sharedText).statements.toOption = some [⟨1, [], sharedText⟩] := by
    decide +kernel
  rw [hscan] at hone
  cases hone
  obtain ⟨i, f, w, hi, hf, hw, hslots⟩ := hstated 0 _ rfl
  obtain ⟨r, hr, hparts⟩ := exists_ok_of_toOption (f := fun i => (i.kind, i.add, i.mul))
    (x := Statement.instruction ⟨1, [], sharedText⟩ 0)
    (b := (.alu, ⟨1, some .zeroSet, ⟨.a, 1⟩, .reg ⟨.shared, 32⟩, .reg ⟨.smallImmediate, 31⟩⟩,
      ⟨1, none, ⟨.shared, 34⟩, .reg ⟨.accumulator, 3⟩, .reg ⟨.shared, 32⟩⟩)) (by decide +kernel)
  obtain rfl : r = i := Except.ok.inj (hr.symm.trans hi)
  obtain ⟨hkind, hadd, hmul⟩ := by simpa only [Prod.mk.injEq] using hparts
  rw [hadd, hmul] at hslots
  exact ⟨p, f, w, hp, hf, hw, (hslots hkind).1 (by decide), (hslots hkind).2 (by decide)⟩

end QuadAsm
