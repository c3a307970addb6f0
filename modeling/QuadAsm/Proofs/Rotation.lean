import QuadAsm.Proofs.SlotMeaning

/-!
# Rotations

A vector rotation turns the result of the mul slot, but it is written among the sources of the add
slot, since those of the mul slot have to be accumulators then. Its signal is set when the sources
are bound, and whether the add slot is dropped is only decided after that. So the signal stands in
the words in any case, and the index of the rotation just if the add slot stays.
-/

namespace QuadAsm

theorem Register.file_of_isRotation {r : Register} (h : r.isRotation = true) :
    r.file = .smallImmediate := by
  simp only [isRotation, Bool.and_eq_true, beq_iff_eq] at h
  exact h.1

theorem Operand.isAccumulator_of_binds {Q : Register → Prop} {o p : Operand}
    (ho : o.isAccumulator = true) (hb : o.Binds Q p) : p.replaceNop.isAccumulator = true := by
  cases o with
  | reg r =>
      have hfile : r.file = .accumulator := by simpa [isAccumulator] using ho
      obtain ⟨t, rfl, hrt, _⟩ := hb
      rw [Register.BoundAs, if_neg (by simp [hfile])] at hrt
      subst t
      simp [replaceNop, Register.isNop, Register.isAddressed, isAccumulator, hfile]
  | imm value => cases ho
  | label name => cases ho

theorem Slot.finished_accumulators {Q : Register → Prop} {s : Slot} {lhs rhs : Operand}
    (h : s.Dropped ∨ s.lhs.isAccumulator = true ∧ s.rhs.isAccumulator = true)
    (hl : s.lhs.Binds Q lhs) (hr : s.rhs.Binds Q rhs) (file : RegisterFile) :
    (s.finished file lhs rhs).lhs.isAccumulator = true ∧
      (s.finished file lhs rhs).rhs.isAccumulator = true := by
  unfold finished
  by_cases hd : s.Dropped
  · rw [if_pos hd]
    exact ⟨rfl, rfl⟩
  · rw [if_neg hd]
    obtain ⟨hlhs, hrhs⟩ := h.resolve_left hd
    exact ⟨Operand.isAccumulator_of_binds hlhs hl, Operand.isAccumulator_of_binds hrhs hr⟩

namespace Instruction

variable {ports : ReadPorts} {i bound : Instruction} {w : WordPair} {r : Register}

theorem ReadsAgree.mul_accumulators (h : i.ReadsAgree) (hr : r ∈ i.sourceRegisters)
    (hrot : r.isRotation = true) :
    i.mul.lhs.isAccumulator = true ∧ i.mul.rhs.isAccumulator = true :=
  h.rotation (List.any_eq_true.mpr ⟨r, hr, hrot⟩)

theorem ReadsAgree.rotation_in_add (h : i.ReadsAgree) (hr : r ∈ i.sourceRegisters)
    (hrot : r.isRotation = true) : i.add.lhs = .reg r ∨ i.add.rhs = .reg r := by
  have hmul : (Operand.reg r).isAccumulator = false := by
    simp [Operand.isAccumulator, Register.file_of_isRotation hrot]
  obtain ⟨hlhs, hrhs⟩ := h.mul_accumulators hr hrot
  have hmem := mem_sourceRegisters.mp hr
  simp only [sources, List.mem_cons, List.not_mem_nil, or_false] at hmem
  rcases hmem with h | h | h | h
  · exact .inl h.symm
  · exact .inr h.symm
  · rw [← h, hmul] at hlhs
    cases hlhs
  · rw [← h, hmul] at hrhs
    cases hrhs

theorem ReadsBound.immediate_of_add (h : ReadsBound ports i bound)
    (hr : i.add.lhs = .reg r ∨ i.add.rhs = .reg r) (hfile : r.file = .smallImmediate) :
    ports.immediate = true := by
  have hport : ∀ o, (Operand.reg r).Binds (·.ReadThrough ports) o → ports.immediate = true := by
    rintro o ⟨t, _, hrt, ht⟩
    rw [Register.BoundAs, if_neg (by simp [hfile])] at hrt
    subst t
    simp only [Register.ReadThrough, hfile] at ht
    exact ht.2
  rcases hr with hr | hr
  · exact hport _ (hr ▸ h.addLhs)
  · exact hport _ (hr ▸ h.addRhs)

/-- With the add slot gone all sources are accumulators, which need no address. -/
theorem EncodedAs.readB_of_dropped (h : EncodedAs i bound ports w) (hadd : i.add.Written 32)
    (hmul : i.mul.Written 8) (hdropped : i.add.Dropped)
    (hacc : i.mul.lhs.isAccumulator = true ∧ i.mul.rhs.isAccumulator = true) :
    Layout.readB.get w.lo = 0 := by
  have hb := h.binds
  obtain ⟨hal, har⟩ := Slot.finished_accumulators (.inl hdropped) hb.addLhs hb.addRhs
    (addFile (i.finishedAs bound).writeSwap)
  obtain ⟨hml, hmr⟩ := Slot.finished_accumulators (.inr hacc) hb.mulLhs hb.mulRhs
    (mulFile (i.finishedAs bound).writeSwap)
  apply get_idle_address (Slot.settled_finished hadd (by decide) hb.addLhs hb.addRhs _)
    (Slot.settled_finished hmul (by decide) hb.mulLhs hb.mulRhs _) h.encode (.inr rfl)
  have hsources : ∀ o ∈ (i.finishedAs bound).sources, o.isAccumulator = true := by
    simp only [sources, List.forall_mem_cons, List.not_mem_nil, false_implies, implies_true,
      and_true]
    exact ⟨hal, har, hml, hmr⟩
  intro r hr
  have hfile : r.file = .accumulator := by simpa [Operand.isAccumulator] using hsources _ hr
  simp [Register.port?, hfile]

theorem EncodedAs.rotation (h : EncodedAs i bound ports w) (hadd : i.add.Written 32)
    (hmul : i.mul.Written 8) (hr : r ∈ i.sourceRegisters) (hrot : r.isRotation = true) :
    Layout.signal.get w.hi = Signal.smallImmediate.code ∧
      Layout.readB.get w.lo = if i.add.Dropped then 0 else r.num.toUInt32 := by
  obtain ⟨_, hagree, _⟩ := assignReads_eq_ok.mp h.reads
  have hfile := Register.file_of_isRotation hrot
  have hsource := hagree.rotation_in_add hr hrot
  refine ⟨h.marks.mpr (h.binds.immediate_of_add hsource hfile), ?_⟩
  by_cases hd : i.add.Dropped
  · rw [if_pos hd]
    exact h.readB_of_dropped hadd hmul hd (hagree.mul_accumulators hr hrot)
  · rw [if_neg hd]
    have hstated := (h.statedBy hadd hmul).1 hd
    have hread : ∀ field, r.StatedBy field w → Layout.readB.get w.lo = r.num.toUInt32 := by
      intro field hst
      simp only [Register.StatedBy, hfile] at hst
      exact hst.2.1
    rcases hsource with hsource | hsource
    · obtain ⟨t, ht, hst⟩ := hstated.lhs
      cases hsource.symm.trans ht
      exact hread _ hst
    · obtain ⟨t, ht, hst⟩ := hstated.rhs
      cases hsource.symm.trans ht
      exact hread _ hst

end Instruction

/-- Every ALU statement that reads a rotation has the small immediate signal in its words. The
index of the rotation is there too, unless the add slot is dropped and leaves zero behind. -/
theorem rotation_stays_with_add {source : String} {p : Program} (h : assemble source = .ok p) :
    ∃ statements, (Scan.ofSource source).statements = .ok statements ∧
      p.instrs.length = statements.length ∧
      ∀ (k : ℕ) (s : Statement), statements[k]? = some s →
        ∃ i f w, s.instruction k = .ok i ∧ p.instrs[k]? = some f ∧ f.encoding = some w ∧
          (i.kind = .alu → ∀ r ∈ i.sourceRegisters, r.isRotation = true →
            Layout.signal.get w.hi = 13 ∧
              Layout.readB.get w.lo = if i.add.Dropped then 0 else r.num.toUInt32) := by
  obtain ⟨statements, settled, hscan, _, hlength, hpassage⟩ := passage_of_assemble h
  refine ⟨statements, hscan, hlength, ?_⟩
  intro k s hs
  obtain ⟨i, j, l, w, hp, hf⟩ := hpassage k s hs
  refine ⟨i, _, w, hp.read, hf, rfl, ?_⟩
  intro hkind r hr hrot
  obtain ⟨hadd, hmul, bound, ports, hencoded⟩ := hp.encodedAs hkind
  exact hencoded.rotation hadd hmul hr hrot

def keptRotation : String := "add, r3, r1, rot3 fmul, r2, r0, r1;"

/-- The same rotation next to an add slot that is dropped. -/
def lostRotation : String := "add, -, r1, rot3 fmul, r2, r0, r1;"

theorem rotation_stays_with_add_twice :
    ∃ p f g v w, assemble (keptRotation ++ "\n" ++ lostRotation) = .ok p ∧
      p.instrs[0]? = some f ∧ f.encoding = some v ∧
      Layout.signal.get v.hi = 13 ∧ Layout.readB.get v.lo = 51 ∧
      p.instrs[1]? = some g ∧ g.encoding = some w ∧
      Layout.signal.get w.hi = 13 ∧ Layout.readB.get w.lo = 0 := by
  obtain ⟨p, hp, _⟩ := exists_ok_of_toOption (f := (·.instrs.length)) (b := 2)
    (x := assemble (keptRotation ++ "\n" ++ lostRotation)) (by decide +kernel)
  obtain ⟨statements, hscan, _, hrotation⟩ := rotation_stays_with_add hp
  have htwo : (Scan.ofSource (keptRotation ++ "\n" ++ lostRotation)).statements.toOption =
      some [⟨1, [], keptRotation⟩, ⟨2, [], lostRotation⟩] := by decide +kernel
  rw [hscan] at htwo
  cases htwo
  obtain ⟨i, f, v, hi, hf, hv, hkept⟩ := hrotation 0 _ rfl
  obtain ⟨j, g, w, hj, hg, hw, hlost⟩ := hrotation 1 _ rfl
  obtain ⟨_, hi', hparts⟩ := exists_ok_of_toOption
    (f := fun i => (i.kind, i.sourceRegisters, decide i.add.Dropped))
    (x := Statement.instruction ⟨1, [], keptRotation⟩ 0)
    (b := (.alu, [⟨.accumulator, 1⟩, ⟨.smallImmediate, 51⟩, ⟨.accumulator, 0⟩, ⟨.accumulator, 1⟩],
      false)) (by decide +kernel)
  obtain ⟨_, hj', hparts'⟩ := exists_ok_of_toOption
    (f := fun i => (i.kind, i.sourceRegisters, decide i.add.Dropped))
    (x := Statement.instruction ⟨2, [], lostRotation⟩ 1)
    (b := (.alu, [⟨.accumulator, 1⟩, ⟨.smallImmediate, 51⟩, ⟨.accumulator, 0⟩, ⟨.accumulator, 1⟩],
      true)) (by decide +kernel)
  obtain rfl := Except.ok.inj (hi'.symm.trans hi)
  obtain rfl := Except.ok.inj (hj'.symm.trans hj)
  obtain ⟨hkind, hreads, hstays⟩ := by simpa only [Prod.mk.injEq] using hparts
  obtain ⟨hkind', hreads', hdropped⟩ := by simpa only [Prod.mk.injEq] using hparts'
  obtain ⟨hsignal, hindex⟩ := hkept hkind ⟨.smallImmediate, 51⟩ (by simp [hreads]) (by decide)
  obtain ⟨hsignal', hindex'⟩ := hlost hkind' ⟨.smallImmediate, 51⟩ (by simp [hreads']) (by decide)
  rw [if_neg (of_decide_eq_false hstays)] at hindex
  rw [if_pos (of_decide_eq_true hdropped)] at hindex'
  exact ⟨p, f, g, v, w, hp, hf, hv, hsignal, hindex, hg, hw, hsignal', hindex'⟩

/-- So the mul slot can run without the rotation that was written for it. -/
theorem rotation_lost_with_add :
    ∃ p i f w, assemble lostRotation = .ok p ∧
      Statement.instruction ⟨1, [], lostRotation⟩ 0 = .ok i ∧
      i.kind = .alu ∧ ⟨.smallImmediate, 51⟩ ∈ i.sourceRegisters ∧
      f ∈ p.instrs ∧ f.mul.cond = some .always ∧ f.encoding = some w ∧
      Layout.readB.get w.lo ≠ 51 := by
  obtain ⟨p, hp, hfinal⟩ := exists_ok_of_toOption
    (f := (·.instrs.map fun f => (f.mul.cond, f.encoding)))
    (x := assemble lostRotation)
    (b := [(some .always, some ⟨0x20000001, 0xd0004022⟩)]) (by decide +kernel)
  obtain ⟨f, hf, hparts⟩ := List.mem_map.mp (hfinal ▸ List.mem_singleton_self _)
  obtain ⟨hcond, hencoding⟩ := by simpa only [Prod.mk.injEq] using hparts
  obtain ⟨i, hi, hparts⟩ := exists_ok_of_toOption
    (f := fun i => (i.kind, i.sourceRegisters))
    (x := Statement.instruction ⟨1, [], lostRotation⟩ 0)
    (b := (.alu, [⟨.accumulator, 1⟩, ⟨.smallImmediate, 51⟩, ⟨.accumulator, 0⟩, ⟨.accumulator, 1⟩]))
    (by decide +kernel)
  obtain ⟨hkind, hreads⟩ := by simpa only [Prod.mk.injEq] using hparts
  exact ⟨p, i, f, _, hp, hi, hkind, by simp [hreads], hf, hcond, hencoding, by decide⟩

end QuadAsm
