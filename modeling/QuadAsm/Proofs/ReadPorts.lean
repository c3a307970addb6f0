import Mathlib.Algebra.Order.Ring.Nat
import QuadAsm.Access
import QuadAsm.Proofs.Outcomes

/-!
# Read ports

An instruction that gets past `assignReads` reads through two ports. One carries an index of file
`a`, the other an index of file `b` or a small immediate. Addresses are only ever added while the
four sources are bound one after the other, so what a source was bound to is still there at the
end, when all four are read at once.
-/

namespace QuadAsm

structure ReadPorts where
  a : UInt8
  b : UInt8
  /-- The second port carries a small immediate. -/
  immediate : Bool

namespace Register

def ReadThrough (ports : ReadPorts) (r : Register) : Prop :=
  match r.file with
  | .a => r.num = ports.a
  | .b => r.num = ports.b ∧ ports.immediate = false
  | .smallImmediate => r.num = ports.b ∧ ports.immediate = true
  | .accumulator => True
  | .shared => False

/-- `t` is `r` with one of the files `a` and `b` in place of the shared one. -/
def BoundAs (r t : Register) : Prop :=
  if r.file = .shared then (t.file = .a ∨ t.file = .b) ∧ t.num = r.num else t = r

/-- The addresses are enough to read the register, which is in no shared file. -/
def CarriedBy (taken : ReadAddresses) (r : Register) : Prop :=
  match r.file with
  | .a => taken.a = some r.num
  | .b => taken.b = some r.num
  | .shared => False
  | .accumulator | .smallImmediate => True

end Register

namespace ReadAddresses

variable {taken middle after : ReadAddresses}

/-- Addresses that are taken stay as they are, and a small immediate keeps file `b` as it is. -/
structure Extends (taken after : ReadAddresses) : Prop where
  a : ∀ n, taken.a = some n → after.a = some n
  b : ∀ n, taken.b = some n → after.b = some n
  immediate : after.immediate = taken.immediate
  reserved : taken.immediate = true → after.b = taken.b

theorem Extends.refl (taken : ReadAddresses) : taken.Extends taken :=
  ⟨fun _ h => h, fun _ h => h, rfl, fun _ => rfl⟩

theorem Extends.trans (h : taken.Extends middle) (h' : middle.Extends after) :
    taken.Extends after where
  a n hn := h'.a n (h.a n hn)
  b n hn := h'.b n (h.b n hn)
  immediate := h'.immediate.trans h.immediate
  reserved ht := (h'.reserved (h.immediate.trans ht)).trans (h.reserved ht)

theorem Extends.carriedBy {r : Register} (h : taken.Extends after) (hr : r.CarriedBy taken) :
    r.CarriedBy after := by
  unfold Register.CarriedBy at hr ⊢
  cases hf : r.file <;> simp only [hf] at hr ⊢
  · exact h.a _ hr
  · exact h.b _ hr

theorem place_spec {num : UInt8} {file : RegisterFile}
    (h : taken.place num = some (file, after)) :
    taken.Extends after ∧ (file = .a ∧ after.a = some num ∨ file = .b ∧ after.b = some num) := by
  unfold place at h
  split_ifs at h with ha hb hfree hroom
  · cases h
    exact ⟨.refl _, .inl ⟨rfl, ha⟩⟩
  · cases h
    exact ⟨.refl _, .inr ⟨rfl, hb⟩⟩
  · cases h
    refine ⟨⟨?_, fun _ hn => hn, rfl, fun _ => rfl⟩, .inl ⟨rfl, rfl⟩⟩
    intro n hn
    rw [hfree] at hn
    cases hn
  · cases h
    refine ⟨⟨fun _ hn => hn, ?_, rfl, ?_⟩, .inr ⟨rfl, rfl⟩⟩
    · intro n hn
      rw [hroom.1] at hn
      cases hn
    · intro ht
      rw [hroom.2] at ht
      cases ht

end ReadAddresses

/-- `p` is the operand `o` after it is bound, and if it is a register, one with the property `Q`. -/
def Operand.Binds (Q : Register → Prop) : Operand → Operand → Prop
  | .reg r, p => ∃ t, p = .reg t ∧ r.BoundAs t ∧ Q t
  | o, p => p = o

theorem Operand.Binds.imp {P Q : Register → Prop} {o p : Operand} (h : o.Binds P p)
    (hPQ : ∀ t, P t → Q t) : o.Binds Q p := by
  cases o with
  | reg r =>
      obtain ⟨t, hp, hb, ht⟩ := h
      exact ⟨t, hp, hb, hPQ t ht⟩
  | imm value => exact h
  | label name => exact h

namespace ReadAddresses

variable {taken after : ReadAddresses}

/-- The addresses are enough for what an operand asks of a file by name. -/
def Covers (taken : ReadAddresses) (o : Operand) : Prop :=
  ∀ r, o.reg? = some r → r.file ≠ .shared → r.CarriedBy taken

theorem Extends.covers {o : Operand} (h : taken.Extends after) (ho : taken.Covers o) :
    after.Covers o := fun r hr hf => h.carriedBy (ho r hr hf)

theorem bindOperand_spec {o p : Operand} (ho : taken.Covers o)
    (h : taken.bindOperand o = .ok (p, after)) :
    taken.Extends after ∧ o.Binds (·.CarriedBy after) p := by
  cases o with
  | reg r =>
      simp only [bindOperand] at h
      split_ifs at h with hf
      · split at h
        · rename_i file middle hplace
          cases h
          obtain ⟨hext, hfile⟩ := place_spec hplace
          refine ⟨hext, ⟨file, r.num⟩, rfl, ?_, ?_⟩
          · rw [Register.BoundAs, if_pos hf]
            exact ⟨hfile.imp And.left And.left, rfl⟩
          · rcases hfile with ⟨rfl, hnum⟩ | ⟨rfl, hnum⟩
            · exact hnum
            · exact hnum
        · cases h
      · cases h
        exact ⟨.refl _, r, rfl, by rw [Register.BoundAs, if_neg hf], ho r rfl hf⟩
  | imm value =>
      cases h
      exact ⟨.refl _, rfl⟩
  | label name =>
      cases h
      exact ⟨.refl _, rfl⟩

theorem bindSlot_spec {s t : Slot} (hl : taken.Covers s.lhs) (hr : taken.Covers s.rhs)
    (h : taken.bindSlot s = .ok (t, after)) :
    taken.Extends after ∧ s.lhs.Binds (·.CarriedBy after) t.lhs ∧
      s.rhs.Binds (·.CarriedBy after) t.rhs ∧ t = { s with lhs := t.lhs, rhs := t.rhs } := by
  obtain ⟨⟨lhs, middle⟩, hlhs, h⟩ := except_bind_eq_ok.mp h
  obtain ⟨⟨rhs, last⟩, hrhs, h⟩ := except_bind_eq_ok.mp h
  cases h
  obtain ⟨hext, hbl⟩ := bindOperand_spec hl hlhs
  obtain ⟨hext', hbr⟩ := bindOperand_spec (hext.covers hr) hrhs
  exact ⟨hext.trans hext', hbl.imp fun _ ht => hext'.carriedBy ht, hbr, rfl⟩

end ReadAddresses

theorem Demand.ofIndices_eq_one {nums : List UInt8} {n : UInt8} (hn : n ∈ nums)
    (h : ofIndices nums ≠ .several) : ofIndices nums = .one n := by
  cases nums with
  | nil => cases hn
  | cons m nums =>
      simp only [ofIndices] at h ⊢
      split_ifs at h ⊢ with hall
      · rcases List.mem_cons.mp hn with rfl | hn
        · rfl
        · rw [eq_of_beq (List.all_eq_true.mp hall n hn)]
      · exact absurd rfl h

namespace Instruction

variable {i j : Instruction}

theorem mem_sourceRegisters {r : Register} : r ∈ i.sourceRegisters ↔ .reg r ∈ i.sources := by
  rw [sourceRegisters, List.mem_filterMap]
  constructor
  · rintro ⟨o, ho, hr⟩
    cases o with
    | reg t =>
        cases hr
        exact ho
    | imm value => cases hr
    | label name => cases hr
  · intro h
    exact ⟨.reg r, h, rfl⟩

theorem demand_eq_one {r : Register} (hr : r ∈ i.sourceRegisters)
    (h : i.demand r.file ≠ .several) : i.demand r.file = .one r.num := by
  apply Demand.ofIndices_eq_one _ h
  apply List.mem_map_of_mem
  simpa using hr

/-- The sources agree with each other before any file is chosen. -/
structure ReadsAgree (i : Instruction) : Prop where
  immediates : i.demand .smallImmediate ≠ .several
  signal : i.readsImmediate = true → i.signal = .quiet
  fileB : i.readsImmediate = true → i.demand .b = .idle
  rotation : i.readsRotation = true → i.mul.lhs.isAccumulator ∧ i.mul.rhs.isAccumulator
  a : i.demand .a ≠ .several
  b : i.demand .b ≠ .several

theorem readsAgree_iff : i.ReadsAgree ↔ i.readConflict? = none := by
  unfold readConflict?
  constructor
  · intro h
    rw [if_neg h.immediates, if_neg (by simpa using h.signal), if_neg (by simpa using h.fileB),
      if_neg (by simpa using h.rotation), if_neg h.a, if_neg h.b]
  · intro h
    split_ifs at h with himm hsig hb hrot ha hb'
    exact ⟨himm, by simpa using hsig, by simpa using hb, by simpa using hrot, ha, hb'⟩

theorem assignReads_eq_ok :
    i.assignReads = .ok j ↔
      (∀ r ∈ i.sourceRegisters, r.num < Register.indexLimit) ∧ i.ReadsAgree ∧
        i.bindReads = .ok j := by
  unfold assignReads
  rw [readsAgree_iff]
  by_cases hlimit : i.sourceRegisters.any (Register.indexLimit ≤ ·.num)
  · rw [if_pos hlimit]
    constructor
    · intro h
      cases h
    · rintro ⟨hlt, _⟩
      obtain ⟨r, hr, hle⟩ := List.any_eq_true.mp hlimit
      exact absurd (hlt r hr) (UInt8.not_lt.mpr (by simpa using hle))
  · rw [if_neg hlimit]
    have hlt : ∀ r ∈ i.sourceRegisters, r.num < Register.indexLimit := by
      intro r hr
      by_contra hle
      exact hlimit (List.any_eq_true.mpr ⟨r, hr, by simpa using hle⟩)
    cases hc : i.readConflict? with
    | none =>
        simp only [mapError_eq_ok, true_and]
        exact ⟨fun h => ⟨hlt, h⟩, And.right⟩
    | some reason => simp

theorem assignReads_eq_error (h : ∀ r ∈ i.sourceRegisters, r.num < Register.indexLimit)
    {e : Failure} (he : i.assignReads = .error e) :
    ∃ reason, e = .diagnostic (.malformed i.line reason) := by
  have hlimit : ¬ i.sourceRegisters.any (Register.indexLimit ≤ ·.num) := by
    intro hany
    obtain ⟨r, hr, hle⟩ := List.any_eq_true.mp hany
    exact absurd (h r hr) (UInt8.not_lt.mpr (by simpa using hle))
  unfold assignReads at he
  rw [if_neg hlimit] at he
  cases hc : i.readConflict? with
  | none =>
      simp only [hc, mapError_eq_error] at he
      obtain ⟨reason, _, he⟩ := he
      exact ⟨reason, he.symm⟩
  | some reason =>
      simp only [hc] at he
      cases he
      exact ⟨reason, rfl⟩

theorem assignReads_ne_defect (h : ∀ r ∈ i.sourceRegisters, r.num < Register.indexLimit)
    (d : Defect) : i.assignReads ≠ .error (.defect d) := by
  intro he
  obtain ⟨reason, heq⟩ := assignReads_eq_error h he
  cases heq

theorem explicitAddresses_covers (h : i.ReadsAgree) {o : Operand} (ho : o ∈ i.sources) :
    i.explicitAddresses.Covers o := by
  intro r hr hf
  have hmem : r ∈ i.sourceRegisters := List.mem_filterMap.mpr ⟨o, ho, hr⟩
  unfold Register.CarriedBy
  cases hfile : r.file with
  | a =>
      have hone := demand_eq_one hmem (hfile ▸ h.a)
      rw [hfile] at hone
      simp only [explicitAddresses, hone, Demand.index?]
  | b =>
      have hone := demand_eq_one hmem (hfile ▸ h.b)
      rw [hfile] at hone
      simp only [explicitAddresses, hone, Demand.index?]
  | shared => exact hf hfile
  | accumulator => trivial
  | smallImmediate => trivial

def portsAfter (i : Instruction) (taken : ReadAddresses) : ReadPorts where
  a := taken.a.getD 0
  b := if i.readsImmediate then ((i.demand .smallImmediate).index?).getD 0 else taken.b.getD 0
  immediate := i.readsImmediate

/-- What a bound source is carried by is what its port carries. A small immediate leaves file `b`
without an address, so no register of that file is among the sources then. -/
theorem readThrough_of_carriedBy {taken : ReadAddresses} {r t : Register} (h : i.ReadsAgree)
    (hext : i.explicitAddresses.Extends taken) (hr : r ∈ i.sourceRegisters) (hb : r.BoundAs t)
    (ht : t.CarriedBy taken) : t.ReadThrough (i.portsAfter taken) := by
  unfold Register.CarriedBy at ht
  unfold Register.ReadThrough
  cases hf : t.file with
  | a =>
      simp only [hf] at ht
      simp only [portsAfter, ht, Option.getD_some]
  | b =>
      simp only [hf] at ht
      have himm : i.readsImmediate = false := by
        by_contra hne
        have htrue : i.readsImmediate = true := by simpa using hne
        have hsame := hext.reserved htrue
        rw [ht] at hsame
        simp [explicitAddresses, h.fileB htrue, Demand.index?] at hsame
      simp [portsAfter, ht, himm]
  | shared => simp only [hf] at ht
  | accumulator => trivial
  | smallImmediate =>
      have hrt : r = t := by
        unfold Register.BoundAs at hb
        split_ifs at hb with hshared
        · simp [hf] at hb
        · exact hb.symm
      subst r
      have hone := demand_eq_one hr (hf ▸ h.immediates)
      rw [hf] at hone
      have himm : i.readsImmediate = true := by simp [readsImmediate, hone]
      simp [portsAfter, himm, hone, Demand.index?]

/-- `j` is `i` with its sources bound so that the ports carry them all. -/
structure ReadsBound (ports : ReadPorts) (i j : Instruction) : Prop where
  addLhs : i.add.lhs.Binds (·.ReadThrough ports) j.add.lhs
  addRhs : i.add.rhs.Binds (·.ReadThrough ports) j.add.rhs
  mulLhs : i.mul.lhs.Binds (·.ReadThrough ports) j.mul.lhs
  mulRhs : i.mul.rhs.Binds (·.ReadThrough ports) j.mul.rhs
  signal : ports.immediate = true → i.signal = .quiet
  eq : j = { i with
    add := { i.add with lhs := j.add.lhs, rhs := j.add.rhs }
    mul := { i.mul with lhs := j.mul.lhs, rhs := j.mul.rhs }
    signal := if ports.immediate then .smallImmediate else i.signal }

theorem binds_readThrough {taken : ReadAddresses} {o p : Operand} (h : i.ReadsAgree)
    (hext : i.explicitAddresses.Extends taken) (ho : o ∈ i.sources)
    (hb : o.Binds (·.CarriedBy taken) p) : o.Binds (·.ReadThrough (i.portsAfter taken)) p := by
  cases o with
  | reg r =>
      obtain ⟨t, hp, hrt, ht⟩ := hb
      exact ⟨t, hp, hrt, readThrough_of_carriedBy h hext (mem_sourceRegisters.mpr ho) hrt ht⟩
  | imm value => exact hb
  | label name => exact hb

theorem readsBound_of_assignReads (h : i.assignReads = .ok j) :
    ∃ ports, ReadsBound ports i j := by
  obtain ⟨_, hagree, h⟩ := assignReads_eq_ok.mp h
  obtain ⟨⟨add, middle⟩, hadd, h⟩ := except_bind_eq_ok.mp h
  obtain ⟨⟨mul, last⟩, hmul, h⟩ := except_bind_eq_ok.mp h
  cases h
  have hcover : ∀ o ∈ i.sources, i.explicitAddresses.Covers o := fun o ho =>
    explicitAddresses_covers hagree ho
  obtain ⟨hext, hal, har, haddeq⟩ := ReadAddresses.bindSlot_spec
    (hcover i.add.lhs (by simp [sources])) (hcover i.add.rhs (by simp [sources])) hadd
  obtain ⟨hext', hml, hmr, hmuleq⟩ := ReadAddresses.bindSlot_spec
    (hext.covers (hcover i.mul.lhs (by simp [sources])))
    (hext.covers (hcover i.mul.rhs (by simp [sources]))) hmul
  have hlast := hext.trans hext'
  refine ⟨i.portsAfter last, ?_, ?_, ?_, ?_, hagree.signal, ?_⟩
  · exact binds_readThrough hagree hlast (by simp [sources])
      (hal.imp fun _ ht => hext'.carriedBy ht)
  · exact binds_readThrough hagree hlast (by simp [sources])
      (har.imp fun _ ht => hext'.carriedBy ht)
  · exact binds_readThrough hagree hlast (by simp [sources]) hml
  · exact binds_readThrough hagree hlast (by simp [sources]) hmr
  · rw [haddeq, hmuleq]
    rfl

end Instruction

end QuadAsm
