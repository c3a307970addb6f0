import QuadAsm.Proofs.ReadPorts

/-!
# The choice of read ports

Sources of the shared file are given a port one after the other, each the first port that will do.
This never goes wrong: if there is any way to spread the shared indices over the two ports, then one
is found, since a port that was given away can be exchanged for the other one as long as nothing is
fixed on it. `assignReads_iff_fit` says for which instructions there is such a way, and that the
result is one.
-/

namespace QuadAsm

/-- The ports that a source of the shared file can be read through. -/
inductive Port
  | a
  | b
  deriving DecidableEq

def Port.file : Port → RegisterFile
  | .a => .a
  | .b => .b

namespace Operand

def sharedNum? : Operand → Option UInt8
  | .reg r => if r.file = .shared then some r.num else none
  | _ => none

/-- The operand with the port that `choice` has for its index in place of the shared file. -/
def via (choice : UInt8 → Port) : Operand → Operand
  | .reg r => if r.file = .shared then .reg ⟨(choice r.num).file, r.num⟩ else .reg r
  | o => o

theorem sharedNum?_eq_some {o : Operand} {num : UInt8} :
    o.sharedNum? = some num ↔ o = .reg ⟨.shared, num⟩ := by
  cases o with
  | reg r =>
      obtain ⟨file, n⟩ := r
      by_cases hf : file = .shared
      · simp [sharedNum?, hf]
      · simp [sharedNum?, hf]
  | imm value => simp [sharedNum?]
  | label name => simp [sharedNum?]

theorem via_of_not_shared {choice : UInt8 → Port} {o : Operand} (h : o.sharedNum? = none) :
    o.via choice = o := by
  cases o with
  | reg r =>
      have hf : ¬ r.file = .shared := by
        intro hf
        simp [sharedNum?, hf] at h
      rw [via, if_neg hf]
  | imm value => rfl
  | label name => rfl

theorem via_ne_shared (choice : UInt8 → Port) (o : Operand) (num : UInt8) :
    o.via choice ≠ .reg ⟨.shared, num⟩ := by
  intro h
  cases hs : o.sharedNum? with
  | none =>
      rw [via_of_not_shared hs] at h
      rw [sharedNum?_eq_some.mpr h] at hs
      cases hs
  | some n =>
      rw [sharedNum?_eq_some.mp hs] at h
      cases hc : choice n <;> simp [via, hc, Port.file] at h

end Operand

namespace ReadAddresses

variable {taken middle after last : ReadAddresses} {o p : Operand} {os ps : List Operand}
  {num : UInt8} {nums : List UInt8}

/-- `after` extends `taken`, and file `a` gets no index that file `b` has already. -/
structure Grows (taken after : ReadAddresses) : Prop extends Extends taken after where
  apart : ∀ n, taken.b = some n → after.a = some n → taken.a = some n

theorem Grows.refl (taken : ReadAddresses) : taken.Grows taken :=
  ⟨Extends.refl taken, fun _ _ h => h⟩

theorem Grows.trans (h : taken.Grows middle) (h' : middle.Grows after) : taken.Grows after where
  toExtends := h.toExtends.trans h'.toExtends
  apart n hb ha := h.apart n hb (h'.apart n (h.b n hb) ha)

/-- The port through which an index is read once all addresses are there. -/
def port (taken : ReadAddresses) (num : UInt8) : Port :=
  if taken.a = some num then .a else .b

def Carries (taken : ReadAddresses) (num : UInt8) : Prop :=
  taken.a = some num ∨ taken.b = some num

theorem Extends.carries (h : taken.Extends after) (hn : taken.Carries num) : after.Carries num :=
  hn.imp (h.a num) (h.b num)

theorem place_grows {file : RegisterFile} (h : taken.place num = some (file, after)) :
    taken.Grows after := by
  refine ⟨(place_spec h).1, ?_⟩
  intro n hb ha
  unfold place at h
  split_ifs at h with hnum hnum' hfree
  · cases h
    exact ha
  · cases h
    exact ha
  · cases h
    cases ha
    exact absurd hb hnum'
  · cases h
    exact ha

theorem place_eq_port {file : RegisterFile} (h : taken.place num = some (file, after))
    (hlast : after.Grows last) : file = (last.port num).file ∧ last.Carries num := by
  have hcarries : last.Carries num :=
    hlast.carries ((place_spec h).2.imp And.right And.right)
  refine ⟨?_, hcarries⟩
  unfold place at h
  split_ifs at h with hnum hnum' hfree hroom
  · cases h
    rw [port, if_pos (hlast.a num hnum), Port.file]
  · cases h
    have hne : last.a ≠ some num := fun ha => hnum (hlast.apart num hnum' ha)
    rw [port, if_neg hne, Port.file]
  · cases h
    rw [port, if_pos (hlast.a num rfl), Port.file]
  · cases h
    have hne : last.a ≠ some num := fun ha => hnum (hlast.apart num rfl ha)
    rw [port, if_neg hne, Port.file]

/-- There is a way to give addresses to the indices that have none yet. -/
def Room (taken : ReadAddresses) (nums : List UInt8) : Prop :=
  ∃ after, taken.Extends after ∧ ∀ num ∈ nums, after.Carries num

/-- File `b` can only get a new index if it has none and is not reserved. -/
theorem Extends.free_b (h : taken.Extends after) (hnum : after.b = some num)
    (hb : taken.b ≠ some num) : taken.b = none ∧ taken.immediate = false := by
  constructor
  · cases hb' : taken.b with
    | none => rfl
    | some n =>
        have hsame := (h.b n hb').symm.trans hnum
        exact absurd (hb'.trans hsame) hb
  · by_contra hne
    have hsame := h.reserved (by simpa using hne)
    exact hb (hsame.symm.trans hnum)

/-- Where the index would have gone to file `b`, the two files are exchanged. -/
theorem Room.claim_a (h : taken.Room (num :: nums)) (hb : taken.b ≠ some num) :
    { taken with a := some num }.Room nums := by
  obtain ⟨after, hext, hcarries⟩ := h
  rcases hcarries num (.head _) with hnum | hnum
  · refine ⟨after, ⟨?_, hext.b, hext.immediate, hext.reserved⟩, fun n hn => hcarries n (.tail _ hn)⟩
    intro n hn
    exact hnum.trans hn
  · obtain ⟨hfree, himm⟩ := hext.free_b hnum hb
    -- Nothing is fixed on file `b`, so what `after` has on file `a` can go there instead.
    refine ⟨⟨some num, after.a, taken.immediate⟩, ⟨fun _ hn => hn, ?_, rfl, ?_⟩, ?_⟩
    · intro n hn
      rw [hfree] at hn
      cases hn
    · intro ht
      rw [himm] at ht
      cases ht
    · intro n hn
      rcases hcarries n (.tail _ hn) with hn | hn
      · exact .inr hn
      · exact .inl (hnum.symm.trans hn)

theorem Room.claim_b {m : UInt8} (h : taken.Room (num :: nums)) (ha : taken.a = some m)
    (hm : m ≠ num) (hb : taken.b ≠ some num) :
    taken.b = none ∧ taken.immediate = false ∧ { taken with b := some num }.Room nums := by
  obtain ⟨after, hext, hcarries⟩ := h
  have hnum : after.b = some num := by
    rcases hcarries num (.head _) with hnum | hnum
    · rw [hext.a m ha] at hnum
      exact absurd (Option.some.inj hnum) hm
    · exact hnum
  obtain ⟨hfree, himm⟩ := hext.free_b hnum hb
  refine ⟨hfree, himm, after, ⟨hext.a, ?_, hext.immediate, ?_⟩, fun n hn => hcarries n (.tail _ hn)⟩
  · intro n hn
    exact hnum.trans hn
  · intro ht
    exact absurd (himm.symm.trans ht) Bool.false_ne_true

theorem Room.place (h : taken.Room (num :: nums)) :
    ∃ file after, taken.place num = some (file, after) ∧ after.Room nums := by
  have hrest : taken.Room nums := by
    obtain ⟨after, hext, hcarries⟩ := h
    exact ⟨after, hext, fun n hn => hcarries n (.tail _ hn)⟩
  by_cases ha : taken.a = some num
  · exact ⟨.a, taken, by rw [ReadAddresses.place, if_pos ha], hrest⟩
  by_cases hb : taken.b = some num
  · exact ⟨.b, taken, by rw [ReadAddresses.place, if_neg ha, if_pos hb], hrest⟩
  cases hfree : taken.a with
  | none =>
      refine ⟨.a, { taken with a := some num }, ?_, h.claim_a hb⟩
      rw [ReadAddresses.place, if_neg ha, if_neg hb, if_pos hfree]
  | some m =>
      have hm : m ≠ num := fun hm => ha (hm ▸ hfree)
      obtain ⟨hidle, himm, hroom⟩ := h.claim_b hfree hm hb
      refine ⟨.b, { taken with b := some num }, ?_, hroom⟩
      have hne : ¬ taken.a = none := by simp [hfree]
      rw [ReadAddresses.place, if_neg ha, if_neg hb, if_neg hne, if_pos ⟨hidle, himm⟩]

theorem bindOperand_shared (num : UInt8) :
    taken.bindOperand (.reg ⟨.shared, num⟩) = .ok (p, after) ↔
      ∃ file, taken.place num = some (file, after) ∧ p = .reg ⟨file, num⟩ := by
  simp only [bindOperand, if_true]
  cases hplace : taken.place num with
  | none => simp
  | some found =>
      obtain ⟨file, next⟩ := found
      simp only [Except.ok.injEq, Prod.mk.injEq, Option.some.injEq]
      constructor
      · rintro ⟨hp, rfl⟩
        exact ⟨file, ⟨rfl, rfl⟩, hp.symm⟩
      · rintro ⟨_, ⟨rfl, rfl⟩, rfl⟩
        exact ⟨rfl, rfl⟩

theorem bindOperand_of_not_shared (h : o.sharedNum? = none) :
    taken.bindOperand o = .ok (o, taken) := by
  cases o with
  | reg r =>
      have hf : ¬ r.file = .shared := by
        intro hf
        simp [Operand.sharedNum?, hf] at h
      rw [bindOperand, if_neg hf]
  | imm value => rfl
  | label name => rfl

inductive Binding : ReadAddresses → List Operand → List Operand → ReadAddresses → Prop
  | nil {taken : ReadAddresses} : Binding taken [] [] taken
  | cons {taken middle last : ReadAddresses} {o p : Operand} {os ps : List Operand}
      (step : taken.bindOperand o = .ok (p, middle)) (rest : Binding middle os ps last) :
      Binding taken (o :: os) (p :: ps) last

theorem bindOperand_grows (h : taken.bindOperand o = .ok (p, after)) : taken.Grows after := by
  cases hs : o.sharedNum? with
  | none =>
      rw [bindOperand_of_not_shared hs] at h
      cases h
      exact .refl taken
  | some num =>
      rw [Operand.sharedNum?_eq_some.mp hs, bindOperand_shared] at h
      obtain ⟨_, hplace, _⟩ := h
      exact place_grows hplace

theorem bindOperand_eq_via (h : taken.bindOperand o = .ok (p, after)) (hlast : after.Grows last) :
    p = o.via last.port ∧ ∀ num, o.sharedNum? = some num → last.Carries num := by
  cases hs : o.sharedNum? with
  | none =>
      rw [bindOperand_of_not_shared hs] at h
      cases h
      exact ⟨(Operand.via_of_not_shared hs).symm, fun _ h => nomatch h⟩
  | some num =>
      obtain rfl := Operand.sharedNum?_eq_some.mp hs
      obtain ⟨file, hplace, rfl⟩ := (bindOperand_shared num).mp h
      obtain ⟨hfile, hcarries⟩ := place_eq_port hplace hlast
      refine ⟨?_, ?_⟩
      · rw [Operand.via, if_pos rfl, hfile]
      · intro n hn
        cases hn
        exact hcarries

theorem Binding.grows (h : Binding taken os ps last) : taken.Grows last := by
  induction h with
  | nil => exact .refl _
  | cons step _ ih => exact (bindOperand_grows step).trans ih

theorem Binding.eq_via (h : Binding taken os ps last) :
    ps = os.map (Operand.via last.port) ∧
      ∀ num, .reg ⟨.shared, num⟩ ∈ os → last.Carries num := by
  induction h with
  | nil => exact ⟨rfl, fun _ h => nomatch h⟩
  | cons step rest ih =>
      obtain ⟨hp, hcarries⟩ := bindOperand_eq_via step rest.grows
      refine ⟨by rw [List.map_cons, ← hp, ← ih.1], ?_⟩
      intro num hnum
      rcases List.mem_cons.mp hnum with rfl | hnum
      · exact hcarries num (Operand.sharedNum?_eq_some.mpr rfl)
      · exact ih.2 num hnum

theorem Room.bindOperand (h : taken.Room (o.sharedNum?.toList ++ nums)) :
    ∃ p after, taken.bindOperand o = .ok (p, after) ∧ after.Room nums := by
  cases hs : o.sharedNum? with
  | none =>
      rw [hs] at h
      exact ⟨o, taken, bindOperand_of_not_shared hs, h⟩
  | some num =>
      rw [hs] at h
      obtain ⟨file, after, hplace, hroom⟩ := Room.place h
      refine ⟨.reg ⟨file, num⟩, after, ?_, hroom⟩
      rw [Operand.sharedNum?_eq_some.mp hs]
      exact (bindOperand_shared num).mpr ⟨file, hplace, rfl⟩

theorem Room.binding (h : taken.Room (os.flatMap fun o => o.sharedNum?.toList)) :
    ∃ ps last, Binding taken os ps last := by
  induction os generalizing taken with
  | nil => exact ⟨[], taken, .nil⟩
  | cons o os ih =>
      rw [List.flatMap_cons] at h
      obtain ⟨p, middle, step, hroom⟩ := Room.bindOperand h
      obtain ⟨ps, last, rest⟩ := ih hroom
      exact ⟨p :: ps, last, .cons step rest⟩

end ReadAddresses

theorem Demand.ofIndices_ne_several {nums : List UInt8} :
    ofIndices nums ≠ .several ↔ ∀ m ∈ nums, ∀ n ∈ nums, m = n := by
  constructor
  · intro h m hm n hn
    have heq := (ofIndices_eq_one hm h).symm.trans (ofIndices_eq_one hn h)
    exact Demand.one.inj heq
  · intro h
    cases nums with
    | nil => simp [ofIndices]
    | cons m nums =>
        have hall : nums.all (· == m) = true := by
          rw [List.all_eq_true]
          intro n hn
          rw [beq_iff_eq]
          exact h n (.tail _ hn) m (.head _)
        simp [ofIndices, hall]

theorem Demand.ofIndices_eq_idle {nums : List UInt8} : ofIndices nums = .idle ↔ nums = [] := by
  cases nums with
  | nil => simp [ofIndices]
  | cons m nums =>
      by_cases hall : nums.all (· == m) = true
      · simp [ofIndices, hall]
      · simp [ofIndices, hall]

/-- A property of at most one index is that of being an address. -/
theorem exists_address {P : UInt8 → Prop} (h : ∀ m n, P m → P n → m = n) :
    ∃ address : Option UInt8, ∀ n, address = some n ↔ P n := by
  by_cases hex : ∃ m, P m
  · obtain ⟨m, hm⟩ := hex
    refine ⟨some m, fun n => ⟨?_, ?_⟩⟩
    · intro hn
      cases hn
      exact hm
    · intro hn
      rw [h m n hm hn]
  · refine ⟨none, fun n => ⟨?_, ?_⟩⟩
    · intro hn
      cases hn
    · intro hn
      exact absurd ⟨n, hn⟩ hex

namespace Instruction

def Reads (i : Instruction) (file : RegisterFile) (num : UInt8) : Prop :=
  .reg ⟨file, num⟩ ∈ i.sources

structure ImmediateAllowed (i : Instruction) : Prop where
  single : ∀ m n, i.Reads .smallImmediate m → i.Reads .smallImmediate n → m = n
  quiet : ∀ n, i.Reads .smallImmediate n → i.signal = .quiet
  rotation : ∀ n, i.Reads .smallImmediate n → 48 ≤ n →
    i.mul.lhs.isAccumulator ∧ i.mul.rhs.isAccumulator

/-- The index has to come through the port, by its own file or by the choice for shared ones. -/
def ReadsThrough (i : Instruction) (choice : UInt8 → Port) (port : Port) (num : UInt8) : Prop :=
  i.Reads port.file num ∨ i.Reads .shared num ∧ choice num = port

/-- With this choice no port has to carry two things. -/
structure PortsFit (i : Instruction) (choice : UInt8 → Port) : Prop where
  single : ∀ port m n, i.ReadsThrough choice port m → i.ReadsThrough choice port n → m = n
  reserved : ∀ m, i.Reads .smallImmediate m → ∀ n, ¬ i.ReadsThrough choice .b n

/-- `j` is `i` with its shared sources read through the chosen ports, and nothing else changed but
the signal, which marks the use of a small immediate. -/
structure ReadVia (choice : UInt8 → Port) (i j : Instruction) : Prop where
  sources : j.sources = i.sources.map (Operand.via choice)
  bound : ∀ num, ¬ j.Reads .shared num
  marked : (∃ n, i.Reads .smallImmediate n) → j.signal = .smallImmediate
  unmarked : (¬ ∃ n, i.Reads .smallImmediate n) → j.signal = i.signal
  frame : j = { i with
    add := { i.add with lhs := j.add.lhs, rhs := j.add.rhs }
    mul := { i.mul with lhs := j.mul.lhs, rhs := j.mul.rhs }
    signal := j.signal }

variable {i j : Instruction} {choice : UInt8 → Port}

theorem mem_demanded {file : RegisterFile} {num : UInt8} :
    num ∈ (i.sourceRegisters.filter (·.file = file)).map (·.num) ↔ i.Reads file num := by
  simp only [List.mem_map, List.mem_filter, mem_sourceRegisters, decide_eq_true_eq]
  constructor
  · rintro ⟨r, ⟨hr, rfl⟩, rfl⟩
    exact hr
  · intro h
    exact ⟨⟨file, num⟩, ⟨h, rfl⟩, rfl⟩

theorem demand_ne_several {file : RegisterFile} :
    i.demand file ≠ .several ↔ ∀ m n, i.Reads file m → i.Reads file n → m = n := by
  rw [demand, Demand.ofIndices_ne_several]
  simp only [mem_demanded]
  exact ⟨fun h m n hm hn => h m hm n hn, fun h m hm n hn => h m n hm hn⟩

theorem demand_eq_idle {file : RegisterFile} :
    i.demand file = .idle ↔ ∀ n, ¬ i.Reads file n := by
  rw [demand, Demand.ofIndices_eq_idle, List.eq_nil_iff_forall_not_mem]
  simp only [mem_demanded]

theorem readsImmediate_iff : i.readsImmediate = true ↔ ∃ n, i.Reads .smallImmediate n := by
  rw [readsImmediate, bne_iff_ne, ne_eq, demand_eq_idle]
  exact not_forall_not

theorem readsRotation_iff :
    i.readsRotation = true ↔ ∃ n, i.Reads .smallImmediate n ∧ 48 ≤ n := by
  rw [readsRotation, List.any_eq_true]
  simp only [mem_sourceRegisters, Register.isRotation, Bool.and_eq_true, beq_iff_eq,
    decide_eq_true_eq]
  constructor
  · rintro ⟨⟨file, n⟩, hr, rfl, hn⟩
    exact ⟨n, hr, hn⟩
  · rintro ⟨n, hr, hn⟩
    exact ⟨⟨.smallImmediate, n⟩, hr, rfl, hn⟩

theorem ReadsAgree.immediateAllowed (h : i.ReadsAgree) : i.ImmediateAllowed where
  single := demand_ne_several.mp h.immediates
  quiet n hn := h.signal (readsImmediate_iff.mpr ⟨n, hn⟩)
  rotation n hn hlow := h.rotation (readsRotation_iff.mpr ⟨n, hn, hlow⟩)

theorem readsAgree_of_fit (himm : i.ImmediateAllowed) (h : i.PortsFit choice) :
    i.ReadsAgree where
  immediates := demand_ne_several.mpr himm.single
  signal hr := by
    obtain ⟨n, hn⟩ := readsImmediate_iff.mp hr
    exact himm.quiet n hn
  fileB hr := by
    obtain ⟨n, hn⟩ := readsImmediate_iff.mp hr
    exact demand_eq_idle.mpr fun m hm => h.reserved n hn m (.inl hm)
  rotation hr := by
    obtain ⟨n, hn, hlow⟩ := readsRotation_iff.mp hr
    exact himm.rotation n hn hlow
  a := demand_ne_several.mpr fun m n hm hn => h.single .a m n (.inl hm) (.inl hn)
  b := demand_ne_several.mpr fun m n hm hn => h.single .b m n (.inl hm) (.inl hn)

theorem index?_demand {file : RegisterFile} {num : UInt8} (h : i.demand file ≠ .several) :
    (i.demand file).index? = some num ↔ i.Reads file num := by
  constructor
  · intro hnum
    cases hd : i.demand file with
    | idle =>
        rw [hd] at hnum
        cases hnum
    | one n =>
        have hne : ¬ ∀ m, ¬ i.Reads file m := fun hnone => by
          rw [demand_eq_idle.mpr hnone] at hd
          cases hd
        obtain ⟨m, hm⟩ := not_forall_not.mp hne
        have hone : i.demand file = .one m := demand_eq_one (mem_sourceRegisters.mpr hm) h
        rw [hone] at hnum
        cases hnum
        exact hm
    | several => exact absurd hd h
  · intro hread
    have hone : i.demand file = .one num := demand_eq_one (mem_sourceRegisters.mpr hread) h
    rw [hone]
    rfl

theorem room_of_fit (hagree : i.ReadsAgree) (h : i.PortsFit choice) :
    i.explicitAddresses.Room (i.sources.flatMap fun o => o.sharedNum?.toList) := by
  obtain ⟨a, ha⟩ := exists_address (h.single .a)
  obtain ⟨b, hb⟩ := exists_address (h.single .b)
  refine ⟨⟨a, b, i.readsImmediate⟩, ⟨?_, ?_, rfl, ?_⟩, ?_⟩
  · intro n hn
    exact (ha n).mpr (.inl ((index?_demand hagree.a).mp hn))
  · intro n hn
    exact (hb n).mpr (.inl ((index?_demand hagree.b).mp hn))
  · intro himm
    obtain ⟨m, hm⟩ := readsImmediate_iff.mp himm
    have hnone : b = none := by
      cases hb' : b with
      | none => rfl
      | some n => exact absurd ((hb n).mp hb') (h.reserved m hm n)
    simp [hnone, explicitAddresses, hagree.fileB himm, Demand.index?]
  · intro n hn
    obtain ⟨o, ho, hon⟩ := List.mem_flatMap.mp hn
    have hread : i.Reads .shared n := by
      rw [Option.mem_toList, Operand.sharedNum?_eq_some] at hon
      rw [Reads, ← hon]
      exact ho
    cases hc : choice n with
    | a => exact .inl ((ha n).mpr (.inr ⟨hread, hc⟩))
    | b => exact .inr ((hb n).mpr (.inr ⟨hread, hc⟩))

theorem bindReads_eq_ok :
    i.bindReads = .ok j ↔
      ∃ last, ReadAddresses.Binding i.explicitAddresses i.sources j.sources last ∧
        j = { i with
          add := { i.add with lhs := j.add.lhs, rhs := j.add.rhs }
          mul := { i.mul with lhs := j.mul.lhs, rhs := j.mul.rhs }
          signal := if i.readsImmediate then .smallImmediate else i.signal } := by
  simp only [bindReads, ReadAddresses.bindSlot, except_bind_eq_ok, except_pure_eq_ok]
  constructor
  · rintro ⟨_, ⟨⟨al, t1⟩, h1, ⟨ar, t2⟩, h2, rfl⟩, _, ⟨⟨ml, t3⟩, h3, ⟨mr, t4⟩, h4, rfl⟩, rfl⟩
    exact ⟨t4, .cons h1 (.cons h2 (.cons h3 (.cons h4 .nil))), rfl⟩
  · rintro ⟨last, hbind, hj⟩
    cases hbind with
    | cons h1 hbind =>
    cases hbind with
    | cons h2 hbind =>
    cases hbind with
    | cons h3 hbind =>
    cases hbind with
    | cons h4 hbind =>
    cases hbind
    exact ⟨_, ⟨_, h1, _, h2, rfl⟩, _, ⟨_, h3, _, h4, rfl⟩, hj.symm⟩

theorem exists_bindReads
    (h : i.explicitAddresses.Room (i.sources.flatMap fun o => o.sharedNum?.toList)) :
    ∃ j, i.bindReads = .ok j := by
  obtain ⟨ps, last, hbind⟩ := h.binding
  obtain rfl := hbind.eq_via.1
  exact ⟨{ i with
    add := { i.add with lhs := i.add.lhs.via last.port, rhs := i.add.rhs.via last.port }
    mul := { i.mul with lhs := i.mul.lhs.via last.port, rhs := i.mul.rhs.via last.port }
    signal := if i.readsImmediate then .smallImmediate else i.signal },
    bindReads_eq_ok.mpr ⟨last, hbind, rfl⟩⟩

theorem portsFit_of_binding {last : ReadAddresses} {ps : List Operand} (hagree : i.ReadsAgree)
    (h : ReadAddresses.Binding i.explicitAddresses i.sources ps last) : i.PortsFit last.port := by
  have hcarries := h.eq_via.2
  have hgrows := h.grows
  have ha : ∀ n, i.ReadsThrough last.port .a n → last.a = some n := by
    rintro n (hn | ⟨hn, hport⟩)
    · exact hgrows.a n ((index?_demand hagree.a).mpr hn)
    · by_contra hne
      simp [ReadAddresses.port, hne] at hport
  have hb : ∀ n, i.ReadsThrough last.port .b n → last.b = some n := by
    rintro n (hn | ⟨hn, hport⟩)
    · exact hgrows.b n ((index?_demand hagree.b).mpr hn)
    · refine (hcarries n hn).resolve_left ?_
      intro heq
      simp [ReadAddresses.port, heq] at hport
  refine ⟨?_, ?_⟩
  · intro port m n hm hn
    cases port with
    | a => exact Option.some.inj ((ha m hm).symm.trans (ha n hn))
    | b => exact Option.some.inj ((hb m hm).symm.trans (hb n hn))
  · intro m hm n hn
    have himm := readsImmediate_iff.mpr ⟨m, hm⟩
    have hsame := hgrows.reserved himm
    rw [hb n hn] at hsame
    simp [explicitAddresses, hagree.fileB himm, Demand.index?] at hsame

theorem readVia_of_bindReads (h : i.bindReads = .ok j) (hagree : i.ReadsAgree) :
    ∃ choice, i.PortsFit choice ∧ ReadVia choice i j := by
  obtain ⟨last, hbind, hj⟩ := bindReads_eq_ok.mp h
  have hsources := hbind.eq_via.1
  have hsignal : j.signal = if i.readsImmediate then .smallImmediate else i.signal :=
    (congrArg Instruction.signal hj :)
  refine ⟨last.port, portsFit_of_binding hagree hbind, hsources, ?_, ?_, ?_, ?_⟩
  · intro num hnum
    rw [Reads, hsources] at hnum
    obtain ⟨o, _, ho⟩ := List.mem_map.mp hnum
    exact o.via_ne_shared last.port num ho
  · intro himm
    rw [hsignal, if_pos (readsImmediate_iff.mpr himm)]
  · intro himm
    rw [hsignal, if_neg fun h => himm (readsImmediate_iff.mp h)]
  · rw [hsignal]
    exact hj

/-- The sources of an instruction are given ports if and only if the use of a small immediate is
allowed and the shared indices can be spread over the ports at all. Then they are spread in one of
the possible ways. -/
theorem assignReads_iff_fit (i : Instruction) (hlt : ∀ file num, i.Reads file num → num < 64) :
    ((∃ j, i.assignReads = .ok j) ↔ i.ImmediateAllowed ∧ ∃ choice, i.PortsFit choice) ∧
      (∀ j, i.assignReads = .ok j → ∃ choice, i.PortsFit choice ∧ ReadVia choice i j) ∧
      ∀ e, i.assignReads = .error e → ∃ reason, e = .diagnostic (.malformed i.line reason) := by
  have hlimit : ∀ r ∈ i.sourceRegisters, r.num < Register.indexLimit := by
    intro r hr
    exact hlt r.file r.num (mem_sourceRegisters.mp hr)
  refine ⟨⟨?_, ?_⟩, ?_, ?_⟩
  · rintro ⟨j, hj⟩
    obtain ⟨_, hagree, hbind⟩ := assignReads_eq_ok.mp hj
    obtain ⟨choice, hfit, _⟩ := readVia_of_bindReads hbind hagree
    exact ⟨hagree.immediateAllowed, choice, hfit⟩
  · rintro ⟨himm, choice, hfit⟩
    have hagree := readsAgree_of_fit himm hfit
    obtain ⟨j, hj⟩ := exists_bindReads (room_of_fit hagree hfit)
    exact ⟨j, assignReads_eq_ok.mpr ⟨hlimit, hagree, hj⟩⟩
  · intro j hj
    obtain ⟨_, hagree, hbind⟩ := assignReads_eq_ok.mp hj
    exact readVia_of_bindReads hbind hagree
  · intro e he
    exact assignReads_eq_error hlimit he

/-- Two shared indices, one of which is also read from file `b`. -/
def crossedReads : Instruction where
  pc := 0
  line := 1
  labels := []
  add := { Slot.nop with lhs := .reg ⟨.shared, 32⟩, rhs := .reg ⟨.b, 35⟩ }
  mul := { Slot.nop with lhs := .reg ⟨.shared, 35⟩, rhs := .reg ⟨.shared, 32⟩ }

theorem assignReads_iff_fit_crossed :
    (∀ file num, crossedReads.Reads file num → num < 64) ∧
      ∃ j choice, crossedReads.assignReads = .ok j ∧ crossedReads.PortsFit choice ∧
        ReadVia choice crossedReads j := by
  have hlt : ∀ file num, crossedReads.Reads file num → num < 64 := by
    intro file num h
    simp only [Reads, sources, crossedReads, List.mem_cons, Operand.reg.injEq, Register.mk.injEq,
      List.not_mem_nil, or_false] at h
    rcases h with ⟨_, rfl⟩ | ⟨_, rfl⟩ | ⟨_, rfl⟩ | ⟨_, rfl⟩ <;> decide
  refine ⟨hlt, ?_⟩
  obtain ⟨j, hj, _⟩ := exists_ok_of_toOption (x := crossedReads.assignReads) (f := (·.mul.lhs))
    (b := .reg ⟨.b, 35⟩) (by decide)
  obtain ⟨choice, hfit, hvia⟩ := (assignReads_iff_fit crossedReads hlt).2.1 j hj
  exact ⟨j, choice, hj, hfit, hvia⟩

end Instruction

end QuadAsm
