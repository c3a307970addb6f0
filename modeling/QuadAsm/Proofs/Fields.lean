import Mathlib.Algebra.Order.Ring.Nat
import Mathlib.Order.Interval.Finset.Nat
import QuadAsm.Word.Layout

/-!
# Bits of fields

What `set` and `get` do, said bit by bit. From this follow the two facts that reading a word back
rests on: a field gives back as much of its value as it has bits for, and it does not see a field
whose bits are others. The fields of the layout stand in the word as a whole and have room for what
is put there, so they give back the value itself.
-/

namespace QuadAsm.BitField

variable (f g : BitField)

theorem span_eq : f.span = 2 ^ f.width := Nat.one_shiftLeft _

/-- The bits of the word that belong to the field. -/
def bits : Finset ℕ := Finset.Ico f.pos (min (f.pos + f.width) 32)

theorem mem_bits {j : ℕ} : j ∈ f.bits ↔ f.pos ≤ j ∧ j < f.pos + f.width ∧ j < 32 := by
  rw [bits, Finset.mem_Ico, lt_min_iff]

theorem testBit_set (v : UInt32) (j : ℕ) :
    (f.set v).toNat.testBit j = (decide (j ∈ f.bits) && v.toNat.testBit (j - f.pos)) := by
  have hbits : decide (j ∈ f.bits) =
      (decide (j < 32) && (decide (f.pos ≤ j) && decide (j - f.pos < f.width))) := by
    rw [← Bool.decide_and, ← Bool.decide_and, decide_eq_decide, mem_bits]
    omega
  rw [hbits, set, span_eq, UInt32.toNat_ofNat', Nat.testBit_mod_two_pow, Nat.testBit_shiftLeft,
    Nat.testBit_mod_two_pow, Bool.and_assoc, Bool.and_assoc]

theorem testBit_get (w : UInt32) (j : ℕ) :
    (f.get w).toNat.testBit j = (decide (j < f.width) && w.toNat.testBit (f.pos + j)) := by
  have hle : (w.toNat >>> f.pos) % f.span < 2 ^ 32 :=
    calc
      _ ≤ w.toNat >>> f.pos := Nat.mod_le _ _
      _ ≤ w.toNat := Nat.shiftRight_le _ _
      _ < 2 ^ 32 := w.toNat_lt
  rw [get, UInt32.toNat_ofNat', Nat.mod_eq_of_lt hle, span_eq, Nat.testBit_mod_two_pow,
    Nat.testBit_shiftRight]

theorem eq_of_testBit {u v : UInt32} (h : ∀ j, u.toNat.testBit j = v.toNat.testBit j) : u = v :=
  UInt32.toNat.inj (Nat.eq_of_testBit_eq h)

@[simp] theorem get_zero : f.get 0 = 0 := by
  apply eq_of_testBit
  intro j
  simp [testBit_get]

@[simp] theorem set_zero : f.set 0 = 0 := by
  apply eq_of_testBit
  intro j
  simp [testBit_set]

@[simp] theorem get_or (u v : UInt32) : f.get (u ||| v) = f.get u ||| f.get v := by
  apply eq_of_testBit
  intro j
  simp only [testBit_get, UInt32.toNat_or, Nat.testBit_or, Bool.and_or_distrib_left]

/-- What is left of a value in the field. -/
def cut (v : UInt32) : UInt32 :=
  UInt32.ofNat (v.toNat % 2 ^ min f.width (32 - f.pos))

theorem toNat_cut (v : UInt32) : (f.cut v).toNat = v.toNat % 2 ^ min f.width (32 - f.pos) :=
  UInt32.toNat_ofNat_of_lt' ((Nat.mod_le _ _).trans_lt v.toNat_lt)

theorem testBit_cut (v : UInt32) (j : ℕ) :
    (f.cut v).toNat.testBit j =
      (decide (j < min f.width (32 - f.pos)) && v.toNat.testBit j) := by
  rw [toNat_cut, Nat.testBit_mod_two_pow]

theorem get_set (v : UInt32) : f.get (f.set v) = f.cut v := by
  apply eq_of_testBit
  intro j
  have hbits : j < f.width ∧ f.pos + j ∈ f.bits ↔ j < min f.width (32 - f.pos) := by
    rw [mem_bits]
    omega
  rw [testBit_get, testBit_set, testBit_cut, Nat.add_sub_cancel_left, ← Bool.and_assoc,
    ← Bool.decide_and, decide_eq_decide.mpr hbits]

theorem get_set_of_disjoint {f g : BitField} (h : Disjoint f.bits g.bits) (v : UInt32) :
    f.get (g.set v) = 0 := by
  apply eq_of_testBit
  intro j
  rw [testBit_get, testBit_set, UInt32.toNat_zero, Nat.zero_testBit]
  by_cases hg : f.pos + j ∈ g.bits
  · have hf : f.pos + j ∉ f.bits := Finset.disjoint_right.mp h hg
    have hword := (g.mem_bits.mp hg).2.2
    have hwidth : ¬ j < f.width := by
      rw [mem_bits] at hf
      omega
    simp [hwidth]
  · simp [hg]

theorem get_or_set_of_disjoint {f g : BitField} (h : Disjoint f.bits g.bits) (v w : UInt32) :
    f.get (w ||| g.set v) = f.get w := by
  rw [get_or, get_set_of_disjoint h, UInt32.or_zero]

/-- No bit belongs to both fields. -/
def Apart : Prop := f.pos + f.width ≤ g.pos ∨ g.pos + g.width ≤ f.pos

instance : Decidable (f.Apart g) := inferInstanceAs (Decidable (_ ∨ _))

theorem Apart.disjoint {f g : BitField} (h : f.Apart g) : Disjoint f.bits g.bits := by
  refine Finset.disjoint_left.mpr fun j hf hg => ?_
  rw [mem_bits] at hf hg
  rcases h with h | h
  · omega
  · omega

theorem get_set_of_apart {f g : BitField} (h : f.Apart g) (v : UInt32) : f.get (g.set v) = 0 :=
  get_set_of_disjoint h.disjoint v

/-- The field stands in the word as a whole and its width has room for the value. -/
def Holds (v : UInt32) : Prop := f.pos + f.width ≤ 32 ∧ v.toNat < f.span

instance (v : UInt32) : Decidable (f.Holds v) := inferInstanceAs (Decidable (_ ∧ _))

theorem Holds.cut_eq {f : BitField} {v : UInt32} (h : f.Holds v) : f.cut v = v := by
  obtain ⟨hfit, hv⟩ := h
  have hmin : min f.width (32 - f.pos) = f.width := by omega
  rw [cut, hmin, ← span_eq, Nat.mod_eq_of_lt hv, UInt32.ofNat_toNat]

theorem get_set_of_holds {f : BitField} {v : UInt32} (h : f.Holds v) : f.get (f.set v) = v := by
  rw [get_set, h.cut_eq]

/-- A word made of parts, each a field and the value to put there. -/
def packed : List (BitField × UInt32) → UInt32
  | [] => 0
  | part :: parts => part.1.set part.2 ||| packed parts

theorem get_packed_of_disjoint {parts : List (BitField × UInt32)}
    (h : ∀ g ∈ parts.map Prod.fst, Disjoint f.bits g.bits) : f.get (packed parts) = 0 := by
  induction parts with
  | nil => exact f.get_zero
  | cons part parts ih =>
      rw [packed, get_or, get_set_of_disjoint (h _ (by simp)), ih fun g hg => h g (by simp_all)]
      rfl

theorem get_packed_of_apart {parts : List (BitField × UInt32)}
    (h : ∀ g ∈ parts.map Prod.fst, f.Apart g) : f.get (packed parts) = 0 :=
  f.get_packed_of_disjoint fun g hg => (h g hg).disjoint

/-- Fields that share no bit give their values back, in whatever order they stand. -/
theorem get_packed_eq_cut {f : BitField} {v : UInt32} {parts : List (BitField × UInt32)}
    (hparts : (parts.map Prod.fst).Pairwise fun f g => Disjoint f.bits g.bits)
    (hmem : (f, v) ∈ parts) : f.get (packed parts) = f.cut v := by
  induction parts with
  | nil => cases hmem
  | cons part parts ih =>
      rw [List.map_cons, List.pairwise_cons] at hparts
      rw [packed, get_or]
      rcases List.mem_cons.mp hmem with rfl | hmem
      · rw [get_set, f.get_packed_of_disjoint hparts.1]
        exact UInt32.or_zero
      · have hdisjoint := (hparts.1 f (List.mem_map_of_mem hmem)).symm
        rw [get_set_of_disjoint hdisjoint, ih hparts.2 hmem]
        exact UInt32.zero_or

theorem get_packed {f : BitField} {v : UInt32} {parts : List (BitField × UInt32)}
    (hparts : (parts.map Prod.fst).Pairwise Apart) (hmem : (f, v) ∈ parts) (hv : f.Holds v) :
    f.get (packed parts) = v := by
  rw [get_packed_eq_cut (hparts.imp Apart.disjoint) hmem, hv.cut_eq]

theorem holds_bit (on : Bool) (hfit : f.pos < 32) (hone : f.width = 1) :
    f.Holds (if on then 1 else 0) := by
  refine ⟨by omega, ?_⟩
  rw [span_eq, hone]
  cases on <;> decide

theorem isSet_packed {f : BitField} {on : Bool} {parts : List (BitField × UInt32)}
    (hparts : (parts.map Prod.fst).Pairwise Apart) (hmem : (f, if on then 1 else 0) ∈ parts)
    (hfit : f.pos < 32) (hone : f.width = 1) : f.isSet (packed parts) = on := by
  rw [isSet, get_packed hparts hmem (f.holds_bit on hfit hone)]
  cases on <;> rfl

-- The sum is taken in one bit more than the words have, where it cannot wrap.
theorem toNat_or_of_disjoint {u v : UInt32}
    (h : ∀ j, u.toNat.testBit j = true → v.toNat.testBit j = false) :
    (u ||| v).toNat = u.toNat + v.toNat := by
  have hu : u.toNat < 2 ^ 33 := u.toNat_lt.trans (by decide)
  have hv : v.toNat < 2 ^ 33 := v.toNat_lt.trans (by decide)
  have hand : BitVec.ofNat 33 u.toNat &&& BitVec.ofNat 33 v.toNat = 0#33 := by
    apply BitVec.eq_of_getLsbD_eq
    intro j hj
    cases hj' : u.toNat.testBit j with
    | false => simp [BitVec.getLsbD_ofNat, hj']
    | true => simp [BitVec.getLsbD_ofNat, h j hj']
  have hsum := congrArg BitVec.toNat (BitVec.add_eq_or_of_and_eq_zero _ _ hand)
  simp only [BitVec.toNat_add, BitVec.toNat_or, BitVec.toNat_ofNat, Nat.mod_eq_of_lt hu,
    Nat.mod_eq_of_lt hv] at hsum
  have hlt : u.toNat + v.toNat < 2 ^ 33 := Nat.add_lt_add u.toNat_lt v.toNat_lt
  rw [UInt32.toNat_or, ← hsum, Nat.mod_eq_of_lt hlt]

theorem toNat_set {f : BitField} {v : UInt32} (h : f.Holds v) :
    (f.set v).toNat = v.toNat * 2 ^ f.pos := by
  obtain ⟨hfit, hv⟩ := h
  have hlt : v.toNat * 2 ^ f.pos < 2 ^ 32 :=
    calc
      v.toNat * 2 ^ f.pos < f.span * 2 ^ f.pos := Nat.mul_lt_mul_of_pos_right hv (Nat.two_pow_pos _)
      _ = 2 ^ (f.width + f.pos) := by rw [span_eq, Nat.pow_add]
      _ ≤ 2 ^ 32 := Nat.pow_le_pow_right (by decide) (by omega)
  rw [set, Nat.mod_eq_of_lt hv, Nat.shiftLeft_eq, UInt32.toNat_ofNat_of_lt' hlt]

theorem set_disjoint_packed {f : BitField} {parts : List (BitField × UInt32)}
    (h : ∀ g ∈ parts.map Prod.fst, f.Apart g) (v : UInt32) {j : ℕ}
    (hj : (f.set v).toNat.testBit j = true) : (packed parts).toNat.testBit j = false := by
  rw [testBit_set, Bool.and_eq_true, decide_eq_true_eq] at hj
  obtain ⟨hpos, hwidth, _⟩ := f.mem_bits.mp hj.1
  have hbit := testBit_get f (packed parts) (j - f.pos)
  rw [f.get_packed_of_apart h, Nat.add_sub_cancel' hpos] at hbit
  have hinside : j - f.pos < f.width := by omega
  simpa [hinside] using hbit

/-- Fields that are apart add up to their word. -/
theorem toNat_packed {parts : List (BitField × UInt32)}
    (hparts : (parts.map Prod.fst).Pairwise Apart)
    (hholds : ∀ part ∈ parts, part.1.Holds part.2) :
    (packed parts).toNat = (parts.map fun part => part.2.toNat * 2 ^ part.1.pos).sum := by
  induction parts with
  | nil => rfl
  | cons part parts ih =>
      rw [List.map_cons, List.pairwise_cons] at hparts
      rw [packed, List.map_cons, List.sum_cons, toNat_or_of_disjoint,
        toNat_set (hholds _ (.head _)), ih hparts.2 fun p hp => hholds p (.tail _ hp)]
      intro j
      exact set_disjoint_packed hparts.1 part.2

end QuadAsm.BitField
