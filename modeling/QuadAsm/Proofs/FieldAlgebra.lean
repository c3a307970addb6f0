import QuadAsm.Proofs.Fields

/-!
# Fields of any position and width

A field is written with a mask and a shift to the left and read with a shift to the right and the
mask. The mask is made in 64 bits and cut to 32, so a field can be wider than the word, and it can
stand so high that its upper bits fall out of it. All the same such fields follow the laws of those
in the layout, with each value cut to the bits that the field has in the word.
-/

namespace QuadAsm.BitField

/-- Position and width are shift distances of the machine, for words and for masks. -/
def Placed (f : BitField) : Prop := f.pos < 32 ∧ f.width < 64

instance (f : BitField) : Decidable f.Placed := inferInstanceAs (Decidable (_ ∧ _))

section Shifts

variable {f : BitField}

theorem mask_eq_shift (h : f.width < 64) :
    f.mask = ((1 : UInt64) <<< UInt64.ofNat f.width - 1).toUInt32 := by
  have hpow : 2 ^ f.width < 2 ^ 64 := Nat.pow_lt_pow_right (by decide) h
  have hshift : ((1 : UInt64) <<< UInt64.ofNat f.width).toNat = 2 ^ f.width := by
    rw [UInt64.toNat_shiftLeft, UInt64.toNat_ofNat_of_lt' (h.trans (by decide)),
      Nat.mod_eq_of_lt h, UInt64.toNat_one, Nat.one_shiftLeft, Nat.mod_eq_of_lt hpow]
  have hone : (1 : UInt64) ≤ 1 <<< UInt64.ofNat f.width := by
    rw [UInt64.le_iff_toNat_le, hshift, UInt64.toNat_one]
    exact Nat.one_le_two_pow
  apply UInt32.toNat_inj.mp
  rw [mask, UInt32.toNat_ofNat', UInt64.toNat_toUInt32, UInt64.toNat_sub_of_le _ _ hone, hshift,
    UInt64.toNat_one, span_eq]

theorem testBit_mask (j : ℕ) :
    f.mask.toNat.testBit j = (decide (j < 32) && decide (j < f.width)) := by
  rw [mask, span_eq, UInt32.toNat_ofNat', Nat.testBit_mod_two_pow, Nat.testBit_two_pow_sub_one]

theorem toNat_ofNat_pos (h : f.pos < 32) : (UInt32.ofNat f.pos).toNat % 32 = f.pos := by
  rw [UInt32.toNat_ofNat_of_lt' (h.trans (by decide)), Nat.mod_eq_of_lt h]

theorem set_eq_shift (h : f.pos < 32) (v : UInt32) :
    f.set v = (v &&& f.mask) <<< UInt32.ofNat f.pos := by
  apply eq_of_testBit
  intro j
  have hbits : decide (j ∈ f.bits) = (decide (j < 32) && (decide (f.pos ≤ j) &&
      (decide (j - f.pos < 32) && decide (j - f.pos < f.width)))) := by
    rw [← Bool.decide_and, ← Bool.decide_and, ← Bool.decide_and, decide_eq_decide, mem_bits]
    omega
  rw [testBit_set, hbits, UInt32.toNat_shiftLeft, toNat_ofNat_pos h, Nat.testBit_mod_two_pow,
    Nat.testBit_shiftLeft, UInt32.toNat_and, Nat.testBit_and, testBit_mask, Bool.and_assoc,
    Bool.and_assoc, Bool.and_comm (v.toNat.testBit _)]

theorem get_eq_shift (h : f.pos < 32) (w : UInt32) :
    f.get w = w >>> UInt32.ofNat f.pos &&& f.mask := by
  apply eq_of_testBit
  intro j
  rw [testBit_get, UInt32.toNat_and, Nat.testBit_and, UInt32.toNat_shiftRight, toNat_ofNat_pos h,
    Nat.testBit_shiftRight, testBit_mask]
  by_cases hj : j < 32
  · simp [hj, Bool.and_comm]
  · have hzero : w.toNat.testBit (f.pos + j) = false :=
      Nat.testBit_lt_two_pow
        (w.toNat_lt.trans_le (Nat.pow_le_pow_right (by decide) (by omega)))
    simp [hzero]

theorem checkedMask_eq_ok (h : f.Placed) : f.checkedMask = .ok f.mask :=
  if_pos h.2

theorem checkedSet_eq_ok (h : f.Placed) (v : UInt32) : f.checkedSet v = .ok (f.set v) :=
  if_pos ⟨h.2, h.1⟩

theorem checkedGet_eq_ok (h : f.Placed) (w : UInt32) : f.checkedGet w = .ok (f.get w) := by
  rw [checkedGet, if_neg (not_le.mpr h.1), if_pos h.2]

end Shifts

section Words

variable {parts order : List (BitField × UInt32)}

theorem packed_perm (h : order.Perm parts) : packed order = packed parts := by
  induction h with
  | nil => rfl
  | cons part _ ih => rw [packed, packed, ih]
  | swap part other parts =>
      simp only [packed]
      rw [← UInt32.or_assoc, ← UInt32.or_assoc, UInt32.or_comm (other.1.set other.2)]
  | trans _ _ ihleft ihright => exact ihleft.trans ihright

/-- The word made of parts one after the other, if all of their fields are placed. -/
def checkedPacked (parts : List (BitField × UInt32)) : Except Defect UInt32 :=
  parts.foldlM (fun word part => (word ||| ·) <$> part.1.checkedSet part.2) 0

theorem foldlM_checkedSet (h : ∀ part ∈ parts, part.1.Placed) (word : UInt32) :
    parts.foldlM (fun word part => (word ||| ·) <$> part.1.checkedSet part.2) word =
      .ok (word ||| packed parts) := by
  induction parts generalizing word with
  | nil => exact congrArg Except.ok UInt32.or_zero.symm
  | cons part parts ih =>
      obtain ⟨hpart, hparts⟩ := List.forall_mem_cons.mp h
      rw [List.foldlM_cons, checkedSet_eq_ok hpart, packed, ← UInt32.or_assoc]
      exact ih hparts _

theorem checkedPacked_eq_ok (h : ∀ part ∈ parts, part.1.Placed) :
    checkedPacked parts = .ok (packed parts) :=
  (foldlM_checkedSet h 0).trans (congrArg Except.ok UInt32.zero_or)

end Words

/-- Fields are independent of each other. A field gives back what it has bits for, sets no other
bits and does not see a field that has none of its bits. So a word made of fields that share no bit
gives back all of their values, and it is the same word in whatever order they are put together. -/
theorem fields_independent :
    (∀ f : BitField, f.Placed → ∀ v w : UInt32,
      f.checkedMask = .ok ((1 : UInt64) <<< UInt64.ofNat f.width - 1).toUInt32 ∧
      f.checkedSet v = .ok (f.set v) ∧ f.set v = (v &&& f.mask) <<< UInt32.ofNat f.pos ∧
      f.checkedGet w = .ok (f.get w) ∧ f.get w = w >>> UInt32.ofNat f.pos &&& f.mask ∧
      (f.get (f.set v)).toNat = v.toNat % 2 ^ min f.width (32 - f.pos) ∧
      ∀ j, (f.set v).toNat.testBit j = true → f.pos ≤ j ∧ j < min (f.pos + f.width) 32) ∧
    (∀ f g : BitField, Disjoint f.bits g.bits → ∀ u v w : UInt32,
      f.get (w ||| g.set v) = f.get w ∧ f.get (f.set v ||| g.set u) = f.get (f.set v)) ∧
    ∀ parts : List (BitField × UInt32), (∀ part ∈ parts, part.1.Placed) →
      ((parts.map Prod.fst).Pairwise fun f g => Disjoint f.bits g.bits) →
      ∃ word, (∀ order : List (BitField × UInt32), order.Perm parts →
          checkedPacked order = .ok word) ∧
        ∀ part ∈ parts, part.1.checkedGet word = .ok (part.1.cut part.2) := by
  refine ⟨?_, ?_, ?_⟩
  · intro f hf v w
    refine ⟨?_, checkedSet_eq_ok hf v, set_eq_shift hf.1 v, checkedGet_eq_ok hf w,
      get_eq_shift hf.1 w, ?_, ?_⟩
    · rw [checkedMask_eq_ok hf, mask_eq_shift hf.2]
    · rw [get_set, toNat_cut]
    · intro j hj
      rw [testBit_set, Bool.and_eq_true, decide_eq_true_eq] at hj
      exact Finset.mem_Ico.mp hj.1
  · intro f g h u v w
    exact ⟨get_or_set_of_disjoint h v w, get_or_set_of_disjoint h u (f.set v)⟩
  · intro parts hplaced hparts
    refine ⟨packed parts, ?_, ?_⟩
    · intro order horder
      have hplaced' : ∀ part ∈ order, part.1.Placed := fun part hpart =>
        hplaced part (horder.mem_iff.mp hpart)
      rw [checkedPacked_eq_ok hplaced', packed_perm horder]
    · intro part hpart
      rw [checkedGet_eq_ok (hplaced part hpart), get_packed_eq_cut hparts hpart]

/-- A field of 40 bits that runs out of the word gives back the four bits that it has there. So do
the fields below it, one of which has an empty field in its middle. -/
theorem fields_independent_overhanging :
    ((⟨28, 40⟩ : BitField).get ((⟨28, 40⟩ : BitField).set 0x1F)).toNat = 0xF ∧
    (∀ w, (⟨0, 6⟩ : BitField).get (w ||| (⟨28, 40⟩ : BitField).set 0x1F) =
      (⟨0, 6⟩ : BitField).get w) ∧
    ∃ word, checkedPacked [(⟨28, 40⟩, 0x1F), (⟨0, 6⟩, 0xFF), (⟨3, 0⟩, 9), (⟨6, 22⟩, 5)] = .ok word ∧
      checkedPacked [(⟨3, 0⟩, 9), (⟨6, 22⟩, 5), (⟨28, 40⟩, 0x1F), (⟨0, 6⟩, 0xFF)] = .ok word ∧
      (⟨28, 40⟩ : BitField).checkedGet word = .ok 0xF ∧
      (⟨0, 6⟩ : BitField).checkedGet word = .ok 0x3F ∧
      (⟨6, 22⟩ : BitField).checkedGet word = .ok 5 := by
  obtain ⟨hfield, hapart, hlist⟩ := fields_independent
  refine ⟨?_, ?_, ?_⟩
  · exact (hfield ⟨28, 40⟩ (by decide) 0x1F 0).2.2.2.2.2.1
  · intro w
    exact (hapart ⟨0, 6⟩ ⟨28, 40⟩ (by decide) 0 0x1F w).1
  · obtain ⟨word, hword, hparts⟩ := hlist
      [(⟨28, 40⟩, 0x1F), (⟨0, 6⟩, 0xFF), (⟨3, 0⟩, 9), (⟨6, 22⟩, 5)] (by decide) (by decide)
    exact ⟨word, hword _ (.refl _), hword _ (by decide), hparts (⟨28, 40⟩, 0x1F) (by decide),
      hparts (⟨0, 6⟩, 0xFF) (by decide), hparts (⟨6, 22⟩, 5) (by decide)⟩

end QuadAsm.BitField
