import QuadAsm.Access
import QuadAsm.Proofs.Outcomes

/-!
# Write ports

After `assignWrites` the destination of each slot stands in the file that the swap leaves to the
slot. A destination that named its file itself is among these: it is what decided the swap.
-/

namespace QuadAsm

/-- The file that the add slot writes, and the one that the mul slot writes. -/
def addFile (swap : Bool) : RegisterFile := if swap then .b else .a
def mulFile (swap : Bool) : RegisterFile := if swap then .a else .b

theorem Register.isAddressed_iff {r : Register} :
    r.isAddressed = true ↔ r.file = .a ∨ r.file = .b ∨ r.file = .shared := by
  unfold isAddressed
  cases r.file <;> simp

/-- Two destinations that name different files, if any, are not swapped away from them. -/
theorem Register.bindTo_files {r t : Register} (hr : r.isAddressed) (ht : t.isAddressed)
    (hne : r.file = t.file → r.file = .shared) :
    r.bindTo (addFile (r.file == .b || t.file == .a)) =
        ⟨addFile (r.file == .b || t.file == .a), r.num⟩ ∧
      t.bindTo (mulFile (r.file == .b || t.file == .a)) =
        ⟨mulFile (r.file == .b || t.file == .a), t.num⟩ := by
  obtain ⟨rFile, rNum⟩ := r
  obtain ⟨tFile, tNum⟩ := t
  rw [isAddressed_iff] at hr ht
  simp only at hr ht hne ⊢
  rcases hr with rfl | rfl | rfl <;> rcases ht with rfl | rfl | rfl <;>
    simp [bindTo, addFile, mulFile] at hne ⊢

namespace Instruction

variable {i j : Instruction}

theorem needsSwap_iff : i.needsSwap = true ↔ i.add.dst.file = .b ∨ i.mul.dst.file = .a := by
  simp [needsSwap]

def withWrites (i : Instruction) : Instruction :=
  { i with
    add := { i.add with dst := ⟨addFile i.needsSwap, i.add.dst.num⟩ }
    mul := { i.mul with dst := ⟨mulFile i.needsSwap, i.mul.dst.num⟩ }
    writeSwap := i.needsSwap }

theorem assignWrites_eq_ok (hadd : i.add.dst.isAddressed) (hmul : i.mul.dst.isAddressed) :
    i.assignWrites = .ok j ↔ i.writeConflict? = none ∧ j = i.withWrites := by
  unfold assignWrites
  cases hc : i.writeConflict? with
  | some reason => simp
  | none =>
      have hfiles : i.add.dst.file = i.mul.dst.file → i.add.dst.file = .shared := by
        intro he
        by_contra hne
        rw [writeConflict?, if_pos ⟨he, hne⟩] at hc
        cases hc
      obtain ⟨ha, hm⟩ := Register.bindTo_files hadd hmul hfiles
      have haw : i.add.writeTo (addFile i.needsSwap) =
          { i.add with dst := ⟨addFile i.needsSwap, i.add.dst.num⟩ } :=
        congrArg (fun dst => { i.add with dst := dst }) ha
      have hmw : i.mul.writeTo (mulFile i.needsSwap) =
          { i.mul with dst := ⟨mulFile i.needsSwap, i.mul.dst.num⟩ } :=
        congrArg (fun dst => { i.mul with dst := dst }) hm
      rw [withWrites, ← haw, ← hmw]
      constructor
      · intro h
        cases h
        exact ⟨rfl, rfl⟩
      · rintro ⟨_, rfl⟩
        rfl

theorem assignWrites_ne_defect (d : Defect) :
    i.assignWrites.mapError Failure.diagnostic ≠ .error (.defect d) := by
  intro h
  obtain ⟨_, _, he⟩ := mapError_eq_error.mp h
  cases he

end Instruction

end QuadAsm
