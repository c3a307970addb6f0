import QuadAsm.Settlement
import QuadAsm.Proofs.ReadPorts
import QuadAsm.Proofs.Readings

/-!
# Slots that are dropped

Whether a slot stays is decided after its sources are bound. `Dropped` says it of the slot as it is
written, and `settle_eq_reduced` shows that binding makes no difference: a bound source is the NOP
register or a peripheral one just if the written source is.
-/

namespace QuadAsm

namespace Register

theorem BoundAs.num_eq {r t : Register} (h : r.BoundAs t) : t.num = r.num := by
  unfold BoundAs at h
  split_ifs at h with hf
  · exact h.2
  · rw [h]

theorem BoundAs.isAddressed_eq {r t : Register} (h : r.BoundAs t) :
    t.isAddressed = r.isAddressed := by
  unfold BoundAs at h
  split_ifs at h with hf
  · rcases h.1 with ht | ht <;> simp [isAddressed, hf, ht]
  · rw [h]

theorem BoundAs.isNop_eq {r t : Register} (h : r.BoundAs t) : t.isNop = r.isNop := by
  rw [isNop, isNop, h.num_eq, h.isAddressed_eq]

theorem BoundAs.isPeripheral_eq {r t : Register} (h : r.BoundAs t) :
    t.isPeripheral = r.isPeripheral := by
  rw [isPeripheral, isPeripheral, h.num_eq, h.isAddressed_eq]

end Register

def Operand.isPeripheral : Operand → Bool
  | .reg r => r.isPeripheral
  | _ => false

namespace Slot

/-- The slot, as it is written, has no effect: it is left out, never runs, reads nothing, or writes
nowhere and reads no peripheral register. -/
def Dropped (s : Slot) : Prop :=
  s.code = 0 ∨ s.cond = some .never ∨ s.lhs = .reg Register.nop ∧ s.rhs = .reg Register.nop ∨
    s.dst = Register.nop ∧ s.lhs.isPeripheral = false ∧ s.rhs.isPeripheral = false

instance (s : Slot) : Decidable s.Dropped := inferInstanceAs (Decidable (_ ∨ _))

/-- What remains of a written slot whose sources are bound to `lhs` and `rhs`. -/
def reduced (s : Slot) (lhs rhs : Operand) : Slot :=
  if s.Dropped then nop
  else { s with
    cond := some (s.cond.getD .always)
    lhs := lhs.replaceNop
    rhs := rhs.replaceNop }

theorem normalize_eq (s : Slot) (reads : ReadCount) :
    s.normalize reads =
      if s.cond = some .never ∨ s.isIdle reads then nop
      else { s with cond := some (s.cond.getD .always) } := by
  obtain ⟨code, cond, dst, lhs, rhs⟩ := s
  unfold normalize
  by_cases hidle : Slot.isIdle ⟨code, cond, dst, lhs, rhs⟩ reads
  · rw [if_pos hidle, if_pos (Or.inr hidle)]
  · rw [if_neg hidle]
    rcases cond with _ | c
    · simp [hidle]
    · cases c <;> simp [hidle]

theorem isIdle_iff {s : Slot} {l r t u : Register} (hl : l.BoundAs t) (hr : r.BoundAs u) :
    s.isIdle ((ReadCount.ofOperand (.reg t)).add (.ofOperand (.reg u))) = true ↔
      l.isNop ∧ r.isNop ∨ s.dst.isNop ∧ l.isPeripheral = false ∧ r.isPeripheral = false := by
  simp only [isIdle, ReadCount.ofOperand, ReadCount.add, hl.isNop_eq, hr.isNop_eq,
    hl.isPeripheral_eq, hr.isPeripheral_eq]
  cases l.isNop <;> cases r.isNop <;> cases s.dst.isNop <;> cases l.isPeripheral <;>
    cases r.isPeripheral <;> simp

theorem dropped_used_iff {code : UInt8} {cond : Option Condition} {dst l r : Register}
    (hcode : code ≠ 0) (hdst : dst.Writable) (hl : l.Readable) (hr : r.Readable) :
    Dropped ⟨code, cond, dst, .reg l, .reg r⟩ ↔
      cond = some .never ∨ l.isNop ∧ r.isNop ∨
        dst.isNop ∧ l.isPeripheral = false ∧ r.isPeripheral = false := by
  have hnop : Register.nop.isNop = true := by decide
  have hl' : l = Register.nop ↔ l.isNop := ⟨fun h => h ▸ hnop, hl.eq_nop⟩
  have hr' : r = Register.nop ↔ r.isNop := ⟨fun h => h ▸ hnop, hr.eq_nop⟩
  have hd' : dst = Register.nop ↔ dst.isNop := ⟨fun h => h ▸ hnop, hdst.eq_nop⟩
  simp only [Dropped, hcode, false_or, Operand.reg.injEq, hl', hr', hd', Operand.isPeripheral]

theorem settle_nop : nop.settle = nop := by decide

theorem settle_eq_reduced {limit : ℕ} {s : Slot} {P : Register → Prop} {lhs rhs : Operand}
    (hs : s.Written limit) (hl : s.lhs.Binds P lhs) (hr : s.rhs.Binds P rhs) :
    { s with lhs := lhs, rhs := rhs : Slot }.settle = s.reduced lhs rhs := by
  cases hs with
  | unused =>
      obtain ⟨t, rfl, ht, _⟩ := hl
      obtain ⟨u, rfl, hu, _⟩ := hr
      cases ht
      cases hu
      have hdropped : nop.Dropped := .inl rfl
      rw [reduced, if_pos hdropped]
      exact settle_nop
  | used hcode _ hdst hlhs hrhs =>
      obtain ⟨t, rfl, ht, _⟩ := hl
      obtain ⟨u, rfl, hu, _⟩ := hr
      rw [settle, normalize_eq, reduced]
      refine if_congr ?_ rfl rfl
      rw [dropped_used_iff hcode hdst hlhs hrhs]
      exact or_congr Iff.rfl (isIdle_iff ht hu)

/-- A written slot when its sources are bound to `lhs` and `rhs` and its destination to `file`. -/
def finished (s : Slot) (file : RegisterFile) (lhs rhs : Operand) : Slot :=
  if s.Dropped then { nop with dst := ⟨file, 0⟩ }
  else { s with
    cond := some (s.cond.getD .always)
    dst := ⟨file, s.dst.num⟩
    lhs := lhs.replaceNop
    rhs := rhs.replaceNop }

theorem cond_ne_never_of_not_dropped {s : Slot} (h : ¬ s.Dropped) :
    s.cond.getD .always ≠ .never := by
  intro hc
  apply h
  cases hs : s.cond with
  | none => simp [hs] at hc
  | some c => exact .inr (.inl (by simpa [hs] using hc))

theorem clearIdleDst_reduced (s : Slot) (file : RegisterFile) (lhs rhs : Operand) :
    { s.reduced lhs rhs with dst := ⟨file, (s.reduced lhs rhs).dst.num⟩ : Slot }.clearIdleDst =
      s.finished file lhs rhs := by
  unfold reduced finished
  by_cases h : s.Dropped
  · simp [h, clearIdleDst, isNever, nop]
  · simp [h, clearIdleDst, isNever, cond_ne_never_of_not_dropped h]

end Slot

end QuadAsm
