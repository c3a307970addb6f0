import QuadAsm.Proofs.Decoding

/-!
# Texts are never the cause of a defect

A defect is a promise that one stage makes to a later one and does not keep. Here each stage is
followed with the shapes that it is promised and that it delivers, for all statements at once, so
that assembly ends with a program or with a diagnostic. `Ready` is what the last stage leaves.
-/

namespace QuadAsm

def Operand.Bound : Operand → Prop
  | .reg r => r.file ≠ .shared
  | .imm _ => True
  | .label _ => False

theorem addFile_ne_shared (swap : Bool) : addFile swap ≠ .shared := by
  cases swap <;> decide

theorem mulFile_ne_shared (swap : Bool) : mulFile swap ≠ .shared := by
  cases swap <;> decide

theorem Slot.Settled.sources_bound {limit : ℕ} {ports : ReadPorts} {file : RegisterFile} {s : Slot}
    (h : s.Settled limit ports file) : s.lhs.Bound ∧ s.rhs.Bound := by
  obtain ⟨l, hl, hlf⟩ := h.lhs
  obtain ⟨r, hr, hrf⟩ := h.rhs
  rw [hl, hr]
  exact ⟨hlf.file_ne, hrf.file_ne⟩

namespace Instruction

/-- Nothing about the instruction is left open. -/
structure Ready (i : Instruction) : Prop where
  encoding : i.encoding ≠ none
  addCond : i.add.cond ≠ none
  mulCond : i.mul.cond ≠ none
  addDst : i.add.dst.file ≠ .shared
  mulDst : i.mul.dst.file ≠ .shared
  sources : ∀ o ∈ i.sources, o.Bound
  targetMode : i.targetMode ≠ none ↔ ∃ test, i.kind = .branch test

variable {pc : UInt32} {line : ℕ} {labels : List String} {i l : Instruction}

theorem Shaped.ready (h : Shaped IsOffset pc line labels l) (w : WordPair) :
    Ready { l with encoding := some w } := by
  have hr0 : ¬ Register.r0.file = .shared := by decide
  cases h with
  | @alu add mul _ _ _ swap _ hadd hmul _ _ =>
      obtain ⟨c, hc⟩ := hadd.cond
      obtain ⟨d, hd⟩ := hmul.cond
      refine ⟨by simp, by simp [hc], by simp [hd], ?_, ?_, ?_, by simp [blank]⟩
      · exact hadd.dstFile ▸ addFile_ne_shared swap
      · exact hmul.dstFile ▸ mulFile_ne_shared swap
      · simp [Instruction.sources, hadd.sources_bound, hmul.sources_bound]
  | @load _ _ _ swap =>
      refine ⟨by simp, by simp [settledLoad], by simp [settledLoad], addFile_ne_shared swap,
        mulFile_ne_shared swap, ?_, by simp [settledLoad, blank]⟩
      simp [Instruction.sources, settledLoad, hr0, Operand.Bound]
  | semaphore _ =>
      refine ⟨by simp, by simp [withSemaphore], by simp [withSemaphore, Slot.nop], ?_, ?_, ?_,
        by simp [withSemaphore, blank]⟩
      · exact addFile_ne_shared false
      · exact mulFile_ne_shared false
      · simp [Instruction.sources, withSemaphore, Slot.nop, hr0, Operand.Bound]
  | @jump _ _ swap _ _ _ _ _ htarget =>
      obtain ⟨value, rfl⟩ := htarget
      refine ⟨by simp, by simp [settledBranch], by simp [settledBranch], addFile_ne_shared swap,
        mulFile_ne_shared swap, ?_, by simp [settledBranch]⟩
      simp [Instruction.sources, settledBranch, hr0, Operand.Bound]
  | @jumpVia _ _ swap =>
      refine ⟨by simp, by simp [settledBranch], by simp [settledBranch], addFile_ne_shared swap,
        mulFile_ne_shared swap, ?_, by simp [settledBranch]⟩
      simp [Instruction.sources, settledBranch, hr0, Operand.Bound]

end Instruction

open Instruction

theorem parsed_of_mem {statements : List Statement} {instrs : List Instruction}
    (h : readStatements statements = .ok instrs) {i : Instruction} (hi : i ∈ instrs) :
    ∃ pc line labels, Parsed pc line labels i := by
  obtain ⟨⟨s, k⟩, _, hs⟩ := exists_mem_of_mapM_ok h hi
  exact ⟨_, _, _, Statement.parsed_of_instruction hs⟩

theorem readStatements_ne_defect {statements : List Statement} (hlen : statements.length < 2 ^ 29)
    (d : Defect) : readStatements statements ≠ .error (.defect d) := by
  intro h
  obtain ⟨⟨s, k⟩, hmem, hs⟩ := exists_mem_of_mapM_error h
  have hk : k < statements.length := by
    have := List.mem_zipIdx hmem
    omega
  have haddress : k * 8 < UInt32.size := by
    change k * 8 < 4294967296
    omega
  exact Statement.instruction_ne_defect haddress d hs

theorem assemble_ne_defect {source : String}
    (hlen : ∀ statements, (Scan.ofSource source).statements = .ok statements →
      statements.length < 2 ^ 29) (d : Defect) : assemble source ≠ .error (.defect d) := by
  intro h
  rcases except_bind_eq_error.mp h with h | ⟨statements, hscan, h⟩
  · obtain ⟨_, _, he⟩ := mapError_eq_error.mp h
    cases he
  rcases except_bind_eq_error.mp h with h | ⟨instrs, hread, h⟩
  · exact readStatements_ne_defect (hlen statements (mapError_eq_ok.mp hscan)) d h
  rcases except_bind_eq_error.mp h with h | ⟨settled, hsettle, h⟩
  · obtain ⟨i, hi, he⟩ := exists_mem_of_mapM_error h
    obtain ⟨pc, line, labels, hparsed⟩ := parsed_of_mem hread hi
    exact settle_ne_defect hparsed d he
  rcases except_bind_eq_error.mp h with h | ⟨linked, hlink, h⟩
  · obtain ⟨_, _, he⟩ := mapError_eq_error.mp h
    cases he
  rcases except_bind_eq_error.mp h with h | ⟨_, _, h⟩
  · obtain ⟨e, he, _⟩ := mapError_eq_error.mp h
    obtain ⟨l, hl, he⟩ := exists_mem_of_mapM_error he
    obtain ⟨j, hj, hlj⟩ := exists_mem_of_mapM_ok (mapError_eq_ok.mp hlink) hl
    obtain ⟨i, hi, hij⟩ := exists_mem_of_mapM_ok hsettle hj
    obtain ⟨pc, line, labels, hparsed⟩ := parsed_of_mem hread hi
    obtain ⟨w, hw, _⟩ := (shaped_of_link (shaped_of_settle hparsed hij) hlj).decodes
    rw [withEncoding, hw] at he
    cases he
  · cases h

/-- A text with an address for each statement is assembled or refused. What is assembled is ready
in every part. -/
theorem assemble_ready_or_refused {source : String}
    (hlen : ∀ statements, (Scan.ofSource source).statements = .ok statements →
      statements.length < 2 ^ 29) :
    (∃ p, assemble source = .ok p ∧ ∀ i ∈ p.instrs, i.Ready) ∨
      ∃ e, assemble source = .error (.diagnostic e) := by
  cases h : assemble source with
  | ok p =>
      refine .inl ⟨p, rfl, ?_⟩
      intro i hi
      obtain ⟨settled, k, s, r, j, l, w, hp, rfl⟩ := passage_of_mem h hi
      exact hp.shaped.ready w
  | error e =>
      cases e with
      | diagnostic e => exact .inr ⟨e, rfl⟩
      | defect d => exact absurd h (assemble_ne_defect hlen d)

/-- The load writes nothing and is encoded as an ALU instruction. -/
def idleLoadText : String := "li.x.x, a1, b2, 5;\nself: b, -, -, self;\n"

theorem assemble_ready_or_refused_idle_load :
    (Scan.ofSource idleLoadText).statements.toOption.map List.length = some 2 ∧
      ((∃ p, assemble idleLoadText = .ok p ∧ ∀ i ∈ p.instrs, i.Ready) ∨
        ∃ e, assemble idleLoadText = .error (.diagnostic e)) := by
  have htwo : (Scan.ofSource idleLoadText).statements.toOption.map List.length = some 2 := by
    decide +kernel
  refine ⟨htwo, assemble_ready_or_refused ?_⟩
  intro statements h
  rw [h] at htwo
  have hlength : statements.length = 2 := Option.some.inj htwo
  rw [hlength]
  decide

end QuadAsm
