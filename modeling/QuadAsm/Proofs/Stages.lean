import QuadAsm.Assembly
import QuadAsm.Proofs.SettledShapes

/-!
# Statements on their way through the stages

An assembly that succeeds takes every statement through the stages on its own. Only linking looks
at the other ones. `Passage` holds what a single statement is after each stage, so that a property
of the words can be followed back to the text one statement at a time.
-/

namespace QuadAsm

open Instruction

/-- The statement `s`, `k`-th of its text, is read as `i`, settled as `j`, linked among `settled` to
`l` and encoded as `w`. -/
structure Passage (settled : List Instruction) (k : ℕ) (s : Statement) (i j l : Instruction)
    (w : WordPair) : Prop where
  read : s.instruction k = .ok i
  settle : i.settle = .ok j
  place : settled[k]? = some j
  link : j.link (.ofProgram settled) = .ok l
  encode : l.encode = .ok w

theorem statementAddress_eq_ok {k : ℕ} {pc : UInt32} :
    statementAddress k = .ok pc ↔ k * 8 < UInt32.size ∧ pc = UInt32.ofNat (k * 8) := by
  unfold statementAddress
  split_ifs with h
  · simp [h, eq_comm]
  · simp [h]

theorem Statement.instruction_eq_ok {s : Statement} {k : ℕ} {i : Instruction} :
    s.instruction k = .ok i ↔
      ∃ pc, statementAddress k = .ok pc ∧ (blank pc s.line s.labels).parse s.text = .ok i := by
  simp only [instruction, except_bind_eq_ok, mapError_eq_ok]
  rfl

theorem parse_eq_ok {i j : Instruction} {text : String} :
    i.parse text = .ok j ↔
      ∃ tokens rest, tokenize text = some tokens ∧ i.read tokens = .ok j rest := by
  unfold parse Reader.runAt
  cases tokenize text with
  | none => simp
  | some tokens =>
      cases hread : i.read tokens with
      | ok k rest => simp [hread]
      | error reason rest => simp [hread]

theorem Statement.parsed_of_instruction {s : Statement} {k : ℕ} {i : Instruction}
    (h : s.instruction k = .ok i) :
    Parsed (UInt32.ofNat (k * 8)) s.line s.labels i := by
  obtain ⟨pc, hpc, h⟩ := instruction_eq_ok.mp h
  obtain ⟨_, rfl⟩ := statementAddress_eq_ok.mp hpc
  obtain ⟨tokens, rest, _, hread⟩ := parse_eq_ok.mp h
  exact parsed_of_read hread

theorem Statement.instruction_ne_defect {s : Statement} {k : ℕ} (hk : k * 8 < UInt32.size)
    (d : Defect) : s.instruction k ≠ .error (.defect d) := by
  intro h
  rcases except_bind_eq_error.mp h with h | ⟨_, _, h⟩
  · obtain ⟨e, he, _⟩ := mapError_eq_error.mp h
    rw [statementAddress, if_pos hk] at he
    cases he
  · obtain ⟨_, _, he⟩ := mapError_eq_error.mp h
    cases he

theorem readStatements_getElem? {statements : List Statement} {instrs : List Instruction}
    (h : readStatements statements = .ok instrs) {k : ℕ} {s : Statement}
    (hs : statements[k]? = some s) :
    ∃ i, instrs[k]? = some i ∧ s.instruction k = .ok i := by
  have hz : statements.zipIdx[k]? = some (s, k) := by simp [List.getElem?_zipIdx, hs]
  unfold readStatements at h
  obtain ⟨i, hi, hread⟩ := getElem?_of_forall₂ (mapM_eq_ok.mp h) hz
  exact ⟨i, hi, hread⟩

theorem withEncoding_eq_ok {l f : Instruction} :
    l.withEncoding = .ok f ↔ ∃ w, l.encode = .ok w ∧ f = { l with encoding := some w } := by
  simp only [withEncoding, except_bind_eq_ok, except_pure_eq_ok]
  exact exists_congr fun w => and_congr_right fun _ => eq_comm

theorem assemble_eq_ok {source : String} {p : Program} :
    assemble source = .ok p ↔
      ∃ statements instrs settled linked, (Scan.ofSource source).statements = .ok statements ∧
        readStatements statements = .ok instrs ∧ instrs.mapM settle = .ok settled ∧
        linkAll settled = .ok linked ∧ linked.mapM withEncoding = .ok p.instrs := by
  simp only [assemble, except_bind_eq_ok, mapError_eq_ok, except_pure_eq_ok]
  constructor
  · rintro ⟨statements, hscan, instrs, hread, settled, hsettle, linked, hlink, final, hencode, rfl⟩
    exact ⟨statements, instrs, settled, linked, hscan, hread, hsettle, hlink, hencode⟩
  · rintro ⟨statements, instrs, settled, linked, hscan, hread, hsettle, hlink, hencode⟩
    exact ⟨statements, hscan, instrs, hread, settled, hsettle, linked, hlink, p.instrs, hencode,
      rfl⟩

theorem passage_of_assemble {source : String} {p : Program} (h : assemble source = .ok p) :
    ∃ statements settled, (Scan.ofSource source).statements = .ok statements ∧
      settled.length = statements.length ∧ p.instrs.length = statements.length ∧
      ∀ k s, statements[k]? = some s →
        ∃ i j l w, Passage settled k s i j l w ∧
          p.instrs[k]? = some { l with encoding := some w } := by
  obtain ⟨statements, instrs, settled, linked, hscan, hread, hsettle, hlink, hencode⟩ :=
    assemble_eq_ok.mp h
  have hsettle := mapM_eq_ok.mp hsettle
  have hlink := mapM_eq_ok.mp hlink
  have hencode := mapM_eq_ok.mp hencode
  have hlength : instrs.length = statements.length := by
    simpa using (mapM_eq_ok.mp hread).length_eq.symm
  refine ⟨statements, settled, hscan, hsettle.length_eq.symm.trans hlength, ?_, ?_⟩
  · rw [← hencode.length_eq, ← hlink.length_eq, ← hsettle.length_eq, hlength]
  · intro k s hs
    obtain ⟨i, hi, hread⟩ := readStatements_getElem? hread hs
    obtain ⟨j, hj, hsettle⟩ := getElem?_of_forall₂ hsettle hi
    obtain ⟨l, hl, hlink⟩ := getElem?_of_forall₂ hlink hj
    obtain ⟨f, hf, hencode⟩ := getElem?_of_forall₂ hencode hl
    obtain ⟨w, hw, rfl⟩ := withEncoding_eq_ok.mp hencode
    exact ⟨i, j, l, w, ⟨hread, hsettle, hj, hlink, hw⟩, hf⟩

theorem passage_of_mem {source : String} {p : Program} (h : assemble source = .ok p)
    {f : Instruction} (hf : f ∈ p.instrs) :
    ∃ settled k s i j l w, Passage settled k s i j l w ∧ f = { l with encoding := some w } := by
  obtain ⟨statements, settled, _, _, hlength, hpassage⟩ := passage_of_assemble h
  obtain ⟨k, hk⟩ := List.mem_iff_getElem?.mp hf
  have hlt : k < statements.length := by
    rw [← hlength]
    exact (List.getElem?_eq_some_iff.mp hk).1
  obtain ⟨i, j, l, w, hp, hf⟩ := hpassage k _ (List.getElem?_eq_getElem hlt)
  exact ⟨settled, k, _, i, j, l, w, hp, Option.some.inj (hk.symm.trans hf)⟩

/-- Linking leaves a number in place of a label, and nothing else is changed by it. -/
def IsOffset (o : Operand) : Prop := ∃ value, o = .imm value

theorem eq_of_link {table : LabelMap} {j l : Instruction} (h : j.link table = .ok l) :
    l = { j with add := { j.add with lhs := l.add.lhs } } := by
  unfold link at h
  split at h
  · cases h
    rfl
  · split at h
    · cases h
      rfl
    · cases h

theorem shaped_of_link {table : LabelMap} {pc : UInt32} {line : ℕ} {labels : List String}
    {j l : Instruction} (hj : Shaped IsLabel pc line labels j) (h : j.link table = .ok l) :
    Shaped IsOffset pc line labels l := by
  cases hj with
  | alu hadd hmul himmediate hsignal =>
      cases h
      exact .alu hadd hmul himmediate hsignal
  | load hadd hmul =>
      cases h
      exact .load hadd hmul
  | semaphore hnumber =>
      cases h
      exact .semaphore hnumber
  | jump hadd hmul htarget =>
      obtain ⟨name, rfl⟩ := htarget
      obtain ⟨target, _, rfl⟩ := (link_eq_ok ⟨rfl, rfl⟩).mp h
      exact .jump hadd hmul ⟨_, rfl⟩
  | jumpVia hadd hmul hnum =>
      cases h
      exact .jumpVia hadd hmul hnum

theorem Passage.shaped {settled : List Instruction} {k : ℕ} {s : Statement} {i j l : Instruction}
    {w : WordPair} (h : Passage settled k s i j l w) :
    Shaped IsOffset (UInt32.ofNat (k * 8)) s.line s.labels l :=
  shaped_of_link (shaped_of_settle (Statement.parsed_of_instruction h.read) h.settle) h.link

end QuadAsm
