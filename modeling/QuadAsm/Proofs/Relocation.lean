import QuadAsm.Proofs.Places
import QuadAsm.Proofs.SentenceReading

/-!
# Instructions at another place

Nothing of an instruction depends on its place except the displacement of a relative branch, and
that stays the same if the branch and its target move together. So statements that are read further
down in a text, with more of them above, still give the same words.
-/

namespace QuadAsm

namespace Instruction

variable {i j l i' j' : Instruction} {shift : UInt32} {extra : List String}

/-- `i'` is `i` with an address that is greater by `shift`, on whatever line. Its labels are those of
`i` and some of `extra`. -/
structure Moved (shift : UInt32) (extra : List String) (i i' : Instruction) : Prop where
  eq : i' = i.placed (i.pc + shift) i'.line i'.labels
  labels : ∀ name, name ∉ extra → i'.definesLabel name = i.definesLabel name

/-- A stage that does the same at every place takes what is moved to what is moved. -/
theorem Moved.stage {ε : Type} {f : Instruction → Except ε Instruction}
    (hf : ∀ {i j : Instruction} pc line labels, f i = .ok j →
      f (i.placed pc line labels) = .ok (j.placed pc line labels))
    (h : Moved shift extra i i') (hi : f i = .ok j) :
    ∃ j', f i' = .ok j' ∧ Moved shift extra j j' := by
  obtain ⟨hpc, _, hlabels⟩ := place_eq_of_placed hf hi
  refine ⟨j.placed (i.pc + shift) i'.line i'.labels, ?_, ?_, ?_⟩
  · have hmoved := hf (i.pc + shift) i'.line i'.labels hi
    rwa [← h.eq] at hmoved
  · rw [hpc]
    rfl
  · intro name hname
    have hsame := h.labels name hname
    rw [definesLabel, definesLabel] at hsame ⊢
    rw [hlabels]
    exact hsame

theorem Moved.displacement_eq (h : Moved shift extra j j') (target : UInt32) :
    j'.displacement (target + shift) = j.displacement target := by
  have hpc : j'.pc = j.pc + shift := (congrArg Instruction.pc h.eq :)
  rw [displacement, displacement, hpc]
  grind

/-- Branches and their targets move together. -/
theorem Moved.link {table table' : LabelMap}
    (hlookup : ∀ name target, table.lookup name = some target →
      table'.lookup name = some (target + shift))
    (h : Moved shift extra j j') (hl : j.link table = .ok l) :
    ∃ l', j'.link table' = .ok l' ∧ Moved shift extra l l' := by
  obtain ⟨line, labels, rfl⟩ : ∃ line labels, j' = j.placed (j.pc + shift) line labels :=
    ⟨_, _, h.eq⟩
  by_cases hbranch : ∃ name, j.BranchesTo name
  · obtain ⟨name, hname⟩ := hbranch
    obtain ⟨target, htarget, rfl⟩ := (link_eq_ok hname).mp hl
    refine ⟨_, (link_eq_ok (i := j.placed (j.pc + shift) line labels) hname).mpr
      ⟨_, hlookup _ _ htarget, rfl⟩, ?_, h.labels⟩
    rw [h.displacement_eq]
    rfl
  · have hnone := not_exists.mp hbranch
    rw [link_of_not_branchesTo hnone] at hl
    cases hl
    exact ⟨_, link_of_not_branchesTo (i := j.placed (j.pc + shift) line labels) hnone, h⟩

end Instruction

open Instruction

namespace LabelMap

variable {shift : UInt32} {extra : List String}

theorem lookup_moved {instrs instrs' : List Instruction}
    (h : List.Forall₂ (Moved shift extra) instrs instrs') {name : String} (hname : name ∉ extra) :
    (ofProgram instrs').lookup name = ((ofProgram instrs).lookup name).map (· + shift) := by
  rw [lookup_ofProgram, lookup_ofProgram]
  induction h with
  | nil => rfl
  | @cons i i' _ _ hi _ ih =>
      have hpc : i'.pc = i.pc + shift := (congrArg Instruction.pc hi.eq :)
      rw [List.find?_cons, List.find?_cons, hi.labels name hname]
      cases i.definesLabel name with
      | true => simp [hpc]
      | false => exact ih

theorem lookup_append (above below : List Instruction) (name : String) :
    (ofProgram (above ++ below)).lookup name =
      ((ofProgram above).lookup name).or ((ofProgram below).lookup name) := by
  simp only [lookup_ofProgram, List.find?_append, Option.map_or]

end LabelMap

theorem Sentence.instruction_placed (s : Sentence) (pc pc' : UInt32) (line line' : ℕ)
    (labels labels' : List String) :
    s.instruction pc' line' labels' =
      (s.instruction pc line labels).placed pc' line' labels' := by
  cases s <;> rfl

theorem Sentence.instruction_place (s : Sentence) (pc : UInt32) (line : ℕ)
    (labels : List String) : (s.instruction pc line labels).pc = pc ∧
      (s.instruction pc line labels).line = line ∧
      (s.instruction pc line labels).labels = labels := by
  cases s <;> exact ⟨rfl, rfl, rfl⟩

namespace Statement

/-- `s'` is `s` on whatever line, with the labels of `s` and some of `extra`. -/
structure Moved (extra : List String) (s s' : Statement) : Prop where
  text : s'.text = s.text
  labels : ∀ name, name ∉ extra → s'.carries name = s.carries name

theorem Moved.refl (extra : List String) (s : Statement) : Moved extra s s :=
  ⟨rfl, fun _ _ => rfl⟩

theorem Moved.instruction {extra : List String} {s s' : Statement} {n k : ℕ} {i : Instruction}
    (h : Moved extra s s') (hlt : (n + k) * 8 < UInt32.size) (hi : s.instruction k = .ok i) :
    ∃ i', s'.instruction (n + k) = .ok i' ∧
      Instruction.Moved (UInt32.ofNat (n * 8)) extra i i' := by
  obtain ⟨_, sentence, htokens, rfl⟩ := instruction_eq_ok_iff.mp hi
  have haddress : UInt32.ofNat ((n + k) * 8) = UInt32.ofNat (k * 8) + UInt32.ofNat (n * 8) := by
    rw [Nat.add_comm, Nat.add_mul, UInt32.ofNat_add]
  obtain ⟨hpc, _, hlabels⟩ := sentence.instruction_place (UInt32.ofNat (k * 8)) s.line s.labels
  obtain ⟨_, hline', hlabels'⟩ :=
    sentence.instruction_place (UInt32.ofNat ((n + k) * 8)) s'.line s'.labels
  refine ⟨_, instruction_eq_ok_iff.mpr ⟨hlt, sentence, h.text ▸ htokens, rfl⟩, ?_, ?_⟩
  · rw [hpc, hline', hlabels', ← haddress]
    exact sentence.instruction_placed ..
  · intro name hname
    rw [definesLabel, definesLabel, hlabels, hlabels']
    exact h.labels name hname

end Statement

section Stages

variable {extra : List String} {statements statements' : List Statement} {n : ℕ}

theorem forall₂_zipIdx (h : List.Forall₂ (Statement.Moved extra) statements statements') (m : ℕ) :
    List.Forall₂ (fun s s' => s.1.Moved extra s'.1 ∧ s'.2 = n + s.2 ∧ s.2 < m + statements.length)
      (statements.zipIdx m) (statements'.zipIdx (n + m)) := by
  induction h generalizing m with
  | nil => exact .nil
  | cons hs _ ih =>
      refine .cons ⟨hs, rfl, by simp⟩ ?_
      refine (ih (m + 1)).imp ?_
      rintro s s' ⟨hmoved, heq, hlt⟩
      refine ⟨hmoved, heq, ?_⟩
      rw [List.length_cons]
      omega

theorem exists_settled_of_moved {instrs settled : List Instruction}
    (hmoved : List.Forall₂ (Statement.Moved extra) statements statements')
    (hroom : (n + statements.length) * 8 ≤ UInt32.size)
    (hread : readStatements statements = .ok instrs) (hsettle : instrs.mapM settle = .ok settled) :
    ∃ instrs' settled',
      (statements'.zipIdx n).mapM (fun s => s.1.instruction s.2) = .ok instrs' ∧
      instrs'.mapM settle = .ok settled' ∧
      List.Forall₂ (Moved (UInt32.ofNat (n * 8)) extra) settled settled' := by
  obtain ⟨instrs', hread', hinstrs⟩ := exists_mapM_ok_of_forall₂
    (S := Moved (UInt32.ofNat (n * 8)) extra) (g := fun s => s.1.instruction s.2)
    (fun s s' i hs hi => by
      obtain ⟨hs, heq, hlt⟩ := hs
      rw [heq]
      exact hs.instruction (by omega) hi) (forall₂_zipIdx hmoved 0) hread
  obtain ⟨settled', hsettle', hsettled⟩ := exists_mapM_ok_of_forall₂
    (fun i i' j h hj => h.stage settle_placeless.ok hj) hinstrs hsettle
  exact ⟨instrs', settled', hread', hsettle', hsettled⟩

theorem encodings_moved {shift : UInt32} {final final' : List Instruction}
    (h : List.Forall₂ (Moved shift extra) final final') :
    final'.filterMap (·.encoding) = final.filterMap (·.encoding) := by
  induction h with
  | nil => rfl
  | @cons f f' _ _ hf _ ih =>
      have hencoding : f'.encoding = f.encoding := (congrArg Instruction.encoding hf.eq :)
      rw [List.filterMap_cons, List.filterMap_cons, hencoding, ih]

theorem exists_encoded_of_moved {shift : UInt32} {table table' : LabelMap}
    {settled settled' linked final : List Instruction}
    (hmoved : List.Forall₂ (Moved shift extra) settled settled')
    (hlookup : ∀ name target, table.lookup name = some target →
      table'.lookup name = some (target + shift))
    (hlink : settled.mapM (link table) = .ok linked)
    (hencode : linked.mapM withEncoding = .ok final) :
    ∃ linked' final', settled'.mapM (link table') = .ok linked' ∧
      linked'.mapM withEncoding = .ok final' ∧
      final'.filterMap (·.encoding) = final.filterMap (·.encoding) := by
  obtain ⟨linked', hlink', hlinked⟩ := exists_mapM_ok_of_forall₂
    (fun j j' l h hl => h.link hlookup hl) hmoved hlink
  obtain ⟨final', hencode', hfinal⟩ := exists_mapM_ok_of_forall₂
    (fun l l' f h hf => h.stage (fun pc line labels hl => by rw [withEncoding_placed, hl]; rfl) hf)
    hlinked hencode
  exact ⟨linked', final', hlink', hencode', encodings_moved hfinal⟩

end Stages

end QuadAsm
