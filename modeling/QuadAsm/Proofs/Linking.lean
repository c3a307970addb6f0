import QuadAsm.Proofs.Relocation

/-!
# Linking by search

Linking looks labels up in a table that is made once for the whole program. `LinkedIn` says the same
with a search of the program for each branch: a label stands for the first instruction that carries
it. A program in which some branch finds no such instruction is refused at the first branch that
does not. A linked program has no branch to a label left, so linking it again changes nothing.
-/

namespace QuadAsm

namespace Instruction

/-- A branch to a label that no instruction of the program carries. -/
def Dangles (instrs : List Instruction) (i : Instruction) (name : String) : Prop :=
  i.BranchesTo name ∧ ∀ j ∈ instrs, j.definesLabel name = false

/-- What becomes of `i` when the program is searched for the label of each branch. The displacement
is a difference of integers, of either sign and any size, taken modulo 2 ^ 32. -/
inductive LinkedIn (instrs : List Instruction) (i : Instruction) : Instruction → Prop
  | branch {name : String} {target : Instruction} {value : UInt32} (branches : i.BranchesTo name)
      (first : instrs.find? (·.definesLabel name) = some target)
      (distance : (value.toNat : ℤ) = ((target.pc.toNat : ℤ) - i.pc.toNat - 32) % 2 ^ 32) :
      LinkedIn instrs i { i with add := { i.add with lhs := .imm value } }
  | other (unchanged : ∀ name, ¬ i.BranchesTo name) : LinkedIn instrs i i

variable {instrs : List Instruction} {i l : Instruction} {name : String}

theorem toNat_displacement (i : Instruction) (target : UInt32) :
    ((i.displacement target).toNat : ℤ) = ((target.toNat : ℤ) - i.pc.toNat - 32) % 2 ^ 32 := by
  have hbias : branchBias.toNat = 32 := rfl
  have hpc := i.pc.toNat_lt
  have htarget := target.toNat_lt
  rw [displacement, UInt32.toNat_sub, UInt32.toNat_add, hbias]
  omega

theorem link_eq_ok_iff : i.link (.ofProgram instrs) = .ok l ↔ LinkedIn instrs i l := by
  by_cases h : ∃ name, i.BranchesTo name
  · obtain ⟨name, hname⟩ := h
    rw [link_eq_ok hname, LabelMap.lookup_ofProgram]
    constructor
    · rintro ⟨_, hpc, rfl⟩
      obtain ⟨target, hfirst, rfl⟩ := Option.map_eq_some_iff.mp hpc
      exact .branch hname hfirst (i.toNat_displacement target.pc)
    · rintro (⟨hbranch, hfirst, hvalue⟩ | hnone)
      · cases hname.2.symm.trans hbranch.2
        refine ⟨_, Option.map_eq_some_iff.mpr ⟨_, hfirst, rfl⟩, ?_⟩
        rw [← toNat_displacement] at hvalue
        rw [UInt32.toNat.inj (Int.ofNat.inj hvalue)]
      · exact absurd hname (hnone name)
  · rw [link_of_not_branchesTo (not_exists.mp h)]
    constructor
    · intro hl
      cases hl
      exact .other (not_exists.mp h)
    · rintro (⟨hbranch, _, _⟩ | _)
      · exact absurd ⟨_, hbranch⟩ h
      · rfl

theorem link_eq_error_iff {d : Diagnostic} :
    i.link (.ofProgram instrs) = .error d ↔
      ∃ name, i.Dangles instrs name ∧ d = .undefinedLabel i.line name := by
  by_cases h : ∃ name, i.BranchesTo name
  · obtain ⟨name, hname⟩ := h
    rw [link_eq_error hname, LabelMap.lookup_ofProgram, Option.map_eq_none_iff, List.find?_eq_none]
    simp only [Bool.not_eq_true]
    constructor
    · rintro ⟨hnone, hd⟩
      exact ⟨name, ⟨hname, hnone⟩, hd⟩
    · rintro ⟨_, ⟨hbranch, hnone⟩, hd⟩
      cases hname.2.symm.trans hbranch.2
      exact ⟨hnone, hd⟩
  · rw [link_of_not_branchesTo (not_exists.mp h)]
    constructor
    · intro hd
      cases hd
    · rintro ⟨name, hdangles, _⟩
      exact absurd ⟨name, hdangles.1⟩ h

theorem exists_link_iff :
    (∃ l, i.link (.ofProgram instrs) = .ok l) ↔ ∀ name, ¬ i.Dangles instrs name := by
  cases h : i.link (.ofProgram instrs) with
  | ok l =>
      refine iff_of_true ⟨l, rfl⟩ ?_
      intro name hdangles
      cases h.symm.trans (link_eq_error_iff.mpr ⟨name, hdangles, rfl⟩)
  | error d =>
      obtain ⟨name, hdangles, _⟩ := link_eq_error_iff.mp h
      refine iff_of_false ?_ fun hnone => hnone name hdangles
      rintro ⟨_, hl⟩
      cases hl

theorem LinkedIn.not_branchesTo (h : LinkedIn instrs i l) (name : String) :
    ¬ l.BranchesTo name := by
  cases h with
  | branch _ _ _ =>
      rintro ⟨_, hlhs⟩
      cases hlhs
  | other unchanged => exact unchanged name

end Instruction

open Instruction

variable {instrs linked : List Instruction}

theorem linkAll_eq_ok_iff :
    linkAll instrs = .ok linked ↔ List.Forall₂ (LinkedIn instrs) instrs linked := by
  rw [linkAll, mapM_eq_ok]
  simp only [link_eq_ok_iff]

theorem exists_linkAll_iff :
    (∃ linked, linkAll instrs = .ok linked) ↔ ∀ i ∈ instrs, ∀ name, ¬ i.Dangles instrs name := by
  rw [← failure?_eq_none, linkAll, failure?_mapM, List.findSome?_eq_none_iff]
  simp only [failure?_eq_none, exists_link_iff]

theorem linkAll_eq_error_iff {d : Diagnostic} :
    linkAll instrs = .error d ↔
      ∃ before i after name, instrs = before ++ i :: after ∧
        (∀ j ∈ before, ∀ name, ¬ j.Dangles instrs name) ∧ i.Dangles instrs name ∧
        d = .undefinedLabel i.line name := by
  rw [linkAll, mapM_eq_error]
  simp only [exists_link_iff, link_eq_error_iff]
  constructor
  · rintro ⟨before, i, after, hsplit, hbefore, name, hdangles, hd⟩
    exact ⟨before, i, after, name, hsplit, hbefore, hdangles, hd⟩
  · rintro ⟨before, i, after, name, hsplit, hbefore, hdangles, hd⟩
    exact ⟨before, i, after, hsplit, hbefore, name, hdangles, hd⟩

theorem linkAll_of_not_branchesTo (h : ∀ i ∈ instrs, ∀ name, ¬ i.BranchesTo name) :
    linkAll instrs = .ok instrs :=
  linkAll_eq_ok_iff.mpr (List.forall₂_same.mpr fun i hi => .other (h i hi))

theorem linkAll_linked (h : linkAll instrs = .ok linked) : linkAll linked = .ok linked := by
  apply linkAll_of_not_branchesTo
  intro l hl
  obtain ⟨i, _, hi⟩ := exists_mem_of_mapM_ok h hl
  exact (link_eq_ok_iff.mp hi).not_branchesTo

/-- For any instructions at any addresses, linking is the search of the program for the label of
each branch, and ends where a search ends in vain. -/
theorem linkAll_refines_search (instrs : List Instruction) :
    (∀ name, (LabelMap.ofProgram instrs).lookup name =
        (instrs.find? (·.definesLabel name)).map (·.pc)) ∧
      ((∃ linked, linkAll instrs = .ok linked) ↔
        ∀ i ∈ instrs, ∀ name, i.BranchesTo name → ∃ j ∈ instrs, j.definesLabel name = true) ∧
      (∀ d, linkAll instrs = .error d ↔
        ∃ before i after name, instrs = before ++ i :: after ∧
          (∀ j ∈ before, ∀ name, ¬ j.Dangles instrs name) ∧ i.Dangles instrs name ∧
          d = .undefinedLabel i.line name) ∧
      ∀ linked, linkAll instrs = .ok linked →
        List.Forall₂ (LinkedIn instrs) instrs linked ∧ linkAll linked = .ok linked := by
  refine ⟨fun name => LabelMap.lookup_ofProgram name instrs, ?_, fun d => linkAll_eq_error_iff, ?_⟩
  · rw [exists_linkAll_iff]
    refine forall₂_congr fun i _ => forall_congr' fun name => ?_
    rw [Dangles, not_and]
    refine imp_congr_right fun _ => ?_
    simp only [not_forall, exists_prop, Bool.not_eq_false]
  · intro linked h
    exact ⟨linkAll_eq_ok_iff.mp h, linkAll_linked h⟩

/-- The first instruction stands at the top of the address space and carries its label twice, the
last one carries it again. -/
def wrappedProgram : List Instruction :=
  [{ pc := 0xfffffff8, line := 1, labels := ["top", "top"] },
    { pc := 8, line := 2, labels := [], targetMode := some .relative
      add := { Slot.nop with lhs := .label "top" } },
    { pc := 0, line := 3, labels := ["top"] }]

theorem linkAll_refines_search_wrapped :
    ∃ linked, linkAll wrappedProgram = .ok linked ∧
      List.Forall₂ (LinkedIn wrappedProgram) wrappedProgram linked ∧
      linked.map (·.add.lhs) = [.reg Register.r0, .imm 0xffffffd0, .reg Register.r0] ∧
      linkAll linked = .ok linked := by
  obtain ⟨linked, hlinked, hlhs⟩ := exists_ok_of_toOption (f := List.map (·.add.lhs))
    (x := linkAll wrappedProgram)
    (b := [.reg Register.r0, .imm 0xffffffd0, .reg Register.r0]) (by decide +kernel)
  obtain ⟨hsearch, hagain⟩ := (linkAll_refines_search wrappedProgram).2.2.2 linked hlinked
  exact ⟨linked, hlinked, hsearch, hlhs, hagain⟩

end QuadAsm
