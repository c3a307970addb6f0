import QuadAsm.Proofs.Lines
import QuadAsm.Proofs.Relocation

/-!
# Texts one after the other

Two texts that assemble can be put one after the other, if the first one ends with a line and no
label is defined in both. Then the words of the whole are those of the two. The lines of the second
text are numbered on and labels that are left over from the first one go to its first statement, so
its instructions are moved, and so is everything that they branch to.
-/

namespace QuadAsm

open Instruction

namespace Statement

/-- The statements when `lines` more lines and the labels `names` stand above them. -/
def lowered (names : List String) (lines : ℕ) : List Statement → List Statement
  | [] => []
  | s :: statements =>
    ⟨s.line + lines, names ++ s.labels, s.text⟩ ::
      statements.map fun t => { t with line := t.line + lines }

theorem lowered_nil (lines : ℕ) (statements : List Statement) :
    lowered [] lines statements = statements.map fun t => { t with line := t.line + lines } := by
  cases statements <;> rfl

theorem moved_lowered (names : List String) (lines : ℕ) (statements : List Statement) :
    List.Forall₂ (Moved names) statements (lowered names lines statements) := by
  cases statements with
  | nil => exact .nil
  | cons s statements =>
      refine .cons ⟨rfl, ?_⟩ ?_
      · intro name hname
        simp [carries, hname]
      · rw [List.forall₂_map_right_iff, List.forall₂_same]
        exact fun t _ => ⟨rfl, fun _ _ => rfl⟩

end Statement

namespace Scan

open Statement

variable {defined pending : List String} {line : ℕ} {texts : List (List Char)}
  {statements : List Statement}

/-- The labels that still have no statement below the lines. -/
def leftover (pending : List String) : List (List Char) → List String
  | [] => pending
  | text :: texts =>
    let parts := LineParts.ofLine text
    if parts.rest.all isVacant then leftover (pending ++ parts.labels) texts else leftover [] texts

theorem mem_leftover {name : String} (h : name ∈ leftover pending texts) :
    name ∈ pending ∨ ∃ text ∈ texts, name ∈ (LineParts.ofLine text).labels := by
  induction texts generalizing pending with
  | nil => exact .inl h
  | cons text texts ih =>
      simp only [leftover] at h
      split_ifs at h
      · rcases ih h with h | ⟨t, ht, hname⟩
        · rcases List.mem_append.mp h with h | h
          · exact .inl h
          · exact .inr ⟨text, .head _, h⟩
        · exact .inr ⟨t, .tail _ ht, hname⟩
      · rcases ih h with h | ⟨t, ht, hname⟩
        · cases h
        · exact .inr ⟨t, .tail _ ht, hname⟩

theorem ofLines_lowered (h : (ofLines defined pending line texts).statements = .ok statements)
    (defined' names : List String) (lines : ℕ) :
    (ofLines defined' (names ++ pending) (line + lines) texts).statements =
      .ok (lowered names lines statements) := by
  induction texts generalizing defined defined' names pending line statements with
  | nil =>
      cases h
      rfl
  | cons text texts ih =>
      obtain ⟨rest, hrest, h⟩ := ofLines_cons_eq_ok.mp h
      refine ofLines_cons_eq_ok.mpr ⟨rest, hrest, ?_⟩
      rw [List.append_assoc, Nat.add_right_comm]
      by_cases hv : isVacant rest
      · rw [if_pos hv] at h ⊢
        exact ih h _ names
      · rw [if_neg hv] at h ⊢
        obtain ⟨below, hbelow, rfl⟩ := h
        refine ⟨_, ih hbelow _ [], ?_⟩
        rw [lowered_nil]
        rfl

theorem ofLines_append {above below : List (List Char)} {first second : List Statement}
    {lines : ℕ} (habove : (ofLines defined pending line above).statements = .ok first)
    (hbelow : (ofLines [] [] 1 below).statements = .ok second)
    (hlines : line + above.length = 1 + lines) :
    (ofLines defined pending line (above ++ below)).statements =
      .ok (first ++ lowered (leftover pending above) lines second) := by
  induction above generalizing defined pending line first with
  | nil =>
      cases habove
      obtain rfl : line = 1 + lines := hlines
      simpa [leftover] using ofLines_lowered hbelow defined pending lines
  | cons text above ih =>
      obtain ⟨rest, hrest, habove⟩ := ofLines_cons_eq_ok.mp habove
      have hnext : line + 1 + above.length = 1 + lines := by
        rw [List.length_cons] at hlines
        omega
      refine ofLines_cons_eq_ok.mpr ⟨rest, hrest, ?_⟩
      simp only [leftover, hrest, Option.all_some]
      by_cases hv : isVacant rest
      · rw [if_pos hv] at habove
        rw [if_pos hv, if_pos hv]
        exact ih habove hnext
      · rw [if_neg hv] at habove
        rw [if_neg hv, if_neg hv]
        obtain ⟨middle, hmiddle, rfl⟩ := habove
        exact ⟨_, ih hmiddle hnext, rfl⟩

end Scan

/-- All labels that a text defines. -/
def definedLabels (source : String) : List String :=
  (Text.splitLines source.toList).flatMap fun line => (LineParts.ofLine line).labels

theorem mem_definedLabels {source name : String} :
    name ∈ definedLabels source ↔
      ∃ line ∈ Text.splitLines source.toList, name ∈ (LineParts.ofLine line).labels :=
  List.mem_flatMap

theorem scan_append {above below : String} {first second : List Statement}
    (hend : above = "" ∨ ∃ front, above = front ++ "\n")
    (habove : (Scan.ofSource above).statements = .ok first)
    (hbelow : (Scan.ofSource below).statements = .ok second) :
    ∃ names lines, (∀ name ∈ names, name ∈ definedLabels above) ∧
      (Scan.ofSource (above ++ below)).statements =
        .ok (first ++ Statement.lowered names lines second) := by
  refine ⟨Scan.leftover [] (Text.splitLines above.toList), (Text.splitLines above.toList).length,
    ?_, ?_⟩
  · intro name hname
    apply mem_definedLabels.mpr
    exact (Scan.mem_leftover hname).resolve_left List.not_mem_nil
  · have hchars : above.toList = [] ∨ ∃ front, above.toList = front ++ ['\n'] := by
      rcases hend with rfl | ⟨front, rfl⟩
      · exact .inl rfl
      · exact .inr ⟨front.toList, by simp⟩
    rw [Scan.ofSource, String.toList_append, Text.splitLines_append hchars]
    exact Scan.ofLines_append habove hbelow rfl

theorem mem_definedLabels_of_lookup {source name : String} {statements : List Statement}
    {instrs settled : List Instruction} {target : UInt32}
    (hscan : (Scan.ofSource source).statements = .ok statements)
    (hread : readStatements statements = .ok instrs)
    (hsettle : instrs.mapM Instruction.settle = .ok settled)
    (h : (LabelMap.ofProgram settled).lookup name = some target) :
    name ∈ definedLabels source := by
  rw [LabelMap.lookup_ofProgram] at h
  obtain ⟨j, hj, _⟩ := Option.map_eq_some_iff.mp h
  obtain ⟨i, hi, hji⟩ := exists_mem_of_mapM_ok hsettle (List.mem_of_find?_eq_some hj)
  obtain ⟨⟨s, k⟩, hs, his⟩ := exists_mem_of_mapM_ok hread hi
  have hshaped := Instruction.shaped_of_settle (Statement.parsed_of_instruction his) hji
  have hlabel : j.definesLabel name = true := by simpa using List.find?_some hj
  have hcarries : s.carries name = true := by
    rw [Statement.carries, ← hshaped.place_eq.2.2]
    exact hlabel
  have hmem : s ∈ statements := (List.mem_zipIdx' hs).2 ▸ List.getElem_mem _
  have hsome : (statements.findIdx? (·.carries name)).isSome = true := by
    rw [List.findIdx?_isSome]
    exact List.any_eq_true.mpr ⟨s, hmem, hcarries⟩
  rw [Scan.findIdx?_carries name hscan] at hsome
  cases hd : definition? name [] (Text.splitLines source.toList) with
  | none =>
      rw [hd] at hsome
      cases hsome
  | some d =>
      rw [definition?, if_neg List.not_mem_nil] at hd
      obtain ⟨hlt, hdefines, _⟩ := List.findIdx?_eq_some_iff_getElem.mp hd
      refine mem_definedLabels.mpr ⟨_, List.getElem_mem hlt, ?_⟩
      simpa [definesOn] using hdefines

section Lookup

variable {above settled moved : List Instruction} {shift : UInt32} {extra : List String}
  {name : String} {target : UInt32}

theorem lookup_above (hmoved : List.Forall₂ (Moved shift []) settled moved)
    (below : List Instruction) (h : (LabelMap.ofProgram settled).lookup name = some target) :
    (LabelMap.ofProgram (moved ++ below)).lookup name = some (target + shift) := by
  rw [LabelMap.lookup_append, LabelMap.lookup_moved hmoved List.not_mem_nil, h]
  rfl

theorem lookup_below (hmoved : List.Forall₂ (Moved shift extra) settled moved)
    (habove : (LabelMap.ofProgram above).lookup name = none) (hname : name ∉ extra)
    (h : (LabelMap.ofProgram settled).lookup name = some target) :
    (LabelMap.ofProgram (above ++ moved)).lookup name = some (target + shift) := by
  rw [LabelMap.lookup_append, habove, LabelMap.lookup_moved hmoved hname, h]
  rfl

end Lookup

theorem length_of_assemble {source : String} {p : Program} {statements : List Statement}
    (h : assemble source = .ok p) (hscan : (Scan.ofSource source).statements = .ok statements) :
    p.instrs.length = statements.length := by
  obtain ⟨_, _, hscan', _, hlength, _⟩ := passage_of_assemble h
  cases hscan.symm.trans hscan'
  exact hlength

/-- Texts that share no label and are put together line by line have the words that they have apart,
one after the other. -/
theorem words_append {above below : String} {p q : Program} (hp : assemble above = .ok p)
    (hq : assemble below = .ok q) (hend : above = "" ∨ ∃ front, above = front ++ "\n")
    (hapart : ∀ name ∈ definedLabels above, name ∉ definedLabels below)
    (hroom : p.instrs.length + q.instrs.length < 2 ^ 29) :
    ∃ r, assemble (above ++ below) = .ok r ∧ r.words = p.words ++ q.words := by
  obtain ⟨first, _, settled, _, hscan, hread, hsettle, hlink, hencode⟩ := assemble_eq_ok.mp hp
  obtain ⟨second, _, settled', _, hscan', hread', hsettle', hlink', hencode'⟩ :=
    assemble_eq_ok.mp hq
  obtain ⟨names, lines, hnames, hboth⟩ := scan_append hend hscan hscan'
  have hsize : UInt32.size = 2 ^ 29 * 8 := rfl
  rw [length_of_assemble hp hscan, length_of_assemble hq hscan'] at hroom
  obtain ⟨_, upper, hreadUpper, hsettleUpper, hupper⟩ := exists_settled_of_moved (n := 0)
    (List.forall₂_same.mpr fun s _ => Statement.Moved.refl [] s) (by omega) hread hsettle
  obtain ⟨_, lower, hreadLower, hsettleLower, hlower⟩ := exists_settled_of_moved
    (n := first.length) (Statement.moved_lowered names lines second) (by omega) hread' hsettle'
  have hlookup : ∀ name target, (LabelMap.ofProgram settled').lookup name = some target →
      (LabelMap.ofProgram (upper ++ lower)).lookup name =
        some (target + UInt32.ofNat (first.length * 8)) := by
    intro name target h
    have hbelow := mem_definedLabels_of_lookup hscan' hread' hsettle' h
    have hnot : name ∉ definedLabels above := fun habove => hapart name habove hbelow
    -- Neither the first text nor the labels left over from it get in before the second text.
    refine lookup_below hlower ?_ (fun hname => hnot (hnames name hname)) h
    rw [LabelMap.lookup_moved hupper List.not_mem_nil]
    cases hfound : (LabelMap.ofProgram settled).lookup name with
    | none => rfl
    | some _ => exact absurd (mem_definedLabels_of_lookup hscan hread hsettle hfound) hnot
  obtain ⟨_, final, hlinkUpper, hencodeUpper, hwords⟩ := exists_encoded_of_moved hupper
    (fun _ _ h => lookup_above hupper lower h) hlink hencode
  obtain ⟨_, final', hlinkLower, hencodeLower, hwords'⟩ := exists_encoded_of_moved hlower hlookup
    hlink' hencode'
  refine ⟨⟨final ++ final'⟩, assemble_eq_ok.mpr ⟨_, _, _, _, hboth, ?_,
    mapM_append_eq_ok hsettleUpper hsettleLower, mapM_append_eq_ok hlinkUpper hlinkLower,
    mapM_append_eq_ok hencodeUpper hencodeLower⟩, ?_⟩
  · rw [readStatements, List.zipIdx_append, Nat.zero_add]
    exact mapM_append_eq_ok hreadUpper hreadLower
  · rw [Program.words, List.filterMap_append, hwords, hwords']
    rfl

/-- The last label is left over for what follows. -/
def upperText : String := "top: add, r0, r1, r2 -;\nbnz.any, -, -, top;\nrest:" ++ "\n"

def lowerText : String := "b, -, -, next;\n- -;\nnext: - -;"

theorem words_append_leftover :
    ∃ p q r, assemble upperText = .ok p ∧ assemble lowerText = .ok q ∧
      "rest" ∈ definedLabels upperText ∧ assemble (upperText ++ lowerText) = .ok r ∧
      r.words = p.words ++ q.words := by
  obtain ⟨p, hp, hplength⟩ := exists_ok_of_toOption (f := (·.instrs.length)) (b := 2)
    (x := assemble upperText) (by decide +kernel)
  obtain ⟨q, hq, hqlength⟩ := exists_ok_of_toOption (f := (·.instrs.length)) (b := 3)
    (x := assemble lowerText) (by decide +kernel)
  obtain ⟨r, hr, hwords⟩ := words_append hp hq (.inr ⟨_, rfl⟩) (by decide +kernel)
    (by rw [hplength, hqlength]; decide)
  exact ⟨p, q, r, hp, hq, by decide +kernel, hr, hwords⟩

end QuadAsm
