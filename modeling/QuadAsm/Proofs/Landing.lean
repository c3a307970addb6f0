import QuadAsm.Proofs.LabelDefinitions
import QuadAsm.Proofs.Stages

/-!
# Where branches land

The target of a relative branch is the last word of its statement. If the text assembles, the
displacement in the low word leads to the statement that the first definition of this label in the
text belongs to. It is counted from the fourth instruction after the branch, modulo the size of the
address space.
-/

namespace QuadAsm

/-- The statement that the first definition of a label in the text belongs to. -/
def landing? (source : String) (statements : List Statement) (name : String) : Option ℕ :=
  ((Text.splitLines source.toList).findIdx? (definesOn name)).bind fun d =>
    firstFrom (1 + d) statements

theorem landing?_eq {source : String} {statements : List Statement}
    (h : (Scan.ofSource source).statements = .ok statements) (name : String) :
    landing? source statements name = statements.findIdx? (·.carries name) :=
  (Scan.findIdx?_carries name h).symm

section Tokens

variable {word cs : List Char} {tokens : List String}

theorem terminator_not_mem_endedWord (h : ';' ∉ word) : ";" ∉ endedWord word := by
  unfold endedWord
  split_ifs
  · exact List.not_mem_nil
  · intro hmem
    have hword : [';'] = word.reverse := by
      simpa using congrArg String.toList (List.mem_singleton.mp hmem)
    apply h
    rw [← List.mem_reverse, ← hword]
    exact .head _

/-- The terminator is the last token and stands nowhere else. -/
theorem tokenizeFrom_eq_some (hword : ';' ∉ word) (h : tokenizeFrom word cs = some tokens) :
    ∃ front, tokens = front ++ [";"] ∧ ";" ∉ front := by
  induction cs generalizing word tokens with
  | nil => cases h
  | cons c cs ih =>
      have hended := terminator_not_mem_endedWord hword
      unfold tokenizeFrom at h
      by_cases hc : c = ';'
      · rw [if_pos hc] at h
        cases h
        exact ⟨_, rfl, hended⟩
      rw [if_neg hc] at h
      by_cases hp : isPunctuation c
      · rw [if_pos hp] at h
        obtain ⟨after, hafter, rfl⟩ := Option.map_eq_some_iff.mp h
        obtain ⟨front, rfl, hfront⟩ := ih List.not_mem_nil hafter
        refine ⟨endedWord word ++ String.singleton c :: front, by simp, ?_⟩
        have hne : ";" ≠ String.singleton c := by
          intro he
          apply hc
          simpa using (congrArg String.toList he).symm
        simp [hended, hne, hfront]
      rw [if_neg hp] at h
      by_cases hb : Text.isBlank c
      · rw [if_pos hb] at h
        obtain ⟨after, hafter, rfl⟩ := Option.map_eq_some_iff.mp h
        obtain ⟨front, rfl, hfront⟩ := ih List.not_mem_nil hafter
        exact ⟨endedWord word ++ front, by simp, by simp [hended, hfront]⟩
      · rw [if_neg hb] at h
        exact ih (by simp [hword, Ne.symm hc]) h

theorem eq_nil_of_tokenize {text : String} {before after : List String}
    (h : tokenize text = some (before ++ ";" :: after)) : after = [] := by
  obtain ⟨front, heq, hfront⟩ := tokenizeFrom_eq_some List.not_mem_nil h
  rcases List.eq_nil_or_concat after with rfl | ⟨init, last, rfl⟩
  · rfl
  · have hsplit : (before ++ ";" :: init) ++ [last] = front ++ [";"] := by simpa using heq
    have hinit : before ++ ";" :: init = front := (List.append_inj' hsplit rfl).1
    exact absurd (by rw [← hinit]; simp) hfront

end Tokens

namespace Instruction

variable {pc : UInt32} {line : ℕ} {labels tokens rest : List String} {i j l : Instruction}

theorem relative_of_read (h : (blank pc line labels).read tokens = .ok i rest)
    (hmode : i.targetMode = some .relative) :
    ∃ front name test any addDst mulDst, tokens = front ++ name :: ";" :: rest ∧
      addDst.Writable ∧ mulDst.Writable ∧
      i = (blank pc line labels).withBranch test any addDst mulDst (.label name) := by
  obtain ⟨word, mnemonic, operands, k, tail, rfl, hword, hoperands, h⟩ := read_eq_ok.mp h
  cases mnemonic with
  | add code =>
      obtain ⟨add, mul, _, _, rfl⟩ := parsed_of_readAlu (Mnemonic.add_code_lt hword) hoperands
      rw [(tailed_of_readTail h).eq] at hmode
      cases hmode
  | load shape =>
      obtain ⟨_, _, _, _, _, _, _, _, _, _, _, rfl⟩ := (readLoad_eq_ok rfl).mp hoperands
      rw [(tailed_of_readTail h).eq] at hmode
      cases hmode
  | semaphore direction =>
      obtain ⟨_, _, _, _, _, rfl⟩ := readSemaphore_eq_ok.mp hoperands
      rw [(tailed_of_readTail h).eq] at hmode
      cases hmode
  | branch test =>
      change (Mnemonic.start (blank pc line labels) (.branch test)).readBranch operands = _
        at hoperands
      obtain ⟨any, addWord, addDst, mulWord, mulDst, middle, target, hany, hadd, hmul, htarget,
        rfl⟩ := (readBranch_eq_ok rfl).mp hoperands
      rcases Reader.target_eq_ok.mp htarget with ⟨_, _, _, _, _, _, _, rfl⟩ | ⟨name, _, _, rfl, rfl⟩
      · obtain ⟨rfl, _⟩ := h
        cases hmode
      · obtain ⟨rfl, rfl⟩ := h
        obtain ⟨front, rfl⟩ : ∃ front, operands = front ++ name :: ";" :: tail := by
          rcases Reader.suffix_eq_ok.mp hany with ⟨_, rfl⟩ | ⟨value, after, _, rfl, hvalue⟩
          · exact ⟨[",", addWord, ",", mulWord, ","], rfl⟩
          · obtain ⟨token, rfl, _⟩ := Reader.known_eq_ok.mp hvalue
            exact ⟨[".", token, ",", addWord, ",", mulWord, ","], rfl⟩
        exact ⟨word :: front, name, test, any, addDst, mulDst, rfl, ⟨addWord, hadd⟩,
          ⟨mulWord, hmul⟩, rfl⟩

theorem lookup_of_link {table : LabelMap} {test : BranchTest} {any : Option Bool}
    {addDst mulDst : Register} {name : String} {w : WordPair} (hadd : addDst.Writable)
    (hmul : mulDst.Writable)
    (hsettle : ((blank pc line labels).withBranch test any addDst mulDst (.label name)).settle =
      .ok j)
    (hlink : j.link table = .ok l) (hw : l.encode = .ok w) :
    ∃ target, table.lookup name = some target ∧ w.lo = target - (pc + branchBias) := by
  obtain ⟨_, rfl⟩ := (assignWrites_eq_ok (Register.isAddressed_iff.mpr hadd.file_cases)
    (Register.isAddressed_iff.mpr hmul.file_cases)).mp (mapError_eq_ok.mp hsettle)
  obtain ⟨target, hlookup, rfl⟩ := (link_eq_ok ⟨rfl, rfl⟩).mp hlink
  cases hw
  exact ⟨target, hlookup, rfl⟩

end Instruction

theorem Instruction.Shaped.place_eq {P : Operand → Prop} {pc : UInt32} {line : ℕ}
    {labels : List String} {j : Instruction} (h : Shaped P pc line labels j) :
    j.pc = pc ∧ j.line = line ∧ j.labels = labels := by
  cases h <;> exact ⟨rfl, rfl, rfl⟩

theorem exists_findIdx?_of_find? {α : Type} {xs : List α} {p : α → Bool} {x : α}
    (h : xs.find? p = some x) : ∃ m, xs.findIdx? p = some m ∧ xs[m]? = some x := by
  rw [List.find?_eq_map_findFinIdx?_getElem] at h
  obtain ⟨m, hm, rfl⟩ := Option.map_eq_some_iff.mp h
  refine ⟨m, ?_, by simp⟩
  rw [List.findIdx?_eq_map_findFinIdx?_val, hm]
  rfl

section Program

variable {settled : List Instruction} {statements : List Statement}

/-- Instructions that stand where their statements do, eight bytes apart, carry their labels. -/
theorem lookup_settled {name : String} {target : UInt32}
    (hlength : settled.length = statements.length)
    (hplace : ∀ (m : ℕ) (t : Statement), statements[m]? = some t →
      ∃ j, settled[m]? = some j ∧ j.pc = UInt32.ofNat (m * 8) ∧ j.labels = t.labels)
    (h : (LabelMap.ofProgram settled).lookup name = some target) :
    ∃ m, statements.findIdx? (·.carries name) = some m ∧ target = UInt32.ofNat (m * 8) := by
  have hlabels : settled.map (·.labels) = statements.map (·.labels) := by
    apply List.ext_getElem?
    intro m
    rw [List.getElem?_map, List.getElem?_map]
    cases hm : statements[m]? with
    | none =>
        have hnone : settled[m]? = none := by
          rw [List.getElem?_eq_none_iff] at hm ⊢
          omega
        rw [hnone]
        rfl
    | some t =>
        obtain ⟨j, hj, _, hl⟩ := hplace m t hm
        rw [hj]
        exact congrArg some hl
  have hindex : settled.findIdx? (·.definesLabel name) = statements.findIdx? (·.carries name) := by
    have h := congrArg (List.findIdx? (·.contains name)) hlabels
    rwa [List.findIdx?_map, List.findIdx?_map] at h
  rw [LabelMap.lookup_ofProgram] at h
  obtain ⟨j, hj, rfl⟩ := Option.map_eq_some_iff.mp h
  obtain ⟨m, hm, hjm⟩ := exists_findIdx?_of_find? hj
  rw [hindex] at hm
  have hlt : m < statements.length := by
    rw [← hlength]
    exact (List.getElem?_eq_some_iff.mp hjm).1
  obtain ⟨j', hj', hpc, _⟩ := hplace m _ (List.getElem?_eq_getElem hlt)
  cases hjm.symm.trans hj'
  exact ⟨m, hm, hpc⟩

end Program

theorem displacement_add {target : UInt32} {j k : ℕ} (h : target = UInt32.ofNat (j * 8)) :
    ((target - (UInt32.ofNat (k * 8) + branchBias)).toNat + 8 * k + 32) % 2 ^ 32 =
      8 * j % 2 ^ 32 := by
  have hbias : branchBias.toNat = 32 := rfl
  rw [h, UInt32.toNat_sub, UInt32.toNat_add, UInt32.toNat_ofNat', UInt32.toNat_ofNat', hbias]
  omega

theorem Statement.target_of_instruction {s : Statement} {k : ℕ} {i : Instruction}
    (h : s.instruction k = .ok i) (hmode : i.targetMode = some .relative) :
    ∃ front name test any addDst mulDst, tokenize s.text = some (front ++ [name, ";"]) ∧
      addDst.Writable ∧ mulDst.Writable ∧
      i = (Instruction.blank (UInt32.ofNat (k * 8)) s.line s.labels).withBranch test any addDst
        mulDst (.label name) := by
  obtain ⟨pc, hpc, h⟩ := instruction_eq_ok.mp h
  obtain ⟨_, rfl⟩ := statementAddress_eq_ok.mp hpc
  obtain ⟨tokens, rest, htokens, hread⟩ := parse_eq_ok.mp h
  obtain ⟨front, name, test, any, addDst, mulDst, rfl, hadd, hmul, hi⟩ :=
    Instruction.relative_of_read hread hmode
  have hsplit : tokenize s.text = some ((front ++ [name]) ++ ";" :: rest) := by
    rw [htokens]
    simp
  obtain rfl := eq_nil_of_tokenize hsplit
  exact ⟨front, name, test, any, addDst, mulDst, htokens, hadd, hmul, hi⟩

theorem Passage.place_eq {settled : List Instruction} {k : ℕ} {s : Statement}
    {i j l : Instruction} {w : WordPair} (h : Passage settled k s i j l w) :
    settled[k]? = some j ∧ j.pc = UInt32.ofNat (k * 8) ∧ j.labels = s.labels := by
  have hshaped := Instruction.shaped_of_settle (Statement.parsed_of_instruction h.read) h.settle
  obtain ⟨hpc, _, hlabels⟩ := hshaped.place_eq
  exact ⟨h.place, hpc, hlabels⟩

theorem displacement_of_assemble {source : String} {statements : List Statement} {p : Program}
    (hscan : (Scan.ofSource source).statements = .ok statements) (hp : assemble source = .ok p)
    {k : ℕ} {s : Statement} {name : String} {test : BranchTest} {any : Option Bool}
    {addDst mulDst : Register} (hs : statements[k]? = some s) (hadd : addDst.Writable)
    (hmul : mulDst.Writable)
    (hi : s.instruction k = .ok ((Instruction.blank (UInt32.ofNat (k * 8)) s.line
      s.labels).withBranch test any addDst mulDst (.label name))) :
    ∃ j f w, statements.findIdx? (·.carries name) = some j ∧ p.instrs[k]? = some f ∧
      f.encoding = some w ∧ (w.lo.toNat + 8 * k + 32) % 2 ^ 32 = 8 * j % 2 ^ 32 := by
  obtain ⟨_, settled, hscan', hlength, _, hpassage⟩ := passage_of_assemble hp
  obtain rfl := Except.ok.inj (hscan.symm.trans hscan')
  obtain ⟨r, j, l, w, hpass, hf⟩ := hpassage k s hs
  cases hi.symm.trans hpass.read
  obtain ⟨target, hlookup, hlo⟩ := Instruction.lookup_of_link hadd hmul hpass.settle hpass.link
    hpass.encode
  obtain ⟨m, hm, htarget⟩ := lookup_settled hlength (fun n t ht => by
    obtain ⟨_, j, _, _, hpass, _⟩ := hpassage n t ht
    exact ⟨j, hpass.place_eq⟩) hlookup
  refine ⟨m, _, w, hm, hf, rfl, ?_⟩
  rw [hlo]
  exact displacement_add htarget

/-- A relative branch to `name` leads to the statement that the first definition of `name` in the
text belongs to, wherever that is; without such a statement the text does not assemble. -/
theorem branch_lands {source : String} {statements : List Statement}
    (hscan : (Scan.ofSource source).statements = .ok statements) {k : ℕ} {s : Statement}
    {i : Instruction} (hs : statements[k]? = some s) (hi : s.instruction k = .ok i)
    (hmode : i.targetMode = some .relative) :
    ∃ front name, tokenize s.text = some (front ++ [name, ";"]) ∧
      (∀ p, assemble source = .ok p →
        ∃ j f w, landing? source statements name = some j ∧ p.instrs[k]? = some f ∧
          f.encoding = some w ∧ (w.lo.toNat + 8 * k + 32) % 2 ^ 32 = 8 * j % 2 ^ 32) ∧
      ((∀ t ∈ statements, name ∉ t.labels) → ∀ p, assemble source ≠ .ok p) := by
  obtain ⟨front, name, test, any, addDst, mulDst, htokens, hadd, hmul, rfl⟩ :=
    Statement.target_of_instruction hi hmode
  refine ⟨front, name, htokens, ?_, ?_⟩
  · intro p hp
    rw [landing?_eq hscan name]
    exact displacement_of_assemble hscan hp hs hadd hmul hi
  · intro hnone p hp
    obtain ⟨j, _, _, hj, _⟩ := displacement_of_assemble hscan hp hs hadd hmul hi
    obtain ⟨hlt, hcarries, _⟩ := List.findIdx?_eq_some_iff_getElem.mp hj
    exact hnone _ (List.getElem_mem hlt) (by simpa [Statement.carries] using hcarries)

def loopBranch : String := "bz.any, -, -, loop;"

/-- A branch back over a comment to a label that is defined again further down. -/
def loopText : String := "loop:\n# head\n- -;\n" ++ loopBranch ++ "\nloop: - -;\n"

def loopStatements : List Statement :=
  [⟨3, ["loop"], "- -;"⟩, ⟨4, [], loopBranch⟩, ⟨5, ["loop"], "- -;"⟩]

theorem branch_lands_on_first_definition :
    ∃ p f w, assemble loopText = .ok p ∧
      p.instrs[1]? = some f ∧ f.encoding = some w ∧ (w.lo.toNat + 8 * 1 + 32) % 2 ^ 32 = 8 * 0 := by
  obtain ⟨p, hp, _⟩ := exists_ok_of_toOption (f := (·.instrs.length)) (b := 3)
    (x := assemble loopText) (by decide +kernel)
  obtain ⟨_, hscan, rfl⟩ := exists_ok_of_toOption (f := id)
    (x := (Scan.ofSource loopText).statements) (b := loopStatements) (by decide +kernel)
  obtain ⟨i, hi, hmode⟩ := exists_ok_of_toOption (f := (·.targetMode)) (b := some .relative)
    (x := Statement.instruction ⟨4, [], loopBranch⟩ 1) (by decide +kernel)
  obtain ⟨front, name, htokens, hland, _⟩ := branch_lands hscan (k := 1) rfl hi hmode
  have hword : tokenize loopBranch =
      some (["bz", ".", "any", ",", "-", ",", "-", ","] ++ ["loop", ";"]) := by decide +kernel
  have hname : name = "loop" := by
    have hlast := (List.append_inj' (Option.some.inj (htokens.symm.trans hword)) rfl).2
    simpa using hlast
  subst hname
  obtain ⟨j, f, w, hj, hf, hw, heq⟩ := hland p hp
  have hzero : landing? loopText loopStatements "loop" = some 0 := by decide +kernel
  obtain rfl : j = 0 := Option.some.inj (hj.symm.trans hzero)
  exact ⟨p, f, w, hp, hf, hw, heq⟩

end QuadAsm
