import QuadAsm.Proofs.Lines
import QuadAsm.Proofs.Numerals
import QuadAsm.Proofs.Scanning
import QuadAsm.Proofs.SentenceReading
import QuadAsm.Proofs.TokenCuts
import QuadAsm.Proofs.Verdict

/-!
# Labels that a branch can go to

A label is defined with one idea of what a name is, cut out of a statement with another and taken
for a target with a third. Here they are compared on one line, which defines a label and branches to
it. The line is a loop only if the name is a single word for the tokenizer, and one that is neither a
number nor a register for the branch. With a comma in it, a name can be read as the register and the
offset of another branch, which assembles and goes elsewhere.
-/

namespace QuadAsm

open Instruction

/-- What can stand before a colon as the name of a label. -/
def Bindable (name : String) : Prop :=
  name ≠ "" ∧ ∀ c ∈ name.toList, Text.isBlank c = false ∧ c ≠ ':' ∧ c ≠ ';' ∧ c ≠ '#'

def branchText (name : String) : String :=
  "b, -, -, " ++ name ++ ";"

section Line

variable {name : String}

theorem Bindable.ne_empty (h : Bindable name) : name ≠ "" := h.1

theorem Bindable.name_free (h : Bindable name) :
    ∀ c ∈ name.toList, c ≠ ':' ∧ endsFirstWord c = false := by
  intro c hc
  obtain ⟨hblank, hcolon, hend, hcomment⟩ := h.2 c hc
  exact ⟨hcolon, by simp [endsFirstWord, hblank, hend, hcomment]⟩

theorem toList_branchText (name : String) :
    (branchText name).toList =
      'b' :: ',' :: ' ' :: '-' :: ',' :: ' ' :: '-' :: ',' :: ' ' :: (name.toList ++ [';']) := by
  simp [branchText]

theorem settled_branchText (name : String) : Settled (branchText name).toList := by
  have hblank : Text.isBlank 'b' = false := by decide
  have hfirst : endsFirstWord 'b' = false ∧ endsFirstWord ',' = false ∧
      endsFirstWord ' ' = true := by decide
  rw [toList_branchText]
  refine ⟨by simpa using hblank, .inr ?_⟩
  simp [hfirst]

theorem isBlank_space : ∀ c ∈ [' '], Text.isBlank c = true :=
  List.forall_mem_singleton.mpr (by decide)

/-- A line that defines a label and branches to it. -/
def LineCut.selfBranch (h : Bindable name) : LineCut :=
  { bare (settled_branchText name) with
    labels := [⟨name, [' '], h.ne_empty, h.name_free, isBlank_space⟩] }

theorem LineCut.chars_selfBranch (h : Bindable name) :
    (selfBranch h).chars = (name ++ ": b, -, -, " ++ name ++ ";").toList := by
  simp [selfBranch, bare, chars, LabelPrefix.chars, branchText]

theorem scan_selfBranch (h : Bindable name) :
    (Scan.ofSource (name ++ ": b, -, -, " ++ name ++ ";")).statements =
      .ok [⟨1, [name], branchText name⟩] := by
  have hfeed : '\n' ∉ (LineCut.selfBranch h).chars := by
    rw [LineCut.chars_selfBranch]
    have hname : '\n' ∉ name.toList := by
      intro hmem
      exact absurd (h.2 '\n' hmem).1 (by decide)
    simp [hname]
  have hlines : Text.splitLines (LineCut.selfBranch h).chars = [(LineCut.selfBranch h).chars] := by
    apply Text.splitLinesFrom_unended hfeed
    simp [LineCut.chars_selfBranch]
  have hnamed : ¬ (LineCut.selfBranch h).Nameless := by
    simp [LineCut.Nameless, LineCut.selfBranch, LineCut.bare, toList_branchText]
  have hstatement : (LineCut.selfBranch h).HasStatement := by
    simp [LineCut.HasStatement, LineCut.selfBranch, LineCut.bare, toList_branchText]
  rw [Scan.ofSource, ← LineCut.chars_selfBranch h, hlines, Scan.ofLines_cut, if_neg hnamed,
    if_pos hstatement]
  change Except.ok [Statement.mk 1 [name] (String.ofList (branchText name).toList)] = _
  rw [String.ofList_toList]

end Line

section Tokens

variable {name word : String}

theorem tokenize_branchText (name : String) :
    tokenize (branchText name) =
      (tokenizeFrom [] (name.toList ++ [';'])).map (["b", ",", "-", ",", "-", ","] ++ ·) := by
  rw [tokenize, toList_branchText]
  change Option.map _ (Option.map _ (Option.map _ (Option.map _ (Option.map _ (Option.map _
    (tokenizeFrom [] (name.toList ++ [';']))))))) = _
  cases tokenizeFrom [] (name.toList ++ [';']) with
  | none => rfl
  | some tokens => rfl

theorem tokenizeFrom_isWord (h : IsWord name) :
    tokenizeFrom [] (name.toList ++ [';']) = some [name, ";"] := by
  rw [tokenizeFrom_token (.inr h) h.ne_terminator fun _ => ⟨';', [], rfl, by decide⟩]
  rfl

theorem eq_of_tokenizeFrom (h : Bindable name)
    (htokens : tokenizeFrom [] (name.toList ++ [';']) = some [word, ";"]) :
    name = word ∧ (IsMark word ∨ IsWord word) := by
  have hend : ';' ∉ name.toList := fun hmem => (h.2 ';' hmem).2.2.1 rfl
  obtain ⟨pieces, hcut, hchars⟩ := exists_isCut hend
  have hread := hcut.tokenizeFrom_eq []
  rw [List.append_nil, ← hchars, htokens, Option.some.injEq] at hread
  obtain ⟨p, q, rfl⟩ := List.length_eq_two.mp (by simpa using (congrArg List.length hread).symm)
  obtain ⟨rfl, hq⟩ : word = p.token ∧ ";" = q.token := by simpa using hread
  have hname : name.toList = p.blanks ++ (p.token.toList ++ q.blanks) := by
    simpa [Piece.chars, ← hq, ← List.append_assoc] using hchars
  have hnone : ∀ blanks : List Char, (∀ c ∈ blanks, Text.isBlank c = true) →
      (∀ c ∈ blanks, c ∈ name.toList) → blanks = [] := by
    intro blanks hblank hmem
    refine List.eq_nil_iff_forall_not_mem.mpr fun c hc => ?_
    exact absurd (hblank c hc) (by simp [(h.2 c (hmem c hc)).1])
  have hp : p.blanks = [] := hnone _ p.blank fun c hc => by simp [hname, hc]
  have hq' : q.blanks = [] := hnone _ q.blank fun c hc => by simp [hname, hc]
  refine ⟨?_, p.proper⟩
  rw [← String.toList_inj, hname, hp, hq', List.nil_append, List.append_nil]

theorem isWord_iff (h : Bindable name) :
    IsWord name ↔ '.' ∉ name.toList ∧ ',' ∉ name.toList := by
  constructor
  · intro hword
    exact ⟨fun hmem => (hword.2 '.' hmem).2.1 rfl, fun hmem => (hword.2 ',' hmem).2.2.1 rfl⟩
  · rintro ⟨hpoint, hcomma⟩
    refine ⟨h.ne_empty, fun c hc => ⟨(h.2 c hc).1, ?_, ?_, (h.2 c hc).2.2.1⟩⟩
    · rintro rfl
      exact hpoint hc
    · rintro rfl
      exact hcomma hc

end Tokens

theorem Register.fileA?_eq_none {word : String} :
    fileA? word = none ↔ ∀ n < 32, word ≠ "a" ++ toString n := by
  rw [Option.eq_none_iff_forall_ne_some]
  constructor
  · intro h n hn hword
    have hvalue : (UInt8.ofNat n).toNat = n := UInt8.toNat_ofNat_of_lt' (hn.trans (by decide))
    refine h (UInt8.ofNat n) (fileA?_eq_some.mpr ?_)
    rw [hvalue]
    exact ⟨hn, hword⟩
  · intro h n hn
    obtain ⟨hlt, hword⟩ := fileA?_eq_some.mp hn
    exact h n.toNat hlt hword

theorem Passage.targetMode_of_branch {settled : List Instruction} {k : ℕ} {s : Statement}
    {pc : UInt32} {line : ℕ} {labels : List String} {test : BranchTest} {any : Option Bool}
    {addDst mulDst : Named Register.writable?} {target : TargetPhrase} {j l : Instruction}
    {w : WordPair}
    (h : Passage settled k s
      ((Sentence.branch test any addDst mulDst target).instruction pc line labels) j l w) :
    l.targetMode = some target.mode := by
  have hmode := (target_of_assignWrites (mapError_eq_ok.mp h.settle)).1
  rw [eq_of_link h.link]
  exact hmode

theorem Sentence.target_of_tokens {x : Sentence} {after : List String}
    (h : x.tokens = ["b", ",", "-", ",", "-", ","] ++ after) :
    ∃ test any addDst mulDst target, x = .branch test any addDst mulDst target ∧
      target.tokens ++ [";"] = after := by
  have hb : Mnemonic.ofWord? "b" = some (.branch .always) := rfl
  obtain ⟨word, rest, htokens, hword⟩ := x.tokens_head
  obtain ⟨rfl, _⟩ := List.cons.inj (htokens.symm.trans h)
  have hmnemonic := Option.some.inj (hword.symm.trans hb)
  cases x with
  | alu => cases hmnemonic
  | load => cases hmnemonic
  | semaphore => cases hmnemonic
  | branch test any addDst mulDst target =>
      refine ⟨test, any, addDst, mulDst, target, rfl, ?_⟩
      cases any with
      | none =>
          simp only [tokens, suffixTokens, List.cons_append, List.nil_append, List.cons.injEq] at h
          exact h.2.2.2.2.2.2
      | some any => simp [tokens, suffixTokens] at h

theorem passage_of_single {source : String} {s : Statement} {p : Program}
    (hscan : (Scan.ofSource source).statements = .ok [s]) (hp : assemble source = .ok p) :
    ∃ settled i j l w, Passage settled 0 s i j l w ∧
      p.instrs = [{ l with encoding := some w }] := by
  obtain ⟨_, settled, hscan', _, hlength, hpassage⟩ := passage_of_assemble hp
  cases hscan.symm.trans hscan'
  obtain ⟨i, j, l, w, hpass, hf⟩ := hpassage 0 s rfl
  obtain ⟨f, hinstrs⟩ := List.length_eq_one_iff.mp hlength
  rw [hinstrs] at hf
  exact ⟨settled, i, j, l, w, hpass, by rw [hinstrs, Option.some.inj hf]⟩

section SelfBranch

variable {name : String}

/-- If the line is a relative branch at all, its target is the whole name. -/
theorem target_of_selfBranch (h : Bindable name) {p : Program} {i : Instruction}
    (hp : assemble (name ++ ": b, -, -, " ++ name ++ ";") = .ok p) (hi : p.instrs = [i])
    (hmode : i.targetMode = some .relative) :
    IsWord name ∧ Register.fileA? name = none ∧ Reader.startsWithDigit name = false := by
  obtain ⟨settled, r, j, l, w, hpass, hinstrs⟩ := passage_of_single (scan_selfBranch h) hp
  obtain rfl : { l with encoding := some w } = i := by simpa [hi] using hinstrs.symm
  obtain ⟨_, x, htokens, rfl⟩ := Statement.instruction_eq_ok_iff.mp hpass.read
  change tokenize (branchText name) = some x.tokens at htokens
  rw [tokenize_branchText, Option.map_eq_some_iff] at htokens
  obtain ⟨after, hafter, htokens⟩ := htokens
  obtain ⟨test, any, addDst, mulDst, target, rfl, rfl⟩ := x.target_of_tokens htokens.symm
  have hrelative := hpass.targetMode_of_branch.symm.trans hmode
  cases target with
  | register reg offset => cases hrelative
  | label label =>
      obtain ⟨rfl, hproper⟩ := eq_of_tokenizeFrom h hafter
      refine ⟨hproper.resolve_left ?_, label.not_register, label.not_number⟩
      rintro (hmark | hmark | hmark)
      · exact label.not_punctuation.1 hmark
      · exact label.not_punctuation.2.1 hmark
      · exact label.not_punctuation.2.2 hmark

theorem writable?_dash : Register.writable? "-" = some Register.nop :=
  Register.writable?_eq_nop.mpr rfl

def Sentence.jump (label : TargetLabel) : Sentence :=
  .branch .always none ⟨"-", Register.nop, writable?_dash⟩ ⟨"-", Register.nop, writable?_dash⟩
    (.label label)

variable {label : TargetLabel}

theorem tokenize_jump (hword : IsWord label.word) :
    tokenize (branchText label.word) = some (Sentence.jump label).tokens := by
  rw [tokenize_branchText, tokenizeFrom_isWord hword]
  rfl

theorem firstFailure?_jump (hword : IsWord label.word) :
    firstFailure? [⟨1, [label.word], branchText label.word⟩] = none := by
  refine firstFailure?_eq_none.mpr fun s hs => ?_
  obtain rfl := List.mem_singleton.mp hs
  have halone : Statement.alone ⟨1, [label.word], branchText label.word⟩ =
      .ok ((Sentence.jump label).instruction 0 1 []) := by
    rw [Statement.alone_eq_parse, parse_sentence (tokenize_jump hword)]
    rfl
  refine ⟨⟨_, by rw [Statement.settledAlone, halone]; rfl⟩, ?_⟩
  intro target htarget
  rw [Statement.target?, halone] at htarget
  obtain rfl : label.word = target := Option.some.inj htarget
  exact ⟨_, .head _, .head _⟩

theorem exists_selfBranch (h : Bindable label.word) (hword : IsWord label.word) :
    ∃ p i w, assemble (label.word ++ ": b, -, -, " ++ label.word ++ ";") = .ok p ∧ p.instrs = [i] ∧
      i.targetMode = some .relative ∧ i.encoding = some w ∧ w.lo = 0xFFFFFFE0 := by
  have hscan := scan_selfBranch h
  obtain ⟨p, hp⟩ := failure?_eq_none.mp
    ((failure?_assemble hscan (by simp)).trans (firstFailure?_jump hword))
  obtain ⟨settled, i, j, l, w, hpass, hinstrs⟩ := passage_of_single hscan hp
  have hread : Statement.instruction ⟨1, [label.word], branchText label.word⟩ 0 =
      .ok ((Sentence.jump label).instruction (UInt32.ofNat (0 * 8)) 1 [label.word]) :=
    Statement.instruction_eq_ok_iff.mpr ⟨by decide, _, tokenize_jump hword, rfl⟩
  obtain rfl := Except.ok.inj (hread.symm.trans hpass.read)
  have hbranch : Statement.instruction ⟨1, [label.word], branchText label.word⟩ 0 =
      .ok ((blank (UInt32.ofNat (0 * 8)) 1 [label.word]).withBranch .always none Register.nop
        Register.nop (.label label.word)) := hread
  obtain ⟨m, f, w', hm, hf, hw, hlo⟩ := displacement_of_assemble hscan hp rfl
    Register.nop_writable Register.nop_writable hbranch
  rw [hinstrs] at hf
  obtain rfl := Option.some.inj hf
  obtain rfl := Option.some.inj hw
  obtain rfl : 0 = m := by simpa [Statement.carries] using hm
  refine ⟨p, _, w, hp, hinstrs, hpass.targetMode_of_branch, rfl, ?_⟩
  have hlt := w.lo.toNat_lt
  apply UInt32.toNat_inj.mp
  change w.lo.toNat = 4294967264
  omega

end SelfBranch

/-- A label can be branched to if and only if its name is one word for the tokenizer, no number and
no register. -/
theorem selfBranch_iff {name : String} (hne : name ≠ "")
    (hfree : ∀ c ∈ name.toList, Text.isBlank c = false ∧ c ≠ ':' ∧ c ≠ ';' ∧ c ≠ '#') :
    (∃ p i w, assemble (name ++ ": b, -, -, " ++ name ++ ";") = .ok p ∧ p.instrs = [i] ∧
      i.targetMode = some .relative ∧ i.encoding = some w ∧ w.lo = 0xFFFFFFE0) ↔
      '.' ∉ name.toList ∧ ',' ∉ name.toList ∧ (∀ c ∈ name.toList.head?, c.isDigit = false) ∧
        ∀ n < 32, name ≠ "a" ++ toString n := by
  have hbind : Bindable name := ⟨hne, hfree⟩
  have hdigit : Reader.startsWithDigit name = false ↔
      ∀ c ∈ name.toList.head?, c.isDigit = false := by
    rw [Reader.startsWithDigit]
    cases name.toList.head? <;> simp
  rw [← Register.fileA?_eq_none, ← hdigit, ← and_assoc, ← isWord_iff hbind]
  constructor
  · rintro ⟨p, i, w, hp, hi, hmode, _⟩
    obtain ⟨hword, hreg, hstart⟩ := target_of_selfBranch hbind hp hi hmode
    exact ⟨hword, hstart, hreg⟩
  · rintro ⟨hword, hstart, hreg⟩
    have hpunct : name ≠ "." ∧ name ≠ "," ∧ name ≠ ";" :=
      ⟨fun he => IsMark.not_isWord (.inl he) hword,
        fun he => IsMark.not_isWord (.inr (.inl he)) hword, hword.ne_terminator⟩
    exact @exists_selfBranch ⟨name, hpunct, hreg, hstart⟩ hbind hword

/-- The name `a32` is no register. With `a1,0` the line assembles too, but not to a branch to
itself. -/
theorem selfBranch_iff_beyond_registers :
    (∃ p i w, assemble ("a32" ++ ": b, -, -, " ++ "a32" ++ ";") = .ok p ∧ p.instrs = [i] ∧
      i.targetMode = some .relative ∧ i.encoding = some w ∧ w.lo = 0xFFFFFFE0) ∧
    (∃ p, assemble ("a1,0" ++ ": b, -, -, " ++ "a1,0" ++ ";") = .ok p) ∧
    ¬ ∃ p i w, assemble ("a1,0" ++ ": b, -, -, " ++ "a1,0" ++ ";") = .ok p ∧ p.instrs = [i] ∧
      i.targetMode = some .relative ∧ i.encoding = some w ∧ w.lo = 0xFFFFFFE0 := by
  have hregister : ∀ c ∈ "a32".toList, Text.isBlank c = false ∧ c ≠ ':' ∧ c ≠ ';' ∧ c ≠ '#' := by
    intro c hc
    obtain rfl | rfl | rfl : c = 'a' ∨ c = '3' ∨ c = '2' := by simpa using hc
    all_goals decide
  have hcomma : ∀ c ∈ "a1,0".toList, Text.isBlank c = false ∧ c ≠ ':' ∧ c ≠ ';' ∧ c ≠ '#' := by
    intro c hc
    obtain rfl | rfl | rfl | rfl : c = 'a' ∨ c = '1' ∨ c = ',' ∨ c = '0' := by simpa using hc
    all_goals decide
  refine ⟨?_, ?_, ?_⟩
  · exact (selfBranch_iff (by decide) hregister).mpr
      ⟨by decide, by decide, by simp, by decide +kernel⟩
  · obtain ⟨p, hp, _⟩ := exists_ok_of_toOption (f := (·.instrs.length)) (b := 1)
      (x := assemble ("a1,0" ++ ": b, -, -, " ++ "a1,0" ++ ";")) (by decide +kernel)
    exact ⟨p, hp⟩
  · intro h
    exact ((selfBranch_iff (by decide) hcomma).mp h).2.1 (by decide)

end QuadAsm
