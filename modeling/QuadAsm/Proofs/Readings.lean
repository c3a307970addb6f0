import QuadAsm.Grammar.Statement
import QuadAsm.Proofs.Vocabulary

/-!
# What statements read as

For each reader: which tokens it accepts, and what it makes of them. `Parsed` lists the four shapes
that an instruction can have when its statement is read and nothing else is done to it yet. Every
later stage starts from one of these shapes.
-/

namespace QuadAsm

namespace Reader

variable {α : Type} {tokens rest : List String}

theorem pure_eq_ok {a b : α} :
    (pure a : Reader α) tokens = .ok b rest ↔ a = b ∧ tokens = rest := by
  change EStateM.Result.ok a tokens = .ok b rest ↔ _
  simp

theorem next_eq_ok {token : String} : next tokens = .ok token rest ↔ tokens = token :: rest := by
  cases tokens <;> simp [next]

theorem expect_eq_ok {want : String} {u : Unit} :
    expect want tokens = .ok u rest ↔ tokens = want :: rest := take_eq_ok

theorem immediate_eq_ok {value : UInt32} :
    immediate tokens = .ok value rest ↔
      ∃ token, tokens = token :: rest ∧ immediateOfToken token = .ok value := by
  simp only [immediate, bind_eq_ok, next_eq_ok]
  constructor
  · rintro ⟨token, middle, rfl, h⟩
    cases hv : immediateOfToken token with
    | ok found =>
        rw [hv] at h
        obtain ⟨rfl, rfl⟩ := pure_eq_ok.mp h
        exact ⟨token, rfl, hv⟩
    | error reason =>
        rw [hv] at h
        cases h
  · rintro ⟨token, rfl, h⟩
    exact ⟨token, rest, rfl, by rw [h]; rfl⟩

/-- What stands before the comma is a point and what `read` takes, or nothing. -/
theorem suffix_eq_ok {read : Reader α} {refusal : String → Reason} {o : Option α} :
    suffix read refusal tokens = .ok o rest ↔
      o = none ∧ tokens = "," :: rest ∨
        ∃ value middle, o = some value ∧ tokens = "." :: middle ∧
          read middle = .ok value ("," :: rest) := by
  simp only [suffix, bind_eq_ok, next_eq_ok]
  constructor
  · rintro ⟨token, middle, rfl, h⟩
    by_cases hdot : token = "."
    · subst token
      simp only [if_true, bind_eq_ok, take_eq_ok, pure_eq_ok] at h
      obtain ⟨value, after, hread, _, last, rfl, rfl, rfl⟩ := h
      exact .inr ⟨value, middle, rfl, rfl, hread⟩
    · by_cases hcomma : token = ","
      · subst token
        obtain ⟨rfl, rfl⟩ := pure_eq_ok.mp h
        exact .inl ⟨rfl, rfl⟩
      · rw [if_neg hdot, if_neg hcomma] at h
        cases h
  · rintro (⟨rfl, rfl⟩ | ⟨value, middle, rfl, rfl, hread⟩)
    · exact ⟨",", rest, rfl, rfl⟩
    · refine ⟨".", middle, rfl, ?_⟩
      simp only [if_true, bind_eq_ok, take_eq_ok, pure_eq_ok]
      exact ⟨value, "," :: rest, hread, (), rest, rfl, rfl, rfl⟩

/-- The token of a label names no register of file `a`, so a target is read in one way only. -/
theorem target_eq_ok {t : Target} :
    target tokens = .ok t rest ↔
      (∃ word num number offset, Register.fileA? word = some num ∧
        immediateOfToken number = .ok offset ∧ tokens = word :: "," :: number :: rest ∧
        t = .register num offset) ∨
      ∃ word, Register.fileA? word = none ∧ isLabelToken word ∧ tokens = word :: rest ∧
        t = .label word := by
  simp only [target, bind_eq_ok, next_eq_ok]
  constructor
  · rintro ⟨word, middle, rfl, h⟩
    cases hreg : Register.fileA? word with
    | some num =>
        simp only [hreg, bind_eq_ok, expect_eq_ok, immediate_eq_ok, pure_eq_ok] at h
        obtain ⟨_, after, rfl, offset, last, ⟨number, rfl, hnumber⟩, rfl, rfl⟩ := h
        exact .inl ⟨word, num, number, offset, hreg, hnumber, rfl, rfl⟩
    | none =>
        simp only [hreg] at h
        by_cases hlabel : isLabelToken word
        · rw [if_pos hlabel] at h
          obtain ⟨rfl, rfl⟩ := pure_eq_ok.mp h
          exact .inr ⟨word, hreg, hlabel, rfl, rfl⟩
        · rw [if_neg hlabel] at h
          cases h
  · rintro (⟨word, num, number, offset, hreg, hnumber, rfl, rfl⟩ | ⟨word, hreg, hlabel, rfl, rfl⟩)
    · refine ⟨word, "," :: number :: rest, rfl, ?_⟩
      simp only [hreg, bind_eq_ok, expect_eq_ok, immediate_eq_ok, pure_eq_ok]
      exact ⟨(), _, rfl, offset, _, ⟨number, rfl, hnumber⟩, rfl, rfl⟩
    · refine ⟨word, rest, rfl, ?_⟩
      simp only [hreg, if_pos hlabel, pure_eq_ok, and_self]

end Reader

namespace Slot

variable {tokens rest : List String}

theorem readOperands_eq_ok {s t : Slot} :
    s.readOperands tokens = .ok t rest ↔
      ∃ cond dstWord dst lhsWord lhs rhsWord rhs,
        Reader.suffix Reader.condition .commaAfterOpcode tokens =
          .ok cond (dstWord :: "," :: lhsWord :: "," :: rhsWord :: rest) ∧
        Register.writable? dstWord = some dst ∧ Register.readable? lhsWord = some lhs ∧
        Register.readable? rhsWord = some rhs ∧
        t = { s with cond := cond, dst := dst, lhs := .reg lhs, rhs := .reg rhs } := by
  simp only [readOperands, Reader.destination, Reader.source, Reader.bind_eq_ok,
    Reader.known_eq_ok, Reader.expect_eq_ok, Reader.pure_eq_ok]
  constructor
  · rintro ⟨cond, _, hcond, dst, _, ⟨dstWord, rfl, hdst⟩, _, _, rfl, lhs, _, ⟨lhsWord, rfl, hlhs⟩,
      _, _, rfl, rhs, _, ⟨rhsWord, rfl, hrhs⟩, rfl, rfl⟩
    exact ⟨cond, dstWord, dst, lhsWord, lhs, rhsWord, rhs, hcond, hdst, hlhs, hrhs, rfl⟩
  · rintro ⟨cond, dstWord, dst, lhsWord, lhs, rhsWord, rhs, hcond, hdst, hlhs, hrhs, rfl⟩
    exact ⟨cond, _, hcond, dst, _, ⟨dstWord, rfl, hdst⟩, (), _, rfl, lhs, _, ⟨lhsWord, rfl, hlhs⟩,
      (), _, rfl, rhs, _, ⟨rhsWord, rfl, hrhs⟩, rfl, rfl⟩

/-- A slot as an ALU statement gives it, left out or with all of its parts. The codes of the slot
are below `limit`. -/
inductive Written (limit : ℕ) : Slot → Prop
  | unused : Written limit nop
  | used {code : UInt8} {cond : Option Condition} {dst lhs rhs : Register} (hcode : code ≠ 0)
      (hlt : code.toNat < limit) (hdst : dst.Writable) (hlhs : lhs.Readable)
      (hrhs : rhs.Readable) : Written limit ⟨code, cond, dst, .reg lhs, .reg rhs⟩

theorem written_of_readIfUsed {code : UInt8} {limit : ℕ} {t : Slot} (hlt : code.toNat < limit)
    (h : { nop with code := code : Slot }.readIfUsed tokens = .ok t rest) : t.Written limit := by
  unfold readIfUsed at h
  split at h
  · rename_i hcode
    obtain ⟨rfl, rfl⟩ := Reader.pure_eq_ok.mp h
    change code = 0 at hcode
    subst code
    exact .unused
  · rename_i hcode
    obtain ⟨cond, dstWord, dst, lhsWord, lhs, rhsWord, rhs, _, hdst, hlhs, hrhs, rfl⟩ :=
      readOperands_eq_ok.mp h
    exact .used hcode hlt ⟨dstWord, hdst⟩ ⟨lhsWord, hlhs⟩ ⟨rhsWord, hrhs⟩

end Slot

namespace Instruction

variable {tokens rest : List String} {i j : Instruction}

theorem readAlu_eq_ok :
    i.readAlu tokens = .ok j rest ↔
      ∃ add mulWord code mul middle, i.add.readIfUsed tokens = .ok add (mulWord :: middle) ∧
        Slot.mulCode? mulWord = some code ∧
        { i.mul with code := code : Slot }.readIfUsed middle = .ok mul rest ∧
        j = { i with add := add, mul := mul } := by
  simp only [readAlu, Reader.bind_eq_ok, Reader.known_eq_ok, Reader.pure_eq_ok]
  constructor
  · rintro ⟨add, _, hadd, code, middle, ⟨mulWord, rfl, hcode⟩, mul, _, hmul, rfl, rfl⟩
    exact ⟨add, mulWord, code, mul, middle, hadd, hcode, hmul, rfl⟩
  · rintro ⟨add, mulWord, code, mul, middle, hadd, hcode, hmul, rfl⟩
    exact ⟨add, _, hadd, code, middle, ⟨mulWord, rfl, hcode⟩, mul, _, hmul, rfl, rfl⟩

def withLoad (i : Instruction) (shape : LoadShape) (conds : Option (Condition × Condition))
    (addDst mulDst : Register) (value : UInt32) : Instruction :=
  { i with
    kind := .load shape
    signal := .loadImmediate
    unpack := shape.unpack
    add := { i.add.loadInto (conds.map (·.1)) addDst with lhs := .imm value }
    mul := i.mul.loadInto (conds.map (·.2)) mulDst }

theorem readLoad_eq_ok {shape : LoadShape} (hkind : i.kind = .load shape) :
    i.readLoad tokens = .ok j rest ↔
      ∃ conds addWord addDst mulWord mulDst number value,
        Reader.suffix Reader.bothConditions (.expected ",") tokens =
          .ok conds (addWord :: "," :: mulWord :: "," :: number :: rest) ∧
        Register.writable? addWord = some addDst ∧ Register.writable? mulWord = some mulDst ∧
        Reader.immediateOfToken number = .ok value ∧
        j = i.withLoad shape conds addDst mulDst value := by
  simp only [readLoad, hkind, Reader.destination, Reader.bind_eq_ok, Reader.known_eq_ok,
    Reader.expect_eq_ok, Reader.take_eq_ok, Reader.immediate_eq_ok, Reader.pure_eq_ok]
  constructor
  · rintro ⟨conds, _, hconds, addDst, _, ⟨addWord, rfl, hadd⟩, _, _, rfl, mulDst, _,
      ⟨mulWord, rfl, hmul⟩, _, _, rfl, value, _, ⟨number, rfl, hnumber⟩, rfl, rfl⟩
    exact ⟨conds, addWord, addDst, mulWord, mulDst, number, value, hconds, hadd, hmul, hnumber, rfl⟩
  · rintro ⟨conds, addWord, addDst, mulWord, mulDst, number, value, hconds, hadd, hmul, hnumber,
      rfl⟩
    exact ⟨conds, _, hconds, addDst, _, ⟨addWord, rfl, hadd⟩, (), _, rfl, mulDst, _,
      ⟨mulWord, rfl, hmul⟩, (), _, rfl, value, _, ⟨number, rfl, hnumber⟩, rfl, rfl⟩

def withSemaphore (i : Instruction) (number : UInt32) : Instruction :=
  { i with
    signal := .loadImmediate
    unpack := SemaphoreDirection.unpack
    add := ⟨0, some .always, ⟨.a, Register.nopNum⟩, .imm number, .reg Register.r0⟩
    mul := { Slot.nop with dst := ⟨.b, 0⟩ }
    writeSwap := false }

theorem readSemaphore_eq_ok :
    i.readSemaphore tokens = .ok j rest ↔
      ∃ number value, tokens = "," :: number :: rest ∧
        Reader.immediateOfToken number = .ok value ∧ value < 16 ∧ j = i.withSemaphore value := by
  simp only [readSemaphore, Reader.bind_eq_ok, Reader.expect_eq_ok, Reader.immediate_eq_ok]
  constructor
  · rintro ⟨_, _, rfl, value, _, ⟨number, rfl, hnumber⟩, h⟩
    by_cases hlt : value < 16
    · rw [if_pos hlt] at h
      obtain ⟨rfl, rfl⟩ := Reader.pure_eq_ok.mp h
      exact ⟨number, value, rfl, hnumber, hlt, rfl⟩
    · rw [if_neg hlt] at h
      cases h
  · rintro ⟨number, value, rfl, hnumber, hlt, rfl⟩
    refine ⟨(), _, rfl, value, _, ⟨number, rfl, hnumber⟩, ?_⟩
    rw [if_pos hlt]
    rfl

def withBranch (i : Instruction) (test : BranchTest) (any : Option Bool)
    (addDst mulDst : Register) (target : Target) : Instruction :=
  { i with
    kind := .branch test
    signal := .branch
    branchCond := test.cond (any.getD false)
    add := { i.add with cond := some .always, dst := addDst }
    mul := { i.mul with cond := some .always, dst := mulDst } : Instruction }.setTarget target

theorem readBranch_eq_ok {test : BranchTest} (hkind : i.kind = .branch test) :
    i.readBranch tokens = .ok j rest ↔
      ∃ any addWord addDst mulWord mulDst middle target,
        Reader.suffix Reader.allOrAny (.expected ",") tokens =
          .ok any (addWord :: "," :: mulWord :: "," :: middle) ∧
        Register.writable? addWord = some addDst ∧ Register.writable? mulWord = some mulDst ∧
        Reader.target middle = .ok target (";" :: rest) ∧
        j = i.withBranch test any addDst mulDst target := by
  simp only [readBranch, hkind, Reader.destination, Reader.bind_eq_ok, Reader.known_eq_ok,
    Reader.expect_eq_ok, Reader.take_eq_ok, Reader.pure_eq_ok]
  constructor
  · rintro ⟨any, _, hany, addDst, _, ⟨addWord, rfl, hadd⟩, _, _, rfl, mulDst, _,
      ⟨mulWord, rfl, hmul⟩, _, middle, rfl, target, _, htarget, _, _, rfl, rfl, rfl⟩
    exact ⟨any, addWord, addDst, mulWord, mulDst, middle, target, hany, hadd, hmul, htarget, rfl⟩
  · rintro ⟨any, addWord, addDst, mulWord, mulDst, middle, target, hany, hadd, hmul, htarget, rfl⟩
    exact ⟨any, _, hany, addDst, _, ⟨addWord, rfl, hadd⟩, (), _, rfl, mulDst, _,
      ⟨mulWord, rfl, hmul⟩, (), middle, rfl, target, _, htarget, (), _, rfl, rfl, rfl⟩

/-- `j` is `i` but for what the tail of a statement can change. -/
structure Tailed (i j : Instruction) : Prop where
  eq : j = { i with setFlags := j.setFlags, packMode := j.packMode, signal := j.signal }
  signal : j.signal = i.signal ∨
    i.kind = .alu ∧ i.signal = .quiet ∧ ∃ word, Signal.ofWord? word = some j.signal

theorem Tailed.refl (i : Instruction) : Tailed i i := ⟨rfl, .inl rfl⟩

theorem Tailed.trans {k : Instruction} (hij : Tailed i j) (hjk : Tailed j k) : Tailed i k := by
  have hkind : j.kind = i.kind := by rw [hij.eq]
  refine ⟨?_, ?_⟩
  · rw [hjk.eq, hij.eq]
  · rcases hjk.signal with hs | ⟨hk, hs, hword⟩
    · rw [hs]
      exact hij.signal
    · rcases hij.signal with hi | ⟨hk', hq, _⟩
      · exact .inr ⟨hkind ▸ hk, hi ▸ hs, hword⟩
      · exact .inr ⟨hk', hq, hword⟩

theorem tailed_of_applyTail {token : String} (h : i.applyTail token = .ok j) : Tailed i j := by
  unfold applyTail at h
  split at h
  · split at h
    · cases h
    · cases h
      exact ⟨rfl, .inl rfl⟩
  · split at h
    · split at h
      · cases h
      · cases h
        exact ⟨rfl, .inl rfl⟩
    · split at h
      · cases h
      · rename_i signal hword
        split at h
        · cases h
        · rename_i hkind
          split at h
          · cases h
          · rename_i hquiet
            cases h
            exact ⟨rfl, .inr ⟨not_not.mp hkind, not_not.mp hquiet, token, hword⟩⟩

theorem tailed_of_readTail (h : i.readTail tokens = .ok j rest) : Tailed i j := by
  induction tokens generalizing i with
  | nil => cases h
  | cons token tokens ih =>
      unfold readTail at h
      split at h
      · cases h
        exact Tailed.refl _
      · split at h
        · rename_i k hstep
          exact (tailed_of_applyTail hstep).trans (ih h)
        · cases h

theorem read_eq_ok :
    i.read tokens = .ok j rest ↔
      ∃ word mnemonic operands k tail, tokens = word :: operands ∧
        Mnemonic.ofWord? word = some mnemonic ∧
        (mnemonic.start i).readOperandsAs (mnemonic.start i).kind.form operands = .ok k tail ∧
        if k.kind.form = .branch then j = k ∧ tail = rest else k.readTail tail = .ok j rest := by
  simp only [read, Reader.mnemonic, Reader.bind_eq_ok, Reader.known_eq_ok]
  constructor
  · rintro ⟨mnemonic, operands, ⟨word, rfl, hword⟩, k, tail, hoperands, h⟩
    refine ⟨word, mnemonic, operands, k, tail, rfl, hword, hoperands, ?_⟩
    split at h
    · rename_i hform
      rw [if_pos hform]
      obtain ⟨rfl, rfl⟩ := Reader.pure_eq_ok.mp h
      exact ⟨rfl, rfl⟩
    · rename_i hform
      rwa [if_neg hform]
  · rintro ⟨word, mnemonic, operands, k, tail, rfl, hword, hoperands, h⟩
    refine ⟨mnemonic, operands, ⟨word, rfl, hword⟩, k, tail, hoperands, ?_⟩
    split at h
    · rename_i hform
      obtain ⟨rfl, rfl⟩ := h
      rw [if_pos hform]
      rfl
    · rename_i hform
      rwa [if_neg hform]

/-- The instruction at a place before its statement is read. -/
def blank (pc : UInt32) (line : ℕ) (labels : List String) : Instruction :=
  { pc := pc, line := line, labels := labels }

/-- The shapes of an instruction whose statement is read. -/
inductive Parsed (pc : UInt32) (line : ℕ) (labels : List String) : Instruction → Prop
  | alu {add mul : Slot} {signal : Signal} {setFlags packMode : Bool} (hadd : add.Written 32)
      (hmul : mul.Written 8)
      (hsignal : signal = .quiet ∨ ∃ word, Signal.ofWord? word = some signal) :
      Parsed pc line labels { blank pc line labels with
        add := add, mul := mul, signal := signal, setFlags := setFlags, packMode := packMode }
  | load {shape : LoadShape} {conds : Option (Condition × Condition)} {addDst mulDst : Register}
      {value : UInt32} {setFlags packMode : Bool} (hadd : addDst.Writable)
      (hmul : mulDst.Writable) :
      Parsed pc line labels { (blank pc line labels).withLoad shape conds addDst mulDst value with
        setFlags := setFlags, packMode := packMode }
  | semaphore {direction : SemaphoreDirection} {number : UInt32} {setFlags packMode : Bool}
      (hnumber : number < 16) :
      Parsed pc line labels { (blank pc line labels).withSemaphore number with
        kind := .semaphore direction, setFlags := setFlags, packMode := packMode }
  | branch {test : BranchTest} {any : Option Bool} {addDst mulDst : Register} {target : Target}
      (hadd : addDst.Writable) (hmul : mulDst.Writable)
      (htarget : ∀ num offset, target = .register num offset → num.toNat < 32) :
      Parsed pc line labels ((blank pc line labels).withBranch test any addDst mulDst target)

variable {pc : UInt32} {line : ℕ} {labels : List String}

theorem parsed_of_readAlu {code : UInt8} (hcode : code.toNat < 32)
    (h : (Mnemonic.start (blank pc line labels) (.add code)).readAlu tokens = .ok j rest) :
    ∃ add mul, add.Written 32 ∧ mul.Written 8 ∧
      j = { blank pc line labels with add := add, mul := mul } := by
  obtain ⟨add, mulWord, mulCode, mul, middle, hadd, hmulCode, hmul, rfl⟩ := readAlu_eq_ok.mp h
  exact ⟨add, mul, Slot.written_of_readIfUsed hcode hadd,
    Slot.written_of_readIfUsed (Slot.mulCode?_lt hmulCode) hmul, rfl⟩

theorem parsed_of_read (h : (blank pc line labels).read tokens = .ok j rest) :
    Parsed pc line labels j := by
  obtain ⟨word, mnemonic, operands, k, tail, rfl, hword, hoperands, h⟩ := read_eq_ok.mp h
  cases mnemonic with
  | add code =>
      obtain ⟨add, mul, hadd, hmul, rfl⟩ :=
        parsed_of_readAlu (Mnemonic.add_code_lt hword) hoperands
      have ht := tailed_of_readTail h
      rw [ht.eq]
      refine .alu hadd hmul ?_
      rcases ht.signal with hs | ⟨_, _, hs⟩
      · exact .inl hs
      · exact .inr hs
  | load shape =>
      obtain ⟨conds, addWord, addDst, mulWord, mulDst, number, value, _, hadd, hmul, _, rfl⟩ :=
        (readLoad_eq_ok rfl).mp hoperands
      have ht := tailed_of_readTail h
      have hs : j.signal = .loadImmediate := by
        rcases ht.signal with hs | ⟨hkind, _⟩
        · exact hs
        · cases hkind
      rw [ht.eq, hs]
      exact .load ⟨addWord, hadd⟩ ⟨mulWord, hmul⟩
  | semaphore direction =>
      obtain ⟨number, value, _, _, hlt, rfl⟩ := readSemaphore_eq_ok.mp hoperands
      have ht := tailed_of_readTail h
      have hs : j.signal = .loadImmediate := by
        rcases ht.signal with hs | ⟨hkind, _⟩
        · exact hs
        · cases hkind
      rw [ht.eq, hs]
      exact .semaphore hlt
  | branch test =>
      change (Mnemonic.start (blank pc line labels) (.branch test)).readBranch operands = _
        at hoperands
      obtain ⟨any, addWord, addDst, mulWord, mulDst, middle, target, _, hadd, hmul, htarget, rfl⟩ :=
        (readBranch_eq_ok rfl).mp hoperands
      cases target with
      | label name =>
          obtain ⟨rfl, rfl⟩ := h
          exact .branch ⟨addWord, hadd⟩ ⟨mulWord, hmul⟩ (fun _ _ he => by cases he)
      | register num offset =>
          obtain ⟨rfl, rfl⟩ := h
          refine .branch ⟨addWord, hadd⟩ ⟨mulWord, hmul⟩ ?_
          rintro _ _ ⟨⟩
          rcases Reader.target_eq_ok.mp htarget with
            ⟨word, _, _, _, hreg, _, _, ⟨⟩⟩ | ⟨_, _, _, _, ⟨⟩⟩
          exact Register.numbered?_lt (by decide) hreg

end Instruction

end QuadAsm
