import QuadAsm.Proofs.Landing
import QuadAsm.Proofs.Sentences

/-!
# Reading accepts exactly the sentences

`Accepts` ties a reader to a way of writing: the reader succeeds just on what is written, takes all
of it and nothing more, and gives its value. It is shown of each reader in turn, and in the end of
whole statements. The tail of a statement is read item by item, and an item fits if nothing before
it in the statement was of its kind.
-/

namespace QuadAsm

namespace Reader

variable {α X : Type}

/-- The reader succeeds on what `tokens` writes, whatever follows, and on nothing else. -/
def Accepts (read : Reader α) (tokens : X → List String) (value : X → α) : Prop :=
  ∀ ⦃before rest : List String⦄ ⦃a : α⦄,
    read before = .ok a rest ↔ ∃ x, before = tokens x ++ rest ∧ a = value x

theorem known_accepts (meaning : String → Option α) (refusal : String → Reason) :
    (known meaning refusal).Accepts (fun x : Named meaning => [x.word]) Named.value := by
  intro before rest a
  rw [known_eq_ok]
  constructor
  · rintro ⟨word, rfl, h⟩
    exact ⟨⟨word, a, h⟩, rfl, rfl⟩
  · rintro ⟨x, rfl, rfl⟩
    exact ⟨x.word, rfl, x.named⟩

theorem immediate?_eq_some {token : String} {value : UInt32} :
    immediate? token = some value ↔ immediateOfToken token = .ok value := by
  rw [immediate?]
  cases immediateOfToken token with
  | ok found => simp [Except.toOption]
  | error reason => simp [Except.toOption]

theorem suffix_accepts {read : Reader α} {tokens : X → List String} {value : X → α}
    (h : read.Accepts tokens value) (refusal : String → Reason) :
    (suffix read refusal).Accepts (suffixTokens tokens) (Option.map value) := by
  intro before rest a
  rw [suffix_eq_ok]
  constructor
  · rintro (⟨rfl, rfl⟩ | ⟨v, middle, rfl, rfl, hread⟩)
    · exact ⟨none, rfl, rfl⟩
    · obtain ⟨x, rfl, rfl⟩ := h.mp hread
      exact ⟨some x, by simp [suffixTokens], rfl⟩
  · rintro ⟨x, rfl, rfl⟩
    cases x with
    | none => exact .inl ⟨rfl, rfl⟩
    | some x =>
        refine .inr ⟨value x, tokens x ++ "," :: rest, rfl, by simp [suffixTokens], ?_⟩
        exact h.mpr ⟨x, rfl, rfl⟩

theorem bothConditions_accepts :
    bothConditions.Accepts
      (fun c : Named Condition.ofWord? × Named Condition.ofWord? => [c.1.word, ".", c.2.word])
      (fun c => (c.1.value, c.2.value)) := by
  intro before rest a
  simp only [bothConditions, condition, bind_eq_ok, known_eq_ok, expect_eq_ok, pure_eq_ok]
  constructor
  · rintro ⟨add, _, ⟨addWord, rfl, hadd⟩, _, _, rfl, mul, _, ⟨mulWord, rfl, hmul⟩, rfl, rfl⟩
    exact ⟨(⟨addWord, add, hadd⟩, ⟨mulWord, mul, hmul⟩), rfl, rfl⟩
  · rintro ⟨⟨add, mul⟩, rfl, rfl⟩
    exact ⟨add.value, _, ⟨add.word, rfl, add.named⟩, (), _, rfl, mul.value, _,
      ⟨mul.word, rfl, mul.named⟩, rfl, rfl⟩

theorem allOrAny_accepts :
    allOrAny.Accepts (fun any : Bool => [if any then "any" else "all"]) id := by
  intro before rest a
  rw [allOrAny, known_eq_ok]
  constructor
  · rintro ⟨word, rfl, h⟩
    split_ifs at h with hall hany
    · cases h
      exact ⟨false, by simp [hall], rfl⟩
    · cases h
      exact ⟨true, by simp [hany], rfl⟩
  · rintro ⟨any, rfl, ha⟩
    rw [ha]
    cases any with
    | false => exact ⟨"all", rfl, rfl⟩
    | true => exact ⟨"any", rfl, rfl⟩

end Reader

theorem isLabelToken_iff {word : String} :
    isLabelToken word = true ↔
      (word ≠ "." ∧ word ≠ "," ∧ word ≠ ";") ∧ Reader.startsWithDigit word = false := by
  simp only [isLabelToken, Bool.and_eq_true, decide_eq_true_eq, Bool.not_eq_true', ne_eq]
  tauto

def TargetPhrase.target : TargetPhrase → Target
  | .register reg offset => .register reg.value offset.value
  | .label name => .label name.word

theorem Reader.target_accepts : target.Accepts TargetPhrase.tokens TargetPhrase.target := by
  intro before rest a
  rw [target_eq_ok]
  constructor
  · rintro (⟨word, num, number, offset, hreg, hnumber, rfl, rfl⟩ | ⟨word, hreg, hlabel, rfl, rfl⟩)
    · exact ⟨.register ⟨word, num, hreg⟩ ⟨number, offset, immediate?_eq_some.mpr hnumber⟩, rfl, rfl⟩
    · obtain ⟨hpunct, hdigit⟩ := isLabelToken_iff.mp hlabel
      exact ⟨.label ⟨word, hpunct, hreg, hdigit⟩, rfl, rfl⟩
  · rintro ⟨x, rfl, rfl⟩
    cases x with
    | register reg offset =>
        exact .inl ⟨reg.word, reg.value, offset.word, offset.value, reg.named,
          immediate?_eq_some.mp offset.named, rfl, rfl⟩
    | label name =>
        exact .inr ⟨name.word, name.not_register,
          isLabelToken_iff.mpr ⟨name.not_punctuation, name.not_number⟩, rfl, rfl⟩

/-- Reading a slot after its first word, on which it depends whether there is more to read. -/
theorem Slot.readIfUsed_accepts {codes : String → Option UInt8}
    (hzero : ∀ {word}, codes word = some 0 ↔ word = "-") {word : String} {code : UInt8}
    (hcode : codes word = some code) {before rest : List String} {t : Slot} :
    { nop with code := code : Slot }.readIfUsed before = .ok t rest ↔
      ∃ o : Option (Operation codes),
        word :: before = Operation.slotTokens o ++ rest ∧ t = Operation.slotOf o := by
  have hconds := Reader.suffix_accepts
    (Reader.known_accepts Condition.ofWord? .unknownCondition) .commaAfterOpcode
  unfold readIfUsed
  by_cases h0 : code = 0
  · subst code
    have hword := hzero.mp hcode
    simp only [if_true, Reader.pure_eq_ok]
    constructor
    · rintro ⟨rfl, rfl⟩
      exact ⟨none, by rw [hword]; rfl, rfl⟩
    · rintro ⟨o, htokens, rfl⟩
      cases o with
      | none =>
          cases htokens
          exact ⟨rfl, rfl⟩
      | some o =>
          cases htokens
          exact absurd hword o.used
  · have hword : word ≠ "-" := by
      rintro rfl
      exact h0 (Option.some.inj (hcode.symm.trans (hzero.mpr rfl)))
    rw [if_neg h0, readOperands_eq_ok]
    constructor
    · rintro ⟨cond, dstWord, dst, lhsWord, lhs, rhsWord, rhs, hcond, hdst, hlhs, hrhs, rfl⟩
      obtain ⟨c, rfl, rfl⟩ := hconds.mp hcond
      refine ⟨some ⟨⟨word, code, hcode⟩, hword, c, ⟨dstWord, dst, hdst⟩, ⟨lhsWord, lhs, hlhs⟩,
        ⟨rhsWord, rhs, hrhs⟩⟩, ?_, rfl⟩
      simp [Operation.slotTokens, Operation.tokens]
    · rintro ⟨o, htokens, rfl⟩
      cases o with
      | none =>
          cases htokens
          exact absurd rfl hword
      | some o =>
          obtain ⟨op, used, cond, dst, lhs, rhs⟩ := o
          simp only [Operation.slotTokens, Operation.tokens, List.cons_append, List.append_assoc,
            List.cons.injEq] at htokens
          obtain ⟨rfl, rfl⟩ := htokens
          obtain rfl : code = op.value := Option.some.inj (hcode.symm.trans op.named)
          exact ⟨cond.map (·.value), dst.word, dst.value, lhs.word, lhs.value, rhs.word, rhs.value,
            hconds.mpr ⟨cond, by simp, rfl⟩, dst.named, lhs.named, rhs.named, rfl⟩

namespace TailItem

variable {i j : Instruction}

/-- Nothing of the kind was given before. -/
def Fits (i : Instruction) : TailItem → Prop
  | .setFlags => i.setFlags = false
  | .packMode => i.packMode = false
  | .signal _ => i.kind = .alu ∧ i.signal = .quiet

def apply (i : Instruction) : TailItem → Instruction
  | .setFlags => { i with setFlags := true }
  | .packMode => { i with packMode := true }
  | .signal name => { i with signal := name.value }

theorem signal_ne_quiet (name : Named Signal.ofWord?) : name.value ≠ .quiet := by
  have htable : ∀ e ∈ Signal.table, e.2 ≠ .quiet := by decide
  exact htable _ (mem_of_lookup name.named)

/-- An item stands in the way of those of its own kind, and of no others. -/
theorem fits_apply {x y : TailItem} : y.Fits (x.apply i) ↔ y.Fits i ∧ y.kind ≠ x.kind := by
  cases x with
  | setFlags => cases y <;> simp [Fits, apply, kind]
  | packMode => cases y <;> simp [Fits, apply, kind]
  | signal name => cases y <;> simp [Fits, apply, kind, signal_ne_quiet]

theorem applyTail_eq_ok {token : String} :
    i.applyTail token = .ok j ↔ ∃ x : TailItem, token = x.word ∧ x.Fits i ∧ j = x.apply i := by
  have hflags : Signal.ofWord? "sf" = none := by decide
  have hmode : Signal.ofWord? "pm" = none := by decide
  constructor
  · intro h
    unfold Instruction.applyTail at h
    by_cases hsf : token = "sf"
    · rw [if_pos hsf] at h
      split_ifs at h with hset
      cases h
      exact ⟨.setFlags, hsf, by simpa [Fits] using hset, rfl⟩
    rw [if_neg hsf] at h
    by_cases hpm : token = "pm"
    · rw [if_pos hpm] at h
      split_ifs at h with hpack
      cases h
      exact ⟨.packMode, hpm, by simpa [Fits] using hpack, rfl⟩
    rw [if_neg hpm] at h
    cases hword : Signal.ofWord? token with
    | none => simp [hword] at h
    | some signal =>
        simp only [hword] at h
        split_ifs at h with hkind hquiet
        cases h
        exact ⟨.signal ⟨token, signal, hword⟩, rfl, ⟨not_not.mp hkind, not_not.mp hquiet⟩, rfl⟩
  · rintro ⟨x, rfl, hfits, rfl⟩
    unfold Instruction.applyTail
    cases x with
    | setFlags => simp [word, apply, show i.setFlags = false from hfits]
    | packMode => simp [word, apply, show i.packMode = false from hfits]
    | signal name =>
        obtain ⟨hkind, hquiet⟩ := hfits
        simp [word, apply, name.word_ne hflags, name.word_ne hmode, name.named, hkind, hquiet]

/-- Where neither flag is given before, only a signal can fail to fit. -/
theorem all_fit_iff {t : Tail} (hflags : i.setFlags = false) (hmode : i.packMode = false) :
    (∀ x ∈ t.items, x.Fits i) ↔ t.Silent ∨ i.kind = .alu ∧ i.signal = .quiet := by
  constructor
  · intro h
    by_cases hs : t.Silent
    · exact .inl hs
    · right
      have hmem : .signal ∈ t.items.map kind := by simpa [Tail.Silent, Tail.has] using hs
      obtain ⟨x, hx, hkind⟩ := List.mem_map.mp hmem
      cases x with
      | setFlags => cases hkind
      | packMode => cases hkind
      | signal name => exact h _ hx
  · intro h x hx
    cases x with
    | setFlags => exact hflags
    | packMode => exact hmode
    | signal name =>
        rcases h with hs | h
        · have hmem : .signal ∈ t.items.map kind := List.mem_map.mpr ⟨_, hx, rfl⟩
          simp [Tail.Silent, Tail.has] at hs
          exact absurd rfl (hs _ hx)
        · exact h

def applyAll (items : List TailItem) (i : Instruction) : Instruction :=
  { i with
    setFlags := i.setFlags || (items.map kind).contains .setFlags
    packMode := i.packMode || (items.map kind).contains .packMode
    signal := (items.findSome? signal?).getD i.signal }

theorem findSome?_signal? {items : List TailItem} (h : .signal ∉ items.map kind) :
    items.findSome? signal? = none := by
  rw [List.findSome?_eq_none_iff]
  intro x hx
  cases x with
  | setFlags => rfl
  | packMode => rfl
  | signal name => exact absurd (List.mem_map.mpr ⟨_, hx, rfl⟩) h

theorem applyAll_silent {t : Tail} (h : t.Silent) :
    applyAll t.items i = { i with
      setFlags := i.setFlags || t.has .setFlags, packMode := i.packMode || t.has .packMode } := by
  have hmem : .signal ∉ t.items.map kind := by
    rw [← List.contains_iff_mem]
    exact ne_true_of_eq_false h
  rw [applyAll, findSome?_signal? hmem]
  rfl

theorem applyAll_cons {x : TailItem} {items : List TailItem} (h : x.kind ∉ items.map kind) :
    applyAll (x :: items) i = applyAll items (x.apply i) := by
  cases x with
  | setFlags => simp [applyAll, apply, kind, signal?, List.findSome?_cons]
  | packMode => simp [applyAll, apply, kind, signal?, List.findSome?_cons]
  | signal name =>
      rw [applyAll, applyAll, findSome?_signal? h]
      simp [apply, kind, signal?, List.findSome?_cons]

end TailItem

namespace Instruction

variable {i j : Instruction} {tokens rest : List String}

/-- The tail is read to the first terminator, and each of its items must fit at the outset. -/
theorem readTail_eq_ok :
    i.readTail tokens = .ok j rest ↔
      ∃ t : Tail, tokens = t.tokens ++ rest ∧ (∀ x ∈ t.items, x.Fits i) ∧
        j = TailItem.applyAll t.items i := by
  -- The instruction varies, since the rest of a tail is read into what its first item leaves.
  induction tokens generalizing i with
  | nil =>
      constructor
      · intro h
        cases h
      · rintro ⟨t, h, _⟩
        simp [Tail.tokens] at h
  | cons token tokens ih =>
      unfold readTail
      by_cases hend : token = ";"
      · subst token
        rw [if_pos rfl]
        constructor
        · intro h
          cases h
          exact ⟨⟨[], List.nodup_nil⟩, rfl, by simp, by simp [TailItem.applyAll]⟩
        · rintro ⟨⟨items, once⟩, htokens, _, rfl⟩
          cases items with
          | nil =>
              cases htokens
              simp [TailItem.applyAll]
          | cons x items =>
              simp only [Tail.tokens, List.map_cons, List.cons_append, List.cons.injEq] at htokens
              exact absurd htokens.1.symm x.word_ne_terminator
      · rw [if_neg hend]
        constructor
        · intro h
          cases hstep : i.applyTail token with
          | error reason => simp [hstep] at h
          | ok k =>
              simp only [hstep] at h
              obtain ⟨x, rfl, hfits, rfl⟩ := TailItem.applyTail_eq_ok.mp hstep
              obtain ⟨⟨items, once⟩, rfl, hall, rfl⟩ := ih.mp h
              have hnew : x.kind ∉ items.map TailItem.kind := by
                intro hmem
                obtain ⟨y, hy, hkind⟩ := List.mem_map.mp hmem
                exact (TailItem.fits_apply.mp (hall y hy)).2 hkind
              refine ⟨⟨x :: items, List.nodup_cons.mpr ⟨hnew, once⟩⟩, rfl, ?_,
                (TailItem.applyAll_cons hnew).symm⟩
              intro y hy
              rcases List.mem_cons.mp hy with rfl | hy
              · exact hfits
              · exact (TailItem.fits_apply.mp (hall y hy)).1
        · rintro ⟨⟨items, once⟩, htokens, hall, rfl⟩
          cases items with
          | nil =>
              cases htokens
              exact absurd rfl hend
          | cons x items =>
              simp only [Tail.tokens, List.map_cons, List.cons_append, List.cons.injEq] at htokens
              obtain ⟨rfl, rfl⟩ := htokens
              obtain ⟨hnew, once⟩ := List.nodup_cons.mp once
              rw [TailItem.applyTail_eq_ok.mpr ⟨x, rfl, hall x (.head _), rfl⟩]
              refine ih.mpr ⟨⟨items, once⟩, rfl, ?_, TailItem.applyAll_cons hnew⟩
              intro y hy
              refine TailItem.fits_apply.mpr ⟨hall y (.tail _ hy), ?_⟩
              intro hkind
              exact hnew (hkind ▸ List.mem_map.mpr ⟨y, hy, rfl⟩)

variable {pc : UInt32} {line : ℕ} {labels : List String} {word : String}

theorem readAlu_accepts {code : UInt8} (hword : Mnemonic.ofWord? word = some (.add code)) :
    (Mnemonic.start (blank pc line labels) (.add code)).readAlu tokens = .ok j rest ↔
      ∃ (add : Option (Operation Slot.addCode?)) (mul : Option (Operation Slot.mulCode?)),
        word :: tokens = Operation.slotTokens add ++ Operation.slotTokens mul ++ rest ∧
        j = { blank pc line labels with
          add := Operation.slotOf add, mul := Operation.slotOf mul } := by
  rw [readAlu_eq_ok]
  constructor
  · rintro ⟨add, mulWord, mulCode, mul, middle, hadd, hcode, hmul, rfl⟩
    obtain ⟨x, hx, rfl⟩ := (Slot.readIfUsed_accepts Slot.addCode?_eq_zero
      (Slot.addCode?_eq_some.mpr hword)).mp hadd
    obtain ⟨y, hy, rfl⟩ := (Slot.readIfUsed_accepts Slot.mulCode?_eq_zero hcode).mp hmul
    exact ⟨x, y, by rw [hx, hy, List.append_assoc], rfl⟩
  · rintro ⟨x, y, htokens, rfl⟩
    obtain ⟨mulWord, middle, hy, hcode⟩ :=
      Operation.slotTokens_head (Slot.mulCode?_eq_zero.mpr rfl) y
    rw [hy, List.append_assoc] at htokens
    refine ⟨Operation.slotOf x, mulWord, _, Operation.slotOf y, middle ++ rest, ?_, hcode, ?_, rfl⟩
    · exact (Slot.readIfUsed_accepts Slot.addCode?_eq_zero
        (Slot.addCode?_eq_some.mpr hword)).mpr ⟨x, htokens, rfl⟩
    · exact (Slot.readIfUsed_accepts Slot.mulCode?_eq_zero hcode).mpr ⟨y, by rw [hy]; rfl, rfl⟩

theorem loadInto_eq_ofLoad (cond : Option Condition) {dst : Register} (hdst : dst.Writable) :
    Slot.nop.loadInto cond dst = Slot.ofLoad cond dst := by
  unfold Slot.loadInto Slot.ofLoad
  by_cases hc : cond = some .never
  · rw [if_pos hc, if_pos (.inl hc), hc]
    rfl
  · by_cases hd : dst = Register.nop
    · have hn : Register.nop.isNop := by decide
      rw [if_neg hc, hd, if_pos hn, if_pos (.inr rfl)]
      rfl
    · have hn : ¬ dst.isNop := fun hn => hd (hdst.eq_nop hn)
      rw [if_neg hc, if_neg hn, if_neg (not_or.mpr ⟨hc, hd⟩)]

theorem readLoad_accepts {shape : LoadShape} :
    (Mnemonic.start (blank pc line labels) (.load shape)).readLoad tokens = .ok j rest ↔
      ∃ (conds : Option (Named Condition.ofWord? × Named Condition.ofWord?))
        (addDst mulDst : Named Register.writable?) (value : Named Reader.immediate?),
        tokens = suffixTokens (fun c => [c.1.word, ".", c.2.word]) conds ++
          [addDst.word, ",", mulDst.word, ",", value.word] ++ rest ∧
        j = { blank pc line labels with
          kind := .load shape
          add := { Slot.ofLoad (conds.map (·.1.value)) addDst.value with lhs := .imm value.value }
          mul := Slot.ofLoad (conds.map (·.2.value)) mulDst.value
          signal := .loadImmediate
          unpack := shape.unpack } := by
  have hconds := Reader.suffix_accepts Reader.bothConditions_accepts (.expected ",")
  rw [readLoad_eq_ok rfl]
  constructor
  · rintro ⟨_, addWord, addDst, mulWord, mulDst, number, value, hc, hadd, hmul, hnumber, rfl⟩
    obtain ⟨conds, rfl, rfl⟩ := hconds.mp hc
    refine ⟨conds, ⟨addWord, addDst, hadd⟩, ⟨mulWord, mulDst, hmul⟩,
      ⟨number, value, Reader.immediate?_eq_some.mpr hnumber⟩, by simp, ?_⟩
    rw [← loadInto_eq_ofLoad _ ⟨addWord, hadd⟩, ← loadInto_eq_ofLoad _ ⟨mulWord, hmul⟩, withLoad,
      Option.map_map, Option.map_map]
    rfl
  · rintro ⟨conds, addDst, mulDst, value, rfl, rfl⟩
    refine ⟨_, addDst.word, addDst.value, mulDst.word, mulDst.value, value.word, value.value,
      hconds.mpr ⟨conds, by simp, rfl⟩, addDst.named, mulDst.named,
      Reader.immediate?_eq_some.mp value.named, ?_⟩
    rw [← loadInto_eq_ofLoad _ ⟨addDst.word, addDst.named⟩,
      ← loadInto_eq_ofLoad _ ⟨mulDst.word, mulDst.named⟩, withLoad, Option.map_map, Option.map_map]
    rfl

theorem readBranch_accepts {test : BranchTest} :
    (Mnemonic.start (blank pc line labels) (.branch test)).readBranch tokens = .ok j rest ↔
      ∃ (any : Option Bool) (addDst mulDst : Named Register.writable?) (target : TargetPhrase),
        tokens = suffixTokens (fun any => [if any then "any" else "all"]) any ++
          [addDst.word, ",", mulDst.word, ","] ++ target.tokens ++ ";" :: rest ∧
        j = { blank pc line labels with
          kind := .branch test
          add := ⟨0, some .always, addDst.value, target.lhs, target.rhs⟩
          mul := ⟨0, some .always, mulDst.value, .reg Register.r0, .reg Register.r0⟩
          signal := .branch
          branchCond := test.cond (any.getD false)
          targetMode := some target.mode } := by
  have hsuffix := Reader.suffix_accepts Reader.allOrAny_accepts (.expected ",")
  rw [readBranch_eq_ok rfl]
  constructor
  · rintro ⟨_, addWord, addDst, mulWord, mulDst, middle, _, hany, hadd, hmul, htarget, rfl⟩
    obtain ⟨any, rfl, rfl⟩ := hsuffix.mp hany
    obtain ⟨target, rfl, rfl⟩ := Reader.target_accepts.mp htarget
    refine ⟨any, ⟨addWord, addDst, hadd⟩, ⟨mulWord, mulDst, hmul⟩, target, by simp, ?_⟩
    rw [Option.map_id]
    cases target <;> rfl
  · rintro ⟨any, addDst, mulDst, target, rfl, rfl⟩
    refine ⟨any.map id, addDst.word, addDst.value, mulDst.word, mulDst.value, _, target.target,
      hsuffix.mpr ⟨any, by simp, rfl⟩, addDst.named, mulDst.named,
      Reader.target_accepts.mpr ⟨target, rfl, rfl⟩, ?_⟩
    rw [Option.map_id]
    cases target <;> rfl

theorem sentence_of_read (h : (blank pc line labels).read tokens = .ok j rest) :
    ∃ s : Sentence, tokens = s.tokens ++ rest ∧ j = s.instruction pc line labels := by
  obtain ⟨word, mnemonic, operands, k, after, rfl, hword, hoperands, h⟩ := read_eq_ok.mp h
  cases mnemonic with
  | add code =>
      obtain ⟨add, mul, htokens, rfl⟩ := (readAlu_accepts hword).mp hoperands
      obtain ⟨tail, rfl, _, rfl⟩ := readTail_eq_ok.mp h
      exact ⟨.alu add mul tail, by simp [Sentence.tokens, htokens], rfl⟩
  | load shape =>
      obtain ⟨conds, addDst, mulDst, value, rfl, rfl⟩ := readLoad_accepts.mp hoperands
      obtain ⟨tail, rfl, hfit, rfl⟩ := readTail_eq_ok.mp h
      have silent : tail.Silent := by simpa [blank] using (TailItem.all_fit_iff rfl rfl).mp hfit
      refine ⟨.load shape conds addDst mulDst value tail silent, ?_, ?_⟩
      · simp [Sentence.tokens, Mnemonic.eq_of_word? hword rfl]
      · rw [TailItem.applyAll_silent silent]
        rfl
  | semaphore direction =>
      obtain ⟨number, value, rfl, hnumber, hlt, rfl⟩ := readSemaphore_eq_ok.mp hoperands
      obtain ⟨tail, rfl, hfit, rfl⟩ := readTail_eq_ok.mp h
      have silent : tail.Silent := by
        simpa [Mnemonic.start, withSemaphore] using (TailItem.all_fit_iff rfl rfl).mp hfit
      refine ⟨.semaphore direction ⟨number, value, Reader.immediate?_eq_some.mpr hnumber⟩ hlt tail
        silent, ?_, ?_⟩
      · simp [Sentence.tokens, Mnemonic.eq_of_word? hword rfl]
      · rw [TailItem.applyAll_silent silent]
        rfl
  | branch test =>
      obtain ⟨any, addDst, mulDst, target, rfl, rfl⟩ := readBranch_accepts.mp hoperands
      obtain ⟨rfl, rfl⟩ := h
      refine ⟨.branch test any addDst mulDst target, ?_, rfl⟩
      simp [Sentence.tokens, Mnemonic.eq_of_word? hword rfl]

theorem read_sentence (s : Sentence) (rest : List String) :
    (blank pc line labels).read (s.tokens ++ rest) = .ok (s.instruction pc line labels) rest := by
  rw [read_eq_ok]
  cases s with
  | alu add mul tail =>
      obtain ⟨word, after, htokens, hword⟩ :=
        Operation.slotTokens_head (Slot.addCode?_eq_zero.mpr rfl) add
      rw [Slot.addCode?_eq_some] at hword
      refine ⟨word, _, after ++ Operation.slotTokens mul ++ (tail.tokens ++ rest), _,
        tail.tokens ++ rest, ?_, hword, (readAlu_accepts hword).mpr ⟨add, mul, ?_, rfl⟩, ?_⟩
      · simp [Sentence.tokens, htokens]
      · simp [htokens]
      · exact readTail_eq_ok.mpr
          ⟨tail, rfl, (TailItem.all_fit_iff rfl rfl).mpr (.inr ⟨rfl, rfl⟩), rfl⟩
  | load shape conds addDst mulDst value tail silent =>
      refine ⟨_, _, _, _, tail.tokens ++ rest, rfl, Mnemonic.ofWord?_load shape,
        readLoad_accepts.mpr ⟨conds, addDst, mulDst, value, by simp, rfl⟩, ?_⟩
      refine readTail_eq_ok.mpr ⟨tail, rfl, (TailItem.all_fit_iff rfl rfl).mpr (.inl silent), ?_⟩
      rw [TailItem.applyAll_silent silent]
      rfl
  | semaphore direction number small tail silent =>
      refine ⟨_, _, _, _, tail.tokens ++ rest, rfl, Mnemonic.ofWord?_semaphore direction,
        readSemaphore_eq_ok.mpr ⟨number.word, number.value, by simp,
          Reader.immediate?_eq_some.mp number.named, small, rfl⟩, ?_⟩
      refine readTail_eq_ok.mpr ⟨tail, rfl, (TailItem.all_fit_iff rfl rfl).mpr (.inl silent), ?_⟩
      rw [TailItem.applyAll_silent silent]
      rfl
  | branch test any addDst mulDst target =>
      exact ⟨_, _, _, _, rest, rfl, Mnemonic.ofWord?_branch test,
        readBranch_accepts.mpr ⟨any, addDst, mulDst, target, by simp, rfl⟩, rfl, rfl⟩

theorem read_accepts (pc : UInt32) (line : ℕ) (labels : List String) :
    (blank pc line labels).read.Accepts Sentence.tokens (Sentence.instruction pc line labels) := by
  intro before rest a
  constructor
  · exact sentence_of_read
  · rintro ⟨s, rfl, rfl⟩
    exact read_sentence s rest

end Instruction

theorem Sentence.tokens_terminated (s : Sentence) : ∃ front, s.tokens = front ++ [";"] := by
  cases s with
  | alu add mul tail => exact ⟨_, by rw [tokens, Tail.tokens, ← List.append_assoc]⟩
  | load _ _ _ _ _ tail _ => exact ⟨_, by rw [tokens, Tail.tokens, ← List.append_assoc]⟩
  | semaphore _ _ _ tail _ => exact ⟨_, by rw [tokens, Tail.tokens, ← List.append_assoc]⟩
  | branch _ _ _ _ _ => exact ⟨_, rfl⟩

theorem Sentence.rest_eq_nil {text : String} {s : Sentence} {rest : List String}
    (h : tokenize text = some (s.tokens ++ rest)) : rest = [] := by
  obtain ⟨front, hfront⟩ := s.tokens_terminated
  rw [hfront, List.append_assoc] at h
  exact eq_nil_of_tokenize h

theorem Instruction.parse_sentence {text : String} {x : Sentence}
    (h : tokenize text = some x.tokens) (pc : UInt32) (line : ℕ) (labels : List String) :
    (blank pc line labels).parse text = .ok (x.instruction pc line labels) :=
  parse_eq_ok.mpr ⟨_, [], h, (read_accepts _ _ _).mpr ⟨x, by simp, rfl⟩⟩

/-- A statement that can be read is a sentence at its place. -/
theorem Statement.instruction_eq_ok_iff {s : Statement} {k : ℕ} {i : Instruction} :
    s.instruction k = .ok i ↔
      k * 8 < UInt32.size ∧ ∃ sentence : Sentence, tokenize s.text = some sentence.tokens ∧
        i = sentence.instruction (UInt32.ofNat (k * 8)) s.line s.labels := by
  rw [instruction_eq_ok]
  constructor
  · rintro ⟨pc, hpc, h⟩
    obtain ⟨hlt, rfl⟩ := statementAddress_eq_ok.mp hpc
    obtain ⟨tokens, rest, htokens, hread⟩ := parse_eq_ok.mp h
    obtain ⟨sentence, rfl, rfl⟩ := (Instruction.read_accepts _ _ _).mp hread
    obtain rfl := Sentence.rest_eq_nil htokens
    exact ⟨hlt, sentence, by simpa using htokens, rfl⟩
  · rintro ⟨hlt, sentence, htokens, rfl⟩
    exact ⟨_, statementAddress_eq_ok.mpr ⟨hlt, rfl⟩, Instruction.parse_sentence htokens _ _ _⟩

/-- What holds of the words of every sentence that comes through the stages holds of every statement
of a text that assembles. -/
theorem words_of_sentences {source : String} {p : Program} (h : assemble source = .ok p)
    {R : Sentence → WordPair → Prop}
    (hR : ∀ {settled k s x j l w}, Passage settled k s
      (x.instruction (UInt32.ofNat (k * 8)) s.line s.labels) j l w → R x w) :
    ∃ statements, (Scan.ofSource source).statements = .ok statements ∧
      p.instrs.length = statements.length ∧
      ∀ (k : ℕ) (s : Statement), statements[k]? = some s →
        ∃ f w, p.instrs[k]? = some f ∧ f.encoding = some w ∧
          ∀ x : Sentence, tokenize s.text = some x.tokens → R x w := by
  obtain ⟨statements, settled, hscan, _, hlength, hpassage⟩ := passage_of_assemble h
  refine ⟨statements, hscan, hlength, ?_⟩
  intro k s hs
  obtain ⟨i, j, l, w, hp, hf⟩ := hpassage k s hs
  refine ⟨_, w, hf, rfl, ?_⟩
  intro x hx
  obtain ⟨hlt, _⟩ := Statement.instruction_eq_ok_iff.mp hp.read
  have hread := Statement.instruction_eq_ok_iff.mpr ⟨hlt, x, hx, rfl⟩
  obtain rfl := Except.ok.inj (hp.read.symm.trans hread)
  exact hR hp

/-- The tokens of a statement can be read if they are those of a sentence and not otherwise. Then
all of them are taken, there is one such sentence, and what is read is what it says. -/
theorem read_exactly_sentences {text : String} {tokens : List String}
    (h : tokenize text = some tokens) (pc : UInt32) (line : ℕ) (labels : List String) :
    ((∃ i rest, (Instruction.blank pc line labels).read tokens = .ok i rest) ↔
      ∃ s : Sentence, tokens = s.tokens) ∧
    ∀ i rest, (Instruction.blank pc line labels).read tokens = .ok i rest →
      rest = [] ∧ ∃ s : Sentence, tokens = s.tokens ∧ i = s.instruction pc line labels ∧
        ∀ t : Sentence, tokens = t.tokens → t = s := by
  have hread : ∀ i rest, (Instruction.blank pc line labels).read tokens = .ok i rest →
      rest = [] ∧ ∃ s : Sentence, tokens = s.tokens ∧ i = s.instruction pc line labels := by
    intro i rest hi
    obtain ⟨s, rfl, rfl⟩ := (Instruction.read_accepts _ _ _).mp hi
    obtain rfl := Sentence.rest_eq_nil h
    exact ⟨rfl, s, by simp, rfl⟩
  refine ⟨⟨?_, ?_⟩, ?_⟩
  · rintro ⟨i, rest, hi⟩
    obtain ⟨_, s, hs, _⟩ := hread i rest hi
    exact ⟨s, hs⟩
  · rintro ⟨s, rfl⟩
    exact ⟨_, [], (Instruction.read_accepts _ _ _).mpr ⟨s, by simp, rfl⟩⟩
  · intro i rest hi
    obtain ⟨hrest, s, rfl, hs⟩ := hread i rest hi
    refine ⟨hrest, s, rfl, hs, ?_⟩
    intro t ht
    have hsame : t.tokens ++ [] = s.tokens ++ [] := by rw [ht]
    exact (Sentence.tokens_delimited hsame).1

/-- The words `-` and `v8adds` mean one thing in one place and another in another. -/
def v8addsText : String := "v8adds.x, -, -, rot1 v8adds, r1, r2, r3 swt sf;"

def v8addsTokens : List String :=
  ["v8adds", ".", "x", ",", "-", ",", "-", ",", "rot1", "v8adds", ",", "r1", ",", "r2", ",", "r3",
    "swt", "sf", ";"]

theorem read_exactly_sentences_v8adds :
    tokenize v8addsText = some v8addsTokens ∧
      ∃ s : Sentence, v8addsTokens = s.tokens ∧
        (s.instruction 0 1 []).add = ⟨30, some .never, ⟨.shared, 39⟩, .reg ⟨.shared, 39⟩,
          .reg ⟨.smallImmediate, 49⟩⟩ ∧
        (s.instruction 0 1 []).mul = ⟨6, none, ⟨.shared, 33⟩, .reg ⟨.accumulator, 2⟩,
          .reg ⟨.accumulator, 3⟩⟩ := by
  have htext : tokenize v8addsText = some v8addsTokens := by decide +kernel
  obtain ⟨i, hi, hslots⟩ := exists_ok_of_toOption (f := fun i => (i.add, i.mul))
    (x := (Instruction.blank 0 1 []).parse v8addsText)
    (b := (⟨30, some .never, ⟨.shared, 39⟩, .reg ⟨.shared, 39⟩, .reg ⟨.smallImmediate, 49⟩⟩,
      ⟨6, none, ⟨.shared, 33⟩, .reg ⟨.accumulator, 2⟩, .reg ⟨.accumulator, 3⟩⟩))
    (by decide +kernel)
  obtain ⟨tokens, rest, htokens, hread⟩ := parse_eq_ok.mp hi
  obtain rfl := Option.some.inj (htokens.symm.trans htext)
  obtain ⟨_, s, hs, rfl, _⟩ := (read_exactly_sentences htext 0 1 []).2 i rest hread
  exact ⟨htext, s, hs, congrArg Prod.fst hslots, congrArg Prod.snd hslots⟩

end QuadAsm
