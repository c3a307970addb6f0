import QuadAsm.Proofs.Numerals
import QuadAsm.Vocabulary.Mnemonic
import QuadAsm.Vocabulary.Register

/-!
# Ranges of the vocabulary

The words of the language name registers, operations and signals in known ranges. The widths of the
instruction fields, and the room for register indices in the access stages, rest on these ranges
and on nothing else about the text. General registers and small integers have no table: their words
are those that a number is printed as.
-/

namespace QuadAsm

theorem mem_of_lookup {α : Type} {table : List (String × α)} {word : String} {v : α}
    (h : table.lookup word = some v) : (word, v) ∈ table := by
  obtain ⟨before, after, rfl, _⟩ := List.lookup_eq_some_iff.mp h
  simp

namespace Register

/-- Some word names the register as a source. -/
def Readable (r : Register) : Prop := ∃ word, readable? word = some r

/-- Some word names the register as a destination. -/
def Writable (r : Register) : Prop := ∃ word, writable? word = some r

theorem numbered?_eq_some {letter : Char} {limit : ℕ} {word : String} {n : UInt8}
    (hl : limit ≤ 256) :
    numbered? letter limit word = some n ↔
      n.toNat < limit ∧ word.toList = letter :: Nat.toDigits 10 n.toNat := by
  have hvalue : ∀ m < limit, (UInt8.ofNat m).toNat = m := fun m hm =>
    UInt8.toNat_ofNat_of_lt' (hm.trans_le hl)
  unfold numbered?
  split
  · rename_i hword
    simp [hword]
  · rename_i c digits hword
    split_ifs with hletter
    · rw [Text.plainDecimal?_filter_map, hword, hletter]
      constructor
      · rintro ⟨m, rfl, hm, rfl⟩
        have hlt : m < limit := of_decide_eq_true hm
        rw [hvalue m hlt]
        exact ⟨hlt, rfl⟩
      · rintro ⟨hlt, hdigits⟩
        exact ⟨n.toNat, (List.cons.inj hdigits).2, decide_eq_true hlt, UInt8.ofNat_toNat⟩
    · simp [hword, hletter]

theorem numbered?_lt {letter : Char} {limit : ℕ} {word : String} {n : UInt8} (hl : limit ≤ 256)
    (h : numbered? letter limit word = some n) : n.toNat < limit :=
  ((numbered?_eq_some hl).mp h).1

theorem fileA?_eq_some {word : String} {n : UInt8} :
    fileA? word = some n ↔ n.toNat < 32 ∧ word = "a" ++ toString n.toNat := by
  rw [fileA?, numbered?_eq_some (by decide), ← String.toList_inj]
  simp

theorem fileB?_eq_some {word : String} {n : UInt8} :
    fileB? word = some n ↔ n.toNat < 32 ∧ word = "b" ++ toString n.toNat := by
  rw [fileB?, numbered?_eq_some (by decide), ← String.toList_inj]
  simp

/-- A small integer is an integer as it is printed, and its index is the value modulo 32. -/
theorem smallInteger?_eq_some {word : String} {n : UInt8} :
    smallInteger? word = some n ↔
      ∃ k : ℤ, -16 ≤ k ∧ k ≤ 15 ∧ word = toString k ∧ (n.toNat : ℤ) = k % 32 := by
  have hvalue : ∀ m ≤ 32, (UInt8.ofNat m).toNat = m := fun m hm =>
    UInt8.toNat_ofNat_of_lt' (by rw [UInt8.size]; omega)
  unfold smallInteger?
  split
  · rename_i digits hword
    rw [Text.plainDecimal?_filter_map]
    constructor
    · rintro ⟨m, rfl, hm, rfl⟩
      have hrange : 1 ≤ m ∧ m ≤ 16 := by simpa using hm
      have hneg : (-m : ℤ) < 0 := by omega
      refine ⟨-m, by omega, by omega, ?_, ?_⟩
      · rw [← String.toList_inj, hword, Text.toList_toString_neg hneg, Int.natAbs_neg,
          Int.natAbs_natCast]
      · rw [hvalue _ (by omega)]
        omega
    · rintro ⟨k, hlow, _, rfl, hn⟩
      have hneg : k < 0 := by
        by_contra hk
        rw [Text.toList_toString_nonneg (not_lt.mp hk)] at hword
        exact Text.toDigits_ne_minus _ _ hword
      rw [Text.toList_toString_neg hneg] at hword
      refine ⟨k.natAbs, (List.cons.inj hword).2.symm, ?_, ?_⟩
      · rw [Bool.and_eq_true, decide_eq_true_eq, decide_eq_true_eq]
        omega
      · apply UInt8.toNat_inj.mp
        rw [hvalue _ (by omega)]
        omega
  · rename_i hword
    rw [Text.plainDecimal?_filter_map]
    constructor
    · rintro ⟨m, hdigits, hm, rfl⟩
      have hrange : m ≤ 15 := of_decide_eq_true hm
      refine ⟨m, by omega, by omega, ?_, ?_⟩
      · rw [← String.toList_inj, hdigits, Text.toList_toString_nonneg (Int.natCast_nonneg m),
          Int.natAbs_natCast]
      · rw [hvalue _ (by omega)]
        omega
    · rintro ⟨k, _, hhigh, rfl, hn⟩
      have hnonneg : 0 ≤ k := by
        by_contra hk
        exact hword _ (Text.toList_toString_neg (not_le.mp hk))
      refine ⟨k.natAbs, Text.toList_toString_nonneg hnonneg, decide_eq_true (by omega), ?_⟩
      apply UInt8.toNat_inj.mp
      rw [hvalue _ (by omega)]
      omega

theorem smallInteger?_lt {word : String} {n : UInt8} (h : smallInteger? word = some n) :
    n.toNat < 32 := by
  obtain ⟨k, _, _, _, hn⟩ := smallInteger?_eq_some.mp h
  omega

theorem Readable.cases {r : Register} (h : r.Readable) :
    (r.file = .a ∨ r.file = .b) ∧ r.num.toNat < 32 ∨ r.file = .accumulator ∧ r.num.toNat < 6 ∨
      r ∈ readTable.map Prod.snd ∨ r.file = .smallImmediate ∧ r.num.toNat < 64 := by
  obtain ⟨word, h⟩ := h
  obtain ⟨form, hform, h⟩ := List.exists_of_findSome?_eq_some h
  simp only [readForms, List.mem_cons, List.not_mem_nil, or_false] at hform
  rcases hform with rfl | rfl | rfl | rfl | rfl | rfl
  · obtain ⟨n, hn, rfl⟩ := Option.map_eq_some_iff.mp h
    exact .inl ⟨.inl rfl, numbered?_lt (by decide) hn⟩
  · obtain ⟨n, hn, rfl⟩ := Option.map_eq_some_iff.mp h
    exact .inl ⟨.inr rfl, numbered?_lt (by decide) hn⟩
  · obtain ⟨n, hn, rfl⟩ := Option.map_eq_some_iff.mp h
    exact .inr (.inl ⟨rfl, numbered?_lt (by decide) hn⟩)
  · exact .inr (.inr (.inl (List.mem_map_of_mem (mem_of_lookup h))))
  · obtain ⟨n, hn, rfl⟩ := Option.map_eq_some_iff.mp h
    exact .inr (.inr (.inr ⟨rfl, (smallInteger?_lt hn).trans (by decide)⟩))
  · obtain ⟨n, hn, rfl⟩ := Option.map_eq_some_iff.mp h
    have htable : ∀ e ∈ immediateTable, e.2.toNat < 64 := by decide
    exact .inr (.inr (.inr ⟨rfl, htable _ (mem_of_lookup hn)⟩))

theorem Writable.cases {r : Register} (h : r.Writable) :
    (r.file = .a ∨ r.file = .b) ∧ r.num.toNat < 32 ∨ r ∈ writeTable.map Prod.snd := by
  obtain ⟨word, h⟩ := h
  obtain ⟨form, hform, h⟩ := List.exists_of_findSome?_eq_some h
  simp only [writeForms, List.mem_cons, List.not_mem_nil, or_false] at hform
  rcases hform with rfl | rfl | rfl
  · obtain ⟨n, hn, rfl⟩ := Option.map_eq_some_iff.mp h
    exact .inl ⟨.inl rfl, numbered?_lt (by decide) hn⟩
  · obtain ⟨n, hn, rfl⟩ := Option.map_eq_some_iff.mp h
    exact .inl ⟨.inr rfl, numbered?_lt (by decide) hn⟩
  · exact .inr (List.mem_map_of_mem (mem_of_lookup h))

theorem not_isNop_of_num_lt {r : Register} (h : r.num.toNat < 32) : r.isNop = false := by
  have hne : r.num ≠ nopNum := by
    intro he
    rw [he] at h
    exact absurd h (by decide)
  simp [isNop, hne]

theorem Readable.num_lt {r : Register} (h : r.Readable) : r.num.toNat < 64 := by
  have htable : ∀ r ∈ readTable.map Prod.snd, r.num.toNat < 64 := by decide
  rcases h.cases with ⟨_, h⟩ | ⟨_, h⟩ | h | ⟨_, h⟩
  · omega
  · omega
  · exact htable r h
  · exact h

theorem Readable.accumulator_lt {r : Register} (h : r.Readable) (hf : r.file = .accumulator) :
    r.num.toNat < 6 := by
  have htable : ∀ r ∈ readTable.map Prod.snd, r.file ≠ .accumulator := by decide
  rcases h.cases with ⟨hab, _⟩ | ⟨_, h⟩ | h | ⟨hs, _⟩
  · rcases hab with hab | hab <;> simp [hf] at hab
  · exact h
  · exact absurd hf (htable r h)
  · simp [hf] at hs

/-- Only the word `-` names the NOP register as a source. -/
theorem Readable.eq_nop {r : Register} (h : r.Readable) (hn : r.isNop) : r = nop := by
  have htable : ∀ r ∈ readTable.map Prod.snd, r.isNop → r = nop := by decide
  rcases h.cases with ⟨_, h⟩ | ⟨hf, _⟩ | h | ⟨hf, _⟩
  · simp [not_isNop_of_num_lt h] at hn
  · simp [isNop, isAddressed, hf] at hn
  · exact htable r h hn
  · simp [isNop, isAddressed, hf] at hn

theorem Writable.num_lt {r : Register} (h : r.Writable) : r.num.toNat < 64 := by
  have htable : ∀ r ∈ writeTable.map Prod.snd, r.num.toNat < 64 := by decide
  rcases h.cases with ⟨_, h⟩ | h
  · omega
  · exact htable r h

theorem Writable.file_cases {r : Register} (h : r.Writable) :
    r.file = .a ∨ r.file = .b ∨ r.file = .shared := by
  have htable : ∀ r ∈ writeTable.map Prod.snd, r.file = .a ∨ r.file = .b ∨ r.file = .shared := by
    decide
  rcases h.cases with ⟨hab | hab, _⟩ | h
  · exact .inl hab
  · exact .inr (.inl hab)
  · exact htable r h

theorem Writable.eq_nop {r : Register} (h : r.Writable) (hn : r.isNop) : r = nop := by
  have htable : ∀ r ∈ writeTable.map Prod.snd, r.isNop → r = nop := by decide
  rcases h.cases with ⟨_, h⟩ | h
  · simp [not_isNop_of_num_lt h] at hn
  · exact htable r h hn

theorem nop_writable : nop.Writable := ⟨"-", by decide⟩

theorem readable?_eq_nop {word : String} : readable? word = some nop ↔ word = "-" := by
  have htable : ∀ e ∈ readTable, e.2 = nop → e.1 = "-" := by decide
  constructor
  · intro h
    obtain ⟨form, hform, h⟩ := List.exists_of_findSome?_eq_some h
    simp only [readForms, List.mem_cons, List.not_mem_nil, or_false] at hform
    rcases hform with rfl | rfl | rfl | rfl | rfl | rfl
    · simp [nop] at h
    · simp [nop] at h
    · simp [nop] at h
    · exact htable _ (mem_of_lookup h) rfl
    · simp [nop] at h
    · simp [nop] at h
  · rintro rfl
    decide

theorem writable?_eq_nop {word : String} : writable? word = some nop ↔ word = "-" := by
  have htable : ∀ e ∈ writeTable, e.2 = nop → e.1 = "-" := by decide
  constructor
  · intro h
    obtain ⟨form, hform, h⟩ := List.exists_of_findSome?_eq_some h
    simp only [writeForms, List.mem_cons, List.not_mem_nil, or_false] at hform
    rcases hform with rfl | rfl | rfl
    · simp [nop] at h
    · simp [nop] at h
    · exact htable _ (mem_of_lookup h) rfl
  · rintro rfl
    decide

end Register

theorem Condition.ofWord?_eq_never {word : String} : ofWord? word = some .never ↔ word = "x" := by
  have htable : ∀ e ∈ table, e.2 = never → e.1 = "x" := by decide
  constructor
  · intro h
    exact htable _ (mem_of_lookup h) rfl
  · rintro rfl
    rfl

namespace Mnemonic

/-- The operation code of the add slot, if the word is one for it. -/
def addCode? : Mnemonic → Option UInt8
  | .add code => some code
  | _ => none

theorem add_code_lt {word : String} {code : UInt8} (h : ofWord? word = some (.add code)) :
    code.toNat < 32 := by
  have htable : ∀ e ∈ table, ∀ code ∈ e.2.addCode?, code.toNat < 32 := by
    decide +kernel
  exact htable _ (mem_of_lookup h) code rfl

end Mnemonic

theorem Slot.mulCode?_lt {word : String} {code : UInt8} (h : mulCode? word = some code) :
    code.toNat < 8 := by
  have htable : ∀ e ∈ mulTable, e.2.toNat < 8 := by decide
  exact htable _ (mem_of_lookup h)

/-- The signals that no word names are the ones that a form of instruction claims for itself. -/
theorem Signal.ofWord?_ne {word : String} {signal : Signal} (h : ofWord? word = some signal) :
    signal ≠ .smallImmediate ∧ signal ≠ .loadImmediate ∧ signal ≠ .branch := by
  have htable : ∀ e ∈ table,
      e.2 ≠ .smallImmediate ∧ e.2 ≠ .loadImmediate ∧ e.2 ≠ .branch := by decide
  exact htable _ (mem_of_lookup h)

end QuadAsm
