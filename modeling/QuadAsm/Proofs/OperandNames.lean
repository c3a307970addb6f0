import QuadAsm.Proofs.WriteCollisions

/-!
# Words for operands

There are several ways to name an operand, and they are tried one after the other. No word is a name
in two of them, so a word has one meaning, whatever the order, and the words for general registers
and small integers are exactly the printed ones. The indices are divided as well: one that belongs
to a shared register belongs to no register of a single file.
-/

namespace QuadAsm.Register

/-- No word is a name in both ways. -/
def Excludes (p q : String → Option Register) : Prop :=
  ∀ word, p word = none ∨ q word = none

section Order

variable {p q : String → Option Register} {forms order : List (String → Option Register)}
  {word : String} {r : Register}

theorem Excludes.symm (h : Excludes p q) : Excludes q p := fun word => (h word).symm

theorem findSome?_eq_some (h : forms.Pairwise Excludes) :
    forms.findSome? (· word) = some r ↔ ∃ p ∈ forms, p word = some r := by
  induction forms with
  | nil => simp
  | cons p forms ih =>
      obtain ⟨hp, hforms⟩ := List.pairwise_cons.mp h
      rw [List.findSome?_cons, List.exists_mem_cons_iff]
      cases hword : p word with
      | none => simp [ih hforms]
      | some t =>
          have hrest : ∀ q ∈ forms, q word ≠ some r := by
            intro q hq hr
            rcases hp q hq word with hnone | hnone
            · cases hword.symm.trans hnone
            · cases hr.symm.trans hnone
          simpa using fun q hq hr => absurd hr (hrest q hq)

theorem findSome?_of_perm (h : forms.Pairwise Excludes) (horder : order.Perm forms)
    (word : String) : order.findSome? (· word) = forms.findSome? (· word) := by
  ext r
  rw [findSome?_eq_some h, findSome?_eq_some ((horder.pairwise_iff Excludes.symm).mpr h)]
  simp only [horder.mem_iff]

end Order

section Forms

variable {p q : String → Option Register}

theorem excludes_of_names {names : List String} (hp : ∀ word ∈ names, p word = none)
    (hq : ∀ word r, q word = some r → word ∈ names) : Excludes p q := by
  intro word
  cases hword : q word with
  | none => exact .inr rfl
  | some r => exact .inl (hp word (hq word r hword))

/-- Forms exclude each other if their words do not begin alike. -/
theorem excludes_of_heads {P Q : Char → Prop}
    (hp : ∀ word r, p word = some r → ∃ c ∈ word.toList.head?, P c)
    (hq : ∀ word r, q word = some r → ∃ c ∈ word.toList.head?, Q c)
    (hPQ : ∀ c, P c → ¬ Q c) : Excludes p q := by
  intro word
  cases hpword : p word with
  | none => exact .inl rfl
  | some r =>
      cases hqword : q word with
      | none => exact .inr rfl
      | some t =>
          obtain ⟨c, hc, hP⟩ := hp word r hpword
          obtain ⟨d, hd, hQ⟩ := hq word t hqword
          obtain rfl := Option.mem_unique hc hd
          exact absurd hQ (hPQ c hP)

theorem head_of_numbered? {letter : Char} {limit : ℕ} {file : RegisterFile} (hl : limit ≤ 256)
    (word : String) (r : Register)
    (h : (numbered? letter limit word).map (⟨file, ·⟩) = some r) :
    ∃ c ∈ word.toList.head?, c = letter := by
  obtain ⟨n, hn, _⟩ := Option.map_eq_some_iff.mp h
  rw [((numbered?_eq_some hl).mp hn).2]
  exact ⟨letter, rfl, rfl⟩

theorem head_of_smallInteger? (word : String) (r : Register)
    (h : (smallInteger? word).map (⟨.smallImmediate, ·⟩) = some r) :
    ∃ c ∈ word.toList.head?, c = '-' ∨ c.isDigit = true := by
  obtain ⟨n, hn, _⟩ := Option.map_eq_some_iff.mp h
  obtain ⟨k, _, _, rfl, _⟩ := smallInteger?_eq_some.mp hn
  by_cases hk : k < 0
  · rw [Text.toList_toString_neg hk]
    exact ⟨'-', rfl, .inl rfl⟩
  · rw [Text.toList_toString_nonneg (not_lt.mp hk)]
    obtain ⟨c, digits, hdigits⟩ := List.exists_cons_of_ne_nil
      (Nat.toDigits_ne_nil (b := 10) (n := k.natAbs))
    have hc : c ∈ Nat.toDigits 10 k.natAbs := by simp [hdigits]
    exact ⟨c, by simp [hdigits], .inr (Nat.isDigit_of_mem_toDigits (by omega) (by omega) hc)⟩

theorem numbered?_excludes {letter other : Char} {limit bound : ℕ} {file side : RegisterFile}
    (hl : limit ≤ 256) (hb : bound ≤ 256) (hne : letter ≠ other) :
    Excludes (fun word => (numbered? letter limit word).map (⟨file, ·⟩))
      fun word => (numbered? other bound word).map (⟨side, ·⟩) :=
  excludes_of_heads (head_of_numbered? hl) (head_of_numbered? hb) fun _ hc hd =>
    hne (hc.symm.trans hd)

theorem numbered?_excludes_smallInteger? {letter : Char} {limit : ℕ} {file : RegisterFile}
    (hl : limit ≤ 256) (hletter : ¬ (letter = '-' ∨ letter.isDigit = true)) :
    Excludes (fun word => (numbered? letter limit word).map (⟨file, ·⟩))
      fun word => (smallInteger? word).map (⟨.smallImmediate, ·⟩) := by
  refine excludes_of_heads (head_of_numbered? hl) head_of_smallInteger? ?_
  rintro _ rfl
  exact hletter

theorem readForms_pairwise : readForms.Pairwise Excludes := by
  have hregisters : ∀ p ∈ readForms.eraseIdx 3, ∀ word ∈ readTable.map Prod.fst, p word = none := by
    decide +kernel
  have himmediates : ∀ p ∈ readForms.take 5, ∀ word ∈ immediateTable.map Prod.fst,
      p word = none := by
    decide +kernel
  have hnamed : ∀ p ∈ readForms.eraseIdx 3, Excludes p (readTable.lookup ·) := fun p hp =>
    excludes_of_names (hregisters p hp) fun word r h => List.mem_map_of_mem (mem_of_lookup h)
  have hlast : ∀ p ∈ readForms.take 5,
      Excludes p fun word => (immediateTable.lookup word).map (⟨.smallImmediate, ·⟩) := by
    refine fun p hp => excludes_of_names (himmediates p hp) fun word r h => ?_
    obtain ⟨n, hn, _⟩ := Option.map_eq_some_iff.mp h
    exact List.mem_map_of_mem (mem_of_lookup hn)
  simp only [readForms, List.eraseIdx_cons_succ, List.eraseIdx_cons_zero, List.take_succ_cons,
    List.take_zero, List.forall_mem_cons] at hnamed hlast
  -- The two letters of a name are the forms: `a`, `b`, `r`, the table, small integers, immediates.
  obtain ⟨hat, hbt, hrt, hst, _⟩ := hnamed
  obtain ⟨hai, hbi, hri, hti, hsi, _⟩ := hlast
  have hab := @numbered?_excludes 'a' 'b' 32 32 .a .b (by decide) (by decide) (by decide)
  have har := @numbered?_excludes 'a' 'r' 32 6 .a .accumulator (by decide) (by decide) (by decide)
  have hbr := @numbered?_excludes 'b' 'r' 32 6 .b .accumulator (by decide) (by decide) (by decide)
  have has := @numbered?_excludes_smallInteger? 'a' 32 .a (by decide) (by decide)
  have hbs := @numbered?_excludes_smallInteger? 'b' 32 .b (by decide) (by decide)
  have hrs := @numbered?_excludes_smallInteger? 'r' 6 .accumulator (by decide) (by decide)
  simp only [readForms, List.pairwise_cons, List.forall_mem_cons, List.not_mem_nil,
    IsEmpty.forall_iff, implies_true, List.Pairwise.nil, and_true]
  exact ⟨⟨hab, har, hat, has, hai⟩, ⟨hbr, hbt, hbs, hbi⟩, ⟨hrt, hrs, hri⟩, ⟨hst.symm, hti⟩, hsi⟩

theorem writeForms_pairwise : writeForms.Pairwise Excludes := by
  have hregisters : ∀ p ∈ writeForms.take 2, ∀ word ∈ writeTable.map Prod.fst, p word = none := by
    decide +kernel
  have hnamed : ∀ p ∈ writeForms.take 2, Excludes p (writeTable.lookup ·) := fun p hp =>
    excludes_of_names (hregisters p hp) fun word r h => List.mem_map_of_mem (mem_of_lookup h)
  simp only [writeForms, List.take_succ_cons, List.take_zero, List.forall_mem_cons] at hnamed
  obtain ⟨hat, hbt, _⟩ := hnamed
  have hab := @numbered?_excludes 'a' 'b' 32 32 .a .b (by decide) (by decide) (by decide)
  simp only [writeForms, List.pairwise_cons, List.forall_mem_cons, List.not_mem_nil,
    IsEmpty.forall_iff, implies_true, List.Pairwise.nil, and_true]
  exact ⟨⟨hab, hat⟩, hbt⟩

end Forms

section Meanings

variable {word : String} {r : Register}

theorem readable?_of_num_lt (h : r.num.toNat < 32) :
    readable? word = some r ↔
      (∃ n, fileA? word = some n ∧ ⟨.a, n⟩ = r) ∨ (∃ n, fileB? word = some n ∧ ⟨.b, n⟩ = r) ∨
        (∃ n, accumulator? word = some n ∧ ⟨.accumulator, n⟩ = r) ∨
        ∃ n, smallInteger? word = some n ∧ ⟨.smallImmediate, n⟩ = r := by
  have hregisters : readTable.lookup word ≠ some r := by
    have htable : ∀ e ∈ readTable, 32 ≤ e.2.num.toNat := by decide
    intro hr
    exact absurd (htable _ (mem_of_lookup hr)) (not_le.mpr h)
  have himmediates : ¬ ∃ n, immediateTable.lookup word = some n ∧ ⟨.smallImmediate, n⟩ = r := by
    have htable : ∀ e ∈ immediateTable, 32 ≤ e.2.toNat := by decide
    rintro ⟨n, hn, rfl⟩
    exact absurd (htable _ (mem_of_lookup hn)) (not_le.mpr h)
  rw [readable?, findSome?_eq_some readForms_pairwise]
  simp only [readForms, List.exists_mem_cons_iff, List.not_mem_nil, false_and, exists_false,
    or_false, Option.map_eq_some_iff, hregisters, himmediates, false_or]

end Meanings

section Indices

variable {r t : Register}

/-- The indices past the general registers that mean another register in each file, for reading. -/
def readBankIndices : List UInt8 := [38, 41, 42, 49, 50]

/-- Past the general registers, the indices in the list are those of registers in one file and all
others are those of shared ones. -/
def DividedBy (banked : List UInt8) (r : Register) : Prop :=
  (r.file = .a ∨ r.file = .b → r.num < 32 ∨ r.num ∈ banked) ∧
    (r.file = .shared → 32 ≤ r.num ∧ r.num ∉ banked)

instance (banked : List UInt8) (r : Register) : Decidable (r.DividedBy banked) :=
  inferInstanceAs (Decidable (_ ∧ _))

theorem DividedBy.num_ne {banked : List UInt8} (hr : r.DividedBy banked)
    (ht : t.DividedBy banked) (hshared : r.file = .shared) (hbank : t.file = .a ∨ t.file = .b) :
    r.num ≠ t.num := by
  intro hnum
  obtain ⟨hle, hout⟩ := hr.2 hshared
  rw [hnum] at hle hout
  rcases ht.1 hbank with hlt | hmem
  · exact absurd hlt (UInt8.not_lt.mpr hle)
  · exact hout hmem

theorem Readable.dividedBy (h : r.Readable) : r.DividedBy readBankIndices := by
  have htable : ∀ r ∈ readTable.map Prod.snd, r.DividedBy readBankIndices := by decide
  rcases h.cases with ⟨hfile, hlt⟩ | ⟨hfile, _⟩ | hmem | ⟨hfile, _⟩
  · refine ⟨fun _ => .inl (UInt8.lt_iff_toNat_lt.mpr hlt), fun hshared => ?_⟩
    simp [hshared] at hfile
  · simp [DividedBy, hfile]
  · exact htable r hmem
  · simp [DividedBy, hfile]

theorem Writable.dividedBy (h : r.Writable) : r.DividedBy bankIndices := by
  rcases h.index_cases with ⟨hfile, hindex⟩ | ⟨hfile, hindex⟩
  · exact ⟨fun _ => hindex, fun hshared => absurd hshared hfile⟩
  · refine ⟨fun hbank => ?_, fun _ => hindex⟩
    simp [hfile] at hbank

end Indices

/-- Words name operands without ambiguity and in range. No word is a name in two ways, so the ways
can be tried in any order. The words for small integers and for general registers are the printed
ones. All indices have room in a field of the instruction, and none is that of a shared register and
of a register in a single file. -/
theorem operand_words_exact :
    (readForms.Pairwise Excludes ∧ writeForms.Pairwise Excludes) ∧
    (∀ (order : List (String → Option Register)) (word : String),
      (order.Perm readForms → order.findSome? (· word) = readable? word) ∧
      (order.Perm writeForms → order.findSome? (· word) = writable? word)) ∧
    (∀ (word : String) (n : UInt8), n.toNat < 32 →
      (readable? word = some ⟨.smallImmediate, n⟩ ↔
        ∃ k : ℤ, -16 ≤ k ∧ k ≤ 15 ∧ word = toString k ∧ (n.toNat : ℤ) = k % 32) ∧
      (readable? word = some ⟨.a, n⟩ ↔ word = "a" ++ toString n.toNat) ∧
      (readable? word = some ⟨.b, n⟩ ↔ word = "b" ++ toString n.toNat)) ∧
    (∀ r : Register, r.Readable →
      r.num.toNat < 64 ∧ (r.file = .accumulator → r.num.toNat ≤ 5)) ∧
    (∀ r : Register, r.Writable →
      r.num.toNat < 64 ∧ (r.file = .a ∨ r.file = .b ∨ r.file = .shared)) ∧
    ∀ r t : Register, r.Readable ∧ t.Readable ∨ r.Writable ∧ t.Writable →
      r.file = .shared → t.file = .a ∨ t.file = .b → r.num ≠ t.num := by
  refine ⟨⟨readForms_pairwise, writeForms_pairwise⟩, ?_, ?_, ?_, ?_, ?_⟩
  · intro order word
    exact ⟨fun horder => findSome?_of_perm readForms_pairwise horder word,
      fun horder => findSome?_of_perm writeForms_pairwise horder word⟩
  · intro word n hn
    refine ⟨?_, ?_, ?_⟩
    · rw [← smallInteger?_eq_some, readable?_of_num_lt hn]
      simp
    · rw [readable?_of_num_lt hn]
      simp [fileA?_eq_some, hn]
    · rw [readable?_of_num_lt hn]
      simp [fileB?_eq_some, hn]
  · intro r hr
    exact ⟨hr.num_lt, fun hfile => Nat.le_of_lt_succ (hr.accumulator_lt hfile)⟩
  · intro r hr
    exact ⟨hr.num_lt, hr.file_cases⟩
  · rintro r t (⟨hr, ht⟩ | ⟨hr, ht⟩)
    · exact hr.dividedBy.num_ne ht.dividedBy
    · exact hr.dividedBy.num_ne ht.dividedBy

/-- Tried in the opposite order, `-16` is still a small integer. The register `a31` has no word with
a zero before its number. Index 38 is that of `ele` for reading and of the shared `hostint` for
writing, and on neither side it is both. -/
theorem operand_words_exact_backwards :
    readForms.reverse.findSome? (· "-16") = some ⟨.smallImmediate, 16⟩ ∧
      readable? "a31" = some ⟨.a, 31⟩ ∧ readable? "a031" ≠ some ⟨.a, 31⟩ ∧
      (⟨.accumulator, 5⟩ : Register).num.toNat ≤ 5 ∧ (⟨.shared, 63⟩ : Register).num.toNat < 64 ∧
      (⟨.shared, 39⟩ : Register).num ≠ (⟨.a, 38⟩ : Register).num ∧
      (⟨.shared, 38⟩ : Register).num ≠ (⟨.b, 41⟩ : Register).num := by
  obtain ⟨_, horder, hword, hread, hwrite, hnum⟩ := operand_words_exact
  refine ⟨?_, ?_, ?_, ?_, ?_, ?_, ?_⟩
  · rw [(horder _ "-16").1 (List.reverse_perm _)]
    exact (hword "-16" 16 (by decide)).1.mpr ⟨-16, by decide, by decide, by decide, by decide⟩
  · exact (hword "a31" 31 (by decide)).2.1.mpr (by decide)
  · intro h
    exact absurd ((hword "a031" 31 (by decide)).2.1.mp h) (by decide)
  · exact (hread _ ⟨"r5", by decide⟩).2 rfl
  · exact (hwrite _ ⟨"tmu1b", by decide⟩).1
  · exact hnum _ _ (.inl ⟨⟨"-", by decide⟩, ⟨"ele", by decide⟩⟩) rfl (.inl rfl)
  · exact hnum _ _ (.inr ⟨⟨"hostint", by decide⟩, ⟨"qy", by decide⟩⟩) rfl (.inr rfl)

end QuadAsm.Register
