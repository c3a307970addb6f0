import Mathlib.Data.Nat.Digits.Lemmas
import Mathlib.Tactic.Ring
import Mathlib.Tactic.SplitIfs
import QuadAsm.Text.Numeral

/-!
# Numerals and their values

What a numeral is worth is said here by the weights of its digits, and not by how it is read. A
numeral that is read to its end has this value. One that is refused is refused for the first of its
characters that is no digit, or for the first of its digits that makes the value too large,
whichever comes first. Plain decimals are the numerals that numbers are printed as.
-/

namespace QuadAsm.Text

/-- The character is the digit, in either case if it is a letter. -/
def WritesDigit (radix : ℕ) (c : Char) (d : ℕ) : Prop :=
  d < radix ∧ (c = d.digitChar ∨ c = d.digitChar.toUpper)

def Spells (radix : ℕ) (cs : List Char) (digits : List ℕ) : Prop :=
  List.Forall₂ (WritesDigit radix) cs digits

/-- What the digits are worth, high digit first. -/
def positional (radix : ℕ) (digits : List ℕ) : ℕ :=
  Nat.ofDigits radix digits.reverse

section Positional

variable (radix : ℕ)

theorem positional_cons (d : ℕ) (digits : List ℕ) :
    positional radix (d :: digits) = d * radix ^ digits.length + positional radix digits := by
  rw [positional, positional, List.reverse_cons, Nat.ofDigits_append, Nat.ofDigits_singleton,
    List.length_reverse]
  ring

theorem positional_concat (digits : List ℕ) (d : ℕ) :
    positional radix (digits ++ [d]) = positional radix digits * radix + d := by
  rw [positional, positional, List.reverse_concat', Nat.ofDigits_cons]
  ring

theorem positional_zeros (zeros : ℕ) (digits : List ℕ) :
    positional radix (List.replicate zeros 0 ++ digits) = positional radix digits := by
  rw [positional, positional, List.reverse_append, List.reverse_replicate, Nat.ofDigits_append,
    Nat.ofDigits_replicate_zero, Nat.mul_zero, Nat.add_zero]

end Positional

section Digits

variable {radix d : ℕ} {c : Char} {cs : List Char} {digits : List ℕ}

theorem digitChar_of_isDigit (h : c.isDigit = true) : Nat.digitChar (c.toNat - 48) = c := by
  obtain ⟨hlow, hhigh⟩ : 48 ≤ c.toNat ∧ c.toNat ≤ 57 := Char.isDigit_iff_toNat.mp h
  apply Char.toNat_inj.mp
  rw [Nat.toNat_digitChar_of_lt_ten (by omega)]
  omega

theorem digitValue?_eq_some (hr : radix ≤ 16) :
    digitValue? radix c = some d ↔ WritesDigit radix c d := by
  have hletters : ∀ e < 16, 10 ≤ e →
      e.digitChar.toNat = 87 + e ∧ e.digitChar.toUpper.toNat = 55 + e := by decide
  have hread : ∀ e < 16, digitValue? 16 e.digitChar = some e ∧
      digitValue? 16 e.digitChar.toUpper = some e := by decide
  simp only [digitValue?, Option.filter_eq_some_iff, decide_eq_true_eq, WritesDigit] at hread ⊢
  rw [and_comm]
  refine and_congr_right fun hd => ⟨?_, ?_⟩
  · intro h
    split_ifs at h with hdecimal hlower hupper
    · obtain rfl := Option.some.inj h
      exact .inl (digitChar_of_isDigit (Char.isDigit_iff_toNat.mpr hdecimal)).symm
    · obtain rfl := Option.some.inj h
      have hlow : 97 ≤ c.toNat := hlower.1
      left
      apply Char.toNat_inj.mp
      rw [(hletters _ (hd.trans_le hr) (Nat.le_add_left _ _)).1]
      change c.toNat = 87 + (c.toNat - 97 + 10)
      omega
    · obtain rfl := Option.some.inj h
      have hlow : 65 ≤ c.toNat := hupper.1
      right
      apply Char.toNat_inj.mp
      rw [(hletters _ (hd.trans_le hr) (Nat.le_add_left _ _)).2]
      change c.toNat = 55 + (c.toNat - 65 + 10)
      omega
  · rintro (rfl | rfl)
    · exact (hread d (by omega)).1.1
    · exact (hread d (by omega)).2.1

theorem spells_cons (hr : radix ≤ 16) (h : digitValue? radix c = some d) :
    Spells radix (c :: cs) digits ↔ ∃ rest, digits = d :: rest ∧ Spells radix cs rest := by
  constructor
  · rintro (_ | ⟨hc, hcs⟩)
    obtain rfl := Option.some.inj (h.symm.trans ((digitValue?_eq_some hr).mpr hc))
    exact ⟨_, rfl, hcs⟩
  · rintro ⟨rest, rfl, hcs⟩
    exact .cons ((digitValue?_eq_some hr).mp h) hcs

theorem not_spells_cons (hr : radix ≤ 16) (h : digitValue? radix c = none) :
    ¬ Spells radix (c :: cs) digits := by
  rintro (_ | ⟨hc, _⟩)
  cases h.symm.trans ((digitValue?_eq_some hr).mpr hc)

theorem Spells.zeros (hr : 0 < radix) (h : Spells radix cs digits) (zeros : ℕ) :
    Spells radix (List.replicate zeros '0' ++ cs) (List.replicate zeros 0 ++ digits) := by
  induction zeros with
  | zero => exact h
  | succ zeros ih => exact .cons ⟨hr, .inl rfl⟩ ih

end Digits

section Reading

variable {radix acc : ℕ} {cs : List Char}

/-- One more digit, seen as the last of those read or as the first of those to come. -/
theorem value_step (radix acc d : ℕ) (digits : List ℕ) :
    (acc * radix + d) * radix ^ digits.length + positional radix digits =
      acc * radix ^ (d :: digits).length + positional radix (d :: digits) := by
  rw [positional_cons, List.length_cons, pow_succ]
  ring

theorem le_value (hr : 0 < radix) (acc d : ℕ) (digits : List ℕ) :
    acc * radix + d ≤ acc * radix ^ (d :: digits).length + positional radix (d :: digits) := by
  rw [← value_step]
  have hpow : 0 < radix ^ digits.length := Nat.pow_pos hr
  calc acc * radix + d ≤ (acc * radix + d) * radix ^ digits.length := Nat.le_mul_of_pos_right _ hpow
    _ ≤ (acc * radix + d) * radix ^ digits.length + positional radix digits := Nat.le_add_right _ _

theorem readDigits_eq_ok (hr : 0 < radix) (hr' : radix ≤ 16) (hacc : acc < UInt32.size)
    {v : UInt32} :
    readDigits radix acc cs = .ok v ↔
      ∃ digits, Spells radix cs digits ∧
        acc * radix ^ digits.length + positional radix digits = v.toNat := by
  induction cs generalizing acc with
  | nil =>
      have hvalue : UInt32.ofNat acc = v ↔ acc = v.toNat := by
        rw [← UInt32.toNat_inj, UInt32.toNat_ofNat_of_lt' hacc]
      simp [readDigits, Spells, hvalue, positional]
  | cons c cs ih =>
      rw [readDigits]
      cases hc : digitValue? radix c with
      | none =>
          refine iff_of_false (fun h => by cases h) ?_
          rintro ⟨digits, hspells, _⟩
          exact not_spells_cons hr' hc hspells
      | some d =>
          dsimp only
          split_ifs with hfits
          · refine (ih hfits).trans ⟨?_, ?_⟩
            · rintro ⟨digits, hspells, hvalue⟩
              exact ⟨d :: digits, (spells_cons hr' hc).mpr ⟨_, rfl, hspells⟩,
                (value_step radix acc d digits).symm.trans hvalue⟩
            · rintro ⟨_, hspells, hvalue⟩
              obtain ⟨digits, rfl, hrest⟩ := (spells_cons hr' hc).mp hspells
              exact ⟨digits, hrest, (value_step radix acc d digits).trans hvalue⟩
          · refine iff_of_false (fun h => by cases h) ?_
            rintro ⟨_, hspells, hvalue⟩
            obtain ⟨digits, rfl, _⟩ := (spells_cons hr' hc).mp hspells
            have hle := le_value hr acc d digits
            have hv : v.toNat < UInt32.size := v.toNat_lt
            omega

/-- A numeral is too large if some of its first characters are digits whose value is. -/
theorem readDigits_eq_tooLarge (hr : 0 < radix) (hr' : radix ≤ 16) (hacc : acc < UInt32.size) :
    readDigits radix acc cs = .error .tooLarge ↔
      ∃ front after digits, cs = front ++ after ∧ Spells radix front digits ∧
        UInt32.size ≤ acc * radix ^ digits.length + positional radix digits := by
  have hnil : ∀ {digits acc}, Spells radix [] digits → acc < UInt32.size →
      ¬ UInt32.size ≤ acc * radix ^ digits.length + positional radix digits := by
    rintro _ acc (_ | _) hlt
    simpa [positional] using hlt
  induction cs generalizing acc with
  | nil =>
      refine iff_of_false (fun h => by cases h) ?_
      rintro ⟨front, after, digits, hsplit, hspells, hlarge⟩
      obtain ⟨rfl, rfl⟩ := List.append_eq_nil_iff.mp hsplit.symm
      exact hnil hspells hacc hlarge
  | cons c cs ih =>
      rw [readDigits]
      cases hc : digitValue? radix c with
      | none =>
          refine iff_of_false (fun h => by cases h) ?_
          rintro ⟨front, after, digits, hsplit, hspells, hlarge⟩
          cases front with
          | nil => exact hnil hspells hacc hlarge
          | cons e front =>
              obtain ⟨rfl, _⟩ := List.cons.inj hsplit
              exact not_spells_cons hr' hc hspells
      | some d =>
          dsimp only
          split_ifs with hfits
          · refine (ih hfits).trans ⟨?_, ?_⟩
            · rintro ⟨front, after, digits, rfl, hspells, hlarge⟩
              refine ⟨c :: front, after, d :: digits, rfl,
                (spells_cons hr' hc).mpr ⟨_, rfl, hspells⟩, ?_⟩
              rwa [← value_step]
            · rintro ⟨front, after, digits, hsplit, hspells, hlarge⟩
              cases front with
              | nil => exact absurd hlarge (hnil hspells hacc)
              | cons e front =>
                  obtain ⟨rfl, rfl⟩ := List.cons.inj hsplit
                  obtain ⟨digits, rfl, hrest⟩ := (spells_cons hr' hc).mp hspells
                  exact ⟨front, after, digits, rfl, hrest, by rwa [value_step]⟩
          · refine iff_of_true rfl ⟨[c], cs, [d], rfl, ?_, ?_⟩
            · exact (spells_cons hr' hc).mpr ⟨[], rfl, .nil⟩
            · have hle := le_value hr acc d []
              omega

theorem readDigits_ne_empty : readDigits radix acc cs ≠ .error .empty := by
  induction cs generalizing acc with
  | nil => exact fun h => by cases h
  | cons c cs ih =>
      rw [readDigits]
      cases digitValue? radix c with
      | none => exact fun h => by cases h
      | some d =>
          dsimp only
          split_ifs
          · exact ih
          · exact fun h => by cases h

end Reading

section Signs

variable {radix : ℕ} {cs : List Char}

/-- The characters without a plus sign in front. -/
def unsigned : List Char → List Char
  | '+' :: cs => cs
  | cs => cs

theorem unsigned_of_head (h : cs.head? ≠ some '+') : unsigned cs = cs := by
  unfold unsigned
  split
  · exact absurd rfl h
  · rfl

theorem unsigned_eq_or (cs : List Char) : unsigned cs = cs ∨ cs = '+' :: unsigned cs := by
  by_cases h : cs.head? = some '+'
  · right
    obtain ⟨after, rfl⟩ := List.head?_eq_some_iff.mp h
    rfl
  · exact .inl (unsigned_of_head h)

theorem readNumeral_of_unsigned_ne_nil (h : unsigned cs ≠ []) :
    readNumeral radix cs = readDigits radix 0 (unsigned cs) := by
  unfold readNumeral
  split
  · exact absurd rfl h
  · exact absurd rfl h
  · rfl
  · rw [unsigned_of_head]
    intro hplus
    obtain ⟨after, rfl⟩ := List.head?_eq_some_iff.mp hplus
    simp_all

theorem readNumeral_of_unsigned_eq_nil (h : unsigned cs = []) :
    readNumeral radix cs = .error (if cs = [] then .empty else .invalidDigit) := by
  rcases unsigned_eq_or cs with heq | heq
  · rw [h] at heq
    subst heq
    rfl
  · rw [h] at heq
    subst heq
    rfl

theorem readNumeral_eq_ok (hr : 0 < radix) (hr' : radix ≤ 16) {v : UInt32} :
    readNumeral radix cs = .ok v ↔
      ∃ digits, Spells radix (unsigned cs) digits ∧ digits ≠ [] ∧
        positional radix digits = v.toNat := by
  by_cases h : unsigned cs = []
  · rw [readNumeral_of_unsigned_eq_nil h, h]
    refine iff_of_false (fun h => by cases h) ?_
    rintro ⟨digits, hspells, hne, _⟩
    exact hne (List.forall₂_nil_left_iff.mp hspells)
  · rw [readNumeral_of_unsigned_ne_nil h, readDigits_eq_ok hr hr' (by decide)]
    refine exists_congr fun digits => and_congr_right fun hspells => ?_
    have hne : digits ≠ [] := by
      rintro rfl
      exact h (List.forall₂_nil_right_iff.mp hspells)
    rw [Nat.zero_mul, Nat.zero_add, and_iff_right hne]

theorem readNumeral_eq_tooLarge (hr : 0 < radix) (hr' : radix ≤ 16) :
    readNumeral radix cs = .error .tooLarge ↔
      ∃ front after digits, unsigned cs = front ++ after ∧ Spells radix front digits ∧
        UInt32.size ≤ positional radix digits := by
  by_cases h : unsigned cs = []
  · rw [readNumeral_of_unsigned_eq_nil h]
    refine iff_of_false ?_ ?_
    · split_ifs <;> exact fun h => by cases h
    · rintro ⟨front, after, digits, hsplit, hspells, hlarge⟩
      obtain ⟨rfl, _⟩ := List.append_eq_nil_iff.mp (hsplit.symm.trans h)
      obtain rfl := List.forall₂_nil_left_iff.mp hspells
      simp [positional, UInt32.size] at hlarge
  · rw [readNumeral_of_unsigned_ne_nil h, readDigits_eq_tooLarge hr hr' (by decide)]
    simp only [Nat.zero_mul, Nat.zero_add]

theorem readNumeral_eq_empty : readNumeral radix cs = .error .empty ↔ cs = [] := by
  constructor
  · intro hread
    by_cases h : unsigned cs = []
    · rw [readNumeral_of_unsigned_eq_nil h] at hread
      by_contra hne
      rw [if_neg hne] at hread
      cases hread
    · rw [readNumeral_of_unsigned_ne_nil h] at hread
      exact absurd hread readDigits_ne_empty
  · rintro rfl
    rfl

end Signs

section Printing

/-- A printed number has its own digits, and they are worth the number. -/
theorem exists_toDigits {radix : ℕ} (hr : 1 < radix) (n : ℕ) :
    ∃ digits, Nat.toDigits radix n = digits.map Nat.digitChar ∧ digits ≠ [] ∧
      (∀ d ∈ digits, d < radix) ∧ positional radix digits = n := by
  induction n using Nat.strong_induction_on with
  | _ n ih =>
      rw [Nat.toDigits_eq_if hr]
      split_ifs with hn
      · exact ⟨[n], rfl, List.cons_ne_nil _ _, by simpa using hn, by simp [positional]⟩
      · obtain ⟨digits, hdigits, _, hlt, hvalue⟩ :=
          ih (n / radix) (Nat.div_lt_self (by omega) hr)
        have hmod : n % radix < radix := Nat.mod_lt _ (by omega)
        refine ⟨digits ++ [n % radix], by simp [hdigits], by simp, ?_, ?_⟩
        · intro d hd
          rcases List.mem_append.mp hd with hd | hd
          · exact hlt d hd
          · rwa [List.mem_singleton.mp hd]
        · rw [positional_concat, hvalue]
          exact Nat.div_add_mod' n radix

theorem spells_map {radix : ℕ} {digits : List ℕ} (h : ∀ d ∈ digits, d < radix) :
    Spells radix (digits.map Nat.digitChar) digits ∧
      Spells radix ((digits.map Nat.digitChar).map Char.toUpper) digits := by
  induction digits with
  | nil => exact ⟨.nil, .nil⟩
  | cons d digits ih =>
      obtain ⟨hd, hdigits⟩ := List.forall_mem_cons.mp h
      obtain ⟨hlower, hupper⟩ := ih hdigits
      exact ⟨.cons ⟨hd, .inl rfl⟩ hlower, .cons ⟨hd, .inr rfl⟩ hupper⟩

end Printing

section PlainDecimal

variable {c : Char} {cs : List Char} {n : ℕ}

/-- Reading on from a number that is not zero adds to what it is printed as. -/
theorem toDigits_append (hn : 0 < n) (h : ∀ c ∈ cs, c.isDigit = true) :
    Nat.toDigits 10 n ++ cs =
      Nat.toDigits 10 (cs.foldl (fun value c => value * 10 + (c.toNat - '0'.toNat)) n) := by
  induction cs generalizing n with
  | nil => simp
  | cons c cs ih =>
      obtain ⟨hc, hcs⟩ := List.forall_mem_cons.mp h
      obtain ⟨_, hhigh⟩ : 48 ≤ c.toNat ∧ c.toNat ≤ 57 := Char.isDigit_iff_toNat.mp hc
      have hlast : [c] = Nat.toDigits 10 (c.toNat - 48) := by
        rw [Nat.toDigits_of_lt_base (by omega), digitChar_of_isDigit hc]
      calc Nat.toDigits 10 n ++ c :: cs
          = (Nat.toDigits 10 n ++ Nat.toDigits 10 (c.toNat - 48)) ++ cs := by simp [← hlast]
        _ = Nat.toDigits 10 (n * 10 + (c.toNat - 48)) ++ cs := by
            rw [Nat.toDigits_append_toDigits (by omega) hn (by omega), Nat.mul_comm]
        _ = _ := ih (by omega) hcs

theorem head?_toDigits (hn : 0 < n) : (Nat.toDigits 10 n).head? ≠ some '0' := by
  induction n using Nat.strong_induction_on with
  | _ n ih =>
      rw [Nat.toDigits_eq_if (by omega)]
      split_ifs with hlt
      · intro h
        have hzero := Nat.digitChar_eq_zero.mp (by simpa using h)
        omega
      · rw [List.head?_append_of_ne_nil _ Nat.toDigits_ne_nil]
        exact ih (n / 10) (by omega) (by omega)

theorem isPlainDecimal_iff :
    isPlainDecimal cs = true ↔
      cs ≠ [] ∧ (∀ c ∈ cs, c.isDigit = true) ∧ (cs.length = 1 ∨ cs.head? ≠ some '0') := by
  simp [isPlainDecimal, and_assoc]

theorem isPlainDecimal_toDigits (n : ℕ) : isPlainDecimal (Nat.toDigits 10 n) = true := by
  refine isPlainDecimal_iff.mpr ⟨Nat.toDigits_ne_nil, ?_, ?_⟩
  · intro c hc
    exact Nat.isDigit_of_mem_toDigits (by omega) (by omega) hc
  · rcases Nat.eq_zero_or_pos n with rfl | hn
    · exact .inl rfl
    · exact .inr (head?_toDigits hn)

/-- A plain decimal is what its value is printed as. -/
theorem toDigits_of_isPlainDecimal (h : isPlainDecimal cs = true) :
    cs = Nat.toDigits 10 (cs.foldl (fun value c => value * 10 + (c.toNat - '0'.toNat)) 0) := by
  obtain ⟨hne, hdigits, hhead⟩ := isPlainDecimal_iff.mp h
  obtain ⟨c, cs, rfl⟩ := List.exists_cons_of_ne_nil hne
  obtain ⟨hc, hcs⟩ := List.forall_mem_cons.mp hdigits
  obtain ⟨hlow, hhigh⟩ : 48 ≤ c.toNat ∧ c.toNat ≤ 57 := Char.isDigit_iff_toNat.mp hc
  have hfirst : [c] = Nat.toDigits 10 (c.toNat - 48) := by
    rw [Nat.toDigits_of_lt_base (by omega), digitChar_of_isDigit hc]
  have hstart : (c :: cs).foldl (fun value c => value * 10 + (c.toNat - '0'.toNat)) 0 =
      cs.foldl (fun value c => value * 10 + (c.toNat - '0'.toNat)) (c.toNat - 48) := by
    rw [List.foldl_cons, Nat.zero_mul, Nat.zero_add]
    rfl
  rw [hstart]
  by_cases hzero : c.toNat = 48
  · have hlength : (c :: cs).length = 1 := by
      apply hhead.resolve_right
      rw [not_not, List.head?_cons]
      exact congrArg some (Char.toNat_inj.mp hzero)
    obtain rfl : cs = [] := by simpa using hlength
    exact hfirst
  · rw [← toDigits_append (by omega) hcs, ← hfirst]
    rfl

theorem plainDecimal?_eq_some : plainDecimal? cs = some n ↔ cs = Nat.toDigits 10 n := by
  unfold plainDecimal?
  constructor
  · intro h
    split_ifs at h with hplain
    rw [← Option.some.inj h]
    exact toDigits_of_isPlainDecimal hplain
  · rintro rfl
    rw [if_pos (isPlainDecimal_toDigits n)]
    refine congrArg some (Eq.trans ?_ Nat.ofDigitChars_ten_toDigits)
    rw [Nat.ofDigitChars_eq_foldl]
    simp only [Nat.mul_comm]

/-- Plain decimals in a range, each turned into what its number stands for. -/
theorem plainDecimal?_filter_map {α : Type} {range : ℕ → Bool} {f : ℕ → α} {a : α} :
    ((plainDecimal? cs).filter range).map f = some a ↔
      ∃ n, cs = Nat.toDigits 10 n ∧ range n = true ∧ f n = a := by
  simp only [Option.map_eq_some_iff, Option.filter_eq_some_iff, plainDecimal?_eq_some, and_assoc]

theorem toDigits_ne_minus (n : ℕ) (cs : List Char) : Nat.toDigits 10 n ≠ '-' :: cs := by
  intro h
  have hminus : '-' ∈ Nat.toDigits 10 n := by simp [h]
  exact absurd (Nat.isDigit_of_mem_toDigits (by omega) (by omega) hminus) (by decide)

variable {k : ℤ}

theorem toList_toString_neg (h : k < 0) :
    (toString k).toList = '-' :: Nat.toDigits 10 k.natAbs := by
  have hmagnitude : (-k).toNat = k.natAbs := by omega
  rw [Int.toString_eq_repr, Int.repr_eq_if, if_neg (not_le.mpr h), hmagnitude]
  simp

theorem toList_toString_nonneg (h : 0 ≤ k) : (toString k).toList = Nat.toDigits 10 k.natAbs := by
  have hmagnitude : k.toNat = k.natAbs := by omega
  rw [Int.toString_eq_repr, Int.repr_eq_if, if_pos h, hmagnitude, Nat.toList_repr]

end PlainDecimal

end QuadAsm.Text
