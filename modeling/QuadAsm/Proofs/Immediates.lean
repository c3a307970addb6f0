import QuadAsm.Proofs.Numerals
import QuadAsm.Proofs.Outcomes
import QuadAsm.Proofs.Readings

/-!
# Immediates

Which tokens are immediates, which number each of them is, and why one that begins like an immediate
is refused. A token is cut into a head, digits and what is left, and the head gives the radix. The
cut is not always the only one: `0x1` also begins with the decimal digit zero. But that zero is not
the whole token and is worth nothing, so it makes no difference.
-/

namespace QuadAsm

open Text

/-- What may stand before the digits of an immediate. -/
inductive NumeralHead
  | decimal
  | hexadecimal (capital plus : Bool)

namespace NumeralHead

def radix : NumeralHead → ℕ
  | .decimal => 10
  | .hexadecimal _ _ => 16

def chars : NumeralHead → List Char
  | .decimal => []
  | .hexadecimal capital plus =>
      '0' :: (if capital then 'X' else 'x') :: (if plus then ['+'] else [])

theorem one_lt_radix (head : NumeralHead) : 1 < head.radix := by
  cases head <;> simp [radix]

theorem radix_le (head : NumeralHead) : head.radix ≤ 16 := by
  cases head <;> simp [radix]

end NumeralHead

def OpensWith (cs : List Char) (head : NumeralHead) (digits : List ℕ) (after : List Char) : Prop :=
  ∃ front, cs = head.chars ++ (front ++ after) ∧ Spells head.radix front digits

/-- The token is an immediate and `n` is its value. -/
def Denotes (token : String) (n : ℕ) : Prop :=
  ∃ head digits, OpensWith token.toList head digits [] ∧ digits ≠ [] ∧
    positional head.radix digits = n

/-- Some of the first digits of the token are worth more than 32 bits hold. -/
def Overflows (token : String) : Prop :=
  ∃ head digits after, OpensWith token.toList head digits after ∧
    2 ^ 32 ≤ positional head.radix digits

section Heads

variable {cs front after : List Char} {digits : List ℕ}

theorem isDigit_of_writesDigit {c : Char} {d : ℕ} (h : WritesDigit 10 c d) : c.isDigit = true := by
  have hdigits : ∀ d < 10, d.digitChar.isDigit = true ∧ d.digitChar.toUpper.isDigit = true := by
    decide
  rcases h.2 with rfl | rfl
  · exact (hdigits d h.1).1
  · exact (hdigits d h.1).2

theorem head?_ne_plus {radix : ℕ} (hr : radix ≤ 16) (hspells : Spells radix front digits)
    (hne : digits ≠ []) : (front ++ after).head? ≠ some '+' := by
  cases hspells with
  | nil => exact absurd rfl hne
  | cons hc _ =>
      intro h
      obtain rfl := Option.some.inj h
      have hnone : digitValue? 16 '+' = none := by decide
      obtain ⟨hd, hc⟩ := hc
      cases hnone.symm.trans ((digitValue?_eq_some le_rfl).mpr ⟨hd.trans_le hr, hc⟩)

theorem radixDigits_of_not_hex (h : ∀ x digits, x = 'x' ∨ x = 'X' → cs ≠ '0' :: x :: digits) :
    Reader.radixDigits cs = (10, cs) := by
  unfold Reader.radixDigits
  split
  · exact absurd rfl (h 'x' _ (.inl rfl))
  · exact absurd rfl (h 'X' _ (.inr rfl))
  · rfl

/-- Digits that are followed by nothing, or that are not all zero, stand after one head only. -/
theorem radixDigits_of_opensWith {head : NumeralHead} (h : OpensWith cs head digits after)
    (hne : digits ≠ []) (hend : after = [] ∨ positional head.radix digits ≠ 0) :
    (Reader.radixDigits cs).1 = head.radix ∧
      ∃ front, unsigned (Reader.radixDigits cs).2 = front ++ after ∧
        Spells head.radix front digits := by
  obtain ⟨front, rfl, hspells⟩ := h
  have hplus : (front ++ after).head? ≠ some '+' := head?_ne_plus head.radix_le hspells hne
  cases head with
  | hexadecimal capital plus =>
      have hradix : Reader.radixDigits
          ((NumeralHead.hexadecimal capital plus).chars ++ (front ++ after)) =
            (16, (if plus then ['+'] else []) ++ (front ++ after)) := by
        cases capital <;> rfl
      rw [hradix]
      refine ⟨rfl, front, ?_, hspells⟩
      cases plus
      · exact unsigned_of_head hplus
      · rfl
  | decimal =>
      have hradix : Reader.radixDigits (front ++ after) = (10, front ++ after) := by
        apply radixDigits_of_not_hex
        rintro x rest hx hcs
        cases hspells with
        | nil => exact hne rfl
        | @cons c d front digits hc hrest =>
            obtain ⟨rfl, htail⟩ := List.cons.inj hcs
            cases hrest with
            | nil =>
                have hzero : d = 0 := by
                  have hread : digitValue? 10 '0' = some 0 := by decide
                  exact Option.some.inj
                    (((digitValue?_eq_some (by decide)).mpr hc).symm.trans hread)
                subst hzero
                rcases hend with rfl | hvalue
                · cases htail
                · exact hvalue rfl
            | cons hx' _ =>
                obtain ⟨rfl, _⟩ := List.cons.inj htail
                have hdigit := isDigit_of_writesDigit hx'
                rcases hx with rfl | rfl <;> exact absurd hdigit (by decide)
      change (Reader.radixDigits (front ++ after)).1 = 10 ∧ _
      rw [NumeralHead.chars, List.nil_append, hradix]
      exact ⟨rfl, front, unsigned_of_head hplus, hspells⟩

theorem opensWith_of_radixDigits (hdigit : cs.head?.any Char.isDigit = true) :
    ∃ head : NumeralHead, (Reader.radixDigits cs).1 = head.radix ∧
      cs = head.chars ++ unsigned (Reader.radixDigits cs).2 := by
  unfold Reader.radixDigits
  split
  · rcases unsigned_eq_or ‹List Char› with h | h
    · exact ⟨.hexadecimal false false, rfl, by simp [NumeralHead.chars, h]⟩
    · exact ⟨.hexadecimal false true, rfl, by simpa [NumeralHead.chars] using h⟩
  · rcases unsigned_eq_or ‹List Char› with h | h
    · exact ⟨.hexadecimal true false, rfl, by simp [NumeralHead.chars, h]⟩
    · exact ⟨.hexadecimal true true, rfl, by simpa [NumeralHead.chars] using h⟩
  · refine ⟨.decimal, rfl, (unsigned_of_head ?_).symm⟩
    intro h
    rw [h] at hdigit
    exact absurd hdigit (by decide)

end Heads

section Tokens

variable {token : String}

theorem radix_of_radixDigits (cs : List Char) :
    0 < (Reader.radixDigits cs).1 ∧ (Reader.radixDigits cs).1 ≤ 16 := by
  unfold Reader.radixDigits
  split <;> simp

theorem immediateOfToken_of_startsWithDigit (h : Reader.startsWithDigit token = true) :
    Reader.immediateOfToken token =
      (readNumeral (Reader.radixDigits token.toList).1 (Reader.radixDigits token.toList).2).mapError
        (.badImmediate token) := by
  rw [Reader.immediateOfToken, if_pos h]

theorem startsWithDigit_of_opensWith {head : NumeralHead} {digits : List ℕ} {after : List Char}
    (h : OpensWith token.toList head digits after) (hne : digits ≠ []) :
    Reader.startsWithDigit token = true := by
  obtain ⟨front, htoken, hspells⟩ := h
  rw [Reader.startsWithDigit, htoken]
  cases head with
  | hexadecimal capital plus => rfl
  | decimal =>
      cases hspells with
      | nil => exact absurd rfl hne
      | cons hc _ => exact isDigit_of_writesDigit hc

theorem immediateOfToken_eq_ok {v : UInt32} :
    Reader.immediateOfToken token = .ok v ↔ Denotes token v.toNat := by
  obtain ⟨hpos, hle⟩ := radix_of_radixDigits token.toList
  constructor
  · intro h
    by_cases hdigit : Reader.startsWithDigit token
    · rw [immediateOfToken_of_startsWithDigit hdigit, mapError_eq_ok,
        readNumeral_eq_ok hpos hle] at h
      obtain ⟨digits, hspells, hne, hvalue⟩ := h
      obtain ⟨head, hradix, hchars⟩ := opensWith_of_radixDigits hdigit
      rw [hradix] at hspells hvalue
      exact ⟨head, digits, ⟨_, by rwa [List.append_nil], hspells⟩, hne, hvalue⟩
    · rw [Reader.immediateOfToken, if_neg hdigit] at h
      cases h
  · rintro ⟨head, digits, hopens, hne, hvalue⟩
    obtain ⟨hradix, front, hfront, hspells⟩ := radixDigits_of_opensWith hopens hne (.inl rfl)
    rw [immediateOfToken_of_startsWithDigit (startsWithDigit_of_opensWith hopens hne),
      mapError_eq_ok, readNumeral_eq_ok hpos hle, hfront, List.append_nil, hradix]
    exact ⟨digits, hspells, hne, hvalue⟩

theorem readNumeral_eq_tooLarge_iff (hdigit : Reader.startsWithDigit token = true) :
    readNumeral (Reader.radixDigits token.toList).1 (Reader.radixDigits token.toList).2 =
      .error .tooLarge ↔ Overflows token := by
  obtain ⟨hpos, hle⟩ := radix_of_radixDigits token.toList
  rw [readNumeral_eq_tooLarge hpos hle]
  constructor
  · rintro ⟨front, after, digits, hsplit, hspells, hlarge⟩
    obtain ⟨head, hradix, hchars⟩ := opensWith_of_radixDigits hdigit
    rw [hradix] at hspells hlarge
    rw [hsplit] at hchars
    exact ⟨head, digits, after, ⟨front, hchars, hspells⟩, hlarge⟩
  · rintro ⟨head, digits, after, hopens, hlarge⟩
    have hne : digits ≠ [] := by
      rintro rfl
      simp [positional] at hlarge
    obtain ⟨hradix, front, hfront, hspells⟩ :=
      radixDigits_of_opensWith hopens hne (.inr (by omega))
    rw [hradix]
    exact ⟨front, after, digits, hfront, hspells, hlarge⟩

theorem radixDigits_eq_nil_iff (hdigit : Reader.startsWithDigit token = true) :
    (Reader.radixDigits token.toList).2 = [] ↔ token = "0x" ∨ token = "0X" := by
  constructor
  · intro h
    unfold Reader.radixDigits at h
    split at h
    · left
      rw [← String.toList_inj]
      simp_all
    · right
      rw [← String.toList_inj]
      simp_all
    · rw [Reader.startsWithDigit, show token.toList = [] from h] at hdigit
      cases hdigit
  · rintro (rfl | rfl) <;> rfl

theorem immediateOfToken_eq_error {reason : Reason} (hdigit : Reader.startsWithDigit token = true)
    (h : Reader.immediateOfToken token = .error reason) :
    ∃ fault, reason = .badImmediate token fault ∧
      (fault = .empty ↔ token = "0x" ∨ token = "0X") ∧ (fault = .tooLarge ↔ Overflows token) := by
  rw [immediateOfToken_of_startsWithDigit hdigit, mapError_eq_error] at h
  obtain ⟨fault, hread, rfl⟩ := h
  refine ⟨fault, rfl, ?_, ?_⟩
  · rw [← radixDigits_eq_nil_iff hdigit, ← readNumeral_eq_empty, hread, Except.error.injEq]
  · rw [← readNumeral_eq_tooLarge_iff hdigit, hread, Except.error.injEq]

end Tokens

/-- A printed number is an immediate with the number as its value. -/
theorem denotes_toDigits (head : NumeralHead) (n zeros : ℕ) {digits : List Char}
    (h : digits = Nat.toDigits head.radix n ∨
      digits = (Nat.toDigits head.radix n).map Char.toUpper) :
    Denotes (String.ofList (head.chars ++ (List.replicate zeros '0' ++ digits))) n := by
  have hradix := head.one_lt_radix
  obtain ⟨values, hprinted, hne, hlt, hvalue⟩ := exists_toDigits hradix n
  have hspells : Spells head.radix digits values := by
    obtain ⟨hlower, hupper⟩ := spells_map hlt
    rw [hprinted] at h
    rcases h with rfl | rfl
    · exact hlower
    · exact hupper
  refine ⟨head, List.replicate zeros 0 ++ values, ⟨_, ?_, hspells.zeros (by omega) zeros⟩, ?_, ?_⟩
  · rw [String.toList_ofList, List.append_nil]
  · simp [hne]
  · rw [positional_zeros, hvalue]

theorem Reader.bind_of_ok {α β : Type} {x : Reader α} {a : α} {tokens rest : List String}
    (h : x tokens = .ok a rest) (f : α → Reader β) : (x >>= f) tokens = f a rest := by
  change EStateM.bind x f tokens = _
  unfold EStateM.bind
  rw [h]

theorem Reader.immediate_eq_error {token : String} {rest after : List String} {reason : Reason} :
    immediate (token :: rest) = .error reason after ↔
      immediateOfToken token = .error reason ∧ after = rest := by
  cases h : immediateOfToken token with
  | ok value =>
      rw [immediate_eq_ok.mpr ⟨token, rfl, h⟩]
      simp
  | error found =>
      have hfail : immediate (token :: rest) = .error found rest := by
        rw [immediate, bind_of_ok (next_eq_ok.mpr rfl), h]
        rfl
      rw [hfail]
      simp [eq_comm]

theorem Text.NumeralFault.message_inj {f g : NumeralFault} : f.message = g.message ↔ f = g := by
  cases f <;> cases g <;> decide

theorem Reason.message_badImmediate (token : String) (fault : NumeralFault) :
    (badImmediate token fault).message = "bad immediate `" ++ token ++ "`: " ++ fault.message := by
  change "bad immediate " ++ tick token ++ ": " ++ fault.message = _
  rw [tick, ← String.toList_inj]
  simp only [String.toList_append]
  simp

/-- An immediate is read as its value and takes one token. A number is read back from every way of
printing it. A token that begins with a digit and is refused is refused for one of three reasons,
and its characters alone say for which. -/
theorem Reader.immediate_exact (token : String) (rest : List String) :
    (∀ v after, immediate (token :: rest) = .ok v after ↔ Denotes token v.toNat ∧ after = rest) ∧
    (∀ (head : NumeralHead) (v : UInt32) (zeros : ℕ) (digits : List Char),
      digits = Nat.toDigits head.radix v.toNat ∨
        digits = (Nat.toDigits head.radix v.toNat).map Char.toUpper →
      immediate (String.ofList (head.chars ++ (List.replicate zeros '0' ++ digits)) :: rest) =
        .ok v rest) ∧
    (∀ reason after, startsWithDigit token = true →
      immediate (token :: rest) = .error reason after →
      after = rest ∧ ∃ quoted,
        reason.message = "bad immediate `" ++ token ++ "`: " ++ quoted ∧
        (quoted = "cannot parse integer from empty string" ↔ token = "0x" ∨ token = "0X") ∧
        (quoted = "number too large to fit in target type" ↔ Overflows token) ∧
        (quoted = "invalid digit found in string" ↔
          ¬ (token = "0x" ∨ token = "0X") ∧ ¬ Overflows token)) := by
  have hok : ∀ {token v after}, immediate (token :: rest) = .ok v after ↔
      Denotes token v.toNat ∧ after = rest := by
    intro token v after
    rw [immediate_eq_ok, ← immediateOfToken_eq_ok]
    constructor
    · rintro ⟨_, htokens, hread⟩
      obtain ⟨rfl, rfl⟩ := List.cons.inj htokens
      exact ⟨hread, rfl⟩
    · rintro ⟨hread, rfl⟩
      exact ⟨token, rfl, hread⟩
  refine ⟨fun v after => hok, ?_, ?_⟩
  · intro head v zeros digits hdigits
    exact hok.mpr ⟨denotes_toDigits head v.toNat zeros hdigits, rfl⟩
  · intro reason after hdigit herror
    obtain ⟨hread, rfl⟩ := immediate_eq_error.mp herror
    obtain ⟨fault, rfl, hempty, hlarge⟩ := immediateOfToken_eq_error hdigit hread
    refine ⟨rfl, fault.message, Reason.message_badImmediate token fault, ?_, ?_, ?_⟩
    · exact (NumeralFault.message_inj (g := .empty)).trans hempty
    · exact (NumeralFault.message_inj (g := .tooLarge)).trans hlarge
    · refine (NumeralFault.message_inj (g := .invalidDigit)).trans ?_
      rw [← hempty, ← hlarge]
      cases fault <;> simp

/-- The digits before the letter are too many, so the letter is not what is wrong. -/
theorem Reader.immediate_exact_too_large :
    startsWithDigit "4294967296x" = true ∧
      immediate ["4294967296x", ";"] = .error (.badImmediate "4294967296x" .tooLarge) [";"] ∧
      Overflows "4294967296x" := by
  have hdigit : startsWithDigit "4294967296x" = true := by decide
  have hread : immediate ["4294967296x", ";"] =
      .error (.badImmediate "4294967296x" .tooLarge) [";"] :=
    immediate_eq_error.mpr ⟨by decide +kernel, rfl⟩
  obtain ⟨_, quoted, hmessage, _, hlarge, _⟩ :=
    (immediate_exact "4294967296x" [";"]).2.2 _ _ hdigit hread
  refine ⟨hdigit, hread, hlarge.mp ?_⟩
  rw [Reason.message_badImmediate] at hmessage
  exact (String.append_right_inj _).mp hmessage.symm

end QuadAsm
