import Mathlib.Algebra.Order.Ring.Nat
import Mathlib.Tactic.Ring
import QuadAsm.Program
import QuadAsm.Proofs.Lines

/-!
# What the renderings of a program say

The image, the text and the listing of a program are read back here, each in its own way: the image
eight bytes at a time, the text line by line, the listing row by row. All three give the words of
the program, so none of them says more or less than the others.
-/

namespace QuadAsm

section Image

/-- The word with these bytes, the low one first. -/
def wordOfBytes (b₀ b₁ b₂ b₃ : UInt8) : UInt32 :=
  UInt32.ofNat (b₀.toNat + 256 * (b₁.toNat + 256 * (b₂.toNat + 256 * b₃.toNat)))

/-- The pairs in an image. There are none in bytes that do not come in eights. -/
def readImage? : List UInt8 → Option (List WordPair)
  | [] => some []
  | b₀ :: b₁ :: b₂ :: b₃ :: b₄ :: b₅ :: b₆ :: b₇ :: rest =>
    (readImage? rest).map (⟨wordOfBytes b₀ b₁ b₂ b₃, wordOfBytes b₄ b₅ b₆ b₇⟩ :: ·)
  | _ => none

theorem toNat_byte (w : UInt32) {shift : UInt32} (h : shift.toNat < 32) :
    (w >>> shift).toUInt8.toNat = w.toNat / 2 ^ shift.toNat % 256 := by
  rw [UInt32.toNat_toUInt8, UInt32.toNat_shiftRight, Nat.mod_eq_of_lt h, Nat.shiftRight_eq_div_pow]

theorem wordOfBytes_wordBytes (w : UInt32) :
    wordOfBytes w.toUInt8 (w >>> 8).toUInt8 (w >>> 16).toUInt8 (w >>> 24).toUInt8 = w := by
  have hw : w.toNat < 2 ^ 32 := w.toNat_lt
  have h₀ : w.toUInt8.toNat = w.toNat % 256 := w.toNat_toUInt8
  have h₁ : (w >>> 8).toUInt8.toNat = w.toNat / 256 % 256 := toNat_byte w (by decide)
  have h₂ : (w >>> 16).toUInt8.toNat = w.toNat / 65536 % 256 := toNat_byte w (by decide)
  have h₃ : (w >>> 24).toUInt8.toNat = w.toNat / 16777216 % 256 := toNat_byte w (by decide)
  have hsum : w.toNat % 256 + 256 * (w.toNat / 256 % 256 + 256 * (w.toNat / 65536 % 256 +
      256 * (w.toNat / 16777216 % 256))) = w.toNat := by omega
  rw [wordOfBytes, h₀, h₁, h₂, h₃, hsum, UInt32.ofNat_toNat]

theorem readImage?_append (p : WordPair) (rest : List UInt8) :
    readImage? (p.bytes ++ rest) = (readImage? rest).map (p :: ·) := by
  simp only [WordPair.bytes, wordBytes, List.cons_append, List.nil_append, readImage?,
    wordOfBytes_wordBytes]

theorem readImage?_bytes (p : Program) : readImage? p.bytes = some p.words := by
  unfold Program.bytes
  induction p.words with
  | nil => rfl
  | cons w words ih => rw [List.flatMap_cons, readImage?_append, ih, Option.map_some]

end Image

namespace Text

theorem digitValue?_hexDigit {n : ℕ} (h : n < 16) : digitValue? 16 (hexDigit n) = some n := by
  revert h n
  decide

/-- The digits of `n` are read on from `acc` as its remainder, unless the word overflows. -/
theorem readDigits_hexDigits (acc count n : ℕ) (rest : List Char)
    (h : acc * 16 ^ count + n % 16 ^ count < UInt32.size) :
    readDigits 16 acc (hexDigits count n ++ rest) =
      readDigits 16 (acc * 16 ^ count + n % 16 ^ count) rest := by
  induction count generalizing n rest with
  | zero => simp [hexDigits, Nat.mod_one]
  | succ count ih =>
      have hlast : acc * 16 ^ (count + 1) + n % 16 ^ (count + 1) =
          (acc * 16 ^ count + n / 16 % 16 ^ count) * 16 + n % 16 := by
        rw [Nat.pow_succ', Nat.mod_mul]
        ring
      rw [hlast] at h ⊢
      rw [hexDigits, List.append_assoc, ih _ _ (by omega), List.singleton_append, readDigits,
        digitValue?_hexDigit (Nat.mod_lt _ (by decide))]
      exact if_pos h

theorem length_hexDigits (count n : ℕ) : (hexDigits count n).length = count := by
  induction count generalizing n with
  | zero => rfl
  | succ count ih => rw [hexDigits, List.length_append, ih, List.length_singleton]

theorem mem_hexDigits {count n : ℕ} {c : Char} (h : c ∈ hexDigits count n) :
    ∃ d < 16, c = hexDigit d := by
  induction count generalizing n with
  | zero => cases h
  | succ count ih =>
      rcases List.mem_append.mp h with h | h
      · exact ih h
      · exact ⟨n % 16, Nat.mod_lt _ (by decide), List.mem_singleton.mp h⟩

/-- Reads `0x` and eight digits. -/
def readHexWord? : List Char → Option UInt32
  | '0' :: 'x' :: digits =>
    if digits.length = 8 then (readDigits 16 0 digits).toOption else none
  | _ => none

theorem toList_hexWord (w : UInt32) :
    (hexWord w).toList = '0' :: 'x' :: hexDigits 8 w.toNat := by
  simp [hexWord]

theorem readHexWord?_hexWord (w : UInt32) : readHexWord? (hexWord w).toList = some w := by
  have hmod : 0 * 16 ^ 8 + w.toNat % 16 ^ 8 = w.toNat := by
    have hw : w.toNat < 2 ^ 32 := w.toNat_lt
    omega
  have hfits : 0 * 16 ^ 8 + w.toNat % 16 ^ 8 < UInt32.size := by
    rw [hmod]
    exact w.toNat_lt
  have hread := readDigits_hexDigits 0 8 w.toNat [] hfits
  rw [List.append_nil, hmod, readDigits, UInt32.ofNat_toNat] at hread
  rw [toList_hexWord, readHexWord?, if_pos (length_hexDigits 8 _), hread]
  rfl

end Text

section Lines

/-- Reads a line with two words and a comma after each. -/
def readPair? (line : List Char) : Option WordPair := do
  let lo ← Text.readHexWord? (line.take 10)
  let hi ← Text.readHexWord? ((line.drop 12).take 10)
  if (line.drop 10).take 2 = [',', ' '] ∧ line.drop 22 = [','] then some ⟨lo, hi⟩ else none

def readText? (text : String) : Option (List WordPair) :=
  (Text.splitLines text.toList).mapM readPair?

namespace WordPair

/-- The line of a pair in the text of a program. -/
def line (p : WordPair) : String :=
  Text.hexWord p.lo ++ ", " ++ Text.hexWord p.hi ++ ","

variable (p : WordPair)

theorem toList_text : p.text.toList = p.line.toList ++ ['\n'] := by
  simp [text, line]

theorem newline_notMem_line : '\n' ∉ p.line.toList := by
  have hdigit : ∀ d < 16, ¬ '\n' = Text.hexDigit d := by decide
  have hword : ∀ w, '\n' ∉ (Text.hexWord w).toList := by
    intro w hmem
    rw [Text.toList_hexWord] at hmem
    have hmem : '\n' ∈ Text.hexDigits 8 w.toNat := by simpa using hmem
    obtain ⟨d, hd, hc⟩ := Text.mem_hexDigits hmem
    exact hdigit d hd hc
  simp [line, hword]

theorem endedLine_line : Text.endedLine p.line.toList.reverse = p.line.toList := by
  have hlast : p.line.toList.reverse =
      ',' :: (Text.hexWord p.lo ++ ", " ++ Text.hexWord p.hi).toList.reverse := by
    simp [line]
  have hline : p.line.toList = (',' :: _ : List Char).reverse :=
    List.reverse_eq_iff.mp hlast
  rw [hlast, hline]
  rfl

theorem readPair?_line : readPair? p.line.toList = some p := by
  have hlength : ∀ w, (Text.hexWord w).toList.length = 10 := by
    intro w
    rw [Text.toList_hexWord, List.length_cons, List.length_cons, Text.length_hexDigits]
  have hline : p.line.toList = (Text.hexWord p.lo).toList ++
      (',' :: ' ' :: ((Text.hexWord p.hi).toList ++ [','])) := by
    simp [line]
  have hlo : p.line.toList.take 10 = (Text.hexWord p.lo).toList := by
    rw [hline, List.take_left' (hlength p.lo)]
  have hdrop : p.line.toList.drop 10 = ',' :: ' ' :: ((Text.hexWord p.hi).toList ++ [',']) := by
    rw [hline, List.drop_left' (hlength p.lo)]
  have hrest : p.line.toList.drop 12 = (Text.hexWord p.hi).toList ++ [','] := by
    rw [show 12 = 10 + 2 from rfl, ← List.drop_drop, hdrop]
    rfl
  have hend : p.line.toList.drop 22 = [','] := by
    rw [show 22 = 12 + 10 from rfl, ← List.drop_drop, hrest, List.drop_left' (hlength p.hi)]
  rw [readPair?, hlo, hrest, List.take_left' (hlength p.hi), Text.readHexWord?_hexWord,
    Text.readHexWord?_hexWord, hdrop, hend]
  rfl

end WordPair

theorem Program.text_eq_joinLines (p : Program) : p.text = joinLines (p.words.map WordPair.line) := by
  apply String.toList_injective
  rw [text, joinLines, String.toList_join, String.toList_ofList, List.flatMap_map, List.flatMap_map]
  simp only [WordPair.toList_text]

theorem readText?_text (p : Program) : readText? p.text = some p.words := by
  have hlines : ∀ line ∈ p.words.map WordPair.line, '\n' ∉ line.toList := by
    intro line hline
    obtain ⟨w, _, rfl⟩ := List.mem_map.mp hline
    exact w.newline_notMem_line
  have hsplit : Text.splitLines p.text.toList = p.words.map fun w => w.line.toList := by
    rw [p.text_eq_joinLines, splitLines_joinLines hlines, List.map_map]
    simp only [Function.comp_def, WordPair.endedLine_line]
  rw [readText?, hsplit]
  induction p.words with
  | nil => rfl
  | cons w words ih => simp [List.mapM_cons, w.readPair?_line, ih]

end Lines

namespace Program

theorem listing_words (p : Program) : p.listing.map (·.words) = p.words := by
  rw [listing, words, List.map_filterMap]
  congr 1
  funext i
  cases h : i.encoding with
  | none => simp [Instruction.listingRow?, h]
  | some w => simp [Instruction.listingRow?, h]

variable {p q : Program}

/-- Images are equal exactly if the words are. -/
theorem bytes_inj : p.bytes = q.bytes ↔ p.words = q.words := by
  refine ⟨fun h => ?_, fun h => by rw [bytes, bytes, h]⟩
  have hread : some p.words = some q.words := by
    rw [← readImage?_bytes p, ← readImage?_bytes q, h]
  exact Option.some.inj hread

theorem text_inj : p.text = q.text ↔ p.words = q.words := by
  refine ⟨fun h => ?_, fun h => by rw [text, text, h]⟩
  have hread : some p.words = some q.words := by
    rw [← readText?_text p, ← readText?_text q, h]
  exact Option.some.inj hread

end Program

end QuadAsm
