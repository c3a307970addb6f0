import QuadAsm.Proofs.IdleSlots
import QuadAsm.Proofs.WriteCollisions

/-!
# Loads that write nothing

A slot of a load is idle if its condition never holds or it has nowhere to write. A load with two
idle slots is settled to the instruction that two left-out slots are settled to, although it comes
there another way, and nothing of its value, its mnemonic or its other words is left.
-/

namespace QuadAsm

namespace Slot

/-- The slot of a load, as it is written, writes nothing. -/
def LoadIdle (cond : Option (Named Condition.ofWord?)) (dst : Named Register.writable?) : Prop :=
  (∃ c ∈ cond, c.word = "x") ∨ dst.word = "-"

theorem loadIdle_iff {α : Type} (part : α → Named Condition.ofWord?) (conds : Option α)
    (dst : Named Register.writable?) :
    LoadIdle (conds.map part) dst ↔
      conds.map (fun c => (part c).value) = some .never ∨ dst.value = Register.nop := by
  have hcond := Condition.never_written_iff (conds.map part)
  rw [Option.map_map] at hcond
  rw [LoadIdle, ← hcond, dst.value_eq_iff Register.writable?_eq_nop]
  rfl

theorem isNever_ofLoad (cond : Option Condition) (dst : Register) :
    (ofLoad cond dst).isNever = true ↔ cond = some .never ∨ dst = Register.nop := by
  unfold ofLoad
  split_ifs with h
  · exact iff_of_true rfl h
  · refine iff_of_false ?_ h
    intro hnever
    exact h (.inl (by simpa [isNever] using hnever))

end Slot

namespace Sentence

variable {shape : LoadShape} {conds : Option (Named Condition.ofWord? × Named Condition.ofWord?)}
  {addDst mulDst : Named Register.writable?} {value : Named Reader.immediate?} {tail : Tail}
  {pc : UInt32} {line : ℕ} {labels : List String}

theorem settle_of_loadIdle (silent : tail.Silent) (hadd : Slot.LoadIdle (conds.map Prod.fst) addDst)
    (hmul : Slot.LoadIdle (conds.map Prod.snd) mulDst) :
    ((load shape conds addDst mulDst value tail silent).instruction pc line labels).settle =
      .ok (.settledNop pc line labels .quiet (tail.has .setFlags) (tail.has .packMode)) := by
  have hadd := (Slot.loadIdle_iff Prod.fst conds addDst).mp hadd
  have hmul := (Slot.loadIdle_iff Prod.snd conds mulDst).mp hmul
  refine (Instruction.dstsOf_instruction (.inl rfl)).settleLoad_eq_ok.mpr ⟨?_, ?_⟩
  · rintro ⟨r, _, hr, _⟩
    rw [addWrite?, Slot.loadWrite?, if_pos hadd] at hr
    cases hr
  · have haddNever := (Slot.isNever_ofLoad _ _).mpr hadd
    have hmulNever := (Slot.isNever_ofLoad _ _).mpr hmul
    rw [Instruction.normalizeLoad_of_idle (Bool.and_eq_true_iff.mpr ⟨haddNever, hmulNever⟩)]
    rfl

theorem settle_of_left_out (silent : tail.Silent) :
    ((alu none none tail).instruction pc line labels).settle =
      .ok (.settledNop pc line labels .quiet (tail.has .setFlags) (tail.has .packMode)) := by
  have hsignal : tail.signal? = none := by
    apply TailItem.findSome?_signal?
    rw [← List.contains_iff_mem]
    exact ne_true_of_eq_false silent
  rw [instruction, hsignal]
  rfl

end Sentence

/-- A load that writes nothing is settled as what `- -` with the same tail is settled as, wherever
the two stand. Only their places tell them apart, and both have the words of the NOP. -/
theorem idle_load_settles_to_nop {shape : LoadShape}
    {conds : Option (Named Condition.ofWord? × Named Condition.ofWord?)}
    {addDst mulDst : Named Register.writable?} {value : Named Reader.immediate?} {tail : Tail}
    {silent : tail.Silent} {text nopText : String}
    (htext : tokenize text =
      some (Sentence.load shape conds addDst mulDst value tail silent).tokens)
    (hnop : tokenize nopText = some ("-" :: "-" :: tail.tokens))
    (hadd : Slot.LoadIdle (conds.map Prod.fst) addDst)
    (hmul : Slot.LoadIdle (conds.map Prod.snd) mulDst) (pc pc' : UInt32) (line line' : ℕ)
    (labels labels' : List String) :
    ∃ i j i' j' hi, (Instruction.blank pc line labels).parse text = .ok i ∧ i.settle = .ok j ∧
      (Instruction.blank pc' line' labels').parse nopText = .ok i' ∧ i'.settle = .ok j' ∧
      j = { j' with pc := pc, line := line, labels := labels } ∧
      j.encode = .ok ⟨0, hi⟩ ∧ j'.encode = .ok ⟨0, hi⟩ ∧
      hi.toNat = 0x10000000 + (tail.has .setFlags).toNat * 2 ^ 13 +
        (tail.has .packMode).toNat * 2 ^ 24 := by
  refine ⟨_, _, _, _, _, Instruction.parse_sentence htext pc line labels,
    Sentence.settle_of_loadIdle silent hadd hmul,
    Instruction.parse_sentence (x := .alu none none tail) hnop pc' line' labels',
    Sentence.settle_of_left_out silent, rfl, Instruction.encode_settledNop _ _ _,
    Instruction.encode_settledNop _ _ _, ?_⟩
  have hquiet : Signal.quiet.code.toNat = 1 := rfl
  rw [UInt32.toNat_ofNat_of_lt' (Instruction.nopHighWord_lt _ _ _), Instruction.nopHighWord, hquiet]
  omega

def flagsTail : Tail := ⟨[.packMode, .setFlags], by decide⟩

theorem idle_load_settles_to_nop_signed :
    ∃ i j i' j' hi,
      (Instruction.blank 8 2 ["end"]).parse "lis.x.z, a5, -, 0xffffffff pm sf;" = .ok i ∧
      i.settle = .ok j ∧ (Instruction.blank 0 1 []).parse "- - pm sf;" = .ok i' ∧
      i'.settle = .ok j' ∧ j = { j' with pc := 8, line := 2, labels := ["end"] } ∧
      j.encode = .ok ⟨0, hi⟩ ∧ j'.encode = .ok ⟨0, hi⟩ ∧ hi.toNat = 0x11002000 := by
  have htext : tokenize "lis.x.z, a5, -, 0xffffffff pm sf;" = some (Sentence.load .signed
      (some (⟨"x", .never, by decide⟩, ⟨"z", .zeroSet, by decide⟩))
      ⟨"a5", ⟨.a, 5⟩, by decide +kernel⟩ ⟨"-", Register.nop, by decide +kernel⟩
      ⟨"0xffffffff", 0xffffffff, by decide +kernel⟩ flagsTail rfl).tokens := by decide +kernel
  have hnop : tokenize "- - pm sf;" = some ("-" :: "-" :: flagsTail.tokens) := by decide +kernel
  obtain ⟨i, j, i', j', hi, hread, hsettle, hread', hsettle', hsame, hwords, hwords', hhigh⟩ :=
    idle_load_settles_to_nop htext hnop (.inl ⟨_, rfl, rfl⟩) (.inr rfl) 8 0 2 1 ["end"] []
  refine ⟨i, j, i', j', hi, hread, hsettle, hread', hsettle', hsame, hwords, hwords', ?_⟩
  rw [hhigh]
  decide

end QuadAsm
