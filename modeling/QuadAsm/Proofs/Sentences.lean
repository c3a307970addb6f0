import QuadAsm.Proofs.Readings

/-!
# Sentences

The grammar of statements as trees. A leaf holds a word that has a right to stand there, so every
tree is a statement. `Sentence.tokens` writes a tree out and `Sentence.instruction` says what it
means. No two trees are written alike, whatever follows them.
-/

namespace QuadAsm

section Delimited

variable {α : Type} {tokens : α → List String}

/-- What is written can be told from what follows it, and in one way only. -/
def Delimited (tokens : α → List String) : Prop :=
  ∀ ⦃x y : α⦄ ⦃rest rest' : List String⦄,
    tokens x ++ rest = tokens y ++ rest' → x = y ∧ rest = rest'

/-- A comma, before which a point and one thing more may stand. -/
def suffixTokens (tokens : α → List String) : Option α → List String
  | none => [","]
  | some x => "." :: tokens x ++ [","]

theorem suffixTokens_delimited (h : Delimited tokens) : Delimited (suffixTokens tokens) := by
  intro x y rest rest' he
  cases x with
  | none =>
      cases y with
      | none => simpa [suffixTokens] using he
      | some y => simp [suffixTokens] at he
  | some x =>
      cases y with
      | none => simp [suffixTokens] at he
      | some y =>
          simp only [suffixTokens, List.cons_append, List.append_assoc, List.cons.injEq,
            true_and] at he
          obtain ⟨rfl, he⟩ := h he
          exact ⟨rfl, by simpa using he⟩

end Delimited

/-- A word that `meaning` knows. -/
structure Named {α : Type} (meaning : String → Option α) where
  word : String
  value : α
  named : meaning word = some value

namespace Named

variable {α : Type} {meaning : String → Option α}

theorem word_inj {x y : Named meaning} : x.word = y.word ↔ x = y := by
  constructor
  · intro h
    obtain ⟨word, value, hx⟩ := x
    obtain ⟨word', value', hy⟩ := y
    obtain rfl : word = word' := h
    obtain rfl : value = value' := Option.some.inj (hx.symm.trans hy)
    rfl
  · intro h
    rw [h]

theorem word_ne {word : String} (h : meaning word = none) (x : Named meaning) : x.word ≠ word := by
  rintro rfl
  cases h.symm.trans x.named

theorem value_eq_iff {word : String} {v : α} (h : ∀ {w}, meaning w = some v ↔ w = word)
    (x : Named meaning) : x.value = v ↔ x.word = word := by
  rw [← h, x.named, Option.some.injEq]

end Named

def Reader.immediate? (token : String) : Option UInt32 := (immediateOfToken token).toOption

namespace Slot

def addCode? (word : String) : Option UInt8 := (Mnemonic.ofWord? word).bind Mnemonic.addCode?

theorem addCode?_eq_some {word : String} {code : UInt8} :
    addCode? word = some code ↔ Mnemonic.ofWord? word = some (.add code) := by
  rw [addCode?, Option.bind_eq_some_iff]
  constructor
  · rintro ⟨mnemonic, hword, hcode⟩
    cases mnemonic with
    | add found =>
        obtain rfl : found = code := Option.some.inj hcode
        exact hword
    | load shape => cases hcode
    | semaphore direction => cases hcode
    | branch test => cases hcode
  · intro h
    exact ⟨.add code, h, rfl⟩

/-- In either slot the code 0 has one word, and it is the one for a slot that is left out. -/
theorem addCode?_eq_zero {word : String} : addCode? word = some 0 ↔ word = "-" := by
  have htable : ∀ e ∈ Mnemonic.table, e.2 = .add 0 → e.1 = "-" := by decide
  rw [addCode?_eq_some]
  constructor
  · intro h
    exact htable _ (mem_of_lookup h) rfl
  · rintro rfl
    rfl

theorem mulCode?_eq_zero {word : String} : mulCode? word = some 0 ↔ word = "-" := by
  have htable : ∀ e ∈ mulTable, e.2 = 0 → e.1 = "-" := by decide
  constructor
  · intro h
    exact htable _ (mem_of_lookup h) rfl
  · rintro rfl
    rfl

end Slot

/-- An operation of a slot whose operations are the words that `codes` knows. -/
structure Operation (codes : String → Option UInt8) where
  op : Named codes
  used : op.word ≠ "-"
  cond : Option (Named Condition.ofWord?)
  dst : Named Register.writable?
  lhs : Named Register.readable?
  rhs : Named Register.readable?

namespace Operation

variable {codes : String → Option UInt8}

def tokens (o : Operation codes) : List String :=
  o.op.word :: suffixTokens (fun c => [c.word]) o.cond ++
    [o.dst.word, ",", o.lhs.word, ",", o.rhs.word]

def slot (o : Operation codes) : Slot where
  code := o.op.value
  cond := o.cond.map (·.value)
  dst := o.dst.value
  lhs := .reg o.lhs.value
  rhs := .reg o.rhs.value

/-- A slot is left out or has an operation. -/
def slotTokens : Option (Operation codes) → List String
  | none => ["-"]
  | some o => o.tokens

def slotOf : Option (Operation codes) → Slot
  | none => .nop
  | some o => o.slot

end Operation

/-- What may stand between the operands and the end of a statement. -/
inductive TailItem
  | setFlags
  | packMode
  | signal (name : Named Signal.ofWord?)

inductive TailKind
  | setFlags
  | packMode
  | signal
  deriving DecidableEq

namespace TailItem

def word : TailItem → String
  | .setFlags => "sf"
  | .packMode => "pm"
  | .signal name => name.word

def kind : TailItem → TailKind
  | .setFlags => .setFlags
  | .packMode => .packMode
  | .signal _ => .signal

def signal? : TailItem → Option Signal
  | .signal name => some name.value
  | _ => none

end TailItem

/-- Items in any order, but of each kind at most one. -/
structure Tail where
  items : List TailItem
  once : (items.map TailItem.kind).Nodup

namespace Tail

def tokens (t : Tail) : List String := t.items.map TailItem.word ++ [";"]

def has (t : Tail) (kind : TailKind) : Bool := (t.items.map TailItem.kind).contains kind

def signal? (t : Tail) : Option Signal := t.items.findSome? TailItem.signal?

/-- The tail gives no signal. -/
def Silent (t : Tail) : Prop := t.has .signal = false

end Tail

/-- A word that names a label where a branch has its target. -/
structure TargetLabel where
  word : String
  not_punctuation : word ≠ "." ∧ word ≠ "," ∧ word ≠ ";"
  not_register : Register.fileA? word = none
  not_number : Reader.startsWithDigit word = false

inductive TargetPhrase
  | register (reg : Named Register.fileA?) (offset : Named Reader.immediate?)
  | label (name : TargetLabel)

namespace TargetPhrase

def tokens : TargetPhrase → List String
  | .register reg offset => [reg.word, ",", offset.word]
  | .label name => [name.word]

def mode : TargetPhrase → TargetMode
  | .register _ _ => .register
  | .label _ => .relative

/-- The sources of the add slot, where a branch keeps its target. -/
def lhs : TargetPhrase → Operand
  | .register reg _ => .reg ⟨.a, reg.value⟩
  | .label name => .label name.word

def rhs : TargetPhrase → Operand
  | .register _ offset => .imm offset.value
  | .label _ => .reg Register.r0

end TargetPhrase

def LoadShape.mnemonic : LoadShape → String
  | .word => "li"
  | .signed => "lis"
  | .unsigned => "liu"

def SemaphoreDirection.mnemonic : SemaphoreDirection → String
  | .up => "semup"
  | .down => "semdn"

def BranchTest.mnemonic : BranchTest → String
  | .always => "b"
  | .whenSet .zero => "bz"
  | .whenClear .zero => "bnz"
  | .whenSet .negative => "bn"
  | .whenClear .negative => "bnn"
  | .whenSet .carry => "bc"
  | .whenClear .carry => "bnc"

/-- A statement of the language. -/
inductive Sentence
  | alu (add : Option (Operation Slot.addCode?)) (mul : Option (Operation Slot.mulCode?))
      (tail : Tail)
  | load (shape : LoadShape) (conds : Option (Named Condition.ofWord? × Named Condition.ofWord?))
      (addDst mulDst : Named Register.writable?) (value : Named Reader.immediate?) (tail : Tail)
      (silent : tail.Silent)
  | semaphore (direction : SemaphoreDirection) (number : Named Reader.immediate?)
      (small : number.value < 16) (tail : Tail) (silent : tail.Silent)
  | branch (test : BranchTest) (any : Option Bool) (addDst mulDst : Named Register.writable?)
      (target : TargetPhrase)

/-- A slot of a load. The condition that never holds and the NOP register go together, and each of
them brings the other with it. -/
def Slot.ofLoad (cond : Option Condition) (dst : Register) : Slot :=
  if cond = some .never ∨ dst = Register.nop then nop else { nop with cond := cond, dst := dst }

namespace Sentence

def tokens : Sentence → List String
  | .alu add mul tail => Operation.slotTokens add ++ Operation.slotTokens mul ++ tail.tokens
  | .load shape conds addDst mulDst value tail _ =>
    shape.mnemonic :: suffixTokens (fun c => [c.1.word, ".", c.2.word]) conds ++
      [addDst.word, ",", mulDst.word, ",", value.word] ++ tail.tokens
  | .semaphore direction number _ tail _ => [direction.mnemonic, ",", number.word] ++ tail.tokens
  | .branch test any addDst mulDst target =>
    test.mnemonic :: suffixTokens (fun any => [if any then "any" else "all"]) any ++
      [addDst.word, ",", mulDst.word, ","] ++ target.tokens ++ [";"]

/-- What the statement says at a place in the text. -/
def instruction (pc : UInt32) (line : ℕ) (labels : List String) : Sentence → Instruction
  | .alu add mul tail =>
    { Instruction.blank pc line labels with
      add := Operation.slotOf add
      mul := Operation.slotOf mul
      signal := tail.signal?.getD .quiet
      setFlags := tail.has .setFlags
      packMode := tail.has .packMode }
  | .load shape conds addDst mulDst value tail _ =>
    { Instruction.blank pc line labels with
      kind := .load shape
      add := { Slot.ofLoad (conds.map (·.1.value)) addDst.value with lhs := .imm value.value }
      mul := Slot.ofLoad (conds.map (·.2.value)) mulDst.value
      signal := .loadImmediate
      setFlags := tail.has .setFlags
      packMode := tail.has .packMode
      unpack := shape.unpack }
  | .semaphore direction number _ tail _ =>
    { Instruction.blank pc line labels with
      kind := .semaphore direction
      add := ⟨0, some .always, ⟨.a, Register.nopNum⟩, .imm number.value, .reg Register.r0⟩
      mul := ⟨0, some .never, ⟨.b, 0⟩, .reg Register.r0, .reg Register.r0⟩
      signal := .loadImmediate
      setFlags := tail.has .setFlags
      packMode := tail.has .packMode
      unpack := SemaphoreDirection.unpack }
  | .branch test any addDst mulDst target =>
    { Instruction.blank pc line labels with
      kind := .branch test
      add := ⟨0, some .always, addDst.value, target.lhs, target.rhs⟩
      mul := ⟨0, some .always, mulDst.value, .reg Register.r0, .reg Register.r0⟩
      signal := .branch
      branchCond := test.cond (any.getD false)
      targetMode := some target.mode }

/-- What the first word of the statement means. -/
def mnemonic : Sentence → Mnemonic
  | .alu add _ _ => .add (Operation.slotOf add).code
  | .load shape _ _ _ _ _ _ => .load shape
  | .semaphore direction _ _ _ _ => .semaphore direction
  | .branch test _ _ _ _ => .branch test

end Sentence

theorem Operation.slotTokens_head {codes : String → Option UInt8} (hnone : codes "-" = some 0)
    (o : Option (Operation codes)) :
    ∃ word rest, slotTokens o = word :: rest ∧ codes word = some (slotOf o).code := by
  cases o with
  | none => exact ⟨"-", [], rfl, hnone⟩
  | some o => exact ⟨o.op.word, _, rfl, o.op.named⟩

theorem Operation.slotOf_written {codes : String → Option UInt8} {limit : ℕ}
    (hzero : ∀ {word}, codes word = some 0 ↔ word = "-")
    (hlimit : ∀ {word code}, codes word = some code → code.toNat < limit)
    (o : Option (Operation codes)) : (slotOf o).Written limit := by
  cases o with
  | none => exact .unused
  | some o =>
      have hcode : o.op.value ≠ 0 := by
        intro h
        exact o.used (hzero.mp (h ▸ o.op.named))
      exact .used hcode (hlimit o.op.named) ⟨_, o.dst.named⟩ ⟨_, o.lhs.named⟩ ⟨_, o.rhs.named⟩

theorem Operation.slotOf_written_add (o : Option (Operation Slot.addCode?)) :
    (slotOf o).Written 32 :=
  slotOf_written Slot.addCode?_eq_zero
    (fun h => Mnemonic.add_code_lt (Slot.addCode?_eq_some.mp h)) o

theorem Operation.slotOf_written_mul (o : Option (Operation Slot.mulCode?)) :
    (slotOf o).Written 8 :=
  slotOf_written Slot.mulCode?_eq_zero Slot.mulCode?_lt o

namespace Mnemonic

def word? : Mnemonic → Option String
  | .add _ => none
  | .load shape => some shape.mnemonic
  | .semaphore direction => some direction.mnemonic
  | .branch test => some test.mnemonic

theorem eq_of_word? {word : String} {m : Mnemonic} (h : ofWord? word = some m) {w : String}
    (hw : m.word? = some w) : word = w := by
  have htable : ∀ e ∈ table, ∀ w ∈ e.2.word?, e.1 = w := by decide
  exact htable _ (mem_of_lookup h) w hw

theorem ofWord?_load (shape : LoadShape) : ofWord? shape.mnemonic = some (.load shape) := by
  cases shape <;> rfl

theorem ofWord?_semaphore (direction : SemaphoreDirection) :
    ofWord? direction.mnemonic = some (.semaphore direction) := by
  cases direction <;> rfl

theorem ofWord?_branch (test : BranchTest) : ofWord? test.mnemonic = some (.branch test) := by
  cases test with
  | always => rfl
  | whenSet flag => cases flag <;> rfl
  | whenClear flag => cases flag <;> rfl

end Mnemonic

theorem Sentence.tokens_head (s : Sentence) :
    ∃ word rest, s.tokens = word :: rest ∧ Mnemonic.ofWord? word = some s.mnemonic := by
  cases s with
  | alu add mul tail =>
      obtain ⟨word, rest, htokens, hword⟩ :=
        Operation.slotTokens_head (Slot.addCode?_eq_zero.mpr rfl) add
      refine ⟨word, rest ++ Operation.slotTokens mul ++ tail.tokens, ?_,
        Slot.addCode?_eq_some.mp hword⟩
      simp [tokens, htokens]
  | load shape _ _ _ _ _ _ => exact ⟨_, _, rfl, Mnemonic.ofWord?_load shape⟩
  | semaphore direction _ _ _ _ => exact ⟨_, _, rfl, Mnemonic.ofWord?_semaphore direction⟩
  | branch test _ _ _ _ => exact ⟨_, _, rfl, Mnemonic.ofWord?_branch test⟩

section Unambiguous

variable {rest rest' : List String}

theorem Named.delimited {α : Type} (meaning : String → Option α) :
    Delimited fun x : Named meaning => [x.word] := by
  intro x y rest rest' h
  simpa [Named.word_inj] using h

theorem conditions_delimited :
    Delimited fun c : Named Condition.ofWord? × Named Condition.ofWord? =>
      [c.1.word, ".", c.2.word] := by
  intro x y rest rest' h
  simpa [Named.word_inj, Prod.ext_iff, and_assoc] using h

theorem allOrAny_delimited : Delimited fun any : Bool => [if any then "any" else "all"] := by
  intro x y rest rest' h
  cases x <;> cases y <;> simp_all

theorem Operation.tokens_delimited (codes : String → Option UInt8) :
    Delimited (@tokens codes) := by
  intro x y rest rest' h
  obtain ⟨op, used, cond, dst, lhs, rhs⟩ := x
  obtain ⟨op', used', cond', dst', lhs', rhs'⟩ := y
  simp only [tokens, List.cons_append, List.append_assoc, List.cons.injEq, Named.word_inj] at h
  obtain ⟨rfl, h⟩ := h
  obtain ⟨rfl, hrest⟩ := suffixTokens_delimited (Named.delimited _) h
  simp only [List.cons.injEq, Named.word_inj, true_and, List.nil_append] at hrest
  obtain ⟨rfl, rfl, rfl, rfl⟩ := hrest
  exact ⟨rfl, rfl⟩

theorem Operation.slotTokens_delimited (codes : String → Option UInt8) :
    Delimited (@slotTokens codes) := by
  intro x y rest rest' h
  cases x with
  | none =>
      cases y with
      | none => simpa [slotTokens] using h
      | some y =>
          simp only [slotTokens, tokens, List.cons_append, List.cons.injEq] at h
          exact absurd h.1.symm y.used
  | some x =>
      cases y with
      | none =>
          simp only [slotTokens, tokens, List.cons_append, List.cons.injEq] at h
          exact absurd h.1 x.used
      | some y =>
          obtain ⟨rfl, rfl⟩ := tokens_delimited codes h
          exact ⟨rfl, rfl⟩

namespace TailItem

theorem word_inj {x y : TailItem} : x.word = y.word ↔ x = y := by
  have hflags : Signal.ofWord? "sf" = none := by decide
  have hmode : Signal.ofWord? "pm" = none := by decide
  constructor
  · intro h
    cases x with
    | setFlags =>
        cases y with
        | setFlags => rfl
        | packMode => simp [word] at h
        | signal name => exact absurd h.symm (name.word_ne hflags)
    | packMode =>
        cases y with
        | setFlags => simp [word] at h
        | packMode => rfl
        | signal name => exact absurd h.symm (name.word_ne hmode)
    | signal name =>
        cases y with
        | setFlags => exact absurd h (name.word_ne hflags)
        | packMode => exact absurd h (name.word_ne hmode)
        | signal name' => exact congrArg signal (Named.word_inj.mp h)
  · intro h
    rw [h]

theorem word_ne_terminator (x : TailItem) : x.word ≠ ";" := by
  cases x with
  | setFlags => decide
  | packMode => decide
  | signal name => exact name.word_ne (by decide)

/-- The terminator ends the items, since it is the word of none of them. -/
theorem words_delimited : Delimited fun items : List TailItem => items.map word ++ [";"] := by
  intro items items' rest rest' h
  induction items generalizing items' with
  | nil =>
      cases items' with
      | nil => simpa using h
      | cons y items' =>
          simp only [List.map_nil, List.map_cons, List.cons_append, List.nil_append,
            List.cons.injEq] at h
          exact absurd h.1.symm y.word_ne_terminator
  | cons x items ih =>
      cases items' with
      | nil =>
          simp only [List.map_nil, List.map_cons, List.cons_append, List.nil_append,
            List.cons.injEq] at h
          exact absurd h.1 x.word_ne_terminator
      | cons y items' =>
          simp only [List.map_cons, List.cons_append, List.cons.injEq, word_inj] at h
          obtain ⟨rfl, h⟩ := h
          obtain ⟨rfl, rfl⟩ := ih h
          exact ⟨rfl, rfl⟩

end TailItem

theorem Tail.tokens_delimited : Delimited tokens := by
  intro x y rest rest' h
  obtain ⟨items, once⟩ := x
  obtain ⟨items', once'⟩ := y
  obtain ⟨rfl, rfl⟩ := TailItem.words_delimited h
  exact ⟨rfl, rfl⟩

theorem TargetPhrase.tokens_delimited : Delimited tokens := by
  intro x y rest rest' h
  cases x with
  | register reg offset =>
      cases y with
      | register reg' offset' =>
          simp only [tokens, List.cons_append, List.cons.injEq, Named.word_inj, true_and,
            List.nil_append] at h
          obtain ⟨rfl, rfl, rfl⟩ := h
          exact ⟨rfl, rfl⟩
      | label name =>
          simp only [tokens, List.cons_append, List.cons.injEq] at h
          exact absurd h.1 (reg.word_ne name.not_register)
  | label name =>
      cases y with
      | register reg offset =>
          simp only [tokens, List.cons_append, List.cons.injEq] at h
          exact absurd h.1.symm (reg.word_ne name.not_register)
      | label name' =>
          obtain ⟨word, _, _, _⟩ := name
          obtain ⟨word', _, _, _⟩ := name'
          simp only [tokens, List.cons_append, List.cons.injEq, List.nil_append] at h
          obtain ⟨rfl, rfl⟩ := h
          exact ⟨rfl, rfl⟩

/-- The first word tells the forms apart, and within a form each part ends where the next one
begins. -/
theorem Sentence.tokens_delimited : Delimited tokens := by
  intro x y rest rest' h
  have hmnemonic : x.mnemonic = y.mnemonic := by
    obtain ⟨word, after, hx, hword⟩ := x.tokens_head
    obtain ⟨word', after', hy, hword'⟩ := y.tokens_head
    rw [hx, hy, List.cons_append, List.cons_append, List.cons.injEq] at h
    rw [h.1] at hword
    exact Option.some.inj (hword.symm.trans hword')
  cases x with
  | alu add mul tail =>
      cases y with
      | alu add' mul' tail' =>
          simp only [tokens, List.append_assoc] at h
          obtain ⟨rfl, hmul⟩ := Operation.slotTokens_delimited _ h
          obtain ⟨rfl, htail⟩ := Operation.slotTokens_delimited _ hmul
          obtain ⟨rfl, rfl⟩ := Tail.tokens_delimited htail
          exact ⟨rfl, rfl⟩
      | load _ _ _ _ _ _ _ => cases hmnemonic
      | semaphore _ _ _ _ _ => cases hmnemonic
      | branch _ _ _ _ _ => cases hmnemonic
  | load shape conds addDst mulDst value tail silent =>
      cases y with
      | load shape' conds' addDst' mulDst' value' tail' silent' =>
          obtain rfl : shape = shape' := by simpa [mnemonic] using hmnemonic
          simp only [tokens, List.cons_append, List.append_assoc, List.cons.injEq, true_and] at h
          obtain ⟨rfl, hdsts⟩ := suffixTokens_delimited conditions_delimited h
          simp only [List.cons.injEq, Named.word_inj, true_and, List.nil_append] at hdsts
          obtain ⟨rfl, rfl, rfl, htail⟩ := hdsts
          obtain ⟨rfl, rfl⟩ := Tail.tokens_delimited htail
          exact ⟨rfl, rfl⟩
      | alu _ _ _ => cases hmnemonic
      | semaphore _ _ _ _ _ => cases hmnemonic
      | branch _ _ _ _ _ => cases hmnemonic
  | semaphore direction number small tail silent =>
      cases y with
      | semaphore direction' number' small' tail' silent' =>
          obtain rfl : direction = direction' := by simpa [mnemonic] using hmnemonic
          simp only [tokens, List.cons_append, List.cons.injEq, Named.word_inj, true_and,
            List.nil_append] at h
          obtain ⟨rfl, htail⟩ := h
          obtain ⟨rfl, rfl⟩ := Tail.tokens_delimited htail
          exact ⟨rfl, rfl⟩
      | alu _ _ _ => cases hmnemonic
      | load _ _ _ _ _ _ _ => cases hmnemonic
      | branch _ _ _ _ _ => cases hmnemonic
  | branch test any addDst mulDst target =>
      cases y with
      | branch test' any' addDst' mulDst' target' =>
          obtain rfl : test = test' := by simpa [mnemonic] using hmnemonic
          simp only [tokens, List.cons_append, List.append_assoc, List.cons.injEq, true_and] at h
          obtain ⟨rfl, hdsts⟩ := suffixTokens_delimited allOrAny_delimited h
          simp only [List.cons.injEq, Named.word_inj, true_and, List.nil_append] at hdsts
          obtain ⟨rfl, rfl, htarget⟩ := hdsts
          obtain ⟨rfl, hrest⟩ := TargetPhrase.tokens_delimited htarget
          exact ⟨rfl, by simpa using hrest⟩
      | alu _ _ _ => cases hmnemonic
      | load _ _ _ _ _ _ _ => cases hmnemonic
      | semaphore _ _ _ _ _ => cases hmnemonic

end Unambiguous

end QuadAsm
