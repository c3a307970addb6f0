import QuadAsm.Proofs.Fields
import QuadAsm.Proofs.SettledShapes
import QuadAsm.Word.Encoding

/-!
# Fields of the encoded words

The encoder joins its values to words one after the other. Here the words are taken as the parts
that they are packed from, and each field is read back. In the low word of an ALU instruction the
four sources share the two address fields, which they may do because a port carries one index.
-/

namespace QuadAsm

open BitField

theorem Signal.code_holds (s : Signal) : Layout.signal.Holds s.code := by
  cases s <;> decide

theorem Condition.addCond_holds (c : Condition) : Layout.addCond.Holds c.code := by
  cases c <;> decide

theorem Condition.mulCond_holds (c : Condition) : Layout.mulCond.Holds c.code := by
  cases c <;> decide

theorem BitField.holds_byte {f : BitField} {n : UInt8} (hfit : f.pos + f.width ≤ 32)
    (hn : n.toNat < f.span) : f.Holds n.toUInt32 := ⟨hfit, by rwa [UInt8.toNat_toUInt32]⟩

namespace Instruction

/-- What the fields of a high word say about an instruction that is no branch. -/
structure HighFields (i : Instruction) (c d : Condition) (hi : UInt32) : Prop where
  signal : Layout.signal.get hi = i.signal.code
  unpack : Layout.unpack.get hi = i.unpack.toUInt32
  pack : Layout.pack.get hi = i.pack.toUInt32
  addCond : Layout.addCond.get hi = c.code
  mulCond : Layout.mulCond.get hi = d.code
  addDst : Layout.addDst.get hi = i.add.dst.num.toUInt32
  mulDst : Layout.mulDst.get hi = i.mul.dst.num.toUInt32
  writeSwap : Layout.writeSwap.isSet hi = i.writeSwap
  setFlags : Layout.setFlags.isSet hi = i.setFlags
  packMode : Layout.packMode.isSet hi = i.packMode

def highParts (i : Instruction) (c d : Condition) : List (BitField × UInt32) :=
  [(Layout.signal, i.signal.code), (Layout.unpack, i.unpack.toUInt32),
    (Layout.pack, i.pack.toUInt32), (Layout.addCond, c.code), (Layout.mulCond, d.code),
    (Layout.addDst, i.add.dst.num.toUInt32), (Layout.mulDst, i.mul.dst.num.toUInt32),
    (Layout.writeSwap, if i.writeSwap then 1 else 0),
    (Layout.setFlags, if i.setFlags then 1 else 0), (Layout.packMode, if i.packMode then 1 else 0)]

theorem highParts_pairwise (i : Instruction) (c d : Condition) :
    ((i.highParts c d).map Prod.fst).Pairwise Apart := by
  change List.Pairwise Apart [Layout.signal, Layout.unpack, Layout.pack, Layout.addCond,
    Layout.mulCond, Layout.addDst, Layout.mulDst, Layout.writeSwap, Layout.setFlags,
    Layout.packMode]
  decide

theorem highWord_eq {i : Instruction} {c d : Condition} (hc : i.add.cond = some c)
    (hd : i.mul.cond = some d) : i.highWord = .ok (packed (i.highParts c d)) := by
  simp only [highWord, Slot.condCode, hc, hd]
  change Except.ok _ = Except.ok _
  simp only [ControlBits.bits, highParts, packed, flag, Bool.false_eq_true, if_false, set_zero,
    UInt32.or_zero, UInt32.or_assoc]

theorem highWord_fields {i : Instruction} {c d : Condition} (hc : i.add.cond = some c)
    (hd : i.mul.cond = some d) (hadd : i.add.dst.num.toNat < 64)
    (hmul : i.mul.dst.num.toNat < 64) (hunpack : i.unpack.toNat < 8) (hpack : i.pack.toNat < 16) :
    ∃ hi, i.highWord = .ok hi ∧ HighFields i c d hi := by
  refine ⟨_, highWord_eq hc hd, ?_⟩
  have hparts := i.highParts_pairwise c d
  constructor
  · exact get_packed hparts (by simp [highParts]) i.signal.code_holds
  · exact get_packed hparts (by simp [highParts]) (holds_byte (by decide) hunpack)
  · exact get_packed hparts (by simp [highParts]) (holds_byte (by decide) hpack)
  · exact get_packed hparts (by simp [highParts]) c.addCond_holds
  · exact get_packed hparts (by simp [highParts]) d.mulCond_holds
  · exact get_packed hparts (by simp [highParts]) (holds_byte (by decide) hadd)
  · exact get_packed hparts (by simp [highParts]) (holds_byte (by decide) hmul)
  · exact isSet_packed hparts (by simp [highParts]) (by decide) rfl
  · exact isSet_packed hparts (by simp [highParts]) (by decide) rfl
  · exact isSet_packed hparts (by simp [highParts]) (by decide) rfl

/-- What the fields of a high word say about a branch by way of the register `num`, if any. -/
structure BranchFields (i : Instruction) (num : Option UInt8) (hi : UInt32) : Prop where
  signal : Layout.signal.get hi = i.signal.code
  branchCond : Layout.branchCond.get hi = i.branchCond.toUInt32
  addDst : Layout.addDst.get hi = i.add.dst.num.toUInt32
  mulDst : Layout.mulDst.get hi = i.mul.dst.num.toUInt32
  writeSwap : Layout.writeSwap.isSet hi = i.writeSwap
  viaRegister : Layout.viaRegister.isSet hi = num.isSome
  viaOffset : Layout.viaOffset.isSet hi = num.isNone
  branchReg : Layout.branchReg.get hi = (num.getD 0).toUInt32

def branchParts (i : Instruction) (num : Option UInt8) : List (BitField × UInt32) :=
  [(Layout.signal, i.signal.code), (Layout.branchCond, i.branchCond.toUInt32),
    (Layout.addDst, i.add.dst.num.toUInt32), (Layout.mulDst, i.mul.dst.num.toUInt32),
    (Layout.writeSwap, if i.writeSwap then 1 else 0),
    (Layout.viaRegister, if num.isSome then 1 else 0),
    (Layout.viaOffset, if num.isNone then 1 else 0), (Layout.branchReg, (num.getD 0).toUInt32)]

theorem branchHighWord_relative (i : Instruction) :
    i.branchHighWord { viaOffset := true } = packed (i.branchParts none) := by
  have hzero : (0 : UInt8).toUInt32 = 0 := rfl
  simp only [branchHighWord, ControlBits.bits, branchParts, packed, flag, Option.isSome_none,
    Option.isNone_none, Option.getD_none, hzero, Bool.false_eq_true, if_false, if_true, set_zero,
    UInt32.zero_or, UInt32.or_zero, UInt32.or_assoc]

theorem branchHighWord_register (i : Instruction) (num : UInt8) :
    i.branchHighWord { viaRegister := true } ||| Layout.branchReg.set num.toUInt32 =
      packed (i.branchParts (some num)) := by
  simp only [branchHighWord, ControlBits.bits, branchParts, packed, flag, Option.isSome_some,
    Option.isNone_some, Option.getD_some, Bool.false_eq_true, if_false, if_true, set_zero,
    UInt32.zero_or, UInt32.or_zero, UInt32.or_assoc]

theorem branch_fields {i : Instruction} {num : Option UInt8} (hcond : i.branchCond.toNat < 16)
    (hadd : i.add.dst.num.toNat < 64) (hmul : i.mul.dst.num.toNat < 64)
    (hnum : (num.getD 0).toNat < 32) : BranchFields i num (packed (i.branchParts num)) := by
  have hparts : ((i.branchParts num).map Prod.fst).Pairwise Apart := by
    change List.Pairwise Apart [Layout.signal, Layout.branchCond, Layout.addDst, Layout.mulDst,
      Layout.writeSwap, Layout.viaRegister, Layout.viaOffset, Layout.branchReg]
    decide
  constructor
  · exact get_packed hparts (by simp [branchParts]) i.signal.code_holds
  · exact get_packed hparts (by simp [branchParts]) (holds_byte (by decide) hcond)
  · exact get_packed hparts (by simp [branchParts]) (holds_byte (by decide) hadd)
  · exact get_packed hparts (by simp [branchParts]) (holds_byte (by decide) hmul)
  · exact isSet_packed hparts (by simp [branchParts]) (by decide) rfl
  · exact isSet_packed hparts (by simp [branchParts]) (by decide) rfl
  · exact isSet_packed hparts (by simp [branchParts]) (by decide) rfl
  · exact get_packed hparts (by simp [branchParts]) (holds_byte (by decide) hnum)

end Instruction

def semaphoreWord (number : UInt32) (down : Bool) : UInt32 :=
  Layout.semaphoreNumber.set number ||| Layout.semaphoreDown.flag down

def semaphoreParts (number : UInt32) (down : Bool) : List (BitField × UInt32) :=
  [(Layout.semaphoreNumber, number), (Layout.semaphoreDown, if down then 1 else 0)]

theorem semaphoreWord_eq (number : UInt32) (down : Bool) :
    semaphoreWord number down = packed (semaphoreParts number down) := by
  simp only [semaphoreWord, semaphoreParts, packed, flag, UInt32.or_zero]

theorem semaphoreParts_pairwise (number : UInt32) (down : Bool) :
    ((semaphoreParts number down).map Prod.fst).Pairwise Apart := by
  change [Layout.semaphoreNumber, Layout.semaphoreDown].Pairwise Apart
  decide

theorem semaphoreParts_hold {number : UInt32} (hnumber : number < 16) (down : Bool) :
    ∀ part ∈ semaphoreParts number down, part.1.Holds part.2 := by
  have hfits : Layout.semaphoreNumber.Holds number :=
    ⟨by decide, UInt32.lt_iff_toNat_lt.mp hnumber⟩
  have hbit : Layout.semaphoreDown.Holds (if down then 1 else 0) :=
    Layout.semaphoreDown.holds_bit down (by decide) rfl
  simp [semaphoreParts, hfits, hbit]

theorem semaphoreWord_fields {number : UInt32} (hnumber : number < 16) (down : Bool) :
    Layout.semaphoreNumber.get (semaphoreWord number down) = number ∧
      Layout.semaphoreDown.isSet (semaphoreWord number down) = down := by
  have hparts := semaphoreParts_pairwise number down
  have hnum : (Layout.semaphoreNumber, number) ∈ semaphoreParts number down := by
    simp [semaphoreParts]
  rw [semaphoreWord_eq]
  exact ⟨get_packed hparts hnum (semaphoreParts_hold hnumber down _ hnum),
    isSet_packed hparts (by simp [semaphoreParts]) (by decide) rfl⟩

theorem toNat_semaphoreWord {number : UInt32} (hnumber : number < 16) (down : Bool) :
    (semaphoreWord number down).toNat = number.toNat + if down then 16 else 0 := by
  rw [semaphoreWord_eq, toNat_packed (semaphoreParts_pairwise number down)
    (semaphoreParts_hold hnumber down)]
  cases down <;> simp [semaphoreParts, Layout.semaphoreNumber, Layout.semaphoreDown]

namespace Register

/-- The selector with which a source that has its file is read. -/
def selector (r : Register) : UInt32 :=
  match r.file with
  | .a => Layout.selectA
  | .b | .smallImmediate => Layout.selectB
  | .accumulator | .shared => r.num.toUInt32

/-- The address field that a source needs, if any. -/
def port? (r : Register) : Option BitField :=
  match r.file with
  | .a => some Layout.readA
  | .b | .smallImmediate => some Layout.readB
  | .accumulator | .shared => none

/-- The bits that a source puts into the address fields. -/
def addressBits (r : Register) : UInt32 :=
  match r.port? with
  | some field => field.set r.num.toUInt32
  | none => 0

/-- The address fields that several sources fill together. -/
def addressWord (rs : List Register) : UInt32 :=
  rs.foldr (fun r word => r.addressBits ||| word) 0

variable {ports : ReadPorts} {r : Register} {f : BitField}

theorem Fetched.file_ne (h : r.Fetched ports) : r.file ≠ .shared := by
  intro hf
  have hthrough := h.through
  simp only [ReadThrough, hf] at hthrough

theorem Fetched.readBits (h : r.Fetched ports) (field : BitField) :
    (Operand.reg r).readBits field = .ok (field.set r.selector ||| r.addressBits) := by
  simp only [Operand.readBits, readSelect, selector, addressBits, port?]
  cases hf : r.file with
  | a => rfl
  | b => rfl
  | smallImmediate => rfl
  | accumulator => rfl
  | shared => exact absurd hf h.file_ne

theorem Fetched.selector_lt (h : r.Fetched ports) : r.selector.toNat < 8 := by
  simp only [selector]
  cases hf : r.file with
  | a => exact show Layout.selectA.toNat < 8 by decide
  | b => exact show Layout.selectB.toNat < 8 by decide
  | smallImmediate => exact show Layout.selectB.toNat < 8 by decide
  | accumulator =>
      have hlt := h.accumulator_lt hf
      rw [UInt8.toNat_toUInt32]
      omega
  | shared => exact absurd hf h.file_ne

theorem port?_cases (h : r.port? = some f) : f = Layout.readA ∨ f = Layout.readB := by
  unfold port? at h
  cases hf : r.file <;> simp only [hf, Option.some.injEq, reduceCtorEq] at h
  · exact .inl h.symm
  · exact .inr h.symm
  · exact .inr h.symm

theorem Fetched.num_eq (h : r.Fetched ports) (hp : r.port? = some f) :
    r.num = if f = Layout.readA then ports.a else ports.b := by
  have hthrough := h.through
  have hne : Layout.readB ≠ Layout.readA := by decide
  unfold ReadThrough at hthrough
  unfold port? at hp
  cases hf : r.file <;> simp only [hf, Option.some.injEq, reduceCtorEq] at hp hthrough
  · rw [← hp, if_pos rfl, hthrough]
  · rw [← hp, if_neg hne, hthrough.1]
  · rw [← hp, if_neg hne, hthrough.1]

theorem get_addressBits_of_apart (ha : f.Apart Layout.readA) (hb : f.Apart Layout.readB) :
    f.get r.addressBits = 0 := by
  unfold addressBits
  cases hp : r.port? with
  | none => exact f.get_zero
  | some g =>
      rcases port?_cases hp with rfl | rfl
      · exact get_set_of_apart ha _
      · exact get_set_of_apart hb _

theorem get_addressBits (hf : f = Layout.readA ∨ f = Layout.readB) (hr : r.num.toNat < 64) :
    f.get r.addressBits = if r.port? = some f then r.num.toUInt32 else 0 := by
  unfold addressBits
  cases hp : r.port? with
  | none => simp
  | some g =>
      by_cases hg : g = f
      · subst g
        rw [if_pos rfl]
        apply get_set_of_holds
        rcases hf with rfl | rfl
        · exact holds_byte (by decide) hr
        · exact holds_byte (by decide) hr
      · rw [if_neg (by simpa using hg)]
        apply get_set_of_apart
        rcases port?_cases hp with rfl | rfl <;> rcases hf with rfl | rfl
        · exact absurd rfl hg
        · decide
        · decide
        · exact absurd rfl hg

theorem get_addressWord_of_apart (ha : f.Apart Layout.readA) (hb : f.Apart Layout.readB)
    (rs : List Register) : f.get (addressWord rs) = 0 := by
  induction rs with
  | nil => exact f.get_zero
  | cons r rs ih =>
      change f.get (r.addressBits ||| addressWord rs) = 0
      rw [get_or, get_addressBits_of_apart ha hb, ih]
      rfl

/-- A field holds the one address that is asked of it, however many sources ask. -/
theorem get_addressWord {rs : List Register} {n : UInt8}
    (hf : f = Layout.readA ∨ f = Layout.readB) (hrs : ∀ r ∈ rs, r.num.toNat < 64)
    (hn : ∀ r ∈ rs, r.port? = some f → r.num = n) :
    f.get (addressWord rs) = if ∃ r ∈ rs, r.port? = some f then n.toUInt32 else 0 := by
  induction rs with
  | nil => simp [addressWord]
  | cons r rs ih =>
      have ih := ih (fun t ht => hrs t (.tail r ht)) (fun t ht => hn t (.tail r ht))
      change f.get (r.addressBits ||| addressWord rs) = _
      rw [get_or, get_addressBits hf (hrs r (.head rs)), ih]
      by_cases hp : r.port? = some f
      · have hr := hn r (.head rs) hp
        have hex : ∃ t ∈ r :: rs, t.port? = some f := ⟨r, .head rs, hp⟩
        rw [if_pos hp, if_pos hex, hr]
        split_ifs
        · exact UInt32.or_self
        · exact UInt32.or_zero
      · rw [if_neg hp, UInt32.zero_or]
        simp [hp]

/-- The low word says of the source, whose selector stands in `field`, which register it is. -/
structure ReadBack (field : BitField) (lo : UInt32) (r : Register) : Prop where
  selector : field.get lo = r.selector
  address : ∀ f, r.port? = some f → f.get lo = r.num.toUInt32

end Register

namespace Instruction

variable {ports : ReadPorts} {i : Instruction} {al ar ml mr : Register}

/-- What the fields of a low word say about an ALU instruction with these sources. -/
structure LowFields (i : Instruction) (al ar ml mr : Register) (lo : UInt32) : Prop where
  addOp : Layout.addOp.get lo = i.add.code.toUInt32
  mulOp : Layout.mulOp.get lo = i.mul.code.toUInt32
  addLhs : al.ReadBack Layout.addLhs lo
  addRhs : ar.ReadBack Layout.addRhs lo
  mulLhs : ml.ReadBack Layout.mulLhs lo
  mulRhs : mr.ReadBack Layout.mulRhs lo

/-- The parts of the low word that do not depend on what the ports carry. -/
def lowParts (i : Instruction) (al ar ml mr : Register) : List (BitField × UInt32) :=
  [(Layout.addOp, i.add.code.toUInt32), (Layout.mulOp, i.mul.code.toUInt32),
    (Layout.addLhs, al.selector), (Layout.addRhs, ar.selector), (Layout.mulLhs, ml.selector),
    (Layout.mulRhs, mr.selector)]

def lowWord (i : Instruction) (al ar ml mr : Register) : UInt32 :=
  packed (i.lowParts al ar ml mr) ||| Register.addressWord [al, ar, ml, mr]

/-- The address fields are filled by the sources alone. -/
theorem get_lowWord_address {f : BitField} (hf : f = Layout.readA ∨ f = Layout.readB) :
    f.get (i.lowWord al ar ml mr) = f.get (Register.addressWord [al, ar, ml, mr]) := by
  have hapart : ∀ g ∈ (i.lowParts al ar ml mr).map Prod.fst, f.Apart g := by
    change ∀ g ∈ [Layout.addOp, Layout.mulOp, Layout.addLhs, Layout.addRhs, Layout.mulLhs,
      Layout.mulRhs], f.Apart g
    rcases hf with rfl | rfl <;> decide
  rw [lowWord, get_or, f.get_packed_of_apart hapart, UInt32.zero_or]

theorem lowWord_fields (hadd : i.add.code.toNat < 32) (hmul : i.mul.code.toNat < 8)
    (hal : al.Fetched ports) (har : ar.Fetched ports) (hml : ml.Fetched ports)
    (hmr : mr.Fetched ports) : LowFields i al ar ml mr (i.lowWord al ar ml mr) := by
  have hfetched : ∀ r ∈ [al, ar, ml, mr], r.Fetched ports := by simp [hal, har, hml, hmr]
  have hparts : ((i.lowParts al ar ml mr).map Prod.fst).Pairwise Apart := by
    change List.Pairwise Apart [Layout.addOp, Layout.mulOp, Layout.addLhs, Layout.addRhs,
      Layout.mulLhs, Layout.mulRhs]
    decide
  have hpart : ∀ f v, (f, v) ∈ i.lowParts al ar ml mr → f.Holds v → f.Apart Layout.readA →
      f.Apart Layout.readB → f.get (i.lowWord al ar ml mr) = v := by
    intro f v hmem hv ha hb
    rw [lowWord, get_or, get_packed hparts hmem hv, Register.get_addressWord_of_apart ha hb,
      UInt32.or_zero]
  have haddress : ∀ r ∈ [al, ar, ml, mr], ∀ f, r.port? = some f →
      f.get (i.lowWord al ar ml mr) = r.num.toUInt32 := by
    intro r hr f hp
    have hf := Register.port?_cases hp
    have hword := Register.get_addressWord hf (fun t ht => (hfetched t ht).num_lt)
      (fun t ht htp => ((hfetched t ht).num_eq htp).trans ((hfetched r hr).num_eq hp).symm)
    rw [get_lowWord_address hf, hword, if_pos ⟨r, hr, hp⟩]
  constructor
  · exact hpart _ _ (by simp [lowParts]) (holds_byte (by decide) hadd) (by decide) (by decide)
  · exact hpart _ _ (by simp [lowParts]) (holds_byte (by decide) hmul) (by decide) (by decide)
  · exact ⟨hpart _ _ (by simp [lowParts]) ⟨by decide, hal.selector_lt⟩ (by decide) (by decide),
      haddress al (by simp)⟩
  · exact ⟨hpart _ _ (by simp [lowParts]) ⟨by decide, har.selector_lt⟩ (by decide) (by decide),
      haddress ar (by simp)⟩
  · exact ⟨hpart _ _ (by simp [lowParts]) ⟨by decide, hml.selector_lt⟩ (by decide) (by decide),
      haddress ml (by simp)⟩
  · exact ⟨hpart _ _ (by simp [lowParts]) ⟨by decide, hmr.selector_lt⟩ (by decide) (by decide),
      haddress mr (by simp)⟩

end Instruction

/-- The fields that belong to one slot of an ALU instruction. The operation code and the selectors
stand in the low word, condition and destination in the high word. -/
structure SlotLayout where
  op : BitField
  cond : BitField
  dst : BitField
  lhs : BitField
  rhs : BitField

namespace SlotLayout

def add : SlotLayout :=
  ⟨Layout.addOp, Layout.addCond, Layout.addDst, Layout.addLhs, Layout.addRhs⟩

def mul : SlotLayout :=
  ⟨Layout.mulOp, Layout.mulCond, Layout.mulDst, Layout.mulLhs, Layout.mulRhs⟩

end SlotLayout

/-- The words say all there is to say about the slot, apart from the file of its destination. -/
structure Slot.EncodedAt (layout : SlotLayout) (w : WordPair) (s : Slot) : Prop where
  code : layout.op.get w.lo = s.code.toUInt32
  cond : ∃ c, s.cond = some c ∧ layout.cond.get w.hi = c.code
  dst : layout.dst.get w.hi = s.dst.num.toUInt32
  lhs : ∃ r, s.lhs = .reg r ∧ r.ReadBack layout.lhs w.lo
  rhs : ∃ r, s.rhs = .reg r ∧ r.ReadBack layout.rhs w.lo

namespace Instruction

variable {ports : ReadPorts} {i : Instruction}

-- The values are variables here, as the tactic would else compare the fields with each other.
theorem or_gather (a b c d e f s t u v : UInt32) :
    a ||| (b ||| (c ||| (d ||| (e ||| f)))) ||| (s ||| (t ||| (u ||| v))) =
      a ||| b ||| (c ||| s) ||| (d ||| t) ||| (e ||| u) ||| (f ||| v) := by
  ac_rfl

theorem encodeAlu_eq {al ar ml mr : Register} {hi : UInt32} (hal : al.Fetched ports)
    (har : ar.Fetched ports) (hml : ml.Fetched ports) (hmr : mr.Fetched ports)
    (haddLhs : i.add.lhs = .reg al) (haddRhs : i.add.rhs = .reg ar) (hmulLhs : i.mul.lhs = .reg ml)
    (hmulRhs : i.mul.rhs = .reg mr) (hhigh : i.highWord = .ok hi) :
    i.encodeAlu = .ok ⟨i.lowWord al ar ml mr, hi⟩ := by
  have hword : i.lowWord al ar ml mr =
      Layout.addOp.set i.add.code.toUInt32 ||| Layout.mulOp.set i.mul.code.toUInt32 |||
        (Layout.addLhs.set al.selector ||| al.addressBits) |||
        (Layout.addRhs.set ar.selector ||| ar.addressBits) |||
        (Layout.mulLhs.set ml.selector ||| ml.addressBits) |||
        (Layout.mulRhs.set mr.selector ||| mr.addressBits) := by
    simp only [lowWord, lowParts, packed, Register.addressWord, List.foldr, UInt32.or_zero]
    exact or_gather ..
  rw [encodeAlu, haddLhs, haddRhs, hmulLhs, hmulRhs, hal.readBits, har.readBits, hml.readBits,
    hmr.readBits, hhigh, hword]
  rfl

theorem encodeLoad_eq {value hi : UInt32} (hlhs : i.add.lhs = .imm value)
    (hhigh : i.highWord = .ok hi) : i.encodeLoad = .ok ⟨value, hi⟩ := by
  rw [encodeLoad, hlhs, hhigh]
  rfl

theorem encodeSemaphore_eq {number hi : UInt32} (hlhs : i.add.lhs = .imm number)
    (hhigh : i.highWord = .ok hi) :
    i.encodeSemaphore = .ok ⟨semaphoreWord number (i.kind == .semaphore .down), hi⟩ := by
  rw [encodeSemaphore, hlhs, hhigh]
  rfl

theorem encodeBranch_relative {value : UInt32} (hmode : i.targetMode = some .relative)
    (hlhs : i.add.lhs = .imm value) :
    i.encodeBranch = .ok ⟨value, packed (i.branchParts none)⟩ := by
  rw [encodeBranch, hmode, hlhs, ← branchHighWord_relative]
  rfl

theorem encodeBranch_register {num : UInt8} {offset : UInt32}
    (hmode : i.targetMode = some .register) (hlhs : i.add.lhs = .reg ⟨.a, num⟩)
    (hrhs : i.add.rhs = .imm offset) :
    i.encodeBranch = .ok ⟨offset, packed (i.branchParts (some num))⟩ := by
  rw [encodeBranch, hmode, hlhs, hrhs, ← branchHighWord_register]
  rfl

/-- An address field that no source needs is empty. -/
theorem get_idle_address {addTo mulTo : RegisterFile} {f : BitField} {w : WordPair}
    (hadd : i.add.Settled 32 ports addTo) (hmul : i.mul.Settled 8 ports mulTo)
    (hw : i.encodeAlu = .ok w) (hf : f = Layout.readA ∨ f = Layout.readB)
    (hidle : ∀ r, .reg r ∈ i.sources → r.port? ≠ some f) : f.get w.lo = 0 := by
  obtain ⟨c, hc⟩ := hadd.cond
  obtain ⟨d, hd⟩ := hmul.cond
  obtain ⟨al, haddLhs, hal⟩ := hadd.lhs
  obtain ⟨ar, haddRhs, har⟩ := hadd.rhs
  obtain ⟨ml, hmulLhs, hml⟩ := hmul.lhs
  obtain ⟨mr, hmulRhs, hmr⟩ := hmul.rhs
  have hfetched : ∀ r ∈ [al, ar, ml, mr], r.Fetched ports := by simp [hal, har, hml, hmr]
  have hnone : ∀ r ∈ [al, ar, ml, mr], r.port? ≠ some f := by
    intro r hr
    apply hidle
    simpa [sources, haddLhs, haddRhs, hmulLhs, hmulRhs] using hr
  have heq := encodeAlu_eq hal har hml hmr haddLhs haddRhs hmulLhs hmulRhs (highWord_eq hc hd)
  obtain rfl := Except.ok.inj (hw.symm.trans heq)
  change f.get (i.lowWord al ar ml mr) = 0
  rw [get_lowWord_address hf, Register.get_addressWord (n := 0) hf
    (fun r hr => (hfetched r hr).num_lt) (fun r hr hp => absurd hp (hnone r hr)), if_neg]
  rintro ⟨r, hr, hp⟩
  exact hnone r hr hp

theorem encodeAlu_fields {addTo mulTo : RegisterFile} (hadd : i.add.Settled 32 ports addTo)
    (hmul : i.mul.Settled 8 ports mulTo) (hpack : i.pack.toNat < 16)
    (hunpack : i.unpack.toNat < 8) :
    ∃ w c d, i.encodeAlu = .ok w ∧ i.add.EncodedAt .add w ∧ i.mul.EncodedAt .mul w ∧
      HighFields i c d w.hi := by
  obtain ⟨c, hc⟩ := hadd.cond
  obtain ⟨d, hd⟩ := hmul.cond
  obtain ⟨al, haddLhs, hal⟩ := hadd.lhs
  obtain ⟨ar, haddRhs, har⟩ := hadd.rhs
  obtain ⟨ml, hmulLhs, hml⟩ := hmul.lhs
  obtain ⟨mr, hmulRhs, hmr⟩ := hmul.rhs
  obtain ⟨hi, hhigh, hf⟩ := highWord_fields hc hd hadd.dstNum hmul.dstNum hunpack hpack
  have lf := lowWord_fields hadd.code hmul.code hal har hml hmr
  refine ⟨⟨i.lowWord al ar ml mr, hi⟩, c, d, ?_, ?_, ?_, hf⟩
  · exact encodeAlu_eq hal har hml hmr haddLhs haddRhs hmulLhs hmulRhs hhigh
  · exact ⟨lf.addOp, ⟨c, hc, hf.addCond⟩, hf.addDst, ⟨al, haddLhs, lf.addLhs⟩,
      ⟨ar, haddRhs, lf.addRhs⟩⟩
  · exact ⟨lf.mulOp, ⟨d, hd, hf.mulCond⟩, hf.mulDst, ⟨ml, hmulLhs, lf.mulLhs⟩,
      ⟨mr, hmulRhs, lf.mulRhs⟩⟩

end Instruction

end QuadAsm
