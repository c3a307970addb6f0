import QuadAsm.Diagnostic
import QuadAsm.Instruction

/-!
# Labels

A label stands for the address of the instruction that it is attached to; of several definitions
the first counts. A relative branch holds the distance from the instruction four places after it,
where execution goes on past the delay slots.
-/

namespace QuadAsm

/-- Labels and their addresses. -/
structure LabelMap where
  bindings : List (String × UInt32) := []

namespace LabelMap

def lookup (table : LabelMap) (name : String) : Option UInt32 :=
  table.bindings.lookup name

/-- A label that is bound already keeps its address. -/
def insertIfAbsent (table : LabelMap) (name : String) (pc : UInt32) : LabelMap :=
  if (table.lookup name).isSome then table else ⟨(name, pc) :: table.bindings⟩

def insertLabels (table : LabelMap) (i : Instruction) : LabelMap :=
  i.labels.foldl (fun table name => table.insertIfAbsent name i.pc) table

def ofProgram (instrs : List Instruction) : LabelMap :=
  instrs.foldl insertLabels {}

theorem lookup_insertIfAbsent (table : LabelMap) (label name : String) (pc : UInt32) :
    (table.insertIfAbsent label pc).lookup name =
      (table.lookup name).or (if label = name then some pc else none) := by
  unfold insertIfAbsent
  by_cases hsome : (table.lookup label).isSome
  · rw [if_pos hsome]
    by_cases h : label = name
    · subst h
      rw [Option.or_of_isSome hsome]
    · rw [if_neg h, Option.or_none]
  · rw [if_neg hsome]
    by_cases h : label = name
    · subst h
      have hnone : table.lookup label = none := by simpa using hsome
      rw [hnone, if_pos rfl, Option.none_or]
      simp [lookup]
    · have hb : (name == label) = false := by simpa using Ne.symm h
      simp [h, lookup, List.lookup_cons, hb]

theorem lookup_insertLabels (table : LabelMap) (i : Instruction) (name : String) :
    (table.insertLabels i).lookup name =
      (table.lookup name).or (if i.definesLabel name then some i.pc else none) := by
  unfold insertLabels Instruction.definesLabel
  induction i.labels generalizing table with
  | nil => simp
  | cons label labels ih =>
      rw [List.foldl_cons, ih, lookup_insertIfAbsent, Option.or_assoc]
      by_cases h : label = name
      · simp [h]
      · simp [h, Ne.symm h]

theorem lookup_foldl_insertLabels (table : LabelMap) (instrs : List Instruction) (name : String) :
    (instrs.foldl insertLabels table).lookup name =
      (table.lookup name).or ((instrs.find? (·.definesLabel name)).map (·.pc)) := by
  induction instrs generalizing table with
  | nil => simp
  | cons i instrs ih =>
      rw [List.foldl_cons, ih, lookup_insertLabels, Option.or_assoc, List.find?_cons]
      cases i.definesLabel name with
      | true => rfl
      | false => rfl

/-- A label stands for the address of the first instruction that carries it. -/
theorem lookup_ofProgram (name : String) (instrs : List Instruction) :
    (ofProgram instrs).lookup name = (instrs.find? (·.definesLabel name)).map (·.pc) :=
  lookup_foldl_insertLabels {} instrs name

end LabelMap

/-- The distance in bytes from a branch to the place that its displacement is counted from. -/
def branchBias : UInt32 := 32

namespace Instruction

/-- The displacement is a two's complement word, so it is taken modulo 2 ^ 32. -/
def displacement (i : Instruction) (target : UInt32) : UInt32 :=
  target - (i.pc + branchBias)

/-- The instruction is a relative branch whose target is still the label `name`. -/
def BranchesTo (i : Instruction) (name : String) : Prop :=
  i.targetMode = some .relative ∧ i.add.lhs = .label name

def labelTarget? (i : Instruction) : Option String :=
  match i.isRelativeBranch, i.add.lhs with
  | true, .label name => some name
  | _, _ => none

def link (table : LabelMap) (i : Instruction) : Except Diagnostic Instruction :=
  match i.labelTarget? with
  | none => .ok i
  | some name =>
    match table.lookup name with
    | some target => .ok { i with add := { i.add with lhs := .imm (i.displacement target) } }
    | none => .error (.undefinedLabel i.line name)

variable {table : LabelMap} {i l : Instruction} {name : String} {d : Diagnostic}

theorem labelTarget?_eq_some : i.labelTarget? = some name ↔ i.BranchesTo name := by
  unfold labelTarget? isRelativeBranch BranchesTo
  by_cases hmode : i.targetMode = some .relative
  · cases i.add.lhs with
    | label target => simp [hmode]
    | reg r => simp
    | imm value => simp
  · have hb : (i.targetMode == some .relative) = false := by simpa using hmode
    simp [hb, hmode]

theorem link_of_not_branchesTo (h : ∀ name, ¬ i.BranchesTo name) : i.link table = .ok i := by
  have hnone : i.labelTarget? = none := by
    rw [Option.eq_none_iff_forall_ne_some]
    intro name hname
    exact h name (labelTarget?_eq_some.mp hname)
  rw [link, hnone]

theorem link_eq_ok (h : i.BranchesTo name) :
    i.link table = .ok l ↔
      ∃ target, table.lookup name = some target ∧
        l = { i with add := { i.add with lhs := .imm (i.displacement target) } } := by
  rw [link, labelTarget?_eq_some.mpr h]
  cases hlookup : table.lookup name with
  | none => simp [hlookup]
  | some target => simp [hlookup, eq_comm]

theorem link_eq_error (h : i.BranchesTo name) :
    i.link table = .error d ↔ table.lookup name = none ∧ d = .undefinedLabel i.line name := by
  rw [link, labelTarget?_eq_some.mpr h]
  cases hlookup : table.lookup name with
  | none => simp [hlookup, eq_comm]
  | some target => simp [hlookup]

end Instruction

/-- Puts displacements in place of the labels of all relative branches. -/
def linkAll (instrs : List Instruction) : Except Diagnostic (List Instruction) :=
  instrs.mapM (Instruction.link (.ofProgram instrs))

end QuadAsm
