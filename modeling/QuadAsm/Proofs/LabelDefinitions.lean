import Mathlib.Algebra.Order.Ring.Nat
import QuadAsm.Proofs.Outcomes
import QuadAsm.Statement

/-!
# Where labels are defined

The scan hands each label of a line to the statement of that line or, if there is none, to the next
statement. Here this is said without the scan: the first definition of a label is the first line
that has it among its labels, and its statement is the first one that does not stand above that
line. `findIdx?_carries` shows that the first statement that carries a label is this one.
-/

namespace QuadAsm

def Statement.carries (name : String) (s : Statement) : Bool := s.labels.contains name

def definesOn (name : String) (line : List Char) : Bool :=
  (LineParts.ofLine line).labels.contains name

/-- The first line, counted from 0, that has a definition of the label; a definition above the lines
that is `pending` counts as one on the first of them. -/
def definition? (name : String) (pending : List String) (lines : List (List Char)) : Option ℕ :=
  if name ∈ pending then some 0 else lines.findIdx? (definesOn name)

theorem definition?_cons (name : String) (pending : List String) (line : List Char)
    (lines : List (List Char)) :
    definition? name pending (line :: lines) =
      if name ∈ pending ++ (LineParts.ofLine line).labels then some 0
      else (definition? name [] lines).map (· + 1) := by
  by_cases hp : name ∈ pending
  · simp [definition?, hp]
  · by_cases hl : name ∈ (LineParts.ofLine line).labels
    · simp [definition?, definesOn, List.findIdx?_cons, hp, hl]
    · simp [definition?, definesOn, List.findIdx?_cons, hp, hl]

/-- The first statement that stands on the line with number `line` or below it. -/
def firstFrom (line : ℕ) (statements : List Statement) : Option ℕ :=
  statements.findIdx? (line ≤ ·.line)

namespace Scan

variable {defined pending : List String} {line : ℕ} {text : List Char} {texts : List (List Char)}
  {statements : List Statement}

theorem ofLines_cons_eq_ok :
    (ofLines defined pending line (text :: texts)).statements = .ok statements ↔
      ∃ rest, (LineParts.ofLine text).rest = some rest ∧
        if isVacant rest then
          (ofLines ((LineParts.ofLine text).labels ++ defined)
            (pending ++ (LineParts.ofLine text).labels) (line + 1) texts).statements =
              .ok statements
        else
          ∃ below, (ofLines ((LineParts.ofLine text).labels ++ defined) [] (line + 1)
              texts).statements = .ok below ∧
            statements = ⟨line, pending ++ (LineParts.ofLine text).labels, String.ofList rest⟩ ::
              below := by
  rw [ofLines]
  cases hrest : (LineParts.ofLine text).rest with
  | none => simp
  | some rest =>
      by_cases hv : isVacant rest
      · simp [hv, addNotices]
      · simp only [hv, addNotices, consStatement, except_map_eq_ok, Bool.false_eq_true, if_false,
          Option.some.injEq, exists_eq_left']
        exact exists_congr fun below => and_congr_right fun _ => eq_comm

theorem le_line_of_mem (h : (ofLines defined pending line texts).statements = .ok statements)
    {s : Statement} (hs : s ∈ statements) : line ≤ s.line := by
  induction texts generalizing defined pending line statements with
  | nil =>
      cases h
      cases hs
  | cons text texts ih =>
      obtain ⟨rest, _, h⟩ := ofLines_cons_eq_ok.mp h
      split_ifs at h
      · exact (Nat.le_succ line).trans (ih h hs)
      · obtain ⟨below, hbelow, rfl⟩ := h
        rcases List.mem_cons.mp hs with rfl | hs
        · exact le_rfl
        · exact (Nat.le_succ line).trans (ih hbelow hs)

theorem firstFrom_of_le (h : ∀ s ∈ statements, line ≤ s.line) :
    firstFrom line statements = statements.head?.map fun _ => 0 := by
  cases statements with
  | nil => rfl
  | cons s statements =>
      have hs := h s (.head _)
      simp [firstFrom, List.findIdx?_cons, hs]

theorem firstFrom_cons_of_lt {s : Statement} {n : ℕ} (h : s.line < n) :
    firstFrom n (s :: statements) = (firstFrom n statements).map (· + 1) := by
  have hs : ¬ n ≤ s.line := by omega
  simp [firstFrom, List.findIdx?_cons, hs]

/-- Labels that are pending go to the first statement, and all others to the first one that does
not stand above their definition. -/
theorem findIdx?_carries (name : String)
    (h : (ofLines defined pending line texts).statements = .ok statements) :
    statements.findIdx? (·.carries name) =
      (definition? name pending texts).bind fun d => firstFrom (line + d) statements := by
  induction texts generalizing defined pending line statements with
  | nil =>
      cases h
      cases definition? name pending [] <;> rfl
  | cons text texts ih =>
      obtain ⟨rest, _, h⟩ := ofLines_cons_eq_ok.mp h
      rw [definition?_cons]
      have hshift : ∀ d, line + 1 + d = line + (d + 1) := by
        intro d
        omega
      by_cases hv : isVacant rest
      · rw [if_pos hv] at h
        rw [ih h]
        by_cases hname : name ∈ pending ++ (LineParts.ofLine text).labels
        · have hlow : firstFrom line statements = firstFrom (line + 1) statements := by
            rw [firstFrom_of_le fun s hs => le_line_of_mem h hs, firstFrom_of_le]
            exact fun s hs => (Nat.le_succ line).trans (le_line_of_mem h hs)
          rw [definition?, if_pos hname, if_pos hname]
          exact hlow.symm
        · rw [definition?, if_neg hname, if_neg hname, Option.bind_map]
          congr 1
          funext d
          rw [Function.comp_apply, hshift]
      · rw [if_neg hv] at h
        obtain ⟨below, hbelow, rfl⟩ := h
        rw [List.findIdx?_cons]
        by_cases hname : name ∈ pending ++ (LineParts.ofLine text).labels
        · rw [if_pos hname, if_pos (by simpa [Statement.carries] using hname)]
          simp [firstFrom, List.findIdx?_cons]
        · rw [if_neg hname, if_neg (by simpa [Statement.carries] using hname), ih hbelow,
            Option.map_bind, Option.bind_map]
          congr 1
          funext d
          rw [Function.comp_apply, Function.comp_apply, hshift, firstFrom_cons_of_lt]
          change line < line + (d + 1)
          omega

end Scan

end QuadAsm
