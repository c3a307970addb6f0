import Mathlib.Data.List.Basic
import Mathlib.Tactic.SplitIfs
import QuadAsm.Statement

/-!
# Lines put together and taken apart

A text that ends with a line can be split into lines apart from what follows it. Lines that are put
together with a line feed after each are the lines that come back, but for a carriage return at their
ends.
-/

namespace QuadAsm

namespace Text

theorem splitLinesFrom_append (line front below : List Char) :
    splitLinesFrom line (front ++ '\n' :: below) =
      splitLinesFrom line (front ++ ['\n']) ++ splitLines below := by
  induction front generalizing line with
  | nil => rfl
  | cons c front ih =>
      simp only [List.cons_append, splitLinesFrom]
      split_ifs
      · rw [ih]
        rfl
      · exact ih (c :: line)

theorem splitLines_append {above : List Char} (h : above = [] ∨ ∃ front, above = front ++ ['\n'])
    (below : List Char) :
    splitLines (above ++ below) = splitLines above ++ splitLines below := by
  rcases h with rfl | ⟨front, rfl⟩
  · rfl
  · rw [List.append_assoc]
    exact splitLinesFrom_append [] front below

/-- What no line feed follows is a line as it is. -/
theorem splitLinesFrom_unended {line cs : List Char} (h : '\n' ∉ cs)
    (hne : line.reverse ++ cs ≠ []) :
    splitLinesFrom line cs = [line.reverse ++ cs] := by
  induction cs generalizing line with
  | nil =>
      rw [List.append_nil] at hne ⊢
      rw [splitLinesFrom, if_neg (by simpa using hne)]
  | cons c cs ih =>
      obtain ⟨hc, hcs⟩ := not_or.mp (List.mem_cons.not.mp h)
      rw [splitLinesFrom, if_neg (Ne.symm hc), ih hcs (by simp)]
      simp

end Text

/-- Lines, each with its end. -/
def joinLines (lines : List String) : String :=
  String.ofList (lines.flatMap fun line => line.toList ++ ['\n'])

theorem toList_joinLines_append (above below : List String) :
    (joinLines (above ++ below)).toList = (joinLines above).toList ++ (joinLines below).toList := by
  simp [joinLines]

theorem joinLines_ended (lines : List String) :
    (joinLines lines).toList = [] ∨ ∃ front, (joinLines lines).toList = front ++ ['\n'] := by
  rcases List.eq_nil_or_concat lines with rfl | ⟨above, line, rfl⟩
  · exact .inl rfl
  · refine .inr ⟨(joinLines above).toList ++ line.toList, ?_⟩
    simp [joinLines]

theorem splitLinesFrom_line {line : List Char} (h : '\n' ∉ line) (word : List Char) :
    Text.splitLinesFrom word (line ++ ['\n']) = [Text.endedLine (line.reverse ++ word)] := by
  induction line generalizing word with
  | nil => rfl
  | cons c cs ih =>
      have hc : ¬ c = '\n' := by
        rintro rfl
        exact h (.head _)
      have hcs : '\n' ∉ cs := fun hmem => h (.tail _ hmem)
      rw [List.cons_append, Text.splitLinesFrom, if_neg hc, ih hcs]
      simp

theorem splitLines_joinLines {lines : List String} (h : ∀ line ∈ lines, '\n' ∉ line.toList) :
    Text.splitLines (joinLines lines).toList =
      lines.map fun line => Text.endedLine line.toList.reverse := by
  induction lines with
  | nil => rfl
  | cons line lines ih =>
      have hfirst : Text.splitLines (joinLines [line]).toList =
          [Text.endedLine line.toList.reverse] := by
        have hline := splitLinesFrom_line (h line (.head _)) []
        simpa [joinLines, Text.splitLines] using hline
      have hrest := ih fun l hl => h l (.tail _ hl)
      rw [List.map_cons, ← hrest, ← List.singleton_append (x := line), toList_joinLines_append,
        Text.splitLines_append (joinLines_ended [line]), hfirst]
      rfl

end QuadAsm
