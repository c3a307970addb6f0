import QuadAsm.Proofs.Concatenation

/-!
# Lines that say nothing

A line that is blank or a comment can be put in between any two lines of a text. The lines below it
get other numbers, in the program and in whatever the text is refused for, and that is all that
changes. Each stage is followed on two lists at once that differ in nothing but the numbers of the
lines.
-/

namespace QuadAsm

open Instruction

/-- The first character of the line that is not blank, if there is one, begins a comment. -/
def IsSilent (line : List Char) : Prop :=
  ∀ c, line.find? (!Text.isBlank ·) = some c → c = '#' ∨ c = ';'

/-- The number of a line when one more is put in below the first `above`. -/
def numberBelow (above line : ℕ) : ℕ :=
  if line ≤ above then line else line + 1

section Relined

variable (f : ℕ → ℕ)

def Diagnostic.relined (d : Diagnostic) : Diagnostic :=
  d.atLine (f d.line)

def Failure.relined : Failure → Failure
  | .diagnostic d => .diagnostic (d.relined f)
  | .defect d => .defect d

def Statement.relined (s : Statement) : Statement :=
  { s with line := f s.line }

def Instruction.relined (i : Instruction) : Instruction :=
  { i with line := f i.line }

def Program.relined (p : Program) : Program :=
  ⟨p.instrs.map (Instruction.relined f)⟩

theorem Program.words_relined (p : Program) : (p.relined f).words = p.words := by
  rw [words, words, relined, List.filterMap_map]
  rfl

namespace Instruction

variable {i : Instruction} {stage : Instruction → Except Failure Instruction}

theorem Placeless.relined (h : Placeless stage) (i : Instruction) :
    stage (i.relined f) = mapBoth (Failure.relined f) (Instruction.relined f) (stage i) := by
  change stage (i.placed i.pc (f i.line) i.labels) = _
  rw [h]
  cases hi : stage i with
  | ok j =>
      obtain ⟨hpc, hline, hlabels⟩ := h.place_eq hi
      change Except.ok (j.placed i.pc (f i.line) i.labels) = .ok (j.relined f)
      rw [← hpc, ← hline, ← hlabels]
      rfl
  | error e =>
      change Except.error (e.atLine (f i.line)) = .error (e.relined f)
      cases e with
      | defect d => rfl
      | diagnostic d =>
          rw [← h.line_of_error hi]
          rfl

theorem link_relined (table : LabelMap) (i : Instruction) :
    (i.relined f).link table =
      mapBoth (Diagnostic.relined f) (Instruction.relined f) (i.link table) := by
  have htarget : (i.relined f).labelTarget? = i.labelTarget? := rfl
  unfold link
  rw [htarget]
  cases i.labelTarget? with
  | none => rfl
  | some name =>
      dsimp only
      cases table.lookup name with
      | none => rfl
      | some target => rfl

theorem withEncoding_relined (i : Instruction) :
    (i.relined f).withEncoding = mapBoth id (Instruction.relined f) i.withEncoding := by
  have hencode : (i.relined f).encode = i.encode := encode_placed i.pc (f i.line) i.labels
  unfold withEncoding
  rw [hencode]
  cases i.encode with
  | error d => rfl
  | ok w => rfl

end Instruction

theorem Statement.instruction_relined (s : Statement) (k : ℕ) :
    (s.relined f).instruction k =
      mapBoth (Failure.relined f) (Instruction.relined f) (s.instruction k) := by
  unfold instruction
  cases statementAddress k with
  | error d => rfl
  | ok pc => exact (parse_placeless s.text).relined f (blank pc s.line s.labels)

theorem readStatements_relined (statements : List Statement) :
    readStatements (statements.map (Statement.relined f)) =
      mapBoth (Failure.relined f) (List.map (Instruction.relined f))
        (readStatements statements) := by
  unfold readStatements
  rw [List.zipIdx_map]
  apply mapM_mapBoth
  rintro ⟨s, k⟩
  exact s.instruction_relined f k

theorem linkAll_relined (instrs : List Instruction) :
    linkAll (instrs.map (Instruction.relined f)) =
      mapBoth (Diagnostic.relined f) (List.map (Instruction.relined f)) (linkAll instrs) := by
  have htable : LabelMap.ofProgram (instrs.map (Instruction.relined f)) = .ofProgram instrs := by
    rw [LabelMap.ofProgram, LabelMap.ofProgram, List.foldl_map]
    rfl
  unfold linkAll
  rw [htable]
  exact mapM_mapBoth (link_relined f _) instrs

theorem mapError_diagnostic_relined {α β : Type} (g : α → β) (x : Except Diagnostic α) :
    (mapBoth (Diagnostic.relined f) g x).mapError Failure.diagnostic =
      mapBoth (Failure.relined f) g (x.mapError .diagnostic) := by
  cases x with
  | ok a => rfl
  | error d => rfl

theorem mapError_defect_relined {α β : Type} (g : α → β) (x : Except Defect α) :
    (mapBoth id g x).mapError Failure.defect =
      mapBoth (Failure.relined f) g (x.mapError .defect) := by
  cases x with
  | ok a => rfl
  | error d => rfl

/-- Texts whose statements differ only in the numbers of their lines differ only in these. -/
theorem assemble_relined {source source' : String}
    (h : (Scan.ofSource source').statements =
      mapBoth (Diagnostic.relined f) (List.map (Statement.relined f))
        (Scan.ofSource source).statements) :
    assemble source' = mapBoth (Failure.relined f) (Program.relined f) (assemble source) := by
  unfold assemble
  rw [h, mapError_diagnostic_relined]
  apply mapBoth_bind
  intro statements
  rw [readStatements_relined]
  apply mapBoth_bind
  intro instrs
  rw [mapM_mapBoth (settle_placeless.relined f)]
  apply mapBoth_bind
  intro settled
  rw [linkAll_relined, mapError_diagnostic_relined]
  apply mapBoth_bind
  intro linked
  rw [mapM_mapBoth (withEncoding_relined f), mapError_defect_relined]
  apply mapBoth_bind
  intro final
  rfl

end Relined

namespace Scan

variable {f : ℕ → ℕ} {line line' : ℕ} {text : List Char} {texts texts' : List (List Char)}

/-- The line `text` with number `line` in one text and `line'` in the other. -/
theorem ofLines_cons_relined (hline : f line = line')
    (htexts : ∀ defined defined' pending,
      (ofLines defined' pending (line' + 1) texts').statements =
        mapBoth (Diagnostic.relined f) (List.map (Statement.relined f))
          (ofLines defined pending (line + 1) texts).statements)
    (defined defined' pending : List String) :
    (ofLines defined' pending line' (text :: texts')).statements =
      mapBoth (Diagnostic.relined f) (List.map (Statement.relined f))
        (ofLines defined pending line (text :: texts)).statements := by
  subst hline
  rw [ofLines, ofLines]
  cases (LineParts.ofLine text).rest with
  | none => rfl
  | some rest =>
      by_cases hv : isVacant rest
      · simp only [hv, if_true, addNotices]
        exact htexts _ _ _
      · simp only [hv, if_false, addNotices, consStatement, Bool.false_eq_true]
        rw [htexts ((LineParts.ofLine text).labels ++ defined)]
        cases (ofLines ((LineParts.ofLine text).labels ++ defined) [] (line + 1) texts).statements with
        | error d => rfl
        | ok below => rfl

theorem ofLines_succ (hbelow : ∀ n, line ≤ n → f n = n + 1)
    (defined defined' pending : List String) :
    (ofLines defined' pending (line + 1) texts).statements =
      mapBoth (Diagnostic.relined f) (List.map (Statement.relined f))
        (ofLines defined pending line texts).statements := by
  induction texts generalizing line defined defined' pending with
  | nil => rfl
  | cons text texts ih =>
      apply ofLines_cons_relined (hbelow line le_rfl)
      intro defined defined' pending
      exact ih (fun n hn => hbelow n (Nat.le_of_succ_le hn)) defined defined' pending

theorem ofLine_of_isSilent (h : IsSilent text) :
    ∃ rest, LineParts.ofLine text = ⟨[], some rest⟩ ∧ isVacant rest = true := by
  induction text with
  | nil => exact ⟨[], rfl, rfl⟩
  | cons c cs ih =>
      by_cases hb : Text.isBlank c = true
      · have hcolon : ¬ c = ':' := by
          rintro rfl
          exact absurd hb (by decide)
        have hcs : IsSilent cs := by
          intro d hd
          apply h d
          rw [List.find?_cons_of_neg (by simp [hb]), hd]
        obtain ⟨rest, hrest, hv⟩ := ih hcs
        refine ⟨rest, ?_, hv⟩
        rw [LineParts.ofLine, LineParts.readFrom, if_neg hcolon, if_pos (by simp [hb])]
        exact hrest
      · have hc : c = '#' ∨ c = ';' := h c (List.find?_cons_of_pos (by simp [hb]))
        refine ⟨c :: cs, ?_, ?_⟩
        · rcases hc with rfl | rfl
          · rfl
          · rfl
        · rcases hc with rfl | rfl
          · rfl
          · rfl

theorem ofLines_insert {above below : List (List Char)} (hsilent : IsSilent text)
    (habove : ∀ n, n < line + above.length → f n = n)
    (hbelow : ∀ n, line + above.length ≤ n → f n = n + 1)
    (defined defined' pending : List String) :
    (ofLines defined' pending line (above ++ text :: below)).statements =
      mapBoth (Diagnostic.relined f) (List.map (Statement.relined f))
        (ofLines defined pending line (above ++ below)).statements := by
  induction above generalizing line defined defined' pending with
  | nil =>
      obtain ⟨rest, hrest, hv⟩ := ofLine_of_isSilent hsilent
      rw [List.nil_append, List.nil_append, ofLines, hrest]
      simp only [hv, if_true, addNotices, List.append_nil, List.nil_append]
      exact ofLines_succ hbelow defined defined' pending
  | cons first above ih =>
      rw [List.cons_append, List.cons_append]
      rw [List.length_cons] at habove hbelow
      apply ofLines_cons_relined (habove line (by omega))
      intro defined defined' pending
      apply ih
      · intro n hn
        exact habove n (by omega)
      · intro n hn
        exact hbelow n (by omega)

end Scan

section Text

theorem exists_endedLine_append (line : List Char) :
    ∃ ending, line = Text.endedLine line.reverse ++ ending := by
  unfold Text.endedLine
  split
  · rename_i rest hrest
    have hline : line = rest.reverse ++ ['\r'] := by simpa using congrArg List.reverse hrest
    exact ⟨['\r'], hline⟩
  · exact ⟨[], by simp⟩

theorem IsSilent.endedLine {line : List Char} (h : IsSilent line) :
    IsSilent (Text.endedLine line.reverse) := by
  obtain ⟨ending, hline⟩ := exists_endedLine_append line
  intro c hc
  apply h c
  rw [hline, List.find?_append, hc]
  rfl

end Text

/-- The statements when a line that says nothing is put in. -/
theorem scan_insert {above : List String} {line : String} (below : String)
    (habove : ∀ text ∈ above, '\n' ∉ text.toList) (hline : '\n' ∉ line.toList)
    (hsilent : IsSilent line.toList) :
    (Scan.ofSource (joinLines (above ++ [line]) ++ below)).statements =
      mapBoth (Diagnostic.relined (numberBelow above.length))
        (List.map (Statement.relined (numberBelow above.length)))
        (Scan.ofSource (joinLines above ++ below)).statements := by
  have hall : ∀ text ∈ above ++ [line], '\n' ∉ text.toList := by
    intro text htext
    rcases List.mem_append.mp htext with htext | htext
    · exact habove text htext
    · rw [List.mem_singleton.mp htext]
      exact hline
  unfold Scan.ofSource
  rw [String.toList_append, String.toList_append, Text.splitLines_append (joinLines_ended _),
    Text.splitLines_append (joinLines_ended _), splitLines_joinLines hall,
    splitLines_joinLines habove, List.map_append, List.append_assoc]
  apply Scan.ofLines_insert hsilent.endedLine
  · intro n hn
    rw [List.length_map] at hn
    rw [numberBelow, if_pos (by omega)]
  · intro n hn
    rw [List.length_map] at hn
    rw [numberBelow, if_neg (by omega)]

/-- A blank line or a comment that is put in below the lines `above` changes the numbers of the lines
below it and nothing else, whether the text is assembled or refused. -/
theorem assemble_insert_silent (above : List String) (line below : String)
    (habove : ∀ text ∈ above, '\n' ∉ text.toList) (hline : '\n' ∉ line.toList)
    (hsilent : IsSilent line.toList) :
    (∀ p, assemble (joinLines above ++ below) = .ok p →
      ∃ q, assemble (joinLines (above ++ [line]) ++ below) = .ok q ∧ q.words = p.words ∧
        q.instrs = p.instrs.map fun i => { i with line := numberBelow above.length i.line }) ∧
      (∀ n reason, assemble (joinLines above ++ below) = .error (.diagnostic (.malformed n reason)) →
        assemble (joinLines (above ++ [line]) ++ below) =
          .error (.diagnostic (.malformed (numberBelow above.length n) reason))) ∧
      (∀ n name, assemble (joinLines above ++ below) =
          .error (.diagnostic (.undefinedLabel n name)) →
        assemble (joinLines (above ++ [line]) ++ below) =
          .error (.diagnostic (.undefinedLabel (numberBelow above.length n) name))) ∧
      ∀ d, assemble (joinLines above ++ below) = .error (.defect d) →
        assemble (joinLines (above ++ [line]) ++ below) = .error (.defect d) := by
  have hboth := assemble_relined (numberBelow above.length)
    (scan_insert below habove hline hsilent)
  refine ⟨?_, ?_, ?_, ?_⟩
  · intro p hp
    rw [hp] at hboth
    exact ⟨_, hboth, Program.words_relined _ p, rfl⟩
  · intro n reason he
    rw [he] at hboth
    exact hboth
  · intro n name he
    rw [he] at hboth
    exact hboth
  · intro d he
    rw [he] at hboth
    exact hboth

/-- A comment that looks like a label and stands between a label and its statement. -/
theorem assemble_insert_silent_before_target :
    ∃ p q, assemble (joinLines ["b, -, -, end;", "end:"] ++ "- - sf;\n") = .ok p ∧
      assemble (joinLines ["b, -, -, end;", "end:", " # no: end;"] ++ "- - sf;\n") = .ok q ∧
      q.words = p.words ∧ p.instrs.map (·.line) = [1, 3] ∧ q.instrs.map (·.line) = [1, 4] := by
  obtain ⟨p, hp, hlines⟩ := exists_ok_of_toOption (f := (·.instrs.map (·.line))) (b := [1, 3])
    (x := assemble (joinLines ["b, -, -, end;", "end:"] ++ "- - sf;\n")) (by decide +kernel)
  have hsilent : IsSilent " # no: end;".toList := by
    intro c hc
    have hfind : " # no: end;".toList.find? (!Text.isBlank ·) = some '#' := by decide +kernel
    exact .inl (Option.some.inj (hc.symm.trans hfind))
  obtain ⟨q, hq, hwords, hinstrs⟩ := (assemble_insert_silent ["b, -, -, end;", "end:"] " # no: end;"
    "- - sf;\n" (by decide +kernel) (by decide +kernel) hsilent).1 p hp
  refine ⟨p, q, hp, hq, hwords, hlines, ?_⟩
  have hnumbers : q.instrs.map (·.line) = (p.instrs.map (·.line)).map (numberBelow 2) := by
    rw [hinstrs, List.map_map, List.map_map]
    rfl
  rw [hnumbers, hlines]
  rfl

end QuadAsm
