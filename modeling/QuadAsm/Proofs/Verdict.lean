import QuadAsm.Proofs.NoDefects
import QuadAsm.Proofs.Places
import QuadAsm.Proofs.Landing

/-!
# What a text is refused for

The stages of assembly handle all statements one after the other, each on the results of the stage
before it. Still, what a text is refused for can be said without them: each statement is looked at
by itself, first for whether it can be read, then for whether it can be settled, and the only thing
that is asked of the other statements is which labels they carry. The first statement that fails the
first of these checks that any statement fails is the one that is reported, at its own line.
-/

namespace QuadAsm

open Instruction

namespace Statement

/-- The statement taken by itself: the first of a program, with no labels. -/
def alone (s : Statement) : Except Failure Instruction :=
  { s with labels := [] : Statement }.instruction 0

def settledAlone (s : Statement) : Except Failure Instruction :=
  s.alone >>= Instruction.settle

def target? (s : Statement) : Option String :=
  s.alone.toOption.bind Instruction.labelTarget?

/-- The report of a branch to a label that none of the statements carries. -/
def unbound? (statements : List Statement) (s : Statement) : Option Diagnostic :=
  s.target?.bind fun name =>
    if statements.any (·.carries name) then none else some (.undefinedLabel s.line name)

/-- The statement is what stands after the labels on the line with its number. -/
def StandsOn (lines : List (List Char)) (s : Statement) : Prop :=
  ∃ above text below, lines = above ++ text :: below ∧ s.line = above.length + 1 ∧
    (LineParts.ofLine text).rest = some s.text.toList

end Statement

/-- The first failure of the first check that any of the statements fails. -/
def firstFailure? (statements : List Statement) : Option Failure :=
  (statements.findSome? fun s => failure? s.alone).or
    ((statements.findSome? fun s => failure? s.settledAlone).or
      ((statements.findSome? (Statement.unbound? statements)).map .diagnostic))

def verdict? (source : String) : Option Failure :=
  match (Scan.ofSource source).statements with
  | .error d => some (.diagnostic d)
  | .ok statements => firstFailure? statements

/-- The first line on which a colon has no name before it has number `line`. -/
def FirstNameless (lines : List (List Char)) (line : ℕ) : Prop :=
  ∃ above text below, lines = above ++ text :: below ∧ line = above.length + 1 ∧
    (LineParts.ofLine text).rest = none ∧ ∀ t ∈ above, (LineParts.ofLine t).rest ≠ none

/-- The diagnostic names the line of what is at fault: a label, or a statement that fails one of the
checks with this very diagnostic. -/
inductive Blames (source : String) : Diagnostic → Prop
  | label {line : ℕ} (nameless : FirstNameless (Text.splitLines source.toList) line) :
      Blames source (.malformed line .emptyLabel)
  | statement {statements : List Statement} {s : Statement} {d : Diagnostic}
      (scan : (Scan.ofSource source).statements = .ok statements) (mem : s ∈ statements)
      (stands : s.StandsOn (Text.splitLines source.toList)) (line : d.line = s.line)
      (fault : failure? s.alone = some (.diagnostic d) ∨
        failure? s.settledAlone = some (.diagnostic d) ∨ s.unbound? statements = some d) :
      Blames source d

namespace Statement

variable {s : Statement} {statements : List Statement} {k : ℕ} {i j : Instruction}

theorem instruction_eq_parse (hk : k * 8 < UInt32.size) :
    s.instruction k =
      ((blank (UInt32.ofNat (k * 8)) s.line s.labels).parse s.text).mapError .diagnostic := by
  rw [instruction, statementAddress, if_pos hk]
  rfl

theorem alone_eq_parse :
    s.alone = ((blank 0 s.line []).parse s.text).mapError .diagnostic :=
  instruction_eq_parse (by decide)

/-- In a program a statement is read as it is by itself, and put in its place. -/
theorem instruction_eq_alone (hk : k * 8 < UInt32.size) :
    s.instruction k =
      mapBoth (Failure.atLine s.line) (placed (UInt32.ofNat (k * 8)) s.line s.labels) s.alone := by
  rw [instruction_eq_parse hk, alone_eq_parse]
  exact parse_placeless s.text (blank 0 s.line []) (UInt32.ofNat (k * 8)) s.line s.labels

theorem failure?_instruction (hk : k * 8 < UInt32.size) :
    failure? (s.instruction k) = failure? s.alone := by
  rw [instruction_eq_parse hk, alone_eq_parse]
  exact (parse_placeless s.text).failure?_placed (i := blank 0 s.line []) (UInt32.ofNat (k * 8))
    s.labels

theorem exists_alone_of_instruction (h : s.instruction k = .ok i) :
    ∃ i', s.alone = .ok i' ∧ i'.line = s.line ∧
      i = i'.placed (UInt32.ofNat (k * 8)) s.line s.labels := by
  obtain ⟨_, hpc, _⟩ := instruction_eq_ok.mp h
  obtain ⟨hk, _⟩ := statementAddress_eq_ok.mp hpc
  rw [instruction_eq_alone hk] at h
  cases halone : s.alone with
  | error e =>
      rw [halone] at h
      cases h
  | ok i' =>
      rw [halone] at h
      cases h
      rw [alone_eq_parse] at halone
      exact ⟨i', rfl, ((parse_placeless s.text).place_eq halone).2.1, rfl⟩

theorem alone_eq_error {e : Failure} (h : s.alone = .error e) :
    ∃ d, e = .diagnostic d ∧ d.line = s.line := by
  rw [alone_eq_parse] at h
  obtain ⟨d, _, rfl⟩ := mapError_eq_error.mp h
  exact ⟨d, rfl, (parse_placeless s.text).line_of_error h⟩

theorem settledAlone_eq_error {e : Failure} (h : s.settledAlone = .error e) :
    ∃ d, e = .diagnostic d ∧ d.line = s.line := by
  rcases except_bind_eq_error.mp h with h | ⟨i, hi, h⟩
  · exact alone_eq_error h
  · cases e with
    | defect d => exact absurd h (settle_ne_defect (parsed_of_instruction hi) d)
    | diagnostic d =>
        rw [alone_eq_parse] at hi
        obtain ⟨_, hline, _⟩ := (parse_placeless s.text).place_eq hi
        exact ⟨d, rfl, (settle_placeless.line_of_error h).trans hline⟩

theorem unbound?_eq_some {d : Diagnostic} :
    s.unbound? statements = some d ↔
      ∃ name, s.target? = some name ∧ (∀ t ∈ statements, name ∉ t.labels) ∧
        d = .undefinedLabel s.line name := by
  rw [unbound?, Option.bind_eq_some_iff]
  refine exists_congr fun name => and_congr_right fun _ => ?_
  by_cases hany : statements.any (·.carries name) = true
  · rw [if_pos hany]
    obtain ⟨t, ht, hname⟩ := List.any_eq_true.mp hany
    constructor
    · intro h
      cases h
    · intro h
      exact absurd (by simpa [carries] using hname) (h.1 t ht)
  · rw [if_neg hany]
    have hnone : ∀ t ∈ statements, name ∉ t.labels := by
      intro t ht hname
      exact hany (List.any_eq_true.mpr ⟨t, ht, by simpa [carries] using hname⟩)
    constructor
    · intro h
      exact ⟨hnone, (Option.some.inj h).symm⟩
    · intro h
      rw [h.2]

theorem failure?_settle (h : s.instruction k = .ok i) :
    failure? i.settle = failure? s.settledAlone := by
  obtain ⟨i', halone, hline, rfl⟩ := exists_alone_of_instruction h
  have hsettled : s.settledAlone = i'.settle := by
    rw [settledAlone, halone]
    rfl
  rw [hsettled, ← hline]
  exact settle_placeless.failure?_placed (UInt32.ofNat (k * 8)) s.labels

end Statement

namespace Instruction

variable {pc : UInt32} {line : ℕ} {labels : List String} {i j : Instruction}

theorem target_of_assignWrites (h : i.assignWrites = .ok j) :
    j.targetMode = i.targetMode ∧ j.add.lhs = i.add.lhs := by
  unfold assignWrites at h
  cases hc : i.writeConflict? with
  | some reason =>
      rw [hc] at h
      cases h
  | none =>
      rw [hc] at h
      cases h
      exact ⟨rfl, rfl⟩

theorem targetMode_normalizeLoad (h : i.targetMode = none) :
    i.normalizeLoad.targetMode = none := by
  unfold normalizeLoad
  dsimp only
  split_ifs
  · rfl
  · exact h

theorem labelTarget?_of_targetMode (h : i.targetMode = none) : i.labelTarget? = none := by
  simp [labelTarget?, isRelativeBranch, h]

/-- Settling does not touch the target of a branch, and makes no branch of anything else. -/
theorem labelTarget?_of_settle (hi : Parsed pc line labels i) (h : i.settle = .ok j) :
    j.labelTarget? = i.labelTarget? := by
  cases hi with
  | alu hadd hmul _ =>
      obtain ⟨bound, hreads, _, rfl⟩ := (settleAlu_eq_ok hadd hmul).mp h
      obtain ⟨ports, hbound⟩ := readsBound_of_assignReads hreads
      rw [labelTarget?_of_targetMode, labelTarget?_of_targetMode]
      · rfl
      · exact (congrArg Instruction.targetMode hbound.eq :)
  | load =>
      obtain ⟨k, hk, h⟩ := except_bind_eq_ok.mp h
      cases h
      have hmode := (target_of_assignWrites (mapError_eq_ok.mp hk)).1
      rw [labelTarget?_of_targetMode, labelTarget?_of_targetMode]
      · rfl
      · exact targetMode_normalizeLoad hmode
  | semaphore =>
      cases h
      rfl
  | @branch test any addDst mulDst target =>
      have hwrites : ((blank pc line labels).withBranch test any addDst mulDst target).settleBranch =
          .ok j := by
        cases target with
        | label name => exact h
        | register num offset => exact h
      obtain ⟨hmode, hlhs⟩ := target_of_assignWrites (mapError_eq_ok.mp hwrites)
      rw [labelTarget?, labelTarget?, isRelativeBranch, isRelativeBranch, hmode, hlhs]

theorem failure?_link (table : LabelMap) :
    failure? (i.link table) = i.labelTarget?.bind fun name =>
      if (table.lookup name).isSome then none else some (.undefinedLabel i.line name) := by
  unfold link
  cases i.labelTarget? with
  | none => rfl
  | some name =>
      cases hlookup : table.lookup name with
      | none => simp [failure?, hlookup]
      | some target => simp [failure?, hlookup]

end Instruction

section Stages

variable {statements : List Statement} {instrs settled linked : List Instruction}

theorem findSome?_zipIdx {α : Type} (f : Statement → Option α) :
    statements.findSome? f = statements.zipIdx.findSome? fun s => f s.1 := by
  conv_lhs => rw [← List.zipIdx_map_fst 0 statements, List.findSome?_map]
  rfl

theorem failure?_readStatements (hlen : statements.length < 2 ^ 29) :
    failure? (readStatements statements) = statements.findSome? fun s => failure? s.alone := by
  rw [readStatements, failure?_mapM, findSome?_zipIdx]
  apply findSome?_eq_of_forall₂ (R := fun x y => x = y ∧ x.2 < statements.length)
  · rintro ⟨s, k⟩ _ ⟨rfl, hk⟩
    apply Statement.failure?_instruction
    change k * 8 < 4294967296
    change k < statements.length at hk
    omega
  · apply List.forall₂_same.mpr
    rintro ⟨s, k⟩ hs
    have hk := List.mem_zipIdx hs
    exact ⟨rfl, by omega⟩

theorem failure?_settleAll (hread : readStatements statements = .ok instrs) :
    failure? (instrs.mapM settle) = statements.findSome? fun s => failure? s.settledAlone := by
  rw [failure?_mapM, findSome?_zipIdx]
  symm
  apply findSome?_eq_of_forall₂ _ (mapM_eq_ok.mp hread)
  intro s i hi
  exact (Statement.failure?_settle hi).symm

theorem place_of_settled {s : Statement} {k : ℕ} {j : Instruction}
    (h : (s.instruction k >>= settle) = .ok j) :
    j.line = s.line ∧ j.labels = s.labels ∧ j.labelTarget? = s.target? := by
  obtain ⟨i, hi, hj⟩ := except_bind_eq_ok.mp h
  obtain ⟨_, hline, hlabels⟩ := settle_placeless.place_eq hj
  have htarget := labelTarget?_of_settle (Statement.parsed_of_instruction hi) hj
  obtain ⟨i', halone, _, rfl⟩ := Statement.exists_alone_of_instruction hi
  refine ⟨hline, hlabels, htarget.trans ?_⟩
  rw [Statement.target?, halone]
  rfl

def SettledAs (statements : List Statement) (settled : List Instruction) : Prop :=
  List.Forall₂ (fun s j => (s.1.instruction s.2 >>= settle) = .ok j) statements.zipIdx settled

theorem SettledAs.isSome_lookup (h : SettledAs statements settled) (name : String) :
    ((LabelMap.ofProgram settled).lookup name).isSome = statements.any (·.carries name) := by
  have hlabels : statements.map (·.labels) = settled.map (·.labels) := by
    conv_lhs => rw [← List.zipIdx_map_fst 0 statements, List.map_map]
    apply map_eq_of_forall₂ _ h
    intro s j hj
    exact (place_of_settled hj).2.1.symm
  have hany := congrArg (List.any · (·.contains name)) hlabels
  simp only [List.any_map] at hany
  rw [LabelMap.lookup_ofProgram, Option.isSome_map, List.isSome_find?]
  exact hany.symm

theorem SettledAs.failure?_linkAll (h : SettledAs statements settled) :
    failure? (linkAll settled) = statements.findSome? (Statement.unbound? statements) := by
  rw [linkAll, failure?_mapM, findSome?_zipIdx]
  symm
  apply findSome?_eq_of_forall₂ _ h
  intro s j hj
  obtain ⟨hline, _, htarget⟩ := place_of_settled hj
  rw [failure?_link, htarget, hline, Statement.unbound?]
  simp only [h.isSome_lookup]

theorem SettledAs.exists_encoded (h : SettledAs statements settled)
    (hlink : linkAll settled = .ok linked) : ∃ final, linked.mapM withEncoding = .ok final := by
  rw [← failure?_eq_none, failure?_mapM, List.findSome?_eq_none_iff]
  intro l hl
  obtain ⟨j, hj, hlj⟩ := exists_mem_of_mapM_ok hlink hl
  obtain ⟨s, _, hs⟩ := exists_mem_of_mapM_ok (mapM_eq_ok.mpr h) hj
  obtain ⟨i, hi, hij⟩ := except_bind_eq_ok.mp hs
  have hshaped := shaped_of_settle (Statement.parsed_of_instruction hi) hij
  obtain ⟨w, hw, _⟩ := (shaped_of_link hshaped hlj).decodes
  rw [withEncoding, hw]
  rfl

theorem failure?_assemble {source : String}
    (hscan : (Scan.ofSource source).statements = .ok statements)
    (hlen : statements.length < 2 ^ 29) :
    failure? (assemble source) = firstFailure? statements := by
  have hread := failure?_readStatements hlen
  -- A stage that fails hides those after it. One that does not fail hands on what they need.
  unfold assemble firstFailure?
  rw [hscan, ← hread]
  change failure? (readStatements statements >>= _) = _
  cases hinstrs : readStatements statements with
  | error e => rfl
  | ok instrs =>
      have hsettle := failure?_settleAll hinstrs
      rw [← hsettle]
      change failure? (instrs.mapM settle >>= _) = Option.or _ _
      cases hsettled : instrs.mapM settle with
      | error e => rfl
      | ok settled =>
          have hall : SettledAs statements settled :=
            mapM_eq_ok.mp (mapM_bind_eq_ok hinstrs hsettled)
          rw [← hall.failure?_linkAll]
          change failure? ((linkAll settled).mapError Failure.diagnostic >>= _) = Option.map _ _
          cases hlinked : linkAll settled with
          | error d => rfl
          | ok linked =>
              obtain ⟨final, hfinal⟩ := hall.exists_encoded hlinked
              change failure? ((linked.mapM withEncoding).mapError Failure.defect >>= _) = none
              rw [hfinal]
              rfl

theorem firstFailure?_eq_none :
    firstFailure? statements = none ↔
      ∀ s ∈ statements, (∃ j, s.settledAlone = .ok j) ∧
        ∀ name, s.target? = some name → ∃ t ∈ statements, name ∈ t.labels := by
  have hread : ∀ s : Statement, (∃ j, s.settledAlone = .ok j) → failure? s.alone = none := by
    rintro s ⟨j, hj⟩
    obtain ⟨i, hi, _⟩ := except_bind_eq_ok.mp hj
    exact failure?_eq_none.mpr ⟨i, hi⟩
  have hbound : ∀ s : Statement, s.unbound? statements = none ↔
      ∀ name, s.target? = some name → ∃ t ∈ statements, name ∈ t.labels := by
    intro s
    rw [Option.eq_none_iff_forall_ne_some]
    simp only [ne_eq, Statement.unbound?_eq_some]
    constructor
    · intro h name hname
      by_contra hnone
      exact h _ ⟨name, hname, fun t ht hmem => hnone ⟨t, ht, hmem⟩, rfl⟩
    · rintro h _ ⟨name, hname, hnone, _⟩
      obtain ⟨t, ht, hmem⟩ := h name hname
      exact hnone t ht hmem
  simp only [firstFailure?, Option.or_eq_none_iff, Option.map_eq_none_iff,
    List.findSome?_eq_none_iff, hbound]
  constructor
  · rintro ⟨_, hsettle, hlink⟩ s hs
    exact ⟨failure?_eq_none.mp (hsettle s hs), hlink s hs⟩
  · intro h
    exact ⟨fun s hs => hread s (h s hs).1, fun s hs => failure?_eq_none.mpr (h s hs).1,
      fun s hs => (h s hs).2⟩

end Stages

namespace Scan

variable {defined pending : List String} {line : ℕ} {text : List Char} {texts : List (List Char)}
  {statements : List Statement} {d : Diagnostic}

theorem ofLines_cons_eq_error :
    (ofLines defined pending line (text :: texts)).statements = .error d ↔
      (LineParts.ofLine text).rest = none ∧ d = .malformed line .emptyLabel ∨
        ∃ rest, (LineParts.ofLine text).rest = some rest ∧
          (ofLines ((LineParts.ofLine text).labels ++ defined)
            (if isVacant rest then pending ++ (LineParts.ofLine text).labels else []) (line + 1)
            texts).statements = .error d := by
  rw [ofLines]
  cases hrest : (LineParts.ofLine text).rest with
  | none =>
      constructor
      · intro h
        cases h
        exact .inl ⟨rfl, rfl⟩
      · rintro (⟨_, rfl⟩ | ⟨_, h, _⟩)
        · rfl
        · cases h
  | some rest =>
      by_cases hv : isVacant rest
      · simp only [hv, addNotices, if_true, Option.some.injEq, exists_eq_left', reduceCtorEq,
          false_and, false_or]
      · simp only [hv, addNotices, consStatement, Bool.false_eq_true, if_false, Option.some.injEq,
          exists_eq_left', reduceCtorEq, false_and, false_or]
        cases (ofLines ((LineParts.ofLine text).labels ++ defined) [] (line + 1) texts).statements with
        | ok below => simp [Except.map]
        | error d' => simp [Except.map]

theorem ofLines_eq_error (h : (ofLines defined pending line texts).statements = .error d) :
    ∃ above text below, texts = above ++ text :: below ∧
      d = .malformed (line + above.length) .emptyLabel ∧ (LineParts.ofLine text).rest = none ∧
      ∀ t ∈ above, (LineParts.ofLine t).rest ≠ none := by
  induction texts generalizing defined pending line with
  | nil => cases h
  | cons text texts ih =>
      rcases ofLines_cons_eq_error.mp h with ⟨hrest, rfl⟩ | ⟨rest, hrest, h⟩
      · exact ⟨[], text, texts, rfl, rfl, hrest, by simp⟩
      · obtain ⟨above, text', below, rfl, rfl, hnone, habove⟩ := ih h
        refine ⟨text :: above, text', below, rfl, ?_, hnone, ?_⟩
        · rw [List.length_cons, Nat.add_assoc, Nat.add_comm 1]
        · intro t ht
          rcases List.mem_cons.mp ht with rfl | ht
          · simp [hrest]
          · exact habove t ht

theorem standsOn_of_mem (h : (ofLines defined pending line texts).statements = .ok statements)
    {s : Statement} (hs : s ∈ statements) :
    ∃ above text below, texts = above ++ text :: below ∧ s.line = line + above.length ∧
      (LineParts.ofLine text).rest = some s.text.toList := by
  induction texts generalizing defined pending line statements with
  | nil =>
      cases h
      cases hs
  | cons text texts ih =>
      obtain ⟨rest, hrest, h⟩ := ofLines_cons_eq_ok.mp h
      have hlater : (∃ above text' below, texts = above ++ text' :: below ∧
          s.line = line + 1 + above.length ∧
          (LineParts.ofLine text').rest = some s.text.toList) →
          ∃ above text' below, text :: texts = above ++ text' :: below ∧
            s.line = line + above.length ∧
            (LineParts.ofLine text').rest = some s.text.toList := by
        rintro ⟨above, text', below, rfl, hline, htext⟩
        refine ⟨text :: above, text', below, rfl, ?_, htext⟩
        rw [hline, List.length_cons]
        omega
      split_ifs at h
      · exact hlater (ih h hs)
      · obtain ⟨below, hbelow, rfl⟩ := h
        rcases List.mem_cons.mp hs with rfl | hs
        · exact ⟨[], text, texts, rfl, rfl, by rw [String.toList_ofList]; exact hrest⟩
        · exact hlater (ih hbelow hs)

end Scan

section Source

variable {source : String} {statements : List Statement}

theorem standsOn_of_scan (h : (Scan.ofSource source).statements = .ok statements) {s : Statement}
    (hs : s ∈ statements) : s.StandsOn (Text.splitLines source.toList) := by
  obtain ⟨above, text, below, hlines, hline, htext⟩ := Scan.standsOn_of_mem h hs
  exact ⟨above, text, below, hlines, by rw [hline, Nat.add_comm], htext⟩

theorem blames_of_firstFailure? (h : (Scan.ofSource source).statements = .ok statements)
    {e : Failure} (he : firstFailure? statements = some e) :
    ∃ d, e = .diagnostic d ∧ Blames source d := by
  rcases Option.or_eq_some_iff.mp he with hread | ⟨_, he⟩
  · obtain ⟨s, hs, hfail⟩ := List.exists_of_findSome?_eq_some hread
    obtain ⟨d, rfl, hline⟩ := Statement.alone_eq_error (failure?_eq_some.mp hfail)
    exact ⟨d, rfl, .statement h hs (standsOn_of_scan h hs) hline (.inl hfail)⟩
  rcases Option.or_eq_some_iff.mp he with hsettle | ⟨_, hlink⟩
  · obtain ⟨s, hs, hfail⟩ := List.exists_of_findSome?_eq_some hsettle
    obtain ⟨d, rfl, hline⟩ := Statement.settledAlone_eq_error (failure?_eq_some.mp hfail)
    exact ⟨d, rfl, .statement h hs (standsOn_of_scan h hs) hline (.inr (.inl hfail))⟩
  · obtain ⟨d, hd, rfl⟩ := Option.map_eq_some_iff.mp hlink
    obtain ⟨s, hs, hfail⟩ := List.exists_of_findSome?_eq_some hd
    obtain ⟨name, _, _, rfl⟩ := Statement.unbound?_eq_some.mp hfail
    exact ⟨_, rfl, .statement h hs (standsOn_of_scan h hs) rfl (.inr (.inr hfail))⟩

theorem blames_of_verdict? {e : Failure} (h : verdict? source = some e) :
    ∃ d, e = .diagnostic d ∧ Blames source d := by
  unfold verdict? at h
  cases hscan : (Scan.ofSource source).statements with
  | error d =>
      rw [hscan] at h
      cases h
      obtain ⟨above, text, below, hlines, rfl, hnone, habove⟩ := Scan.ofLines_eq_error hscan
      refine ⟨_, rfl, .label ⟨above, text, below, hlines, Nat.add_comm _ _, hnone, habove⟩⟩
  | ok statements =>
      rw [hscan] at h
      exact blames_of_firstFailure? hscan h

/-- The instructions of a program stand in the order of the statements, each at the place of its
own. -/
theorem places_of_assemble {p : Program} (hp : assemble source = .ok p)
    (hscan : (Scan.ofSource source).statements = .ok statements)
    (hlen : statements.length < 2 ^ 29) :
    p.instrs.length = statements.length ∧
      ∀ k s, statements[k]? = some s →
        ∃ f, p.instrs[k]? = some f ∧ f.pc.toNat = 8 * k ∧ f.line = s.line ∧
          f.labels = s.labels := by
  obtain ⟨_, settled, hscan', _, hlength, hpassage⟩ := passage_of_assemble hp
  cases hscan.symm.trans hscan'
  refine ⟨hlength, ?_⟩
  intro k s hs
  obtain ⟨i, j, l, w, hpass, hf⟩ := hpassage k s hs
  obtain ⟨hpc, hline, hlabels⟩ := hpass.shaped.place_eq
  have hk : k < statements.length := (List.getElem?_eq_some_iff.mp hs).1
  refine ⟨_, hf, ?_, hline, hlabels⟩
  change l.pc.toNat = 8 * k
  rw [hpc, UInt32.toNat_ofNat']
  omega

end Source

/-- A text is refused for what its scan or the first failing statement is refused for by itself, or
else for the first branch to a label that no statement carries, and at the line of that. All other
texts are assembled, each statement to one instruction at its place. -/
theorem assemble_follows_verdict {source : String}
    (hlen : ∀ statements, (Scan.ofSource source).statements = .ok statements →
      statements.length < 2 ^ 29) :
    failure? (assemble source) = verdict? source ∧
      (∀ e, verdict? source = some e → ∃ d, e = .diagnostic d ∧ Blames source d) ∧
      ((∃ p, assemble source = .ok p) ↔
        ∃ statements, (Scan.ofSource source).statements = .ok statements ∧
          ∀ s ∈ statements, (∃ j, s.settledAlone = .ok j) ∧
            ∀ name, s.target? = some name → ∃ t ∈ statements, name ∈ t.labels) ∧
      ∀ p, assemble source = .ok p →
        ∃ statements, (Scan.ofSource source).statements = .ok statements ∧
          p.instrs.length = statements.length ∧
          ∀ k s, statements[k]? = some s →
            ∃ f, p.instrs[k]? = some f ∧ f.pc.toNat = 8 * k ∧ f.line = s.line ∧
              f.labels = s.labels := by
  cases hscan : (Scan.ofSource source).statements with
  | error d =>
      have herror : assemble source = .error (.diagnostic d) := by
        rw [assemble, hscan]
        rfl
      have hverdict : verdict? source = some (.diagnostic d) := by
        rw [verdict?, hscan]
      refine ⟨by rw [herror, hverdict]; rfl, fun e => blames_of_verdict?, ?_, ?_⟩
      · simp [herror]
      · simp [herror]
  | ok statements =>
      have hfailure := failure?_assemble hscan (hlen statements hscan)
      have hverdict : verdict? source = firstFailure? statements := by
        rw [verdict?, hscan]
      refine ⟨hfailure.trans hverdict.symm, fun e => blames_of_verdict?, ?_, ?_⟩
      · rw [← failure?_eq_none, hfailure, firstFailure?_eq_none]
        simp
      · intro p hp
        exact ⟨statements, rfl, places_of_assemble hp hscan (hlen statements hscan)⟩

/-- The second statement cannot be read, so it is reported before the first one, which can be read
but not settled. -/
def refusedText : String :=
  "add, a1, r0, r1 fmul, a2, r0, r1;\nx: add, r0;\nb, -, -, y;\n"

theorem assemble_follows_verdict_in_order :
    ∃ d, assemble refusedText = .error (.diagnostic d) ∧ d.line = 2 ∧ Blames refusedText d := by
  obtain ⟨statements, hscan, hthree⟩ := exists_ok_of_toOption (f := List.length) (b := 3)
    (x := (Scan.ofSource refusedText).statements) (by decide +kernel)
  obtain ⟨hfailure, hblames, _⟩ := assemble_follows_verdict fun statements' h => by
    cases hscan.symm.trans h
    rw [hthree]
    decide
  have hverdict : verdict? refusedText =
      some (.diagnostic (.malformed 2 (.expected "," ";"))) := by decide +kernel
  obtain ⟨d, hd, hblame⟩ := hblames _ hverdict
  cases hd
  exact ⟨_, failure?_eq_some.mp (hfailure.trans hverdict), rfl, hblame⟩

end QuadAsm
