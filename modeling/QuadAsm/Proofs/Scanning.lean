import Mathlib.Data.List.Basic
import Mathlib.Data.List.TakeWhile
import Mathlib.Logic.ExistsUnique
import Mathlib.Tactic.SplitIfs
import QuadAsm.Statement

/-!
# How a text is scanned

A line is cut into an indent, labels and a rest in one way only, and reading it from the left finds
this cut. So the scan of a text can be told from the cuts of its lines: it fails on the first line
on which a colon has no name before it, and otherwise each rest that is neither empty nor a comment
is a statement and has the labels that stand between the statement before it and itself.
-/

namespace QuadAsm

def endsFirstWord (c : Char) : Bool :=
  Text.isBlank c || c = ';' || c = '#'

/-- A label of a line, with its colon and the blanks up to what comes next. -/
@[ext] structure LabelPrefix where
  name : String
  blanks : List Char
  name_ne : name ≠ ""
  name_free : ∀ c ∈ name.toList, c ≠ ':' ∧ endsFirstWord c = false
  blank : ∀ c ∈ blanks, Text.isBlank c = true

def LabelPrefix.chars (l : LabelPrefix) : List Char :=
  l.name.toList ++ ':' :: l.blanks

/-- The text begins with no blank, so the blanks before it are all that stand there, and with no
label: a colon stands in front of it or nowhere in its first word. -/
def Settled (rest : List Char) : Prop :=
  (∀ c ∈ rest.head?, Text.isBlank c = false) ∧
    (rest.head? = some ':' ∨ ':' ∉ rest.takeWhile fun c => !endsFirstWord c)

/-- A line cut into its indent, its labels and the rest. -/
@[ext] structure LineCut where
  indent : List Char
  labels : List LabelPrefix
  rest : List Char
  indent_blank : ∀ c ∈ indent, Text.isBlank c = true
  rest_settled : Settled rest

namespace LineCut

def chars (cut : LineCut) : List Char :=
  cut.indent ++ (cut.labels.flatMap LabelPrefix.chars ++ cut.rest)

def names (cut : LineCut) : List String :=
  cut.labels.map (·.name)

/-- After the labels stands a colon without a name. -/
def Nameless (cut : LineCut) : Prop :=
  cut.rest.head? = some ':'

def HasStatement (cut : LineCut) : Prop :=
  cut.rest ≠ [] ∧ cut.rest.head? ≠ some '#' ∧ cut.rest.head? ≠ some ';'

instance (cut : LineCut) : Decidable cut.Nameless :=
  inferInstanceAs (Decidable (_ = _))

instance (cut : LineCut) : Decidable cut.HasStatement :=
  inferInstanceAs (Decidable (_ ∧ _))

end LineCut

section Uniqueness

variable {a b x y rest : List Char}

theorem takeWhile_append_of_head {p : Char → Bool} (ha : ∀ c ∈ a, p c = true)
    (hx : ∀ c ∈ x.head?, p c = false) : (a ++ x).takeWhile p = a := by
  rw [List.takeWhile_append_of_pos ha]
  cases x with
  | nil => exact List.append_nil a
  | cons c x => rw [List.takeWhile_cons, hx c rfl, if_neg Bool.false_ne_true, List.append_nil]

theorem append_inj_of_head {p : Char → Bool} (ha : ∀ c ∈ a, p c = true) (hb : ∀ c ∈ b, p c = true)
    (hx : ∀ c ∈ x.head?, p c = false) (hy : ∀ c ∈ y.head?, p c = false) (h : a ++ x = b ++ y) :
    a = b ∧ x = y := by
  have hab : a = b := by
    rw [← takeWhile_append_of_head ha hx, h, takeWhile_append_of_head hb hy]
  subst hab
  exact ⟨rfl, List.append_cancel_left h⟩

theorem isBlank_of_endsFirstWord {c : Char} (h : endsFirstWord c = false) :
    Text.isBlank c = false := by
  rw [endsFirstWord, Bool.or_eq_false_iff, Bool.or_eq_false_iff] at h
  exact h.1.1

theorem LabelPrefix.exists_cons (l : LabelPrefix) :
    ∃ c after, l.chars = c :: after ∧ c ≠ ':' ∧ endsFirstWord c = false := by
  cases hname : l.name.toList with
  | nil => exact absurd (String.toList_eq_nil_iff.mp hname) l.name_ne
  | cons c name =>
      have hc := l.name_free c (by simp [hname])
      exact ⟨c, name ++ ':' :: l.blanks, by rw [chars, hname, List.cons_append], hc⟩

theorem LabelPrefix.not_settled (l : LabelPrefix) (after : List Char) :
    ¬ Settled (l.chars ++ after) := by
  rintro ⟨_, hcolon | hcolon⟩
  · obtain ⟨c, more, hchars, hc, _⟩ := l.exists_cons
    rw [hchars] at hcolon
    exact hc (Option.some.inj hcolon)
  · apply hcolon
    have hname : ∀ c ∈ l.name.toList, (!endsFirstWord c) = true := fun c hc => by
      rw [(l.name_free c hc).2, Bool.not_false]
    have hend : (!endsFirstWord ':') = true := by decide
    rw [chars, List.append_assoc, List.takeWhile_append_of_pos hname, List.cons_append,
      List.takeWhile_cons, if_pos hend]
    simp

theorem head?_labels (labels : List LabelPrefix) (h : Settled rest) :
    ∀ c ∈ (labels.flatMap LabelPrefix.chars ++ rest).head?, Text.isBlank c = false := by
  cases labels with
  | nil => exact h.1
  | cons l labels =>
      obtain ⟨c, after, hchars, _, hc⟩ := l.exists_cons
      intro d hd
      rw [List.flatMap_cons, hchars] at hd
      obtain rfl : c = d := Option.some.inj hd
      exact isBlank_of_endsFirstWord hc

theorem labels_inj {labels labels' : List LabelPrefix} {rest' : List Char} (hrest : Settled rest)
    (hrest' : Settled rest')
    (h : labels.flatMap LabelPrefix.chars ++ rest = labels'.flatMap LabelPrefix.chars ++ rest') :
    labels = labels' ∧ rest = rest' := by
  induction labels generalizing labels' with
  | nil =>
      cases labels' with
      | nil => exact ⟨rfl, h⟩
      | cons l labels' =>
          rw [List.flatMap_nil, List.nil_append, List.flatMap_cons, List.append_assoc] at h
          rw [h] at hrest
          exact absurd hrest (l.not_settled _)
  | cons l labels ih =>
      cases labels' with
      | nil =>
          rw [List.flatMap_nil, List.nil_append, List.flatMap_cons, List.append_assoc] at h
          rw [← h] at hrest'
          exact absurd hrest' (l.not_settled _)
      | cons l' labels' =>
          simp only [List.flatMap_cons, List.append_assoc, LabelPrefix.chars,
            List.cons_append] at h
          have hcolon : ∀ {l : LabelPrefix}, ∀ c ∈ l.name.toList, (c != ':') = true :=
            fun {l} c hc => bne_iff_ne.mpr (l.name_free c hc).1
          obtain ⟨hname, h⟩ := append_inj_of_head hcolon hcolon (by simp) (by simp) h
          obtain ⟨hblanks, h⟩ := append_inj_of_head l.blank l'.blank (head?_labels labels hrest)
            (head?_labels labels' hrest') (List.cons.inj h).2
          obtain ⟨rfl, rfl⟩ := ih h
          exact ⟨congrArg (· :: labels) (LabelPrefix.ext (String.toList_inj.mp hname) hblanks), rfl⟩

theorem LineCut.chars_injective : Function.Injective LineCut.chars := by
  intro cut cut' h
  obtain ⟨hindent, h⟩ := append_inj_of_head cut.indent_blank cut'.indent_blank
    (head?_labels cut.labels cut.rest_settled) (head?_labels cut'.labels cut'.rest_settled) h
  obtain ⟨hlabels, hrest⟩ := labels_inj cut.rest_settled cut'.rest_settled h
  exact LineCut.ext hindent hlabels hrest

end Uniqueness

section Reading

variable {word : List Char}

def LineCut.parts (cut : LineCut) : LineParts :=
  ⟨cut.names, if cut.Nameless then none else some cut.rest⟩

def LineCut.bare {rest : List Char} (h : Settled rest) : LineCut :=
  ⟨[], [], rest, List.forall_mem_nil _, h⟩

theorem LineCut.parts_bare {rest : List Char} (h : Settled rest) (hhead : rest.head? ≠ some ':') :
    (bare h).parts = ⟨[], some rest⟩ :=
  congrArg (LineParts.mk []) (if_neg hhead)

theorem settled_word (hword : ∀ c ∈ word, c ≠ ':' ∧ endsFirstWord c = false) (after : List Char)
    (hafter : ∀ c ∈ after.head?, endsFirstWord c = true)
    (hblank : word = [] → ∀ c ∈ after.head?, Text.isBlank c = false) :
    Settled (word.reverse ++ after) ∧ (word.reverse ++ after).head? ≠ some ':' := by
  have hfirst : (word.reverse ++ after).takeWhile (fun c => !endsFirstWord c) = word.reverse := by
    apply takeWhile_append_of_head
    · intro c hc
      rw [(hword c (List.mem_reverse.mp hc)).2, Bool.not_false]
    · intro c hc
      rw [hafter c hc, Bool.not_true]
  have hcolon : ':' ∉ word.reverse := fun h => (hword ':' (List.mem_reverse.mp h)).1 rfl
  rcases List.eq_nil_or_concat word with rfl | ⟨front, c, rfl⟩
  · refine ⟨⟨hblank rfl, .inr (by rwa [hfirst])⟩, ?_⟩
    intro h
    exact absurd (hafter ':' h) (by decide)
  · have hc := hword c (by simp)
    have hhead : ((front.concat c).reverse ++ after).head? = some c := by simp
    refine ⟨⟨?_, .inr (by rwa [hfirst])⟩, ?_⟩
    · intro d hd
      obtain rfl : c = d := Option.some.inj (hhead.symm.trans hd)
      exact isBlank_of_endsFirstWord hc.2
    · rw [hhead]
      exact fun h => hc.1 (Option.some.inj h)

/-- Reading on from the first characters of a word finds a cut of the line. -/
theorem exists_lineCut (hword : ∀ c ∈ word, c ≠ ':' ∧ endsFirstWord c = false) (cs : List Char) :
    ∃ cut : LineCut, cut.chars = word.reverse ++ cs ∧ LineParts.readFrom word cs = cut.parts := by
  induction cs generalizing word with
  | nil =>
      obtain ⟨hsettled, hhead⟩ := settled_word hword [] (by simp) (by simp)
      refine ⟨.bare hsettled, rfl, ?_⟩
      rw [LineCut.parts_bare hsettled hhead, List.append_nil]
      rfl
  | cons c cs ih =>
      rw [LineParts.readFrom]
      split_ifs with hcolon hempty hblank hends
      · subst hcolon
        obtain rfl := List.isEmpty_iff.mp hempty
        have hblank : Text.isBlank ':' = false := by decide
        exact ⟨.bare ⟨by simpa using hblank, .inl rfl⟩, rfl, rfl⟩
      · -- The word is a label, and the indent of what follows is the blanks after it.
        subst hcolon
        obtain ⟨cut, hchars, hread⟩ := @ih [] (by simp)
        refine ⟨⟨[], ⟨String.ofList word.reverse, cut.indent, ?_, ?_, cut.indent_blank⟩ ::
          cut.labels, cut.rest, by simp, cut.rest_settled⟩, ?_, ?_⟩
        · simpa using hempty
        · simpa using hword
        · rw [List.reverse_nil, List.nil_append] at hchars
          simp [LineCut.chars, LabelPrefix.chars, ← hchars]
        · rw [hread]
          rfl
      · obtain ⟨hc, hempty⟩ := Bool.and_eq_true_iff.mp hblank
        obtain rfl := List.isEmpty_iff.mp hempty
        obtain ⟨cut, hchars, hread⟩ := @ih [] (by simp)
        refine ⟨⟨c :: cut.indent, cut.labels, cut.rest, ?_, cut.rest_settled⟩, ?_, hread⟩
        · exact List.forall_mem_cons.mpr ⟨hc, cut.indent_blank⟩
        · exact congrArg (c :: ·) hchars
      · have hnext : ∀ d ∈ (c :: cs).head?, endsFirstWord d = true := by
          simpa [endsFirstWord] using hends
        have hstart : word = [] → ∀ d ∈ (c :: cs).head?, Text.isBlank d = false := by
          rintro rfl
          simpa using hblank
        obtain ⟨hsettled, hhead⟩ := settled_word hword (c :: cs) hnext hstart
        exact ⟨.bare hsettled, rfl, (LineCut.parts_bare hsettled hhead).symm⟩
      · have hnext : ∀ d ∈ c :: word, d ≠ ':' ∧ endsFirstWord d = false := by
          refine List.forall_mem_cons.mpr ⟨⟨hcolon, ?_⟩, hword⟩
          rw [endsFirstWord]
          exact eq_false_of_ne_true hends
        obtain ⟨cut, hchars, hread⟩ := ih hnext
        exact ⟨cut, by simpa using hchars, hread⟩

theorem existsUnique_lineCut (line : List Char) : ∃! cut : LineCut, cut.chars = line := by
  obtain ⟨cut, hchars, _⟩ := @exists_lineCut [] (by simp) line
  exact ⟨cut, hchars, fun cut' h => LineCut.chars_injective (h.trans hchars.symm)⟩

theorem LineCut.ofLine_chars (cut : LineCut) : LineParts.ofLine cut.chars = cut.parts := by
  obtain ⟨cut', hchars, hread⟩ := @exists_lineCut [] (by simp) cut.chars
  obtain rfl := chars_injective hchars
  exact hread

theorem LineCut.nameless_iff (cut : LineCut) :
    cut.Nameless ↔ (LineParts.ofLine cut.chars).rest = none := by
  rw [cut.ofLine_chars, parts]
  split_ifs with h <;> simp [h]

end Reading

section Notices

variable {earlier earlier' : List String} {occurrences later : List (ℕ × String)}

/-- The labels of the lines, each with the number of its line; the first one has number `line`. -/
def occurrencesFrom (line : ℕ) (cuts : List LineCut) : List (ℕ × String) :=
  (cuts.zipIdx line).flatMap fun (cut, n) => cut.names.map (n, ·)

/-- A notice for each occurrence of a label that has an earlier one. -/
def repeatsAfter (earlier : List String) (occurrences : List (ℕ × String)) : List Notice :=
  occurrences.zipIdx.filterMap fun ((line, name), k) =>
    if name ∈ earlier ++ (occurrences.take k).map Prod.snd then some (.repeatedLabel line name)
    else none

def unboundNotice (names : List String) : List Notice :=
  if names = [] then [] else [.unboundLabels names]

theorem repeatsAfter_congr (h : ∀ name, name ∈ earlier ↔ name ∈ earlier') :
    repeatsAfter earlier occurrences = repeatsAfter earlier' occurrences := by
  simp only [repeatsAfter, List.mem_append, h]

theorem repeatsAfter_cons (line : ℕ) (name : String) :
    repeatsAfter earlier ((line, name) :: occurrences) =
      (if name ∈ earlier then [.repeatedLabel line name] else []) ++
        repeatsAfter (name :: earlier) occurrences := by
  have hlater : (fun (o : (ℕ × String) × ℕ) =>
      if o.1.2 ∈ earlier ++ (((line, name) :: occurrences).take (o.2 + 1)).map Prod.snd then
        some (Notice.repeatedLabel o.1.1 o.1.2) else none) =
      fun o => if o.1.2 ∈ name :: earlier ++ (occurrences.take o.2).map Prod.snd then
        some (Notice.repeatedLabel o.1.1 o.1.2) else none := by
    funext o
    simp only [List.take_succ_cons, List.map_cons, List.mem_append, List.mem_cons, or_assoc,
      or_left_comm]
  rw [repeatsAfter, List.zipIdx_cons', List.filterMap_cons, List.filterMap_map]
  by_cases h : name ∈ earlier
  · simp only [List.take_zero, List.map_nil, List.append_nil, if_pos h]
    exact congrArg (_ :: List.filterMap · _) hlater
  · simp only [List.take_zero, List.map_nil, List.append_nil, if_neg h]
    exact congrArg (List.filterMap · _) hlater

theorem repeatsAfter_append :
    repeatsAfter earlier (occurrences ++ later) =
      repeatsAfter earlier occurrences ++
        repeatsAfter (occurrences.map Prod.snd ++ earlier) later := by
  induction occurrences generalizing earlier with
  | nil => rfl
  | cons o occurrences ih =>
      obtain ⟨line, name⟩ := o
      rw [List.cons_append, repeatsAfter_cons, repeatsAfter_cons, ih, List.append_assoc]
      congr 2
      apply repeatsAfter_congr
      intro other
      simp only [List.map_cons, List.mem_append, List.mem_cons, or_assoc, or_left_comm]

theorem repeatedLabels_eq (line : ℕ) (names : List String) :
    repeatedLabels line earlier names = repeatsAfter earlier (names.map (line, ·)) := by
  induction names generalizing earlier with
  | nil => rfl
  | cons name names ih =>
      rw [repeatedLabels, List.map_cons, repeatsAfter_cons, ih]
      simp only [List.contains_iff_mem]

end Notices

section Labels

variable {cuts : List LineCut} {k m n : ℕ}

/-- The labels of the lines after number `m`, up to number `n`. -/
def labelsBetween (cuts : List LineCut) (m n : ℕ) : List String :=
  ((cuts.take n).drop m).flatMap (·.names)

theorem labelsBetween_self (cuts : List LineCut) (n : ℕ) : labelsBetween cuts n n = [] := by
  simp [labelsBetween]

theorem labelsBetween_append (hm : m ≤ k) (hn : k ≤ n) :
    labelsBetween cuts m k ++ labelsBetween cuts k n = labelsBetween cuts m n := by
  have hlines : n - m = (k - m) + (n - k) := by omega
  have hdrop : m + (k - m) = k := by omega
  simp only [labelsBetween, List.drop_take]
  rw [hlines, List.take_add, List.drop_drop, hdrop, List.flatMap_append]

theorem labelsBetween_line (above : List LineCut) (cut : LineCut) (below : List LineCut) :
    labelsBetween (above ++ cut :: below) above.length (above.length + 1) = cut.names := by
  simp [labelsBetween, List.drop_take]

/-- The labels below the last of the statements, or below line `last` if there is none. -/
def leftoverLabels (cuts : List LineCut) (last : ℕ) (statements : List Statement) : List String :=
  labelsBetween cuts ((statements.map (·.line)).getLastD last) cuts.length

theorem leftoverLabels_cons (cuts : List LineCut) (last : ℕ) (s : Statement)
    (statements : List Statement) :
    leftoverLabels cuts last (s :: statements) = leftoverLabels cuts s.line statements := by
  rw [leftoverLabels, List.map_cons, List.getLastD_cons, leftoverLabels]

end Labels

/-- The statements are those of the cut lines, without the first `above` lines, and each has the
labels that stand between the one before it and itself. The one before them is on line `last`. -/
structure Scanned (cuts : List LineCut) (above last : ℕ) (statements : List Statement) : Prop where
  places : statements.map (fun s => (s.line, s.text.toList)) =
    ((cuts.drop above).zipIdx (above + 1)).filterMap fun (cut, line) =>
      if cut.HasStatement then some (line, cut.rest) else none
  labels : statements.map (·.labels) =
    List.zipWith (labelsBetween cuts) (last :: statements.map (·.line)) (statements.map (·.line))
  all_labels : statements.flatMap (·.labels) ++ leftoverLabels cuts last statements =
    labelsBetween cuts last cuts.length

namespace Scanned

variable {cuts : List LineCut} {cut : LineCut} {n last : ℕ} {statements : List Statement}

theorem nil (cuts : List LineCut) (last : ℕ) : Scanned cuts cuts.length last [] :=
  ⟨by simp, rfl, rfl⟩

theorem cons (h : Scanned cuts (n + 1) (n + 1) statements)
    (hline : cuts.drop n = cut :: cuts.drop (n + 1)) (hcut : cut.HasStatement) (hlast : last ≤ n) :
    Scanned cuts n last
      (⟨n + 1, labelsBetween cuts last (n + 1), String.ofList cut.rest⟩ :: statements) := by
  refine ⟨?_, ?_, ?_⟩
  · rw [hline, List.zipIdx_cons, List.filterMap_cons, List.map_cons, h.places]
    simp [hcut]
  · exact congrArg (_ :: ·) h.labels
  · have hend : n < cuts.length := by
      by_contra hge
      rw [List.drop_eq_nil_of_le (by omega)] at hline
      cases hline
    rw [List.flatMap_cons, leftoverLabels_cons, List.append_assoc, h.all_labels]
    exact labelsBetween_append (by omega) hend

theorem skip (h : Scanned cuts (n + 1) last statements)
    (hline : cuts.drop n = cut :: cuts.drop (n + 1)) (hcut : ¬ cut.HasStatement) :
    Scanned cuts n last statements := by
  refine ⟨?_, h.labels, h.all_labels⟩
  rw [hline, List.zipIdx_cons, List.filterMap_cons, h.places]
  simp [hcut]

end Scanned

namespace Scan

variable {defined pending : List String} {line : ℕ}

theorem ofLines_cut (cut : LineCut) (texts : List (List Char)) :
    ofLines defined pending line (cut.chars :: texts) =
      if cut.Nameless then
        ⟨.error (.malformed line .emptyLabel), repeatsAfter defined (cut.names.map (line, ·))⟩
      else if cut.HasStatement then
        ((ofLines (cut.names ++ defined) [] (line + 1) texts).consStatement
          ⟨line, pending ++ cut.names, String.ofList cut.rest⟩).addNotices
            (repeatsAfter defined (cut.names.map (line, ·)))
      else
        (ofLines (cut.names ++ defined) (pending ++ cut.names) (line + 1) texts).addNotices
          (repeatsAfter defined (cut.names.map (line, ·))) := by
  have hvacant : isVacant cut.rest = true ↔ ¬ cut.HasStatement := by
    cases hrest : cut.rest with
    | nil => simp [isVacant, LineCut.HasStatement, hrest]
    | cons c rest => simp [isVacant, LineCut.HasStatement, hrest, or_iff_not_imp_left]
  rw [ofLines, cut.ofLine_chars]
  simp only [LineCut.parts, repeatedLabels_eq]
  split_ifs with hnameless hstatement
  · rfl
  · simp [hvacant, hstatement]
  · simp [hvacant, hstatement]

theorem repeatsAfter_line (cut : LineCut) (below : List LineCut) :
    repeatsAfter defined (occurrencesFrom line (cut :: below)) =
      repeatsAfter defined (cut.names.map (line, ·)) ++
        repeatsAfter (cut.names ++ defined) (occurrencesFrom (line + 1) below) := by
  have hsplit : occurrencesFrom line (cut :: below) =
      cut.names.map (line, ·) ++ occurrencesFrom (line + 1) below := by
    rw [occurrencesFrom, List.zipIdx_cons, List.flatMap_cons]
    rfl
  have hnames : (cut.names.map (line, ·)).map Prod.snd = cut.names := by
    rw [List.map_map]
    exact List.map_id _
  rw [hsplit, repeatsAfter_append, hnames]

theorem ofLines_nameless {above : List LineCut} {cut : LineCut}
    (habove : ∀ c ∈ above, ¬ c.Nameless) (hcut : cut.Nameless) (below : List LineCut) :
    ofLines defined pending line ((above ++ cut :: below).map LineCut.chars) =
      ⟨.error (.malformed (line + above.length) .emptyLabel),
        repeatsAfter defined (occurrencesFrom line (above ++ [cut]))⟩ := by
  induction above generalizing defined pending line with
  | nil =>
      rw [List.nil_append, List.map_cons, ofLines_cut, if_pos hcut, List.nil_append,
        repeatsAfter_line]
      simp [occurrencesFrom, repeatsAfter]
  | cons c above ih =>
      obtain ⟨hc, habove⟩ := List.forall_mem_cons.mp habove
      have hline : line + 1 + above.length = line + (c :: above).length := by
        rw [List.length_cons]
        omega
      rw [List.cons_append, List.map_cons, ofLines_cut, if_neg hc, ih habove, ih habove, hline,
        List.cons_append, repeatsAfter_line]
      split_ifs <;> rfl

/-- The labels that wait at a line are always those since the last statement above it. -/
theorem ofLines_named {cuts above below : List LineCut} (hcuts : cuts = above ++ below)
    (hnamed : ∀ cut ∈ below, ¬ cut.Nameless) {last : ℕ} (hlast : last ≤ above.length) :
    ∃ statements, Scanned cuts above.length last statements ∧
      ofLines defined (labelsBetween cuts last above.length) (above.length + 1)
          (below.map LineCut.chars) =
        ⟨.ok statements, repeatsAfter defined (occurrencesFrom (above.length + 1) below) ++
          unboundNotice (leftoverLabels cuts last statements)⟩ := by
  induction below generalizing above defined last with
  | nil =>
      obtain rfl : cuts = above := hcuts.trans (List.append_nil above)
      refine ⟨[], .nil cuts last, ?_⟩
      simp [ofLines, occurrencesFrom, repeatsAfter, unboundNotice, leftoverLabels]
  | cons cut below ih =>
      obtain ⟨hcut, hnamed⟩ := List.forall_mem_cons.mp hnamed
      have hbelow : cuts = (above ++ [cut]) ++ below := by rw [hcuts, List.append_cons]
      have hlength : (above ++ [cut]).length = above.length + 1 := by simp
      have hline : cuts.drop above.length = cut :: cuts.drop (above.length + 1) := by
        rw [← hlength, hbelow, List.drop_left, List.append_assoc, List.drop_left]
        rfl
      have hpending : labelsBetween cuts last above.length ++ cut.names =
          labelsBetween cuts last (above.length + 1) := by
        rw [← labelsBetween_append hlast (Nat.le_succ _), hcuts, labelsBetween_line]
      rw [List.map_cons, ofLines_cut, if_neg hcut, repeatsAfter_line, hpending]
      by_cases hstatement : cut.HasStatement
      · obtain ⟨statements, hscanned, hrun⟩ := ih hbelow hnamed hlength.ge
        rw [hlength, labelsBetween_self] at hrun
        rw [hlength] at hscanned
        refine ⟨_, hscanned.cons hline hstatement hlast, ?_⟩
        rw [if_pos hstatement, hrun, List.append_assoc, leftoverLabels_cons]
        rfl
      · obtain ⟨statements, hscanned, hrun⟩ := ih hbelow hnamed (by omega : last ≤ _)
        rw [hlength] at hscanned hrun
        refine ⟨statements, hscanned.skip hline hstatement, ?_⟩
        rw [if_neg hstatement, hrun, List.append_assoc]
        rfl

end Scan

/-- Every line is cut in one way. A text fails to scan if and only if some line has a colon without
a name after its labels, and then it is the first such line that is named. Otherwise the scan gives
the statements that `Scanned` describes. It notes the labels that have been defined before, and
those for which there is no statement any more. -/
theorem scan_exact (source : String) :
    (∀ line : List Char, ∃! cut : LineCut, cut.chars = line) ∧
    ∀ cuts : List LineCut, cuts.map LineCut.chars = Text.splitLines source.toList →
      (∀ above cut below, cuts = above ++ cut :: below → (∀ c ∈ above, ¬ c.Nameless) →
        cut.Nameless →
        Scan.ofSource source =
          ⟨.error (.malformed (above.length + 1) .emptyLabel),
            repeatsAfter [] (occurrencesFrom 1 (above ++ [cut]))⟩) ∧
      ((∀ cut ∈ cuts, ¬ cut.Nameless) →
        ∃ statements, Scanned cuts 0 0 statements ∧
          Scan.ofSource source =
            ⟨.ok statements, repeatsAfter [] (occurrencesFrom 1 cuts) ++
              unboundNotice (leftoverLabels cuts 0 statements)⟩) := by
  refine ⟨existsUnique_lineCut, ?_⟩
  intro cuts hcuts
  refine ⟨?_, ?_⟩
  · rintro above cut below rfl habove hcut
    rw [Scan.ofSource, ← hcuts, Scan.ofLines_nameless habove hcut, Nat.add_comm]
  · intro hnamed
    obtain ⟨statements, hscanned, hrun⟩ :=
      Scan.ofLines_named (List.nil_append cuts).symm hnamed (Nat.zero_le _)
    rw [Scan.ofSource, ← hcuts]
    exact ⟨statements, hscanned, hrun⟩

/-- Labels wait below a comment for their statement, and a colon in a comment makes no label. -/
def waitingText : String := "a:b: #c:\n\ta: x; :\nb:"

theorem scan_exact_waiting :
    (∃ cuts : List LineCut,
      cuts.map LineCut.chars = Text.splitLines waitingText.toList ∧
      (∀ cut ∈ cuts, ¬ cut.Nameless) ∧
      ∃ statements, Scanned cuts 0 0 statements ∧
        Scan.ofSource waitingText =
          ⟨.ok statements, [.repeatedLabel 2 "a", .repeatedLabel 3 "b", .unboundLabels ["b"]]⟩) ∧
    ∃ cut : LineCut, [cut].map LineCut.chars = Text.splitLines "a: :b".toList ∧ cut.Nameless ∧
      Scan.ofSource "a: :b" = ⟨.error (.malformed 1 .emptyLabel), []⟩ := by
  have hcut := (scan_exact "").1
  have hsurj : Function.Surjective LineCut.chars := fun line => (hcut line).exists
  have hnames : ∀ line ∈ Text.splitLines waitingText.toList,
      (LineParts.ofLine line).rest ≠ none := by decide
  have hnotices : (Scan.ofSource waitingText).notices =
      [.repeatedLabel 2 "a", .repeatedLabel 3 "b", .unboundLabels ["b"]] := by decide
  refine ⟨?_, ?_⟩
  · obtain ⟨cuts, hlines⟩ := List.map_surjective_iff.mpr hsurj
      (Text.splitLines waitingText.toList)
    have hnamed : ∀ cut ∈ cuts, ¬ cut.Nameless := by
      intro cut hmem
      rw [cut.nameless_iff]
      apply hnames
      rw [← hlines]
      exact List.mem_map_of_mem hmem
    obtain ⟨statements, hscanned, hrun⟩ := ((scan_exact _).2 cuts hlines).2 hnamed
    rw [hrun] at hnotices
    exact ⟨cuts, hlines, hnamed, statements, hscanned,
      hrun.trans (congrArg (Scan.mk (.ok statements)) hnotices)⟩
  · obtain ⟨cut, hchars⟩ := hsurj "a: :b".toList
    have hline : [cut].map LineCut.chars = Text.splitLines "a: :b".toList := by
      rw [List.map_singleton, hchars]
      decide
    have hnameless : cut.Nameless := by
      rw [cut.nameless_iff, hchars]
      decide
    have hrun := ((scan_exact _).2 [cut] hline).1 [] cut [] rfl (by simp) hnameless
    have hnotices : (Scan.ofSource "a: :b").notices = [] := by decide
    rw [hrun] at hnotices
    exact ⟨cut, hline, hnameless, hrun.trans (congrArg (Scan.mk _) hnotices)⟩

end QuadAsm
