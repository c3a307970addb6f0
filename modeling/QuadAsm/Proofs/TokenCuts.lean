import Mathlib.Data.List.Chain
import Mathlib.Tactic.SplitIfs
import QuadAsm.Grammar.Reader

/-!
# How a text is cut into tokens

A text up to its terminator is cut into pieces, each a token with the blanks before it. Words that
stand next to each other need blanks between them, and marks need none. Every text with a terminator
can be cut in this way, and the tokenizer finds the tokens of whatever cut there is, so there is one
choice of tokens only. Nothing here follows the tokenizer in how it reads a text.
-/

namespace QuadAsm

/-- A token that is one punctuation character. -/
def IsMark (token : String) : Prop :=
  token = "." ∨ token = "," ∨ token = ";"

/-- A token with neither blanks nor punctuation characters in it. -/
def IsWord (token : String) : Prop :=
  token ≠ "" ∧ ∀ c ∈ token.toList, Text.isBlank c = false ∧ c ≠ '.' ∧ c ≠ ',' ∧ c ≠ ';'

/-- A token and the blanks before it. -/
structure Piece where
  blanks : List Char
  token : String
  blank : ∀ c ∈ blanks, Text.isBlank c = true
  proper : IsMark token ∨ IsWord token

namespace Piece

def chars (p : Piece) : List Char := p.blanks ++ p.token.toList

/-- Two pieces that can stand next to each other: words do not run together. -/
def Apart (p q : Piece) : Prop := IsWord p.token → IsWord q.token → q.blanks ≠ []

end Piece

/-- Pieces of a statement, of which the terminator is the last and no other. -/
structure IsCut (pieces : List Piece) : Prop where
  apart : pieces.IsChain Piece.Apart
  ended : pieces.getLast?.map Piece.token = some ";"
  once : ∀ p ∈ pieces.dropLast, p.token ≠ ";"

/-- The tokens are those of a cut of the text up to its first terminator and with it. -/
def CutInto (text : String) (tokens : List String) : Prop :=
  ∃ before after pieces, text.toList = before ++ ';' :: after ∧ ';' ∉ before ∧ IsCut pieces ∧
    before ++ [';'] = pieces.flatMap Piece.chars ∧ tokens = pieces.map Piece.token

section Characters

def endsWord (c : Char) : Bool := Text.isBlank c || isPunctuation c

variable {c : Char} {token : String}

theorem isPunctuation_iff : isPunctuation c = true ↔ c = '.' ∨ c = ',' ∨ c = ';' := by
  simp [isPunctuation, or_assoc]

theorem endsWord_eq_false_iff :
    endsWord c = false ↔ Text.isBlank c = false ∧ c ≠ '.' ∧ c ≠ ',' ∧ c ≠ ';' := by
  simp [endsWord, isPunctuation, and_assoc]

theorem isMark_singleton (h : isPunctuation c = true) : IsMark (String.singleton c) := by
  rcases isPunctuation_iff.mp h with hc | hc | hc
  · exact .inl (by rw [hc]; rfl)
  · exact .inr (.inl (by rw [hc]; rfl))
  · exact .inr (.inr (by rw [hc]; rfl))

theorem IsMark.exists_singleton (h : IsMark token) :
    ∃ c, isPunctuation c = true ∧ token = String.singleton c := by
  rcases h with h | h | h
  · exact ⟨'.', rfl, h⟩
  · exact ⟨',', rfl, h⟩
  · exact ⟨';', rfl, h⟩

theorem isWord_ofList {word : List Char} (hne : word ≠ [])
    (h : ∀ c ∈ word, endsWord c = false) : IsWord (String.ofList word) := by
  refine ⟨?_, ?_⟩
  · intro he
    exact hne (by simpa using congrArg String.toList he)
  · intro c hc
    rw [String.toList_ofList] at hc
    exact endsWord_eq_false_iff.mp (h c hc)

theorem IsWord.endsWord_eq_false (h : IsWord token) : ∀ c ∈ token.toList, endsWord c = false :=
  fun c hc => endsWord_eq_false_iff.mpr (h.2 c hc)

theorem IsWord.toList_ne_nil (h : IsWord token) : token.toList ≠ [] := by
  intro he
  exact h.1 (String.toList_eq_nil_iff.mp he)

theorem IsMark.not_isWord (h : IsMark token) : ¬ IsWord token := by
  intro hw
  obtain ⟨c, hc, rfl⟩ := h.exists_singleton
  have hends := hw.endsWord_eq_false c (by simp)
  simp [endsWord, hc] at hends

theorem IsWord.ne_terminator (h : IsWord token) : token ≠ ";" :=
  fun he => IsMark.not_isWord (.inr (.inr he)) h

end Characters

section Reading

variable {c : Char} {word cs : List Char}

theorem tokenizeFrom_blank (hc : Text.isBlank c = true) (cs : List Char) :
    tokenizeFrom [] (c :: cs) = tokenizeFrom [] cs := by
  have hpunct : ¬ isPunctuation c = true := by
    intro h
    rcases isPunctuation_iff.mp h with rfl | rfl | rfl <;> exact absurd hc (by decide)
  have hend : ¬ c = ';' := by
    intro h
    exact hpunct (isPunctuation_iff.mpr (.inr (.inr h)))
  rw [tokenizeFrom, if_neg hend, if_neg hpunct, if_pos hc]
  simp [endedWord]

theorem tokenizeFrom_blanks {blanks : List Char} (h : ∀ c ∈ blanks, Text.isBlank c = true)
    (cs : List Char) : tokenizeFrom [] (blanks ++ cs) = tokenizeFrom [] cs := by
  induction blanks with
  | nil => rfl
  | cons c blanks ih =>
      rw [List.cons_append, tokenizeFrom_blank (h c (.head _))]
      exact ih fun d hd => h d (.tail _ hd)

theorem tokenizeFrom_mark (hc : isPunctuation c = true) (hend : c ≠ ';') (cs : List Char) :
    tokenizeFrom [] (c :: cs) = (tokenizeFrom [] cs).map (String.singleton c :: ·) := by
  rw [tokenizeFrom, if_neg hend, if_pos hc]
  rfl

theorem tokenizeFrom_word (h : ∀ c ∈ word, endsWord c = false) (read cs : List Char) :
    tokenizeFrom read (word ++ cs) = tokenizeFrom (word.reverse ++ read) cs := by
  induction word generalizing read with
  | nil => rfl
  | cons c word ih =>
      obtain ⟨hblank, hpoint, hcomma, hend⟩ := endsWord_eq_false_iff.mp (h c (.head _))
      have hpunct : ¬ isPunctuation c = true := by
        rw [isPunctuation_iff]
        simp [hpoint, hcomma, hend]
      rw [List.cons_append, tokenizeFrom, if_neg hend, if_neg hpunct, if_neg (by simp [hblank]),
        ih fun d hd => h d (.tail _ hd)]
      simp

theorem tokenizeFrom_endsWord (hc : endsWord c = true) (word cs : List Char) :
    tokenizeFrom word (c :: cs) = (tokenizeFrom [] (c :: cs)).map (endedWord word ++ ·) := by
  simp only [tokenizeFrom]
  split_ifs with hend hpunct hblank
  · rfl
  · simp [endedWord, Function.comp_def]
  · simp [endedWord]
  · simp [endsWord, hpunct, hblank] at hc

theorem tokenizeFrom_eq_none : tokenizeFrom word cs = none ↔ ';' ∉ cs := by
  induction cs generalizing word with
  | nil => simp [tokenizeFrom]
  | cons c cs ih =>
      rw [tokenizeFrom]
      split_ifs with hend hpunct hblank
      · simp [hend]
      · simp [ih, Ne.symm hend]
      · simp [ih, Ne.symm hend]
      · simp [ih, Ne.symm hend]

/-- A token before the terminator is found, if what follows does not go on with its word. -/
theorem tokenizeFrom_token {token : String} (hproper : IsMark token ∨ IsWord token)
    (hend : token ≠ ";")
    (hnext : IsWord token → ∃ c rest, cs = c :: rest ∧ endsWord c = true) :
    tokenizeFrom [] (token.toList ++ cs) = (tokenizeFrom [] cs).map (token :: ·) := by
  rcases hproper with hmark | hword
  · obtain ⟨c, hc, rfl⟩ := hmark.exists_singleton
    have hne : c ≠ ';' := by
      intro h
      exact hend (by rw [h]; rfl)
    rw [String.toList_singleton]
    exact tokenizeFrom_mark hc hne cs
  · obtain ⟨c, rest, rfl, hc⟩ := hnext hword
    have hended : endedWord token.toList.reverse = [token] := by
      simp [endedWord, hword.toList_ne_nil]
    rw [tokenizeFrom_word hword.endsWord_eq_false, List.append_nil, tokenizeFrom_endsWord hc,
      hended]
    rfl

end Reading

namespace Piece

variable {p q : Piece} {cs : List Char}

theorem tokenizeFrom_chars (hend : p.token ≠ ";")
    (hnext : IsWord p.token → ∃ c rest, cs = c :: rest ∧ endsWord c = true) :
    tokenizeFrom [] (p.chars ++ cs) = (tokenizeFrom [] cs).map (p.token :: ·) := by
  rw [chars, List.append_assoc, tokenizeFrom_blanks p.blank]
  exact tokenizeFrom_token p.proper hend hnext

theorem tokenizeFrom_terminator (h : p.token = ";") (cs : List Char) :
    tokenizeFrom [] (p.chars ++ cs) = some [p.token] := by
  rw [chars, List.append_assoc, tokenizeFrom_blanks p.blank, h]
  rfl

theorem Apart.exists_endsWord (h : p.Apart q) (hp : IsWord p.token) (cs : List Char) :
    ∃ c rest, q.chars ++ cs = c :: rest ∧ endsWord c = true := by
  rw [chars]
  cases hblanks : q.blanks with
  | cons c blanks =>
      have hc : Text.isBlank c = true := q.blank c (by simp [hblanks])
      exact ⟨c, _, rfl, by simp [endsWord, hc]⟩
  | nil =>
      rcases q.proper with hmark | hword
      · obtain ⟨c, hc, htoken⟩ := hmark.exists_singleton
        exact ⟨c, cs, by simp [htoken], by simp [endsWord, hc]⟩
      · exact absurd hblanks (h hp hword)

end Piece

namespace IsCut

variable {p q : Piece} {pieces : List Piece}

theorem ne_nil (h : IsCut pieces) : pieces ≠ [] := by
  intro he
  simpa [he] using h.ended

theorem single (h : p.token = ";") : IsCut [p] :=
  ⟨List.isChain_singleton p, by simp [h], by simp⟩

theorem cons (h : IsCut (q :: pieces)) (hend : p.token ≠ ";") (hapart : p.Apart q) :
    IsCut (p :: q :: pieces) := by
  refine ⟨h.apart.cons_cons hapart, by simpa using h.ended, ?_⟩
  simpa [hend] using h.once

theorem of_cons (h : IsCut (p :: q :: pieces)) :
    p.token ≠ ";" ∧ p.Apart q ∧ IsCut (q :: pieces) := by
  have honce := h.once
  rw [List.dropLast_cons_cons, List.forall_mem_cons] at honce
  exact ⟨honce.1, h.apart.rel, h.apart.of_cons, by simpa using h.ended, honce.2⟩

theorem replace_head (h : IsCut (p :: pieces)) (hword : IsWord q.token → IsWord p.token)
    (hend : q.token = ";" ↔ p.token = ";") : IsCut (q :: pieces) := by
  cases pieces with
  | nil =>
      have hp : p.token = ";" := by simpa using h.ended
      exact single (hend.mpr hp)
  | cons r pieces =>
      obtain ⟨hne, hapart, hrest⟩ := h.of_cons
      exact hrest.cons (fun hq => hne (hend.mp hq)) fun hq => hapart (hword hq)

theorem tokenizeFrom_eq (h : IsCut pieces) (after : List Char) :
    tokenizeFrom [] (pieces.flatMap Piece.chars ++ after) = some (pieces.map Piece.token) := by
  induction pieces with
  | nil => exact absurd rfl h.ne_nil
  | cons p pieces ih =>
      rw [List.flatMap_cons, List.append_assoc]
      cases pieces with
      | nil =>
          have hp : p.token = ";" := by simpa using h.ended
          exact p.tokenizeFrom_terminator hp _
      | cons q pieces =>
          obtain ⟨hne, hapart, hrest⟩ := h.of_cons
          rw [Piece.tokenizeFrom_chars hne, ih hrest]
          · rfl
          · intro hp
            rw [List.flatMap_cons, List.append_assoc]
            exact hapart.exists_endsWord hp _

/-- Tokens of a cut are found again when they are written with one space between them. -/
theorem tokenize_intercalate (h : IsCut pieces) :
    tokenize (" ".intercalate (pieces.map Piece.token)) = some (pieces.map Piece.token) := by
  have hspace : Text.isBlank ' ' = true := by decide
  rw [tokenize, String.toList_intercalate]
  induction pieces with
  | nil => exact absurd rfl h.ne_nil
  | cons p pieces ih =>
      cases pieces with
      | nil =>
          have hp : p.token = ";" := by simpa using h.ended
          simp [hp, tokenizeFrom, endedWord]
      | cons q pieces =>
          obtain ⟨hne, _, hrest⟩ := h.of_cons
          have hfirst :
              " ".toList.intercalate (((p :: q :: pieces).map Piece.token).map String.toList) =
                p.token.toList ++ ' ' ::
                  " ".toList.intercalate (((q :: pieces).map Piece.token).map String.toList) := by
            simp
          rw [hfirst, tokenizeFrom_token p.proper hne, tokenizeFrom_blank hspace, ih hrest]
          · rfl
          · exact fun _ => ⟨' ', _, rfl, by simp [endsWord, hspace]⟩

end IsCut

/-- A text can be cut at its terminator, one character at a time from its end. -/
theorem exists_isCut {before : List Char} (h : ';' ∉ before) :
    ∃ pieces, IsCut pieces ∧ before ++ [';'] = pieces.flatMap Piece.chars := by
  induction before with
  | nil => exact ⟨[⟨[], ";", by simp, Or.inl (.inr (.inr rfl))⟩], .single rfl, rfl⟩
  | cons c before ih =>
      obtain ⟨hc, hbefore⟩ := not_or.mp (List.mem_cons.not.mp h)
      obtain ⟨pieces, hcut, hchars⟩ := ih hbefore
      obtain ⟨p, pieces, rfl⟩ := List.exists_cons_of_ne_nil hcut.ne_nil
      rw [List.cons_append, hchars]
      by_cases hblank : Text.isBlank c = true
      · exact ⟨{ p with
          blanks := c :: p.blanks
          blank := List.forall_mem_cons.mpr ⟨hblank, p.blank⟩ } :: pieces,
          hcut.replace_head id Iff.rfl, rfl⟩
      by_cases hpunct : isPunctuation c = true
      · have hmark := isMark_singleton hpunct
        refine ⟨⟨[], String.singleton c, by simp, .inl hmark⟩ :: p :: pieces, hcut.cons ?_ ?_, ?_⟩
        · intro he
          exact hc (by simpa using (congrArg String.toList he).symm)
        · exact fun hword => absurd hword hmark.not_isWord
        · simp [Piece.chars]
      have hends : endsWord c = false := by simp [endsWord, hblank, hpunct]
      by_cases hjoin : p.blanks = [] ∧ IsWord p.token
      · have hword : IsWord (String.ofList (c :: p.token.toList)) :=
          isWord_ofList (List.cons_ne_nil _ _)
            (List.forall_mem_cons.mpr ⟨hends, hjoin.2.endsWord_eq_false⟩)
        refine ⟨⟨[], String.ofList (c :: p.token.toList), by simp, .inr hword⟩ :: pieces,
          hcut.replace_head (fun _ => hjoin.2) ?_, ?_⟩
        · exact iff_of_false hword.ne_terminator hjoin.2.ne_terminator
        · simp [Piece.chars, hjoin.1]
      · have hword : IsWord (String.ofList [c]) :=
          isWord_ofList (List.cons_ne_nil _ _) (by simpa using hends)
        refine ⟨⟨[], String.ofList [c], by simp, .inr hword⟩ :: p :: pieces,
          hcut.cons hword.ne_terminator ?_, ?_⟩
        · exact fun _ hp hblanks => hjoin ⟨hblanks, hp⟩
        · simp [Piece.chars]

section Tokens

variable {text : String} {tokens : List String}

theorem tokenize_eq_none : tokenize text = none ↔ ';' ∉ text.toList :=
  tokenizeFrom_eq_none

theorem IsCut.tokenize_eq {pieces : List Piece} {before after : List Char} (h : IsCut pieces)
    (htext : text.toList = before ++ ';' :: after)
    (hchars : before ++ [';'] = pieces.flatMap Piece.chars) :
    tokenize text = some (pieces.map Piece.token) := by
  have hsplit : text.toList = pieces.flatMap Piece.chars ++ after := by
    rw [htext, ← hchars]
    simp
  rw [tokenize, hsplit]
  exact h.tokenizeFrom_eq after

theorem tokenize_eq_some_iff : tokenize text = some tokens ↔ CutInto text tokens := by
  constructor
  · intro h
    have hend : ';' ∈ text.toList := by
      by_contra hnone
      rw [tokenize_eq_none.mpr hnone] at h
      cases h
    obtain ⟨before, after, htext, hbefore⟩ := List.eq_append_cons_of_mem hend
    obtain ⟨pieces, hcut, hchars⟩ := exists_isCut hbefore
    have hread := hcut.tokenize_eq htext hchars
    exact ⟨before, after, pieces, htext, hbefore, hcut, hchars,
      Option.some.inj (h.symm.trans hread)⟩
  · rintro ⟨before, after, pieces, htext, _, hcut, hchars, rfl⟩
    exact hcut.tokenize_eq htext hchars

theorem tokenize_after_terminator {before : String} (h : ';' ∉ before.toList)
    (after other : String) :
    tokenize (before ++ ";" ++ other) = tokenize (before ++ ";" ++ after) := by
  obtain ⟨pieces, hcut, hchars⟩ := exists_isCut h
  have hread : ∀ rest, tokenize (before ++ ";" ++ rest) = some (pieces.map Piece.token) := by
    intro rest
    have htext : (before ++ ";" ++ rest).toList = before.toList ++ ';' :: rest.toList := by simp
    exact hcut.tokenize_eq htext hchars
  rw [hread, hread]

end Tokens

/-- A text without a terminator is refused at its line. Any other text falls into the tokens of the
one way in which it can be cut up to its first terminator. These tokens are found again when they
are written with spaces between them, and what stands after the terminator does not count. -/
theorem tokenize_exact {α : Type} (read : Reader α) (text : String) (line : ℕ) :
    (tokenize text = none ↔ ';' ∉ text.toList) ∧
      (tokenize text = none → read.runAt line text = .error (.malformed line .missingTerminator)) ∧
      (∀ tokens, tokenize text = some tokens ↔ CutInto text tokens) ∧
      (';' ∈ text.toList → ∃! tokens, CutInto text tokens) ∧
      (∀ tokens, tokenize text = some tokens →
        tokenize (" ".intercalate tokens) = some tokens) ∧
      ∀ before after other, text = before ++ ";" ++ after → ';' ∉ before.toList →
        tokenize (before ++ ";" ++ other) = tokenize text := by
  refine ⟨tokenize_eq_none, ?_, fun tokens => tokenize_eq_some_iff, ?_, ?_, ?_⟩
  · intro h
    rw [Reader.runAt, h]
  · intro hend
    obtain ⟨tokens, htokens⟩ := Option.ne_none_iff_exists'.mp (tokenize_eq_none.not_left.mpr hend)
    refine ⟨tokens, tokenize_eq_some_iff.mp htokens, ?_⟩
    intro other hother
    exact Option.some.inj ((tokenize_eq_some_iff.mpr hother).symm.trans htokens)
  · intro tokens h
    obtain ⟨_, _, pieces, _, _, hcut, _, rfl⟩ := tokenize_eq_some_iff.mp h
    exact hcut.tokenize_intercalate
  · rintro before after other rfl hbefore
    exact tokenize_after_terminator hbefore after other

/-- A no-break space separates two words, and a second terminator is not seen. -/
theorem tokenize_exact_spaced :
    CutInto "é1\u00a0b .z,;x;" ["é1", "b", ".", "z", ",", ";"] ∧
      tokenize "é1 b . z , ;" = some ["é1", "b", ".", "z", ",", ";"] ∧
      tokenize "é1\u00a0b .z,; a, b" = some ["é1", "b", ".", "z", ",", ";"] := by
  have htokens : tokenize "é1\u00a0b .z,;x;" = some ["é1", "b", ".", "z", ",", ";"] := by
    decide +kernel
  obtain ⟨_, _, hcut, _, hspaced, hafter⟩ := tokenize_exact Reader.rest "é1\u00a0b .z,;x;" 1
  refine ⟨(hcut _).mp htokens, hspaced _ htokens, ?_⟩
  have hother := hafter "é1\u00a0b .z," "x;" " a, b" (by decide +kernel) (by decide +kernel)
  exact hother.trans htokens

end QuadAsm
