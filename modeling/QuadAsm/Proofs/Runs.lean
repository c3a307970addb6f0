import QuadAsm.CommandLine.Outcome
import QuadAsm.Proofs.NoDefects
import QuadAsm.Proofs.Renderings

/-!
# How a run ends

A run reads its source, assembles it, prints the listing and writes the image. It stops at the first
of these that fails, and its exit code tells which one that was. The listing and the image of a run
that comes so far are those of the same program.
-/

namespace QuadAsm

namespace Options

variable {o : Options} {files : Files} {text : String} {p : Program}
  {render : List ListingRow → String}

def Reads (o : Options) (files : Files) (text : String) : Prop :=
  files.read o.source = .ok text.toUTF8

/-- The source cannot be read, or what it holds is not text. -/
def Unreadable (o : Options) (files : Files) : Prop :=
  (∃ fault, files.read o.source = .error fault) ∨
    ∃ bytes, files.read o.source = .ok bytes ∧ ¬ bytes.IsValidUTF8

def Unwritable (o : Options) (files : Files) : Prop :=
  ∃ path fault, o.output = some path ∧ files.write path = .error fault

theorem readText_of_reads (h : o.Reads files text) : files.readText o.source = .ok text := by
  have hread : files.read o.source = .ok text.toUTF8 := h
  have htext : String.fromUTF8? text.toUTF8 = some text := dif_pos text.isValidUTF8
  simp only [Files.readText, hread, bind, Except.bind, htext]

theorem readText_of_unreadable (h : o.Unreadable files) :
    ∃ fault, files.readText o.source = .error fault := by
  rcases h with ⟨fault, hread⟩ | ⟨bytes, hread, hbytes⟩
  · refine ⟨fault, ?_⟩
    rw [Files.readText, hread]
    rfl
  · have hnone : String.fromUTF8? bytes = none := dif_neg hbytes
    refine ⟨.notText, ?_⟩
    simp only [Files.readText, hread, bind, Except.bind, hnone]

theorem unreadable_or_reads (o : Options) (files : Files) :
    o.Unreadable files ∨ ∃ text, o.Reads files text := by
  cases hread : files.read o.source with
  | error fault => exact .inl (.inl ⟨fault, hread⟩)
  | ok bytes =>
      by_cases hbytes : bytes.IsValidUTF8
      · exact .inr ⟨String.fromUTF8 bytes hbytes, hread⟩
      · exact .inl (.inr ⟨bytes, hread, hbytes⟩)

theorem run_of_unreadable (h : o.Unreadable files) :
    ∃ message, o.run files render = .failed 1 message := by
  obtain ⟨fault, hread⟩ := readText_of_unreadable h
  exact ⟨_, by rw [run, hread]⟩

theorem run_of_refused {e : Failure} (hread : o.Reads files text) (h : assemble text = .error e) :
    o.run files render = .ofFailure e := by
  rw [run, readText_of_reads hread]
  dsimp only
  rw [h]

theorem run_of_assembled (hread : o.Reads files text) (h : assemble text = .ok p) :
    o.run files render = o.finish files render p := by
  rw [run, readText_of_reads hread]
  dsimp only
  rw [h]

theorem stdout_finish :
    (o.finish files render p).stdout = p.listingText render o.format := by
  unfold finish
  cases o.output with
  | none => rfl
  | some path =>
      dsimp only
      cases files.write path with
      | ok _ => rfl
      | error fault => rfl

theorem image_finish {path : String} {bytes : List UInt8} :
    (o.finish files render p).image = some (path, bytes) ↔
      o.output = some path ∧ files.write path = .ok () ∧ bytes = p.bytes := by
  unfold finish
  cases o.output with
  | none => simp
  | some target =>
      dsimp only
      cases hwrite : files.write target with
      | ok _ =>
          constructor
          · intro h
            cases h
            exact ⟨rfl, hwrite, rfl⟩
          · rintro ⟨htarget, _, rfl⟩
            cases htarget
            rfl
      | error fault =>
          constructor
          · intro h
            cases h
          · rintro ⟨htarget, hok, _⟩
            cases htarget
            cases hwrite.symm.trans hok

theorem code_finish_of_unwritable (h : o.Unwritable files) :
    (o.finish files render p).code = 1 := by
  obtain ⟨path, fault, hpath, hwrite⟩ := h
  rw [finish, hpath]
  dsimp only
  rw [hwrite]
  rfl

theorem code_finish_of_not_unwritable (h : ¬ o.Unwritable files) :
    (o.finish files render p).code = 0 := by
  unfold finish
  cases hpath : o.output with
  | none => rfl
  | some path =>
      dsimp only
      cases hwrite : files.write path with
      | ok _ => rfl
      | error fault => exact absurd ⟨path, fault, hpath, hwrite⟩ h

/-- The ways in which a run ends, with the exit code of each. -/
inductive Ends (o : Options) (files : Files) : UInt8 → Prop
  | unreadable (h : o.Unreadable files) : Ends o files 1
  | malformed {text : String} {line : ℕ} {reason : Reason} (hread : o.Reads files text)
      (h : assemble text = .error (.diagnostic (.malformed line reason))) : Ends o files 2
  | undefinedLabel {text name : String} {line : ℕ} (hread : o.Reads files text)
      (h : assemble text = .error (.diagnostic (.undefinedLabel line name))) : Ends o files 3
  | unwritable {text : String} {p : Program} (hread : o.Reads files text)
      (h : assemble text = .ok p) (hwrite : o.Unwritable files) : Ends o files 1
  | done {text : String} {p : Program} (hread : o.Reads files text) (h : assemble text = .ok p)
      (hwrite : ¬ o.Unwritable files) : Ends o files 0

theorem Ends.code_eq {code : UInt8} (h : o.Ends files code) : (o.run files render).code = code := by
  cases h with
  | unreadable h =>
      obtain ⟨message, hrun⟩ := run_of_unreadable h
      rw [hrun]
      rfl
  | malformed hread h =>
      rw [run_of_refused hread h]
      rfl
  | undefinedLabel hread h =>
      rw [run_of_refused hread h]
      rfl
  | unwritable hread h hwrite => rw [run_of_assembled hread h, code_finish_of_unwritable hwrite]
  | done hread h hwrite => rw [run_of_assembled hread h, code_finish_of_not_unwritable hwrite]

section Cause

variable {code : UInt8}

theorem Ends.malformed_of_two (h : o.Ends files code) (hcode : code = 2) :
    ∃ text line reason, o.Reads files text ∧
      assemble text = .error (.diagnostic (.malformed line reason)) := by
  cases h with
  | malformed hread he => exact ⟨_, _, _, hread, he⟩
  | unreadable | undefinedLabel | unwritable | done => exact absurd hcode (by decide)

theorem Ends.undefinedLabel_of_three (h : o.Ends files code) (hcode : code = 3) :
    ∃ text line name, o.Reads files text ∧
      assemble text = .error (.diagnostic (.undefinedLabel line name)) := by
  cases h with
  | undefinedLabel hread he => exact ⟨_, _, _, hread, he⟩
  | unreadable | malformed | unwritable | done => exact absurd hcode (by decide)

theorem Ends.files_of_one (h : o.Ends files code) (hcode : code = 1) :
    o.Unreadable files ∨
      ∃ text p, o.Reads files text ∧ assemble text = .ok p ∧ o.Unwritable files := by
  cases h with
  | unreadable hread => exact .inl hread
  | unwritable hread hp hwrite => exact .inr ⟨_, _, hread, hp, hwrite⟩
  | malformed | undefinedLabel | done => exact absurd hcode (by decide)

theorem Ends.eq_zero (h : o.Ends files code) (hone : code ≠ 1) (htwo : code ≠ 2)
    (hthree : code ≠ 3) : code = 0 := by
  cases h with
  | unreadable | unwritable => exact absurd rfl hone
  | malformed => exact absurd rfl htwo
  | undefinedLabel => exact absurd rfl hthree
  | done => rfl

end Cause

/-- Every statement of a readable source has an address of its own. -/
def Addressable (o : Options) (files : Files) : Prop :=
  ∀ text statements, o.Reads files text → (Scan.ofSource text).statements = .ok statements →
    statements.length < 2 ^ 29

theorem Addressable.ends (h : o.Addressable files) : o.Ends files (o.run files render).code := by
  have hends : ∃ code, o.Ends files code := by
    rcases unreadable_or_reads o files with hread | ⟨text, hread⟩
    · exact ⟨1, .unreadable hread⟩
    · cases hasm : assemble text with
      | ok p =>
          by_cases hwrite : o.Unwritable files
          · exact ⟨1, .unwritable hread hasm hwrite⟩
          · exact ⟨0, .done hread hasm hwrite⟩
      | error e =>
          cases e with
          | defect d => exact absurd hasm (assemble_ne_defect (fun _ => h text _ hread) d)
          | diagnostic d =>
              cases d with
              | malformed line reason => exact ⟨2, .malformed hread hasm⟩
              | undefinedLabel line name => exact ⟨3, .undefinedLabel hread hasm⟩
  obtain ⟨code, hcode⟩ := hends
  rw [hcode.code_eq]
  exact hcode

/-- What the exit code, the standard output and the image of a run say. -/
structure Reports (o : Options) (files : Files) (render : List ListingRow → String)
    (outcome : Outcome) : Prop where
  code_two : outcome.code = 2 ↔ ∃ text line reason, o.Reads files text ∧
    assemble text = .error (.diagnostic (.malformed line reason))
  code_three : outcome.code = 3 ↔ ∃ text line name, o.Reads files text ∧
    assemble text = .error (.diagnostic (.undefinedLabel line name))
  code_one : outcome.code = 1 ↔ o.Unreadable files ∨
    ∃ text p, o.Reads files text ∧ assemble text = .ok p ∧ o.Unwritable files
  code_zero : outcome.code = 0 ↔ outcome.code ≠ 1 ∧ outcome.code ≠ 2 ∧ outcome.code ≠ 3
  quiet : (o.Unreadable files ∨ ∃ text e, o.Reads files text ∧ assemble text = .error e) →
    outcome.stdout = "" ∧ outcome.image = none
  printed : ∀ text p, o.Reads files text → assemble text = .ok p →
    outcome.stdout = p.listingText render o.format
  image_iff : ∀ text p, o.Reads files text → assemble text = .ok p → ∀ path bytes,
    outcome.image = some (path, bytes) ↔
      o.output = some path ∧ files.write path = .ok () ∧ bytes = p.bytes

theorem quiet_of_failure
    (h : o.Unreadable files ∨ ∃ text e, o.Reads files text ∧ assemble text = .error e) :
    (o.run files render).stdout = "" ∧ (o.run files render).image = none := by
  rcases h with hread | ⟨text, e, hread, he⟩
  · obtain ⟨message, hrun⟩ := run_of_unreadable hread
    rw [hrun]
    exact ⟨rfl, rfl⟩
  · rw [run_of_refused hread he]
    cases e with
    | diagnostic d => exact ⟨rfl, rfl⟩
    | defect d => exact ⟨rfl, rfl⟩

theorem Addressable.reports (h : o.Addressable files) :
    o.Reports files render (o.run files render) where
  code_two := by
    refine ⟨h.ends.malformed_of_two, ?_⟩
    rintro ⟨text, line, reason, hread, he⟩
    exact (Ends.malformed hread he).code_eq
  code_three := by
    refine ⟨h.ends.undefinedLabel_of_three, ?_⟩
    rintro ⟨text, line, name, hread, he⟩
    exact (Ends.undefinedLabel hread he).code_eq
  code_one := by
    refine ⟨h.ends.files_of_one, ?_⟩
    rintro (hread | ⟨text, p, hread, hp, hwrite⟩)
    · exact (Ends.unreadable hread).code_eq
    · exact (Ends.unwritable hread hp hwrite).code_eq
  code_zero := by
    refine ⟨fun hzero => ?_, fun ⟨hone, htwo, hthree⟩ => h.ends.eq_zero hone htwo hthree⟩
    rw [hzero]
    decide
  quiet := quiet_of_failure
  printed text p hread hp := by
    rw [run_of_assembled hread hp, stdout_finish]
  image_iff text p hread hp path bytes := by
    rw [run_of_assembled hread hp, image_finish]

end Options

/-- The image, the text and the listing of any program say its words and determine each other in
them, and every run on a source that is not too long tells by its exit code how it went, leaves
nothing behind unless the source is assembled, and writes the image of what it assembled, however
the listing is rendered. -/
theorem outputs_agree :
    (∀ p : Program, readImage? p.bytes = some p.words ∧ readText? p.text = some p.words ∧
      p.listing.map (·.words) = p.words) ∧
    (∀ p q : Program, (p.bytes = q.bytes ↔ p.words = q.words) ∧
      (p.text = q.text ↔ p.words = q.words) ∧
      (p.listing.map (·.words) = q.listing.map (·.words) ↔ p.words = q.words)) ∧
    ∀ (o : Options) (files : Files) (render : List ListingRow → String), o.Addressable files →
      o.Reports files render (Request.run files (.assemble o) render) := by
  refine ⟨?_, ?_, ?_⟩
  · intro p
    exact ⟨readImage?_bytes p, readText?_text p, p.listing_words⟩
  · intro p q
    exact ⟨Program.bytes_inj, Program.text_inj, by rw [p.listing_words, q.listing_words]⟩
  · intro o files render h
    exact h.reports

def selfLoop : String := "top: b, -, -, top;\n"

/-- One source, and one file that can be written. -/
def loopFiles : Files where
  read path := if path = "loop.qasm" then .ok selfLoop.toUTF8 else .error .missing
  write path := if path = "loop.bin" then .ok () else .error (.other "Permission denied")

theorem addressable_loopFiles (output : Option String) (format : Format) :
    Options.Addressable ⟨"loop.qasm", output, format⟩ loopFiles := by
  intro text statements hread hscan
  have htext : selfLoop = text := String.toByteArray_inj.mp (Except.ok.inj hread)
  subst htext
  have hone : (Scan.ofSource selfLoop).statements.toOption.map List.length = some 1 := by
    decide +kernel
  rw [hscan] at hone
  have hlength : statements.length = 1 := Option.some.inj hone
  rw [hlength]
  decide

/-- The image is written where it can be, and where it cannot be the run fails with the listing
printed. -/
theorem outputs_agree_loop :
    ∃ p, assemble selfLoop = .ok p ∧
      (Request.run loopFiles (.assemble ⟨"loop.qasm", some "loop.bin", .hex⟩)).image =
        some ("loop.bin", p.bytes) ∧
      (Request.run loopFiles (.assemble ⟨"loop.qasm", some "other.bin", .hex⟩)).code = 1 ∧
      (Request.run loopFiles (.assemble ⟨"loop.qasm", some "other.bin", .hex⟩)).stdout = p.text := by
  obtain ⟨p, hp, _⟩ := exists_ok_of_toOption (f := (·.instrs.length)) (b := 1)
    (x := assemble selfLoop) (by decide +kernel)
  have hwritten := outputs_agree.2.2 ⟨"loop.qasm", some "loop.bin", .hex⟩ loopFiles
    listingJson (addressable_loopFiles _ _)
  have hfailed := outputs_agree.2.2 ⟨"loop.qasm", some "other.bin", .hex⟩ loopFiles
    listingJson (addressable_loopFiles _ _)
  refine ⟨p, hp, ?_, ?_, hfailed.printed _ p rfl hp⟩
  · exact (hwritten.image_iff _ p rfl hp "loop.bin" p.bytes).mpr ⟨rfl, rfl, rfl⟩
  · exact hfailed.code_one.mpr (.inr ⟨_, p, rfl, hp, "other.bin", _, rfl, rfl⟩)

end QuadAsm
