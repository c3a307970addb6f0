import QuadAsm.Assembly
import QuadAsm.CommandLine.Request
import QuadAsm.Program.Json

/-!
# Outcomes of a run

What a run prints, writes and returns, as a function of the request, the files it finds and how the
rows of a listing are rendered. The listing is printed before the image is written, so it is there
even if the image cannot be.
-/

namespace QuadAsm

inductive FileFault
  | missing
  | notText
  | other (text : String)
  deriving DecidableEq

def FileFault.message : FileFault → String
  | .missing => "No such file or directory (os error 2)"
  | .notText => "stream did not contain valid UTF-8"
  | .other text => text

/-- What reading a file gives, and whether writing one succeeds. -/
structure Files where
  read : String → Except FileFault ByteArray
  write : String → Except FileFault Unit

namespace Files

def readText (files : Files) (path : String) : Except FileFault String := do
  let bytes ← files.read path
  match String.fromUTF8? bytes with
  | some text => .ok text
  | none => .error .notText

end Files

structure Outcome where
  code : UInt8
  stdout : String := ""
  stderr : String := ""
  /-- The file that is written, with its bytes. -/
  image : Option (String × List UInt8) := none

namespace Outcome

def failed (code : UInt8) (text : String) : Outcome where
  code := code
  stderr := "error: " ++ text ++ "\n"

def ofFailure : Failure → Outcome
  | .diagnostic d => failed d.exitCode d.message
  | .defect d => failed 101 d.message

end Outcome

def Program.listingText (p : Program) (render : List ListingRow → String) : Format → String
  | .hex => p.text
  | .json => render p.listing ++ "\n"

namespace Options

/-- The outcome of a run whose source assembles to `p`. -/
def finish (o : Options) (files : Files) (render : List ListingRow → String) (p : Program) :
    Outcome :=
  let stdout := p.listingText render o.format
  match o.output with
  | none => { code := 0, stdout := stdout }
  | some path =>
    match files.write path with
    | .ok () => { code := 0, stdout := stdout, image := some (path, p.bytes) }
    | .error fault =>
      { Outcome.failed 1 ("writing " ++ path ++ ": " ++ fault.message) with stdout := stdout }

def run (o : Options) (files : Files) (render : List ListingRow → String := listingJson) :
    Outcome :=
  match files.readText o.source with
  | .error fault => .failed 1 ("reading " ++ o.source ++ ": " ++ fault.message)
  | .ok source =>
    match assemble source with
    | .error failure => .ofFailure failure
    | .ok p => o.finish files render p

end Options

def versionText : String := "qpu-asm 0.1.0\n"

def Request.run (files : Files) (request : Request)
    (render : List ListingRow → String := listingJson) : Outcome :=
  match request with
  | .version => { code := 0, stdout := versionText }
  | .assemble options => options.run files render

end QuadAsm
