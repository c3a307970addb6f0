import QuadAsm.CommandLine.Outcome

/-!
# The command line

Reads the source file, prints what `Request.run` says and writes the image.
-/

namespace QuadAsm

def usage : String :=
  "usage: qas [-o FILE] [--format hex|json] SOURCE\n"

def FileFault.ofError : IO.Error → FileFault
  | .noFileOrDirectory .. => .missing
  | .permissionDenied _ code details | .inappropriateType _ code details =>
    .other (details ++ " (os error " ++ toString code.toNat ++ ")")
  | error => .other (toString error)

def attempt {α : Type} (action : IO α) : IO (Except FileFault α) := do
  match ← action.toBaseIO with
  | .ok value => return .ok value
  | .error error => return .error (.ofError error)

/-- The image is written last, and a failure to do so only adds to what is printed before. -/
def Options.execute (options : Options) : IO UInt32 := do
  let content ← attempt (IO.FS.readBinFile options.source)
  let planned := options.run ⟨fun _ => content, fun _ => .ok ()⟩
  IO.print planned.stdout
  let written ←
    match planned.image with
    | none => pure (.ok ())
    | some (path, bytes) => attempt (IO.FS.writeBinFile path ⟨bytes.toArray⟩)
  let outcome := options.run ⟨fun _ => content, fun _ => written⟩
  IO.eprint outcome.stderr
  return outcome.code.toUInt32

end QuadAsm

def main (arguments : List String) : IO UInt32 := do
  match QuadAsm.Request.ofArguments? arguments with
  | none =>
    IO.eprint QuadAsm.usage
    return 1
  | some .version =>
    IO.print QuadAsm.versionText
    return 0
  | some (.assemble options) => options.execute
