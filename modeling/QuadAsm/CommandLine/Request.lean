/-!
# Requests on the command line

The arguments name one source file and, before or after it, an output file and a format. A value
stands in the argument of its option or in the next one, and there it does not look like an option.
No option is given twice, and after `--` every argument is a file name.
-/

namespace QuadAsm

/-- How the listing is printed. -/
inductive Format
  | hex
  | json
  deriving DecidableEq

def Format.ofWord? (word : String) : Option Format :=
  if word = "hex" then some .hex else if word = "json" then some .json else none

structure Options where
  source : String
  output : Option String
  format : Format
  deriving DecidableEq

inductive Request
  | version
  | assemble (options : Options)
  deriving DecidableEq

/-- The options that take a value. -/
inductive OptionName
  | output
  | format
  deriving DecidableEq

/-- The parts of one argument. -/
inductive Argument
  | terminator
  | version
  | option (name : OptionName) (value : Option String)
  | unknown
  | plain (word : String)
  deriving DecidableEq

namespace Argument

/-- A long option, without its hyphens, up to the equals sign and after it. -/
def splitValue (chars : List Char) : String × Option String :=
  match chars.dropWhile (· ≠ '=') with
  | [] => (String.ofList chars, none)
  | _ :: value => (String.ofList (chars.takeWhile (· ≠ '=')), some (String.ofList value))

def ofLong (chars : List Char) : Argument :=
  match splitValue chars with
  | ("output", value) => .option .output value
  | ("format", value) => .option .format value
  | ("version", none) => .version
  | _ => .unknown

/-- Short options: the first letter decides, and the rest of the argument is its value, after an
equals sign if there is one. -/
def ofShort : List Char → Argument
  | ['o'] => .option .output none
  | 'o' :: '=' :: value => .option .output (some (String.ofList value))
  | 'o' :: value => .option .output (some (String.ofList value))
  | 'V' :: _ => .version
  | _ => .unknown

def ofString (argument : String) : Argument :=
  match argument.toList with
  | ['-', '-'] => .terminator
  | '-' :: '-' :: chars => ofLong chars
  | ['-'] => .plain argument
  | '-' :: chars => ofShort chars
  | _ => .plain argument

end Argument

/-- The part of a request that the arguments read so far give. -/
structure Draft where
  source : Option String := none
  output : Option String := none
  format : Option Format := none

namespace Draft

def addSource (d : Draft) (path : String) : Option Draft :=
  if d.source.isSome || path.isEmpty then none else some { d with source := some path }

def addOption (d : Draft) : OptionName → String → Option Draft
  | .output, path =>
    if d.output.isSome || path.isEmpty then none else some { d with output := some path }
  | .format, word =>
    if d.format.isSome then none
    else (Format.ofWord? word).map fun format => { d with format := some format }

def finish (d : Draft) : Option Request :=
  d.source.map fun source => .assemble ⟨source, d.output, d.format.getD .hex⟩

/-- Reads the arguments after the terminator. -/
def readPlain (d : Draft) : List String → Option Request
  | [] => d.finish
  | argument :: arguments => (d.addSource argument).bind (·.readPlain arguments)

/-- Reads arguments, the first of which is the value of the option `pending` if there is one. -/
def read (d : Draft) (pending : Option OptionName) : List String → Option Request
  | [] => if pending.isSome then none else d.finish
  | argument :: arguments =>
    match pending, Argument.ofString argument with
    | some name, .plain word => (d.addOption name word).bind (·.read none arguments)
    | some _, _ => none
    | none, .plain word => (d.addSource word).bind (·.read none arguments)
    | none, .option name none => d.read (some name) arguments
    | none, .option name (some value) =>
      (d.addOption name value).bind (·.read none arguments)
    | none, .terminator => d.readPlain arguments
    | none, .version => some .version
    | none, .unknown => none

end Draft

/-- The request that the arguments make, or `none` if they are refused. -/
def Request.ofArguments? (arguments : List String) : Option Request :=
  ({} : Draft).read none arguments

end QuadAsm
