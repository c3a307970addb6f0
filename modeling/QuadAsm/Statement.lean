import QuadAsm.Diagnostic

/-!
# Statements

A source text falls into lines. A line feed ends a line, and one carriage return directly before it
belongs to the line end. What follows the last line feed is a line only if it is not empty, and it
keeps its carriage returns.

There is at most one statement to a line. Before it stand labels, each a name and a colon. Labels on
a line without a statement belong to the next one. A line that begins with `#` or `;` after its
labels is a comment.
-/

namespace QuadAsm

namespace Text

/-- The line whose characters, last one first, stand before a line feed. -/
def endedLine : List Char → List Char
  | '\r' :: line => line.reverse
  | line => line.reverse

/-- The lines of a text, of whose first line the characters `line`, last one first, are read. -/
def splitLinesFrom (line : List Char) : List Char → List (List Char)
  | [] => if line.isEmpty then [] else [line.reverse]
  | c :: cs =>
    if c = '\n' then endedLine line :: splitLinesFrom [] cs else splitLinesFrom (c :: line) cs

def splitLines (text : List Char) : List (List Char) :=
  splitLinesFrom [] text

end Text

structure Statement where
  line : Nat
  labels : List String
  text : String
  deriving DecidableEq

/-- What is odd about the labels of a text, though no reason to refuse it. -/
inductive Notice
  | repeatedLabel (line : Nat) (name : String)
  | unboundLabels (names : List String)
  deriving DecidableEq

def Notice.message : Notice → String
  | .repeatedLabel _ _ => "label defined more than once, first one wins"
  | .unboundLabels _ => "labels at end of input bind no instruction"

/-- A line taken apart. -/
structure LineParts where
  labels : List String
  /-- The text after the labels, or `none` where a colon has no name before it. -/
  rest : Option (List Char)
  deriving DecidableEq

namespace LineParts

def consLabel (name : String) (parts : LineParts) : LineParts :=
  { parts with labels := name :: parts.labels }

/-- Takes a line apart, of whose first word the characters `word`, last one first, are read. -/
def readFrom (word : List Char) : List Char → LineParts
  | [] => ⟨[], some word.reverse⟩
  | c :: cs =>
    if c = ':' then
      if word.isEmpty then ⟨[], none⟩
      else (readFrom [] cs).consLabel (String.ofList word.reverse)
    else if Text.isBlank c && word.isEmpty then readFrom [] cs
    else if Text.isBlank c || c = ';' || c = '#' then ⟨[], some (word.reverse ++ c :: cs)⟩
    else readFrom (c :: word) cs

def ofLine (line : List Char) : LineParts :=
  readFrom [] line

end LineParts

/-- Whether what stands after the labels of a line is no statement. -/
def isVacant : List Char → Bool
  | [] => true
  | c :: _ => c = '#' || c = ';'

/-- The notices for the labels `names` of one line that comes after the labels `defined`. -/
def repeatedLabels (line : Nat) (defined : List String) : List String → List Notice
  | [] => []
  | name :: names =>
    (if defined.contains name then [.repeatedLabel line name] else []) ++
      repeatedLabels line (name :: defined) names

/-- The statements of a text, or why it has none, and the notices given up to there. -/
structure Scan where
  statements : Except Diagnostic (List Statement)
  notices : List Notice

namespace Scan

def addNotices (notices : List Notice) (scan : Scan) : Scan :=
  { scan with notices := notices ++ scan.notices }

def consStatement (s : Statement) (scan : Scan) : Scan :=
  { scan with statements := scan.statements.map (s :: ·) }

/-- Scans the lines from number `line` on. Before them stand the labels `defined`, of which
`pending` have no statement yet. -/
def ofLines (defined pending : List String) (line : Nat) : List (List Char) → Scan
  | [] => ⟨.ok [], if pending.isEmpty then [] else [.unboundLabels pending]⟩
  | text :: texts =>
    let parts := LineParts.ofLine text
    let notices := repeatedLabels line defined parts.labels
    let defined := parts.labels ++ defined
    let pending := pending ++ parts.labels
    match parts.rest with
    | none => ⟨.error (.malformed line .emptyLabel), notices⟩
    | some rest =>
      if isVacant rest then (ofLines defined pending (line + 1) texts).addNotices notices
      else
        ((ofLines defined [] (line + 1) texts).consStatement
          ⟨line, pending, String.ofList rest⟩).addNotices notices

def ofSource (source : String) : Scan :=
  ofLines [] [] 1 (Text.splitLines source.toList)

end Scan

end QuadAsm
