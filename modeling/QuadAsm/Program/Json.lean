import QuadAsm.Program

/-!
# Listings as JSON

The listing is an array of objects, indented by two blanks for each level. Text is written as it
is, but for quotes, backslashes and control characters.
-/

namespace QuadAsm.Json

def escapedChar (c : Char) : List Char :=
  if c = '\"' ∨ c = '\\' then ['\\', c]
  else if c = '\x08' then ['\\', 'b']
  else if c = '\t' then ['\\', 't']
  else if c = '\n' then ['\\', 'n']
  else if c = '\x0c' then ['\\', 'f']
  else if c = '\r' then ['\\', 'r']
  else if c.toNat < 0x20 then ['\\', 'u'] ++ Text.hexDigits 4 c.toNat
  else [c]

def string (s : String) : String :=
  "\"" ++ String.ofList (s.toList.flatMap escapedChar) ++ "\""

def number (n : Nat) : String :=
  toString n

def indent (depth : Nat) : String :=
  String.ofList (List.replicate (2 * depth) ' ')

/-- Items on lines of their own between brackets that stand at `depth`, or the brackets alone. -/
def block (opening closing : String) (depth : Nat) (items : List String) : String :=
  if items.isEmpty then opening ++ closing
  else
    opening ++ "\n" ++
      String.intercalate ",\n" (items.map (indent (depth + 1) ++ ·)) ++
      "\n" ++ indent depth ++ closing

def array (depth : Nat) (items : List String) : String :=
  block "[" "]" depth items

def object (depth : Nat) (fields : List (String × String)) : String :=
  block "\x7b" "\x7d" depth (fields.map fun field => string field.1 ++ ": " ++ field.2)

end QuadAsm.Json

namespace QuadAsm

def ListingRow.json (depth : Nat) (e : ListingRow) : String :=
  Json.object depth
    [("pc", Json.number e.pc.toNat),
      ("line", Json.number e.line),
      ("labels", Json.array (depth + 1) (e.labels.map Json.string)),
      ("lo", Json.number e.words.lo.toNat),
      ("hi", Json.number e.words.hi.toNat)]

def listingJson (rows : List ListingRow) : String :=
  Json.array 0 (rows.map (ListingRow.json 1))

end QuadAsm
