import QuadAsm.Diagnostic
import QuadAsm.Vocabulary.Mnemonic
import QuadAsm.Vocabulary.Register

/-!
# Tokens and readers

The text of a statement falls into tokens: each of `.`, `,` and `;` is one, and so is every longest
run of other characters that are not blank. The first `;` ends the statement and what follows it is
not looked at; a text without one is no statement.

A reader takes tokens from the front of a statement. It ends with a value or a reason, and in both
cases with the tokens that are left: a token that is read and refused is gone, and at the end of the
statement nothing is taken.
-/

namespace QuadAsm

def isPunctuation (c : Char) : Bool :=
  c = '.' || c = ',' || c = ';'

/-- The token, if any, that the characters `word`, last one first, make up. -/
def endedWord (word : List Char) : List String :=
  if word.isEmpty then [] else [String.ofList word.reverse]

/-- The tokens of a text, of whose first token the characters `word`, last one first, are read. -/
def tokenizeFrom (word : List Char) : List Char → Option (List String)
  | [] => none
  | c :: cs =>
    if c = ';' then some (endedWord word ++ [";"])
    else if isPunctuation c then
      (tokenizeFrom [] cs).map (endedWord word ++ String.singleton c :: ·)
    else if Text.isBlank c then (tokenizeFrom [] cs).map (endedWord word ++ ·)
    else tokenizeFrom (c :: word) cs

def tokenize (text : String) : Option (List String) :=
  tokenizeFrom [] text.toList

abbrev Reader := EStateM Reason (List String)

namespace Reader

variable {α β : Type}

theorem bind_eq_ok {x : Reader α} {f : α → Reader β} {tokens rest : List String} {b : β} :
    (x >>= f) tokens = .ok b rest ↔
      ∃ a middle, x tokens = .ok a middle ∧ f a middle = .ok b rest := by
  change EStateM.bind x f tokens = _ ↔ _
  unfold EStateM.bind
  cases x tokens with
  | ok a middle => simp only [EStateM.Result.ok.injEq]; grind
  | error reason middle => simp

def next : Reader String
  | [] => .error .endOfInstruction []
  | token :: rest => .ok token rest

def peek : Reader (Option String) := fun tokens => .ok tokens.head? tokens

/-- Takes all tokens that are left. -/
def rest : Reader (List String) := fun tokens => .ok tokens []

/-- Takes the token `want`, or refuses another one for the reason that `refusal` gives. -/
def take (want : String) (refusal : String → Reason) : Reader Unit := do
  let token ← next
  if token = want then pure () else throw (refusal token)

theorem take_eq_ok {want : String} {refusal : String → Reason} {tokens rest : List String}
    {u : Unit} : take want refusal tokens = .ok u rest ↔ tokens = want :: rest := by
  cases tokens with
  | nil => exact ⟨fun h => (nomatch h), fun h => (nomatch h)⟩
  | cons token tokens =>
    change (if token = want then pure () else throw (refusal token) : Reader Unit) tokens = _ ↔ _
    split
    case isTrue h =>
      change EStateM.Result.ok () tokens = _ ↔ _
      simp [h]
    case isFalse h =>
      change EStateM.Result.error (refusal token) tokens = _ ↔ _
      simp [h]

def expect (want : String) : Reader Unit :=
  take want (.expected want)

/-- Takes a token that `meaning` knows. -/
def known (meaning : String → Option α) (refusal : String → Reason) : Reader α := do
  let token ← next
  match meaning token with
  | some value => pure value
  | none => throw (refusal token)

theorem known_eq_ok {meaning : String → Option α} {refusal : String → Reason}
    {tokens rest : List String} {value : α} :
    known meaning refusal tokens = .ok value rest ↔
      ∃ token, tokens = token :: rest ∧ meaning token = some value := by
  cases tokens with
  | nil => exact ⟨fun h => (nomatch h), fun ⟨_, h, _⟩ => (nomatch h)⟩
  | cons token tokens =>
    change (match meaning token with
      | some value => pure value
      | none => throw (refusal token) : Reader α) tokens = _ ↔ _
    cases h : meaning token with
    | none =>
      change EStateM.Result.error (refusal token) tokens = _ ↔ _
      grind
    | some found =>
      change EStateM.Result.ok found tokens = _ ↔ _
      grind

def condition : Reader Condition :=
  known Condition.ofWord? .unknownCondition

def destination : Reader Register :=
  known Register.writable? .notWritable

def source : Reader Register :=
  known Register.readable? .notReadable

def startsWithDigit (token : String) : Bool :=
  token.toList.head?.any Char.isDigit

/-- The digits of an immediate and their radix, which `0x` or `0X` in front of them makes 16. -/
def radixDigits : List Char → Nat × List Char
  | '0' :: 'x' :: digits => (16, digits)
  | '0' :: 'X' :: digits => (16, digits)
  | digits => (10, digits)

def immediateOfToken (token : String) : Except Reason UInt32 :=
  if startsWithDigit token then
    let (radix, digits) := radixDigits token.toList
    (Text.readNumeral radix digits).mapError (.badImmediate token)
  else .error (.notNumber token)

def immediate : Reader UInt32 := do
  let token ← next
  match immediateOfToken token with
  | .ok value => pure value
  | .error reason => throw reason

/-- A comma, before which a point and what `read` takes may stand. -/
def suffix (read : Reader α) (refusal : String → Reason) : Reader (Option α) := do
  let token ← next
  if token = "." then
    let value ← read
    take "," refusal
    pure (some value)
  else if token = "," then pure none
  else throw (refusal token)

/-- Reads the text of a statement that stands at `line`. -/
def runAt (read : Reader α) (line : Nat) (text : String) : Except Diagnostic α :=
  match tokenize text with
  | none => .error (.malformed line .missingTerminator)
  | some tokens =>
    match read tokens with
    | .ok value _ => .ok value
    | .error reason _ => .error (.malformed line reason)

end Reader

end QuadAsm
