import LoadGenerator.Binary64.Text
import LoadGenerator.Json.Printer
import LoadGenerator.Text.Quoted
import LoadGenerator.Text.Utf8

/-!
# Problems in JSON

What can be wrong with a text or with a value that stands for a message, and the wording. A problem found in a text carries the line and the number of bytes read on it.
-/

namespace LoadGenerator

/-- What was found where something else was expected. -/
inductive Found where
  | null
  | bool (b : Bool)
  | number (n : JsonNumber)
  | string (s : String)
  | sequence
  | map
  deriving DecidableEq

def Found.message : Found → String
  | null => "null"
  | bool b => s!"boolean `{b}`"
  | number (.real x) => s!"floating point `{String.ofList (JsonNumber.real x).render}`"
  | number n => s!"integer `{String.ofList n.render}`"
  | string s => s!"string {Text.quoted s}"
  | sequence => "sequence"
  | map => "map"

def Json.found : Json → Found
  | null => .null
  | bool b => .bool b
  | number n => .number n
  | string s => .string s
  | array _ => .sequence
  | object _ => .map

/-- The kind of a problem: bad writing, a bad value, or a text that ends too early. -/
inductive ProblemKind where
  | malformed
  | data
  | incomplete
  deriving DecidableEq

inductive JsonProblem where
  | endInList
  | endInObject
  | endInString
  | endInValue
  | expectedColon
  | expectedListSeparator
  | expectedObjectSeparator
  | expectedWord
  | expectedValue
  | invalidEscape
  | invalidNumber
  | numberOutOfRange
  | controlCharacter
  | keyNotString
  | loneSurrogate
  | unfinishedSurrogate
  | trailingComma
  | trailingCharacters
  | tooDeep
  | missingField (name : String)
  | duplicateField (name : String)
  | unknownVariant (name : String) (expected : String)
  | invalidType (found : Found) (expected : String)
  | invalidValue (found : Found) (expected : String)
  | invalidLength (length : Nat) (expected : String)
  | noAlternative (name : String)
  deriving DecidableEq

namespace JsonProblem

def kind : JsonProblem → ProblemKind
  | endInList | endInObject | endInString | endInValue => .incomplete
  | missingField _ | duplicateField _ | unknownVariant _ _ | invalidType _ _ | invalidValue _ _ | invalidLength _ _
  | noAlternative _ => .data
  | _ => .malformed

def message : JsonProblem → String
  | endInList => "EOF while parsing a list"
  | endInObject => "EOF while parsing an object"
  | endInString => "EOF while parsing a string"
  | endInValue => "EOF while parsing a value"
  | expectedColon => "expected `:`"
  | expectedListSeparator => "expected `,` or `]`"
  | expectedObjectSeparator => "expected `,` or `\x7d`"
  | expectedWord => "expected ident"
  | expectedValue => "expected value"
  | invalidEscape => "invalid escape"
  | invalidNumber => "invalid number"
  | numberOutOfRange => "number out of range"
  | controlCharacter => "control character (\\u0000-\\u001F) found while parsing a string"
  | keyNotString => "key must be a string"
  | loneSurrogate => "lone leading surrogate in hex escape"
  | unfinishedSurrogate => "unexpected end of hex escape"
  | trailingComma => "trailing comma"
  | trailingCharacters => "trailing characters"
  | tooDeep => "recursion limit exceeded"
  | missingField name => s!"missing field `{name}`"
  | duplicateField name => s!"duplicate field `{name}`"
  | unknownVariant name expected => s!"unknown variant `{name}`, expected {expected}"
  | invalidType found expected => s!"invalid type: {found.message}, expected {expected}"
  | invalidValue found expected => s!"invalid value: {found.message}, expected {expected}"
  | invalidLength length expected => s!"invalid length {length}, expected {expected}"
  | noAlternative name => s!"data did not match any variant of untagged enum {name}"

end JsonProblem

/-- A line, counted from one, and the number of its bytes before the place. -/
structure TextPosition where
  line : Nat
  column : Nat
  deriving DecidableEq

/-- The position after the given number of bytes. -/
def TextPosition.after : Nat → Nat → List Char → Nat → TextPosition
  | line, column, [], _ => ⟨line, column⟩
  | line, column, c :: rest, bytes =>
    if bytes < c.utf8Size then ⟨line, column + bytes⟩
    else if c = '\n' then after (line + 1) 0 rest (bytes - 1)
    else after line (column + c.utf8Size) rest (bytes - c.utf8Size)

/-- A problem, with its place where a text was read. -/
structure JsonError where
  problem : JsonProblem
  position : Option TextPosition
  deriving DecidableEq

def JsonError.message (e : JsonError) : String :=
  match e.position with
  | none => e.problem.message
  | some p => s!"{e.problem.message} at line {p.line} column {p.column}"

end LoadGenerator
