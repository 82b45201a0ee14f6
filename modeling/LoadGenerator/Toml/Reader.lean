import LoadGenerator.Toml.Scalar

/-!
# Reading TOML values

Readers of the pieces of a document: blanks, comments, keys, the four kinds of strings, arrays and inline tables. A reader takes characters off the front of the text or gives up. Line ends are a line feed with an optional carriage return before it, and no other control character but the tab may occur.
-/

namespace LoadGenerator.Toml

open Text

abbrev Reader (α : Type) := StateT (List Char) Option α

namespace Reader

def fail : Reader α := fun _ => none

def skipBlanks : Reader Unit := modify fun s => s.dropWhile fun c => c == ' ' || c == '\t'

def isForbidden (c : Char) : Bool := (decide (c.toNat < 0x20) && c != '\t') || c == '\x7f'

def mark (c : Char) : Reader Unit := do
  match ← get with
  | d :: rest => if c = d then set rest else fail
  | [] => fail

def lineEnd? : List Char → Option (List Char)
  | '\n' :: rest => some rest
  | '\r' :: '\n' :: rest => some rest
  | _ => none

def skipComment : Reader Unit := do
  match ← get with
  | '#' :: rest => set (rest.dropWhile fun c => !isForbidden c)
  | _ => pure ()

/-- The rest of a line: blanks, an optional comment, and a line end or the end of the text. -/
def finishLine : Reader Unit := do
  skipBlanks
  skipComment
  match ← get with
  | [] => pure ()
  | s => match lineEnd? s with
    | some rest => set rest
    | none => fail

/-- Blanks, comments and line ends, as many as the fuel allows. -/
def skipLines : Nat → Reader Unit
  | 0 => pure ()
  | fuel + 1 => do
    skipBlanks
    skipComment
    match lineEnd? (← get) with
    | some rest => do set rest; skipLines fuel
    | none => pure ()

def skipAllLines : Reader Unit := do
  let s ← get
  skipLines (s.length + 1)

/-- A character by its number in so many hexadecimal digits. -/
def numbered (count : Nat) : Reader Char := do
  let s ← get
  let digits := s.take count
  if digits.length = count ∧ digits.all (isDigitIn 16) then
    let n := numberIn 16 digits
    if n < 0xd800 ∨ 0xdfff < n ∧ n < 0x110000 then do
      set (s.drop count)
      pure (Char.ofNat n)
    else fail
  else fail

def escape : Reader Char := do
  match ← get with
  | [] => fail
  | c :: rest => do
    set rest
    match c with
    | 'b' => pure '\x08'
    | 't' => pure '\t'
    | 'n' => pure '\n'
    | 'f' => pure '\x0c'
    | 'r' => pure '\r'
    | 'e' => pure '\x1b'
    | '"' => pure '"'
    | '\\' => pure '\\'
    | 'x' => numbered 2
    | 'u' => numbered 4
    | 'U' => numbered 8
    | _ => fail

/-- A string on one line up to its closing quote. -/
def shortString (quote : Char) (escapes : Bool) : Nat → Reader (List Char)
  | 0 => fail
  | fuel + 1 => do
    match ← get with
    | [] => fail
    | c :: rest =>
      if c = quote then do set rest; pure []
      else if escapes ∧ c = '\\' then do
        set rest
        let d ← escape
        return d :: (← shortString quote escapes fuel)
      else if isForbidden c then fail
      else do
        set rest
        return c :: (← shortString quote escapes fuel)

def skipEmptyLines : List Char → List Char
  | '\r' :: '\n' :: rest => skipEmptyLines rest
  | c :: rest => if c = ' ' ∨ c = '\t' ∨ c = '\n' then skipEmptyLines rest else c :: rest
  | [] => []

/-- After a backslash at the end of a line: all blanks and line ends, of which there is at least one line end. -/
def joinLines? (s : List Char) : Option (List Char) :=
  (lineEnd? (s.dropWhile fun c => c == ' ' || c == '\t')).map skipEmptyLines

/-- A string over several lines, with its line ends as they are, up to three quotes; up to two more quotes before them belong to it. -/
def longString (quote : Char) (escapes : Bool) : Nat → Reader (List Char)
  | 0 => fail
  | fuel + 1 => do
    let s ← get
    match s with
    | [] => fail
    | c :: rest =>
      if s.take 3 = [quote, quote, quote] then
        let extra := ((s.drop 3).take 2).takeWhile (· == quote)
        set (s.drop (3 + extra.length))
        pure extra
      else if escapes ∧ c = '\\' then
        match joinLines? rest with
        | some after => do
          set after
          longString quote escapes fuel
        | none => do
          set rest
          let d ← escape
          return d :: (← longString quote escapes fuel)
      else
        match lineEnd? s with
        | some after => do
          set after
          return s.take (s.length - after.length) ++ (← longString quote escapes fuel)
        | none =>
          if isForbidden c then fail
          else do
            set rest
            return c :: (← longString quote escapes fuel)

/-- A quoted string of one line, from its quote on. -/
def quotedKey (quote : Char) : Reader String := do
  mark quote
  let s ← get
  return String.ofList (← shortString quote (quote == '"') (s.length + 1))

/-- A string of either length, from its quote on. -/
def quotedString (quote : Char) : Reader String := do
  let s ← get
  if s.take 3 = [quote, quote, quote] then do
    let content := s.drop 3
    set ((lineEnd? content).getD content)
    return String.ofList (← longString quote (quote == '"') (s.length + 1))
  else quotedKey quote

def isKeyChar (c : Char) : Bool := c.isAlphanum || c == '_' || c == '-'

def keyPart : Reader String := do
  match ← get with
  | '"' :: _ => quotedKey '"'
  | '\'' :: _ => quotedKey '\''
  | s =>
    let bare := s.takeWhile isKeyChar
    if bare.isEmpty then fail
    else do
      set (s.drop bare.length)
      pure (String.ofList bare)

/-- The parts of a dotted key, as many as the fuel allows. -/
def keyParts : Nat → Reader (List String)
  | 0 => fail
  | fuel + 1 => do
    skipBlanks
    let part ← keyPart
    skipBlanks
    match ← get with
    | '.' :: rest => do
      set rest
      return part :: (← keyParts fuel)
    | _ => pure [part]

def longestKey : Nat := 80

def key : Reader (List String) := keyParts longestKey

def isScalarChar (c : Char) : Bool := c.isAlphanum || c == '_' || c == '-' || c == '+' || c == '.' || c == ':'

/-- An unquoted scalar; a date may be followed by a blank and a time. -/
def unquoted : Reader TomlValue := do
  let s ← get
  let first := s.takeWhile isScalarChar
  let after := s.drop first.length
  let whole := match after with
    | ' ' :: c :: rest =>
      if date? first = some [] ∧ isDigit c then first ++ ' ' :: (c :: rest).takeWhile isScalarChar else first
    | _ => first
  match scalar? whole with
  | some value => do
    set (s.drop whole.length)
    pure value
  | none => fail

end Reader

/-- Adds a value at a dotted key of an inline table; only tables made by dotted keys take more than one value. -/
inductive InlineNode where
  | value (v : TomlValue)
  | dotted (entries : List (String × InlineNode))

namespace InlineNode

mutual

def toValue : InlineNode → TomlValue
  | value v => v
  | dotted entries => .table (toEntries entries)

def toEntries : List (String × InlineNode) → List (String × TomlValue)
  | [] => []
  | (key, node) :: rest => (key, node.toValue) :: toEntries rest

end

/-- The entries of a table made by dotted keys, or none yet. -/
def dottedEntries? : Option InlineNode → Option (List (String × InlineNode))
  | none => some []
  | some (dotted entries) => some entries
  | some (value _) => none

def insert? : List String → TomlValue → List (String × InlineNode) → Option (List (String × InlineNode))
  | [], _, _ => none
  | [key], v, entries => if (entries.lookup key).isSome then none else some (entries ++ [(key, .value v)])
  | key :: path, v, entries => do
    let inner ← dottedEntries? (entries.lookup key)
    let inner ← insert? path v inner
    return (entries.filter fun (other, _) => other != key) ++ [(key, .dotted inner)]

end InlineNode

namespace Reader

/-- The items of an array after its bracket, as many as the fuel allows. -/
def arrayItems (item : Reader TomlValue) : Nat → Reader (List TomlValue)
  | 0 => fail
  | fuel + 1 => do
    skipAllLines
    match ← get with
    | ']' :: rest => do set rest; pure []
    | _ => do
      let v ← item
      skipAllLines
      match ← get with
      | ',' :: rest => do
        set rest
        return v :: (← arrayItems item fuel)
      | ']' :: rest => do set rest; pure [v]
      | _ => fail

/-- The entries of an inline table after its brace, as many as the fuel allows. -/
def inlineEntries (item : Reader TomlValue) : Nat → List (String × InlineNode) → Reader (List (String × InlineNode))
  | 0, _ => fail
  | fuel + 1, entries => do
    skipAllLines
    match ← get with
    | '\x7d' :: rest => do set rest; pure entries
    | _ => do
      let path ← key
      skipAllLines
      mark '='
      skipAllLines
      let v ← item
      let some entries := InlineNode.insert? path v entries | fail
      skipAllLines
      match ← get with
      | ',' :: rest => do
        set rest
        inlineEntries item fuel entries
      | '\x7d' :: rest => do set rest; pure entries
      | _ => fail

/-- A value without a bracket in front; `other` takes the brackets. -/
def valueOr (other : Char → Reader TomlValue) : Reader TomlValue := do
  match ← get with
  | [] => fail
  | c :: _ =>
    if c = '"' ∨ c = '\'' then .string <$> quotedString c
    else if c = '[' ∨ c = '\x7b' then other c
    else unquoted

/-- A value with at most so many arrays and inline tables around each other. -/
def value : Nat → Reader TomlValue
  | 0 => valueOr fun _ => fail
  | depth + 1 => valueOr fun c => do
    mark c
    let s ← get
    if c = '[' then .array <$> arrayItems (value depth) (s.length + 1)
    else (fun entries => .table (InlineNode.toEntries entries)) <$> inlineEntries (value depth) (s.length + 1) []

end Reader

end LoadGenerator.Toml
