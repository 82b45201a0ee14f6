import LoadGenerator.Json.Reader

/-!
# Passing over a value

The value of an unknown key is read without being kept. Only its form is checked: escapes by number may be any four digits, numbers of any size pass, and nesting has no limit, since the open brackets are a list instead of a recursion.
-/

namespace LoadGenerator.JsonReader

open Text

/-- A list or an object that is open. -/
inductive Enclosure where
  | list
  | object
  deriving DecidableEq

/-- What is awaited: a value, the first element after a bracket, or what follows a value. -/
inductive Awaited where
  | value
  | first
  | next

/-- At most `fuel` characters of a string up to its closing quote, unread escapes included. -/
def skipChars : Nat → JsonReader Unit
  | 0 => failHere .endInString
  | fuel + 1 => do
    match ← get with
    | [] => failHere .endInString
    | c :: rest =>
      if c = '"' then set rest
      else if c = '\\' then
        match rest with
        | [] => do set rest; failHere .endInString
        | d :: more =>
          if (escapeLetter? d).isSome then do set more; skipChars fuel
          else if d = 'u' then do
            set more
            let _ ← hexQuad
            skipChars fuel
          else do set rest; failNext .invalidEscape
      else if c.toNat < 0x20 then failHere .controlCharacter
      else do set rest; skipChars fuel

def skipString : JsonReader Unit := do
  advance
  let s ← get
  skipChars (s.length + 1)

def skipDigits : JsonReader Unit := modify fun s => s.dropWhile isDigit

def skipSomeDigits : JsonReader Unit := do
  let s ← get
  if startsWithDigit s then skipDigits else failNext .invalidNumber

def skipExponent : JsonReader Unit := do
  match ← get with
  | 'e' :: rest | 'E' :: rest => do
    set rest
    match rest with
    | '+' :: more | '-' :: more => set more
    | _ => pure ()
    skipSomeDigits
  | _ => pure ()

def skipUnsigned : JsonReader Unit := do
  match ← get with
  | '0' :: rest => do
    set rest
    if startsWithDigit rest then failNext .invalidNumber
  | _ => skipSomeDigits
  match ← get with
  | '.' :: rest => do
    set rest
    skipSomeDigits
    skipExponent
  | _ => skipExponent

/-- The key and colon that come before a value of an object. -/
def skipKey (enclosure : Enclosure) : JsonReader Unit := do
  match enclosure with
  | .list => pure ()
  | .object => do
    skipBlanks
    match ← get with
    | [] => failHere .endInObject
    | c :: _ => if c = '"' then do skipString; colon else failNext .keyNotString

def Enclosure.closes (enclosure : Enclosure) (c : Char) : Bool :=
  match enclosure with
  | .list => c == ']'
  | .object => c == '\x7d'

def Enclosure.endProblem : Enclosure → JsonProblem
  | .list => .endInList
  | .object => .endInObject

def Enclosure.separatorProblem : Enclosure → JsonProblem
  | .list => .expectedListSeparator
  | .object => .expectedObjectSeparator

/-- Passes over the rest of a value inside the open enclosures, innermost first. -/
def skipFrom : Nat → List Enclosure → Awaited → JsonReader Unit
  | 0, _, _ => pure ()
  | fuel + 1, open_, .value => do
    skipBlanks
    match ← get with
    | [] => failHere .endInValue
    | c :: rest =>
      if c = 'n' then do set rest; word ['u', 'l', 'l']; skipFrom fuel open_ .next
      else if c = 't' then do set rest; word ['r', 'u', 'e']; skipFrom fuel open_ .next
      else if c = 'f' then do set rest; word ['a', 'l', 's', 'e']; skipFrom fuel open_ .next
      else if c = '-' then do set rest; skipUnsigned; skipFrom fuel open_ .next
      else if isDigit c then do skipUnsigned; skipFrom fuel open_ .next
      else if c = '"' then do skipString; skipFrom fuel open_ .next
      else if c = '[' then do set rest; skipFrom fuel (.list :: open_) .first
      else if c = '\x7b' then do set rest; skipFrom fuel (.object :: open_) .first
      else failNext .expectedValue
  | _ + 1, [], _ => pure ()
  | fuel + 1, enclosure :: outer, .first => do
    skipBlanks
    match ← get with
    | [] => failHere enclosure.endProblem
    | c :: rest =>
      if enclosure.closes c then do set rest; skipFrom fuel outer .next
      else do skipKey enclosure; skipFrom fuel (enclosure :: outer) .value
  | fuel + 1, enclosure :: outer, .next => do
    skipBlanks
    match ← get with
    | [] => failHere enclosure.endProblem
    | c :: rest =>
      if c = ',' then do set rest; skipKey enclosure; skipFrom fuel (enclosure :: outer) .value
      else if enclosure.closes c then do set rest; skipFrom fuel outer .next
      else failNext enclosure.separatorProblem

/-- Passes over one value. Each step reads a character or turns from a bracket to its content. -/
def skipValue : JsonReader Unit := do
  let s ← get
  skipFrom (2 * s.length + 2) [] .value

end LoadGenerator.JsonReader
