import LoadGenerator.Json.Problem

/-!
# Reading JSON text: characters, words, strings and numbers

A reader takes the rest of the text and returns a result with what it left, or a failure. A failure is placed by the number of bytes not yet read, which fixes its position in the whole text. A failure that concerns a whole list or object is unplaced at first and gets its place where the reader of the list or object stops.
-/

namespace LoadGenerator

open Text

/-- Why reading stopped. -/
inductive ReadFailure where
  | placed (problem : JsonProblem) (bytesLeft : Nat)
  | unplaced (problem : JsonProblem) (rest : List Char)

/-- A reader of the front of a text. -/
abbrev JsonReader (α : Type) := StateT (List Char) (Except ReadFailure) α

namespace JsonReader

def failHere (problem : JsonProblem) : JsonReader α := fun s => .error (.placed problem (Utf8.size s))

/-- Fails one byte further, where the next character counts as read. -/
def failNext (problem : JsonProblem) : JsonReader α := fun s => .error (.placed problem (Utf8.size s - 1))

def failUnplaced (problem : JsonProblem) : JsonReader α := fun s => .error (.unplaced problem s)

/-- The blanks between tokens. -/
def isJsonBlank (c : Char) : Bool := c == ' ' || c == '\n' || c == '\t' || c == '\r'

def skipBlanks : JsonReader Unit := modify fun s => s.dropWhile isJsonBlank

def advance : JsonReader Unit := modify fun s => s.drop 1

def word : List Char → JsonReader Unit
  | [] => pure ()
  | c :: more => do
    match ← get with
    | [] => failHere .endInValue
    | d :: rest => if c = d then do set rest; word more else failNext .expectedWord

def hexQuad : JsonReader Nat := do
  let s ← get
  match s with
  | a :: b :: c :: d :: rest =>
    match hexValue? a, hexValue? b, hexValue? c, hexValue? d with
    | some a, some b, some c, some d => do set rest; pure (((a * 16 + b) * 16 + c) * 16 + d)
    | _, _, _, _ => throw (.placed .invalidEscape (Utf8.size s - 4))
  | _ => if Utf8.size s < 4 then throw (.placed .endInString 0) else throw (.placed .invalidEscape (Utf8.size s - 4))

/-- The given character, which continues an escape of two parts. -/
def surrogateMark (mark : Char) : JsonReader Unit := do
  match ← get with
  | [] => failHere .endInString
  | c :: rest => if c = mark then set rest else failNext .unfinishedSurrogate

/-- The character of an escape by number, of one part or of two. -/
def numberedEscape : JsonReader Char := do
  let high ← hexQuad
  if 0xdc00 ≤ high ∧ high ≤ 0xdfff then failHere .loneSurrogate
  else if high < 0xd800 ∨ 0xdbff < high then pure (Char.ofNat high)
  else
    surrogateMark '\\'
    surrogateMark 'u'
    let low ← hexQuad
    if 0xdc00 ≤ low ∧ low ≤ 0xdfff then pure (Char.ofNat ((high - 0xd800) * 0x400 + (low - 0xdc00) + 0x10000))
    else failHere .loneSurrogate

/-- The character that a letter after a backslash stands for. -/
def escapeLetter? (c : Char) : Option Char :=
  match c with
  | '"' => some '"'
  | '\\' => some '\\'
  | '/' => some '/'
  | 'b' => some '\x08'
  | 'f' => some '\x0c'
  | 'n' => some '\n'
  | 'r' => some '\r'
  | 't' => some '\t'
  | _ => none

def escape : JsonReader Char := do
  match ← get with
  | [] => failHere .endInString
  | c :: rest =>
    match escapeLetter? c with
    | some d => do set rest; pure d
    | none => if c = 'u' then do set rest; numberedEscape else failNext .invalidEscape

/-- At most `fuel` characters of a string up to its closing quote. -/
def stringChars : Nat → JsonReader (List Char)
  | 0 => failHere .endInString
  | fuel + 1 => do
    match ← get with
    | [] => failHere .endInString
    | c :: rest =>
      if c = '"' then do set rest; pure []
      else if c = '\\' then do
        set rest
        let d ← escape
        return d :: (← stringChars fuel)
      else if c.toNat < 0x20 then failNext .controlCharacter
      else do
        set rest
        return c :: (← stringChars fuel)

def string : JsonReader String := do
  advance
  let s ← get
  return String.ofList (← stringChars (s.length + 1))

/-- Reads digits into a number as long as it stays below the limit. -/
def digitsBelow (limit : Nat) : Nat → List Char → Nat × List Char
  | n, [] => (n, [])
  | n, c :: rest =>
    if isDigit c && decide (10 * n + digitValue c < limit) then digitsBelow limit (10 * n + digitValue c) rest
    else (n, c :: rest)

def startsWithDigit : List Char → Bool
  | [] => false
  | c :: _ => isDigit c

/-- Scales by a power of ten in steps of binary64 arithmetic; none where the number is too large. -/
def scale (x : Binary64) (power : Int) : Option Binary64 :=
  if power.natAbs ≤ 308 then
    if 0 ≤ power then
      let y := x.mul (Binary64.ofNat (Nat.pow 10 power.toNat))
      if y.isFinite then some y else none
    else some (x.div (Binary64.ofNat (Nat.pow 10 power.natAbs)))
  else if x.isZero then some x
  else if 0 ≤ power then none
  else scale (x.div (Binary64.ofNat (Nat.pow 10 308))) (power + 308)
termination_by power.natAbs
decreasing_by omega

def scaledNumber (negative : Bool) (significand : Nat) (power : Int) : JsonReader JsonNumber :=
  match scale (Binary64.ofNat significand) power with
  | some x => pure (.real (if negative then x.neg else x))
  | none => failHere .numberOutOfRange

/-- Powers of ten saturate at the ends of the 32-bit integers. -/
def saturate (n : Int) : Int := max (-2147483648) (min 2147483647 n)

def exponent (negative : Bool) (significand : Nat) (power : Int) : JsonReader JsonNumber := do
  let below ← modifyGet fun s =>
    match s with
    | '+' :: rest => (false, rest)
    | '-' :: rest => (true, rest)
    | rest => (false, rest)
  match ← get with
  | [] => failHere .endInValue
  | c :: rest =>
    if isDigit c then
      let (shift, rest) := digitsBelow 0x80000000 0 (c :: rest)
      set rest
      if startsWithDigit rest then
        if significand != 0 && !below then failNext .numberOutOfRange
        else do
          set (rest.dropWhile isDigit)
          pure (.real (Binary64.ofMagnitude negative 0))
      else scaledNumber negative significand (saturate (if below then power - shift else power + shift))
    else failNext .invalidNumber

/-- What may follow the digits of a number that is not an integer. -/
def exponentOrEnd (negative : Bool) (significand : Nat) (power : Int) : JsonReader JsonNumber := do
  match ← get with
  | 'e' :: rest | 'E' :: rest => do set rest; exponent negative significand power
  | _ => scaledNumber negative significand power

/-- The fraction after the point. Digits that no longer fit the significand are dropped. -/
def fraction (negative : Bool) (significand : Nat) (power : Int) : JsonReader JsonNumber := do
  let s ← get
  let (n, rest) := digitsBelow UInt64.size significand s
  let count := s.length - rest.length
  set rest
  if startsWithDigit rest then do
    set (rest.dropWhile isDigit)
    exponentOrEnd negative n (power - count)
  else if count = 0 then
    if rest.isEmpty then failHere .endInValue else failNext .invalidNumber
  else exponentOrEnd negative n (power - count)

/-- An integer that fits 64 bits, the real number nearest to it otherwise. -/
def integerNumber (negative : Bool) (significand : Nat) : JsonNumber :=
  if negative then
    if h : 0 < significand ∧ significand ≤ 0x8000000000000000 then .negative ⟨significand - 1, by omega⟩
    else .real (Binary64.ofNat significand).neg
  else .natural (UInt64.ofNat significand)

/-- What may follow the integer digits of a number. -/
def afterInteger (negative : Bool) (significand : Nat) : JsonReader JsonNumber := do
  match ← get with
  | '.' :: rest => do set rest; fraction negative significand 0
  | 'e' :: rest | 'E' :: rest => do set rest; exponent negative significand 0
  | _ => pure (integerNumber negative significand)

/-- The digits past a significand of 64 bits only count. -/
def longInteger (negative : Bool) (significand : Nat) : JsonReader JsonNumber := do
  let s ← get
  let (digits, rest) := splitDigits s
  set rest
  match rest with
  | '.' :: more => do set more; fraction negative significand digits.length
  | _ => exponentOrEnd negative significand digits.length

def unsignedNumber (negative : Bool) : JsonReader JsonNumber := do
  match ← get with
  | [] => failHere .endInValue
  | '0' :: rest => do
    set rest
    if startsWithDigit rest then failNext .invalidNumber else afterInteger negative 0
  | c :: rest =>
    if isDigit c then
      let (n, rest) := digitsBelow UInt64.size 0 (c :: rest)
      set rest
      if startsWithDigit rest then longInteger negative n else afterInteger negative n
    else failNext .invalidNumber

def number : JsonReader JsonNumber := do
  match ← get with
  | '-' :: rest => do set rest; unsignedNumber true
  | _ => unsignedNumber false

def startsNumber (c : Char) : Bool := c == '-' || isDigit c

/-- Whether a list goes on with an element; a separator is read on the way. -/
def nextElement (first : Bool) : JsonReader Bool := do
  skipBlanks
  match ← get with
  | [] => failHere .endInList
  | c :: rest =>
    if c = ']' then pure false
    else if first then pure true
    else if c = ',' then do
      set rest
      skipBlanks
      match ← get with
      | [] => failHere .endInValue
      | d :: _ => if d = ']' then failNext .trailingComma else pure true
    else failNext .expectedListSeparator

/-- The key of the next member of an object, if there is one. -/
def nextKey (first : Bool) : JsonReader (Option String) := do
  skipBlanks
  match ← get with
  | [] => failHere .endInObject
  | c :: rest =>
    if c = '\x7d' then pure none
    else if first then
      if c = '"' then some <$> string else failNext .keyNotString
    else if c = ',' then do
      set rest
      skipBlanks
      match ← get with
      | [] => failHere .endInValue
      | d :: _ =>
        if d = '"' then some <$> string
        else if d = '\x7d' then failNext .trailingComma
        else failNext .keyNotString
    else failNext .expectedObjectSeparator

def colon : JsonReader Unit := do
  skipBlanks
  match ← get with
  | [] => failHere .endInObject
  | c :: rest => if c = ':' then set rest else failNext .expectedColon

/-- The end of a list, and the place where looking for it stops. -/
def endList (s : List Char) : Except ReadFailure Unit × List Char :=
  match s.dropWhile isJsonBlank with
  | [] => (.error (.placed .endInList 0), [])
  | c :: rest =>
    if c = ']' then (.ok (), rest)
    else if c = ',' then
      let after := rest.dropWhile isJsonBlank
      (.error (.placed (if after.head? = some ']' then .trailingComma else .trailingCharacters) (Utf8.size after - 1)), after)
    else (.error (.placed .trailingCharacters (Utf8.size (c :: rest) - 1)), c :: rest)

/-- The end of an object, and the place where looking for it stops. -/
def endObject (s : List Char) : Except ReadFailure Unit × List Char :=
  match s.dropWhile isJsonBlank with
  | [] => (.error (.placed .endInObject 0), [])
  | c :: rest =>
    if c = '\x7d' then (.ok (), rest)
    else
      (.error (.placed (if c = ',' then .trailingComma else .trailingCharacters) (Utf8.size (c :: rest) - 1)), c :: rest)

/-- A list or an object, from its opening bracket on. A failure of the inside without a place gets the place where the outside stops. -/
def bracketed (finish : List Char → Except ReadFailure Unit × List Char) (inside : JsonReader α) : JsonReader α := fun s =>
  match inside (s.drop 1) with
  | .ok (a, rest) =>
    match finish rest with
    | (.ok (), rest) => .ok (a, rest)
    | (.error failure, _) => .error failure
  | .error (.placed problem left) => .error (.placed problem left)
  | .error (.unplaced problem rest) => .error (.placed problem (Utf8.size (finish rest).2))

/-- Elements up to the end of a list, as many as the fuel allows. -/
def elements (element : JsonReader α) : Nat → Bool → JsonReader (List α)
  | 0, _ => pure []
  | fuel + 1, first => do
    if ← nextElement first then
      let a ← element
      return a :: (← elements element fuel false)
    else pure []

/-- Members up to the end of an object, as many as the fuel allows. -/
def members (value : JsonReader α) : Nat → Bool → JsonReader (List (String × α))
  | 0, _ => pure []
  | fuel + 1, first => do
    match ← nextKey first with
    | none => pure []
    | some key => do
      colon
      let a ← value
      return (key, a) :: (← members value fuel false)

def list (element : JsonReader α) : JsonReader (List α) :=
  bracketed endList do
    let s ← get
    elements element (s.length + 1) true

def object (value : JsonReader α) : JsonReader (List (String × α)) :=
  bracketed endObject do
    let s ← get
    members value (s.length + 1) true

/-- A word, number or string, from its first character on; anything else is left to `other`. -/
def scalarOr (other : Char → JsonReader Json) : JsonReader Json := do
  match ← get with
  | [] => failHere .endInValue
  | c :: rest =>
    if c = 'n' then do set rest; word ['u', 'l', 'l']; pure .null
    else if c = 't' then do set rest; word ['r', 'u', 'e']; pure (.bool true)
    else if c = 'f' then do set rest; word ['a', 'l', 's', 'e']; pure (.bool false)
    else if startsNumber c then Json.number <$> number
    else if c = '"' then Json.string <$> string
    else other c

/-- Any value with at most `depth` lists and objects around each other. -/
def value : Nat → JsonReader Json
  | 0 => do
    skipBlanks
    scalarOr fun c => failNext (if c = '[' ∨ c = '\x7b' then .tooDeep else .expectedValue)
  | depth + 1 => do
    skipBlanks
    scalarOr fun c =>
      if c = '[' then Json.array <$> list (value depth)
      else if c = '\x7b' then (fun ms => Json.object (Json.sortMembers ms)) <$> object (value depth)
      else failNext .expectedValue

def finished : JsonReader Unit := do
  skipBlanks
  match ← get with
  | [] => pure ()
  | _ => failNext .trailingCharacters

/-- The number of lists and objects that may surround each other. -/
def depthLimit : Nat := 127

def run (reader : JsonReader α) (text : List Char) : Except JsonError α :=
  match (do let a ← reader; finished; return a : JsonReader α) text with
  | .ok (a, _) => .ok a
  | .error (.placed problem left) =>
    .error ⟨problem, some (TextPosition.after 1 0 text (Utf8.size text - left))⟩
  | .error (.unplaced problem _) => .error ⟨problem, none⟩

end JsonReader

def Json.parse (text : String) : Except JsonError Json := (JsonReader.value JsonReader.depthLimit).run text.toList

end LoadGenerator
