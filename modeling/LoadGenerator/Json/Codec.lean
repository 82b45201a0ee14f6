import LoadGenerator.Json.Skip

/-!
# Codecs

A codec says how the values of a type are read straight from a text, how they are taken from a JSON value, and how they are put into one. The two directions of reading accept the same values but report problems differently: a text is read in the order of its characters, a value in the order of its keys.
-/

namespace LoadGenerator

open JsonReader

/-- Reading and writing of one type. The number given to `read` bounds the lists and objects around each other. -/
structure JsonCodec (α : Type) where
  read : Nat → JsonReader α
  decode : Json → Except JsonProblem α
  encode : α → Json

namespace JsonReader

/-- Fails at a value of another kind; a word, number or string is read to its end first. -/
def wrongType (expected : String) : JsonReader α := do
  skipBlanks
  let v ← scalarOr fun c =>
    if c = '[' then pure (.array []) else if c = '\x7b' then pure (.object []) else failNext .expectedValue
  failHere (.invalidType v.found expected)

/-- Reads the next value by its first character, where `reader` takes that character. -/
def expecting (accepts : Char → Bool) (expected : String) (reader : JsonReader α) : JsonReader α := do
  skipBlanks
  match ← get with
  | c :: _ => if accepts c then reader else wrongType expected
  | [] => wrongType expected

/-- Puts a problem with the value just read at its end. -/
def placeHere : Except JsonProblem α → JsonReader α
  | .ok a => pure a
  | .error problem => failHere problem

end JsonReader

namespace JsonCodec

/-- Takes the value of one kind, or reports the kind found. -/
def expect (expected : String) (take? : Json → Option α) (value : Json) : Except JsonProblem α :=
  match take? value with
  | some a => .ok a
  | none => .error (.invalidType value.found expected)

def string : JsonCodec String where
  read _ := expecting (· == '"') "a string" JsonReader.string
  decode := expect "a string" Json.string?
  encode := .string

def bool : JsonCodec Bool where
  read _ := expecting (fun c => c == 't' || c == 'f') "a boolean" do
    match ← get with
    | 't' :: rest => do set rest; word ['r', 'u', 'e']; pure true
    | rest => do set (rest.drop 1); word ['a', 'l', 's', 'e']; pure false
  decode := expect "a boolean" fun
    | .bool b => some b
    | _ => none
  encode := .bool

def integerWithin (expected : String) (low high : Int) (n : JsonNumber) : Except JsonProblem Int :=
  match n.toInt? with
  | none => .error (.invalidType (.number n) expected)
  | some i => if low ≤ i ∧ i ≤ high then .ok i else .error (.invalidValue (.number n) expected)

def ofNumber (expected : String) (take : JsonNumber → Except JsonProblem α) (give : α → Json) : JsonCodec α where
  read _ := expecting startsNumber expected do placeHere (take (← JsonReader.number))
  decode
    | .number n => take n
    | value => .error (.invalidType value.found expected)
  encode := give

def int32 : JsonCodec Int32 :=
  ofNumber "i32" (fun n => Int32.ofInt <$> integerWithin "i32" Int32.minValue.toInt Int32.maxValue.toInt n) fun n => .number (.ofInt32 n)

def int64 : JsonCodec Int64 :=
  ofNumber "i64" (fun n => Int64.ofInt <$> integerWithin "i64" Int64.minValue.toInt Int64.maxValue.toInt n) fun n => .number (.ofInt64 n)

/-- A number that is not finite has no JSON form and is written as null. -/
def real : JsonCodec Binary64 :=
  ofNumber "f64" (fun n => .ok n.toBinary64) fun x => if x.isFinite then .number (.real x) else .null

/-- Null stands for an absent value. -/
def option (inner : JsonCodec α) : JsonCodec (Option α) where
  read depth := do
    skipBlanks
    match ← get with
    | 'n' :: rest => do set rest; word ['u', 'l', 'l']; pure none
    | _ => some <$> inner.read depth
  decode
    | .null => .ok none
    | value => some <$> inner.decode value
  encode
    | none => .null
    | some a => inner.encode a

def json : JsonCodec Json where
  read := JsonReader.value
  decode := .ok
  encode := id

def decodeMembers (inner : JsonCodec α) : List (String × Json) → Except JsonProblem (List (String × α))
  | [] => .ok []
  | (key, value) :: rest => do
    let a ← inner.decode value
    return (key, a) :: (← decodeMembers inner rest)

/-- An object whose members are of one kind, in the order of the keys. -/
def map (inner : JsonCodec α) : JsonCodec (List (String × α)) where
  read
    | 0 => expecting (· == '\x7b') "a map" (failNext .tooDeep)
    | depth + 1 => expecting (· == '\x7b') "a map" (Json.sortMembers <$> JsonReader.object (inner.read depth))
  decode
    | .object members => Json.sortMembers <$> decodeMembers inner members
    | value => .error (.invalidType value.found "a map")
  encode members := .object (members.map fun (key, a) => (key, inner.encode a))

def parse (codec : JsonCodec α) (text : String) : Except JsonError α :=
  (codec.read depthLimit).run text.toList

def ofJson (codec : JsonCodec α) (value : Json) : Except JsonError α :=
  (codec.decode value).mapError fun problem => ⟨problem, none⟩

/-- The compact text of a value of the type. -/
def render (codec : JsonCodec α) (a : α) : String := (codec.encode a).text

/-- The value as a part of another JSON value. -/
def toJson (codec : JsonCodec α) (a : α) : Json := (codec.encode a).canonical

end JsonCodec

end LoadGenerator
