import LoadGenerator.Json.Codec

/-!
# Records

A record type is read from an object, in any order of its members and past unknown ones, or from a list of its members in their order. Both start from a blank record and fill in one member after another.
-/

namespace LoadGenerator

open JsonReader

/-- What happens where a member does not occur. -/
inductive Presence where
  /-- The blank record's value stays. -/
  | defaulted
  /-- The same for an object, but a list has to have it. -/
  | optional
  | required
  deriving DecidableEq

/-- One member of the records of a type. -/
structure RecordMember (α : Type) where
  name : String
  presence : Presence
  read : Nat → α → JsonReader α
  decode : Json → α → Except JsonProblem α
  /-- Nothing where the member is left out. -/
  encode : α → Option Json

def RecordMember.of (name : String) (presence : Presence) (codec : JsonCodec β) (get : α → β) (put : β → α → α)
    (omitted : β → Bool) : RecordMember α where
  name := name
  presence := presence
  read depth a := return put (← codec.read depth) a
  decode value a := return put (← codec.decode value) a
  encode a := if omitted (get a) then none else some (codec.encode (get a))

/-- A record type: its name in messages, its members in order, and its blank record. -/
structure RecordType (α : Type) where
  name : String
  members : List (RecordMember α)
  blank : α

namespace RecordType

def member? (record : RecordType α) (key : String) : Option (RecordMember α) :=
  record.members.find? fun member => member.name == key

def describe (record : RecordType α) : String := s!"struct {record.name}"

/-- The first member that has to occur and does not. -/
def missing? (record : RecordType α) (seen : List String) : Option String :=
  (record.members.find? fun member => member.presence == .required && !seen.contains member.name).map (·.name)

def tooShort (record : RecordType α) (length : Nat) : JsonProblem :=
  .invalidLength length s!"{record.describe} with {record.members.length} elements"

/-- Members up to the end of an object, as many as the fuel allows, with the names that occurred. -/
def readMembers (record : RecordType α) (depth : Nat) : Nat → Bool → List String → α → JsonReader (List String × α)
  | 0, _, seen, a => pure (seen, a)
  | fuel + 1, first, seen, a => do
    match ← nextKey first with
    | none => pure (seen, a)
    | some key =>
      match record.member? key with
      | none => do
        colon
        skipValue
        readMembers record depth fuel false seen a
      | some member =>
        if seen.contains key then failUnplaced (.duplicateField key)
        else do
          colon
          let a ← member.read depth a
          readMembers record depth fuel false (key :: seen) a

def readObject (record : RecordType α) (depth : Nat) : JsonReader α := do
  let s ← get
  let (seen, a) ← readMembers record depth (s.length + 1) true [] record.blank
  match record.missing? seen with
  | some name => failUnplaced (.missingField name)
  | none => pure a

/-- The remaining members from the inside of a list, `count` of them read before. -/
def readItems (record : RecordType α) (depth : Nat) : List (RecordMember α) → Nat → α → JsonReader α
  | [], _, a => pure a
  | member :: rest, count, a => do
    if ← nextElement (count == 0) then
      let a ← member.read depth a
      readItems record depth rest (count + 1) a
    else if member.presence = .defaulted then readItems record depth rest count a
    else failUnplaced (record.tooShort count)

def read (record : RecordType α) : Nat → JsonReader α
  | 0 => expecting (fun c => c == '[' || c == '\x7b') record.describe (failNext .tooDeep)
  | depth + 1 => expecting (fun c => c == '[' || c == '\x7b') record.describe do
    match ← get with
    | '[' :: _ => bracketed endList (readItems record depth record.members 0 record.blank)
    | _ => bracketed endObject (readObject record depth)

def decodeObject (record : RecordType α) : List (String × Json) → List String → α → Except JsonProblem α
  | [], seen, a =>
    match record.missing? seen with
    | some name => .error (.missingField name)
    | none => .ok a
  | (key, value) :: rest, seen, a =>
    match record.member? key with
    | none => decodeObject record rest seen a
    | some member => do
      let a ← member.decode value a
      decodeObject record rest (key :: seen) a

/-- Takes the remaining members from a list, `count` of them taken before. -/
def decodeItems (record : RecordType α) : List (RecordMember α) → List Json → Nat → α → Except JsonProblem α
  | [], items, count, a =>
    if items.isEmpty then .ok a else .error (.invalidLength (count + items.length) "fewer elements in array")
  | member :: rest, item :: items, count, a => do
    let a ← member.decode item a
    decodeItems record rest items (count + 1) a
  | member :: rest, [], count, a =>
    if member.presence = .defaulted then decodeItems record rest [] count a else .error (record.tooShort count)

def decode (record : RecordType α) : Json → Except JsonProblem α
  | .object members => decodeObject record members [] record.blank
  | .array items => decodeItems record record.members items 0 record.blank
  | value => .error (.invalidType value.found record.describe)

/-- The members that are written, in order. -/
def encodeMembers (members : List (RecordMember α)) (a : α) : List (String × Json) :=
  members.filterMap fun member => (member.encode a).map fun value => (member.name, value)

def codec (record : RecordType α) : JsonCodec α where
  read := record.read
  decode := record.decode
  encode a := .object (encodeMembers record.members a)

end RecordType

end LoadGenerator
