import LoadGenerator.Binary64

/-!
# JSON values

Numbers keep the form in which they were written: natural numbers and negative integers of 64 bits stay exact, anything else is a finite binary64 number. The members of an object are a list of pairs. A value that was read, or that stands for a message inside another one, is canonical: its keys increase, so that each key occurs once.
-/

namespace LoadGenerator

inductive JsonNumber where
  | natural (n : UInt64)
  /-- The integer `-1 - n`. -/
  | negative (n : Fin 0x8000000000000000)
  | real (x : Binary64)
  deriving DecidableEq

namespace JsonNumber

def ofInt64 (n : Int64) : JsonNumber :=
  if h : n.toInt < 0 then .negative ⟨(-1 - n.toInt).toNat, by have := n.le_toInt; omega⟩
  else .natural (UInt64.ofNat n.toInt.toNat)

def ofInt32 (n : Int32) : JsonNumber := ofInt64 n.toInt64

/-- The integer, unless the number was written with a fraction or an exponent. -/
def toInt? : JsonNumber → Option Int
  | natural n => some n.toNat
  | negative n => some (-1 - (n.val : Int))
  | real _ => none

def toBinary64 : JsonNumber → Binary64
  | natural n => Binary64.ofNat n.toNat
  | negative n => Binary64.ofInt (-1 - (n.val : Int))
  | real x => x

end JsonNumber

inductive Json where
  | null
  | bool (b : Bool)
  | number (n : JsonNumber)
  | string (s : String)
  | array (items : List Json)
  | object (members : List (String × Json))

namespace Json

instance : Inhabited Json := ⟨null⟩

/-- Puts a member in the place of its key, over an older member of that key. -/
def insertMember (key : String) (value : α) : List (String × α) → List (String × α)
  | [] => [(key, value)]
  | (other, old) :: rest =>
    if key < other then (key, value) :: (other, old) :: rest
    else if key = other then (key, value) :: rest
    else (other, old) :: insertMember key value rest

/-- Members in the order of their keys, the last one of a key winning. -/
def sortMembers (members : List (String × α)) : List (String × α) :=
  members.foldl (fun sorted (key, value) => insertMember key value sorted) []

mutual

/-- The value with the members of every object in the order of their keys. -/
def canonical : Json → Json
  | null => null
  | bool b => bool b
  | number n => number n
  | string s => string s
  | array items => array (canonicalItems items)
  | object members => object (sortMembers (canonicalMembers members))

def canonicalItems : List Json → List Json
  | [] => []
  | item :: rest => item.canonical :: canonicalItems rest

def canonicalMembers : List (String × Json) → List (String × Json)
  | [] => []
  | (key, value) :: rest => (key, value.canonical) :: canonicalMembers rest

end

mutual

/-- Keys increase in every object. -/
def IsCanonical : Json → Prop
  | array items => AllCanonical items
  | object members => (members.map Prod.fst).Pairwise (· < ·) ∧ MembersCanonical members
  | _ => True

def AllCanonical : List Json → Prop
  | [] => True
  | item :: rest => item.IsCanonical ∧ AllCanonical rest

def MembersCanonical : List (String × Json) → Prop
  | [] => True
  | (_, value) :: rest => value.IsCanonical ∧ MembersCanonical rest

end

/-- The value of a key, if the value is an object that has it. -/
def get? : Json → String → Option Json
  | object members, key => members.lookup key
  | _, _ => none

def string? : Json → Option String
  | string s => some s
  | _ => none

def isNull : Json → Bool
  | null => true
  | _ => false

end Json

end LoadGenerator
