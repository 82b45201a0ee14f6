import LoadGenerator.Toml.Reader

/-!
# TOML documents

A document is a sequence of lines: a key with its value, the header of a table, the header of one more table of an array, or nothing. A table has one header; a table that exists only because of the headers below it may still get its own; and a table made by dotted keys takes more dotted keys but no header. Dotted keys lead through tables without a header of their own and into the last table of an array, but they leave a value only in a table that dotted keys have made.
-/

namespace LoadGenerator.Toml

inductive Node where
  | value (v : TomlValue)
  | table (explicit dotted : Bool) (entries : List (String × Node))
  | tables (elements : List (List (String × Node)))

abbrev Entries := List (String × Node)

namespace Node

mutual

def toValue : Node → TomlValue
  | value v => v
  | table _ _ entries => .table (toEntries entries)
  | tables elements => .array (toTables elements)

def toEntries : List (String × Node) → List (String × TomlValue)
  | [] => []
  | (key, node) :: rest => (key, node.toValue) :: toEntries rest

def toTables : List (List (String × Node)) → List TomlValue
  | [] => []
  | entries :: rest => .table (toEntries entries) :: toTables rest

end

end Node

/-- Puts a node at a key, in the place of an older one. -/
def putNode (key : String) (node : Node) (entries : Entries) : Entries :=
  if (entries.lookup key).isSome then entries.map fun (other, old) => if other == key then (other, node) else (other, old)
  else entries ++ [(key, node)]

/-- Changes the table at a path of headers, made on the way where it does not exist; of an array the last table is meant. -/
def changeAt (change : Entries → Option Entries) : List String → Entries → Option Entries
  | [], entries => change entries
  | key :: path, entries =>
    match entries.lookup key with
    | none => do
      let inner ← changeAt change path []
      return putNode key (.table false false inner) entries
    | some (.value _) => none
    | some (.table explicit dotted inner) => do
      let inner ← changeAt change path inner
      return putNode key (.table explicit dotted inner) entries
    | some (.tables elements) => do
      let last ← elements.getLast?
      let last ← changeAt change path last
      return putNode key (.tables (elements.dropLast ++ [last])) entries

/-- Adds a value at a dotted key, whose last part needs a table that `takes` values. -/
def assign (takes : Bool) : List String → TomlValue → Entries → Option Entries
  | [], _, _ => none
  | [key], v, entries => if takes && (entries.lookup key).isNone then some (entries ++ [(key, .value v)]) else none
  | key :: path, v, entries =>
    match entries.lookup key with
    | none => do
      let inner ← assign true path v []
      return putNode key (.table false true inner) entries
    | some (.table false dotted inner) => do
      let inner ← assign dotted path v inner
      return putNode key (.table false dotted inner) entries
    | some (.tables elements) => do
      let last ← assign false path v (← elements.getLast?)
      return putNode key (.tables (elements.dropLast ++ [last])) entries
    | some _ => none

def openTable (key : String) (entries : Entries) : Option Entries :=
  match entries.lookup key with
  | none => some (putNode key (.table true false []) entries)
  | some (.table false false inner) => some (putNode key (.table true false inner) entries)
  | some _ => none

def appendTable (key : String) (entries : Entries) : Option Entries :=
  match entries.lookup key with
  | none => some (putNode key (.tables [[]]) entries)
  | some (.tables elements) => some (putNode key (.tables (elements ++ [[]])) entries)
  | some _ => none

/-- The number of arrays and inline tables that may surround each other. -/
def depthLimit : Nat := 80

open Reader

/-- The path of a header up to its closing brackets, and its last key. -/
def headerPath (closing : List Char) : Reader (List String × String) := do
  let path ← key
  closing.forM mark
  finishLine
  match path.getLast? with
  | some last => pure (path.dropLast, last)
  | none => fail

def changed (result : Option Entries) : Reader Entries :=
  match result with
  | some entries => pure entries
  | none => fail

/-- One line, given the path of the table that the last header opened. -/
def statement (current : List String) (document : Entries) : Reader (List String × Entries) := do
  skipBlanks
  match ← get with
  | '[' :: '[' :: rest => do
    set rest
    let (path, last) ← headerPath [']', ']']
    return (path ++ [last], ← changed (changeAt (appendTable last) path document))
  | '[' :: rest => do
    set rest
    let (path, last) ← headerPath [']']
    return (path ++ [last], ← changed (changeAt (openTable last) path document))
  | c :: _ =>
    if c = '#' ∨ c = '\n' ∨ c = '\r' then do
      finishLine
      pure (current, document)
    else do
      let path ← key
      mark '='
      skipBlanks
      let v ← Reader.value depthLimit
      finishLine
      return (current, ← changed (changeAt (assign true path v) current document))
  | [] => pure (current, document)

/-- Lines up to the end of the text, as many as the fuel allows. -/
def statements : Nat → List String → Entries → Reader Entries
  | 0, _, document => pure document
  | fuel + 1, current, document => do
    if (← get).isEmpty then pure document
    else
      let (current, document) ← statement current document
      statements fuel current document

/-- The entries of a document, if the text is one. A byte order mark in front is left out. -/
def parse? (text : String) : Option (List (String × TomlValue)) :=
  let cs := match text.toList with
    | '\ufeff' :: rest => rest
    | rest => rest
  ((statements (cs.length + 1) [] []).run cs).map fun (document, _) => Node.toEntries document

end LoadGenerator.Toml
