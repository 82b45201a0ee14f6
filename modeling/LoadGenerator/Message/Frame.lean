import LoadGenerator.Message.Envelope

/-!
# Stream frames

While a streaming call is open, its messages travel in frames that carry the id of the call. A frame has a type and no protocol version, which tells it from a response.
-/

namespace LoadGenerator.Message

open JsonReader

/-- One streamed message, or the end of one direction. -/
inductive FrameKind where
  | item
  | finish
  deriving DecidableEq

namespace FrameKind

def name : FrameKind → String
  | item => "item"
  | finish => "end"

def ofName (name : String) : Except JsonProblem FrameKind :=
  if name = "item" then .ok item
  else if name = "end" then .ok finish
  else .error (.unknownVariant name "`item` or `end`")

/-- Null, the only content of a kind. -/
def unit (value : Json) : Except JsonProblem Unit :=
  match value with
  | .null => .ok ()
  | other => .error (.invalidType other.found "unit")

/-- A kind written as an object whose only key is its name. -/
def readKeyed : JsonReader FrameKind := do
  advance
  match ← nextKey true with
  | none => failNext .expectedValue
  | some name => do
    let kind ← placeHere (ofName name)
    colon
    expecting (· == 'n') "unit" do
      advance
      word ['u', 'l', 'l']
    skipBlanks
    match ← get with
    | [] => failHere .endInObject
    | c :: rest => if c = '\x7d' then do set rest; pure kind else failHere .expectedValue

def codec : JsonCodec FrameKind where
  read depth := do
    skipBlanks
    match ← get with
    | [] => failHere .endInValue
    | c :: _ =>
      if c = '"' then do placeHere (ofName (← JsonReader.string))
      else if c = '\x7b' then if depth = 0 then failNext .tooDeep else readKeyed
      else failNext .expectedValue
  decode
    | .string name => ofName name
    | .object [(name, content)] => do
      let kind ← ofName name
      unit content
      return kind
    | .object _ => .error (.invalidValue .map "map with a single key")
    | other => .error (.invalidType other.found "string or map")
  encode kind := .string kind.name

end FrameKind

/-- A streamed message of the call with this id. -/
structure Frame where
  kind : FrameKind := .item
  id : Option RequestId := none
  data : Json := .null

namespace Frame

def record : RecordType Frame where
  name := "StreamFrame"
  members := [
    .of "type" .required FrameKind.codec (·.kind) (fun v f => { f with kind := v }) fun _ => false,
    .of "id" .optional RequestId.codec.option (·.id) (fun v f => { f with id := v }) fun _ => false,
    .of "data" .defaulted JsonCodec.json (·.data) (fun v f => { f with data := v }) Json.isNull]
  blank := {}

def codec : JsonCodec Frame := record.codec

def item (id : Option RequestId) (data : Json) : Frame := { kind := .item, id, data }

def finish (id : Option RequestId) : Frame := { kind := .finish, id }

def line (frame : Frame) : List Char := lineOf codec frame

def isFrame (value : Json) : Bool := (value.get? "type").isSome && (value.get? "jsonrpc").isNone

end Frame

end LoadGenerator.Message
