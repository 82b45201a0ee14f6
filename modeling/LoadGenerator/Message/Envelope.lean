import LoadGenerator.Json.Record

/-!
# Requests and responses

The envelope of calls: one request opens a call and one response ends it, both JSON-RPC 2.0 messages with a map of metadata. Parts that are empty are not written.
-/

namespace LoadGenerator.Message

/-- The id of a call, chosen by the caller. -/
inductive RequestId where
  | number (n : UInt64)
  | text (s : String)
  deriving DecidableEq

namespace RequestId

def display : RequestId → String
  | number n => toString n.toNat
  | text s => s

/-- A description of an optional id as a value. -/
def description : Option RequestId → String
  | none => "None"
  | some (number n) => s!"Some(Number({n.toNat}))"
  | some (text s) => s!"Some(String({Text.quoted s}))"

def ofJson? : Json → Option RequestId
  | .number (.natural n) => some (number n)
  | .string s => some (text s)
  | _ => none

def ofJson (value : Json) : Except JsonProblem RequestId :=
  match ofJson? value with
  | some id => .ok id
  | none => .error (.noAlternative "RequestId")

/-- A value of another kind is refused without a place, since all of it was read. -/
def codec : JsonCodec RequestId where
  read depth := do
    match ofJson? (← JsonReader.value depth) with
    | some id => pure id
    | none => JsonReader.failUnplaced (.noAlternative "RequestId")
  decode := ofJson
  encode
    | number n => .number (.natural n)
    | text s => .string s

end RequestId

/-- Metadata as the list of its members. Metadata that is read has them in the order of their keys, and metadata that is written has them in any order. -/
abbrev Metadata := List (String × String)

namespace Metadata

def insert (metadata : Metadata) (key value : String) : Metadata := Json.insertMember key value metadata

/-- The value of a key, unless it is empty. -/
def value? (metadata : Metadata) (key : String) : Option String := (metadata.lookup key).filter fun v => !v.isEmpty

def requestIdKey : String := "x-request-id"

def traceIdKey : String := "x-trace-id"

end Metadata

/-- An order for the members of metadata. A hash map has an order of its own, which nobody chooses and no other map need share. -/
structure MapOrder where
  arrange : Metadata → Metadata
  perm_arrange (metadata : Metadata) : (arrange metadata).Perm metadata

namespace MapOrder

/-- The members as they are listed. -/
def listed : MapOrder where
  arrange := id
  perm_arrange _ := .refl _

def reversed : MapOrder where
  arrange := List.reverse
  perm_arrange _ := List.reverse_perm _

end MapOrder

def protocolVersion : String := "2.0"

/-- Numbers of the errors that a response can carry. -/
def parseErrorCode : Int32 := -32700

def invalidRequestCode : Int32 := -32600

def methodNotFoundCode : Int32 := -32601

def invalidParamsCode : Int32 := -32602

def internalErrorCode : Int32 := -32603

def callFailedCode : Int32 := -32000

def healthMethod : String := "health.Check"

def pingMethod : String := "burner.Ping"

def workMethod : String := "burner.DoWork"

def repeatMethod : String := "burner.DoWorkServerStreaming"

def tallyMethod : String := "burner.DoWorkClientStreaming"

def exchangeMethod : String := "burner.DoWorkBidiStreaming"

structure Request where
  version : String := ""
  id : Option RequestId := none
  method : String := ""
  params : Json := .null
  metadata : Metadata := []

def Request.record : RecordType Request where
  name := "Request"
  members := [
    .of "jsonrpc" .required JsonCodec.string (·.version) (fun v r => { r with version := v }) fun _ => false,
    .of "id" .optional RequestId.codec.option (·.id) (fun v r => { r with id := v }) fun _ => false,
    .of "method" .required JsonCodec.string (·.method) (fun v r => { r with method := v }) fun _ => false,
    .of "params" .defaulted JsonCodec.json (·.params) (fun v r => { r with params := v }) fun _ => false,
    .of "metadata" .defaulted JsonCodec.string.map (·.metadata) (fun v r => { r with metadata := v }) List.isEmpty]
  blank := {}

def Request.codec : JsonCodec Request := Request.record.codec

/-- A request of the present protocol version. -/
def Request.new (id : RequestId) (method : String) (params : Json) : Request :=
  { version := protocolVersion, id := some id, method, params }

structure RpcError where
  code : Int32 := 0
  message : String := ""
  data : Option Json := none

def RpcError.record : RecordType RpcError where
  name := "RpcError"
  members := [
    .of "code" .required JsonCodec.int32 (·.code) (fun v e => { e with code := v }) fun _ => false,
    .of "message" .required JsonCodec.string (·.message) (fun v e => { e with message := v }) fun _ => false,
    .of "data" .defaulted JsonCodec.json.option (·.data) (fun v e => { e with data := v }) Option.isNone]
  blank := {}

def RpcError.codec : JsonCodec RpcError := RpcError.record.codec

/-- The name of the status that the error carries. -/
def RpcError.status? (e : RpcError) : Option String := do
  let data ← e.data
  let status ← data.get? "status"
  status.string?

def RpcError.display (e : RpcError) : String := s!"rpc error {e.code.toInt}: {e.message}"

structure Response where
  version : String := ""
  id : Option RequestId := none
  result : Option Json := none
  error : Option RpcError := none
  metadata : Metadata := []

def Response.record : RecordType Response where
  name := "Response"
  members := [
    .of "jsonrpc" .required JsonCodec.string (·.version) (fun v r => { r with version := v }) fun _ => false,
    .of "id" .optional RequestId.codec.option (·.id) (fun v r => { r with id := v }) Option.isNone,
    .of "result" .defaulted JsonCodec.json.option (·.result) (fun v r => { r with result := v }) Option.isNone,
    .of "error" .defaulted RpcError.codec.option (·.error) (fun v r => { r with error := v }) Option.isNone,
    .of "metadata" .defaulted JsonCodec.string.map (·.metadata) (fun v r => { r with metadata := v }) List.isEmpty]
  blank := {}

def Response.codec : JsonCodec Response := Response.record.codec

def Response.success (id : Option RequestId) (result : Json) : Response :=
  { version := protocolVersion, id, result := some result }

def Response.failure (id : Option RequestId) (error : RpcError) : Response :=
  { version := protocolVersion, id, error := some error }

def Response.plainFailure (id : Option RequestId) (code : Int32) (message : String) : Response :=
  failure id { code, message }

/-- The message on a line of its own. -/
def lineOf (codec : JsonCodec α) (a : α) : List Char := (codec.encode a).render ++ ['\n']

def Request.line (request : Request) : List Char := lineOf codec request

def Response.line (response : Response) : List Char := lineOf codec response

end LoadGenerator.Message
