import LoadGenerator.Json.Record

/-!
# Messages of the service

What the calls of the service take and give. Durations travel in milliseconds and the mode as an open integer, so that a mode unknown here still arrives and can be refused by name. Every member has a default.
-/

namespace LoadGenerator.Message

/-- The modes that have a number on the wire. -/
inductive WireMode where
  | unspecified
  | cpu
  | mem
  | cpuMem
  | io
  deriving DecidableEq

namespace WireMode

def all : List WireMode := [unspecified, cpu, mem, cpuMem, io]

def raw : WireMode → Int32
  | unspecified => 0
  | cpu => 1
  | mem => 2
  | cpuMem => 3
  | io => 4

def name : WireMode → String
  | unspecified => "LOAD_MODE_UNSPECIFIED"
  | cpu => "LOAD_MODE_CPU"
  | mem => "LOAD_MODE_MEM"
  | cpuMem => "LOAD_MODE_CPU_MEM"
  | io => "LOAD_MODE_IO"

def ofRaw? (value : Int32) : Option WireMode := all.find? fun mode => mode.raw == value

end WireMode

/-- The quantities of a run as they travel. -/
structure WorkConfig where
  mode : Int32 := 0
  durationMs : Int64 := 0
  allocMb : Int32 := 0
  parallelism : Int32 := 0
  ioBytes : Int32 := 0
  latencyMs : Int64 := 0
  errorRate : Binary64 := Binary64.zero
  deriving DecidableEq

structure WorkRequest where
  requestId : String := ""
  config : Option WorkConfig := none
  deriving DecidableEq

structure RepeatRequest where
  requestId : String := ""
  config : Option WorkConfig := none
  times : Int32 := 0
  deriving DecidableEq

structure WorkResponse where
  requestId : String := ""
  ok : Bool := false
  errorMessage : String := ""
  deriving DecidableEq

/-- The outcome of a stream of runs, under the first request id that is not empty. -/
structure WorkSummary where
  requestId : String := ""
  total : Int32 := 0
  success : Int32 := 0
  failed : Int32 := 0
  deriving DecidableEq

structure PingRequest where
  deriving DecidableEq

structure PingReply where
  message : String := ""
  deriving DecidableEq

structure Health where
  status : String := ""
  version : Option String := none
  deriving DecidableEq

/-- A member that is always written and that may be absent when read. -/
def defaulted (name : String) (codec : JsonCodec β) (get : α → β) (put : β → α → α) : RecordMember α :=
  RecordMember.of name .defaulted codec get put fun _ => false

def WorkConfig.record : RecordType WorkConfig where
  name := "WorkConfig"
  members := [
    defaulted "mode" JsonCodec.int32 (·.mode) fun v c => { c with mode := v },
    defaulted "duration_ms" JsonCodec.int64 (·.durationMs) fun v c => { c with durationMs := v },
    defaulted "alloc_mb" JsonCodec.int32 (·.allocMb) fun v c => { c with allocMb := v },
    defaulted "parallelism" JsonCodec.int32 (·.parallelism) fun v c => { c with parallelism := v },
    defaulted "io_bytes" JsonCodec.int32 (·.ioBytes) fun v c => { c with ioBytes := v },
    defaulted "latency_ms" JsonCodec.int64 (·.latencyMs) fun v c => { c with latencyMs := v },
    defaulted "error_rate" JsonCodec.real (·.errorRate) fun v c => { c with errorRate := v }]
  blank := {}

def WorkConfig.codec : JsonCodec WorkConfig := WorkConfig.record.codec

def WorkRequest.record : RecordType WorkRequest where
  name := "DoWorkRequest"
  members := [
    defaulted "request_id" JsonCodec.string (·.requestId) fun v r => { r with requestId := v },
    defaulted "config" WorkConfig.codec.option (·.config) fun v r => { r with config := v }]
  blank := {}

def WorkRequest.codec : JsonCodec WorkRequest := WorkRequest.record.codec

def RepeatRequest.record : RecordType RepeatRequest where
  name := "DoWorkServerStreamingRequest"
  members := [
    defaulted "request_id" JsonCodec.string (·.requestId) fun v r => { r with requestId := v },
    defaulted "config" WorkConfig.codec.option (·.config) fun v r => { r with config := v },
    defaulted "repeat" JsonCodec.int32 (·.times) fun v r => { r with times := v }]
  blank := {}

def RepeatRequest.codec : JsonCodec RepeatRequest := RepeatRequest.record.codec

def WorkResponse.record : RecordType WorkResponse where
  name := "DoWorkResponse"
  members := [
    defaulted "request_id" JsonCodec.string (·.requestId) fun v r => { r with requestId := v },
    defaulted "ok" JsonCodec.bool (·.ok) fun v r => { r with ok := v },
    defaulted "error_message" JsonCodec.string (·.errorMessage) fun v r => { r with errorMessage := v }]
  blank := {}

def WorkResponse.codec : JsonCodec WorkResponse := WorkResponse.record.codec

def WorkSummary.record : RecordType WorkSummary where
  name := "DoWorkSummary"
  members := [
    defaulted "request_id" JsonCodec.string (·.requestId) fun v r => { r with requestId := v },
    defaulted "total" JsonCodec.int32 (·.total) fun v r => { r with total := v },
    defaulted "success" JsonCodec.int32 (·.success) fun v r => { r with success := v },
    defaulted "failed" JsonCodec.int32 (·.failed) fun v r => { r with failed := v }]
  blank := {}

def WorkSummary.codec : JsonCodec WorkSummary := WorkSummary.record.codec

def PingRequest.record : RecordType PingRequest where
  name := "PingRequest"
  members := []
  blank := ⟨⟩

def PingRequest.codec : JsonCodec PingRequest := PingRequest.record.codec

def PingReply.record : RecordType PingReply where
  name := "PingReply"
  members := [defaulted "message" JsonCodec.string (·.message) fun v r => { r with message := v }]
  blank := {}

def PingReply.codec : JsonCodec PingReply := PingReply.record.codec

def Health.record : RecordType Health where
  name := "HealthCheckResponse"
  members := [
    defaulted "status" JsonCodec.string (·.status) fun v h => { h with status := v },
    RecordMember.of "version" .defaulted JsonCodec.string.option (·.version) (fun v h => { h with version := v })
      Option.isNone]
  blank := {}

def Health.codec : JsonCodec Health := Health.record.codec

/-- The mode, or the number that is no mode. -/
def WorkConfig.wireMode (config : WorkConfig) : Except Int32 WireMode :=
  match WireMode.ofRaw? config.mode with
  | some mode => .ok mode
  | none => .error config.mode

end LoadGenerator.Message
