import LoadGenerator.Message.Frame
import LoadGenerator.Message.Work

/-!
# What a client asks and gets

A client makes one of the calls of the service, or any other call by its method. It gets the value of the call with what the daemon said about it, or a failure.
-/

namespace LoadGenerator.Client

open Message

inductive Invocation where
  | health
  | ping
  | work (request : WorkRequest)
  | repeated (request : RepeatRequest)
  | tally (requests : List WorkRequest)
  | exchange (requests : List WorkRequest)
  /-- A call by its method, without a stream. -/
  | raw (method : String) (params : Json)

namespace Invocation

def method : Invocation → String
  | health => healthMethod
  | ping => pingMethod
  | work _ => workMethod
  | repeated _ => repeatMethod
  | tally _ => tallyMethod
  | exchange _ => exchangeMethod
  | raw method _ => method

def params : Invocation → Json
  | ping => PingRequest.codec.toJson ⟨⟩
  | work request => WorkRequest.codec.toJson request
  | repeated request => RepeatRequest.codec.toJson request
  | raw _ params => params
  | health | tally _ | exchange _ => .null

end Invocation

/-- The ids under which a caller wants its call to be found. -/
structure Correlation where
  requestId : Option String := none
  traceId : Option String := none
  deriving DecidableEq

/-- The ids that the request carries. -/
def Correlation.metadata (correlation : Correlation) : Metadata :=
  let metadata := match correlation.requestId with
    | some id => Metadata.insert [] Metadata.requestIdKey id
    | none => []
  match correlation.traceId with
  | some id => Metadata.insert metadata Metadata.traceIdKey id
  | none => metadata

inductive Value where
  | health (health : Health)
  | pong (reply : PingReply)
  | work (response : WorkResponse)
  | summary (summary : WorkSummary)
  | responses (items : List WorkResponse)
  | raw (value : Json)

structure Reply where
  value : Value
  metadata : Metadata
  bytesOut : Nat
  bytesIn : Nat

inductive Failure where
  /-- The daemon's side ended before the response. -/
  | closed
  | rpc (error : RpcError)
  /-- The daemon sent something that is no message. -/
  | malformed (error : JsonError)
  | transport (message : String)

def Failure.message : Failure → String
  | closed => "Connection closed by daemon"
  | rpc error => error.display
  | malformed error => error.message
  | transport message => message

/-- The value in the result of a response, given the items that came before it. -/
def Invocation.valueOf (invocation : Invocation) (items : List WorkResponse) (result : Json) : Except JsonError Value :=
  match invocation with
  | .health => .health <$> Health.codec.ofJson result
  | .ping => .pong <$> PingReply.codec.ofJson result
  | .work _ => .work <$> WorkResponse.codec.ofJson result
  | .tally _ => .summary <$> WorkSummary.codec.ofJson result
  | .repeated _ | .exchange _ => .ok (.responses items)
  | .raw _ _ => .ok (.raw result)

end LoadGenerator.Client
