import LoadGenerator.Message.Envelope

/-!
# How calls end

Every call ends with a code. A failure has a message besides, and reaches the caller as an error whose data names the code.
-/

namespace LoadGenerator.Service

open Message

/-- The outcome of a call, as metrics and logs name it. -/
inductive Code where
  | ok
  | cancelled
  | invalidArgument
  | failedPrecondition
  | unimplemented
  | internal
  | unavailable
  deriving DecidableEq

namespace Code

def all : List Code := [ok, cancelled, invalidArgument, failedPrecondition, unimplemented, internal, unavailable]

def name : Code → String
  | ok => "OK"
  | cancelled => "CANCELLED"
  | invalidArgument => "INVALID_ARGUMENT"
  | failedPrecondition => "FAILED_PRECONDITION"
  | unimplemented => "UNIMPLEMENTED"
  | internal => "INTERNAL"
  | unavailable => "UNAVAILABLE"

def ofName? (name : String) : Option Code := all.find? fun code => code.name == name

/-- The number of the error that the caller sees. -/
def rpcCode : Code → Int32
  | invalidArgument | failedPrecondition => invalidParamsCode
  | unimplemented => methodNotFoundCode
  | internal => internalErrorCode
  | ok | cancelled | unavailable => callFailedCode

end Code

structure Status where
  code : Code
  message : String
  deriving DecidableEq

namespace Status

def display (status : Status) : String := s!"{status.code.name}: {status.message}"

def toRpcError (status : Status) : RpcError :=
  { code := status.code.rpcCode
    message := status.message
    data := some (.object [("status", .string status.code.name)]) }

def callCancelled : Status := ⟨.cancelled, "call cancelled"⟩

end Status

/-- What can go wrong with the stream of a call. -/
inductive StreamFault where
  | malformed (error : JsonError)
  | unexpected (message : String)
  | transport (message : String)
  deriving DecidableEq

namespace StreamFault

def display : StreamFault → String
  | malformed error => s!"malformed message: {error.message}"
  | unexpected message => s!"unexpected message: {message}"
  | transport message => message

def toStatus : StreamFault → Status
  | malformed error => ⟨.invalidArgument, s!"malformed stream frame: {error.message}"⟩
  | unexpected message => ⟨.invalidArgument, message⟩
  | transport message => ⟨.unavailable, message⟩

end StreamFault

end LoadGenerator.Service
