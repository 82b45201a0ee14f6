import LoadGenerator.Text.Integer

/-!
# Addresses

An address is a host and a number of sixteen bits, with a colon between them. What the host stands for is a matter of the network.
-/

namespace LoadGenerator.Network

structure Address where
  host : String
  portNumber : UInt16
  deriving DecidableEq

inductive AddressError where
  | colonMissing
  | invalidPort
  deriving DecidableEq

def AddressError.message : AddressError → String
  | colonMissing => "invalid socket address"
  | invalidPort => "invalid port value"

def splitPort : List Char → Option (List Char × List Char)
  | [] => none
  | c :: rest =>
    match splitPort rest with
    | some (host, number) => some (c :: host, number)
    | none => if c = ':' then some ([], rest) else none

/-- A number of sixteen bits with an optional plus sign. -/
def portNumber? (text : String) : Option UInt16 :=
  (Text.unsigned64? text).bind fun n => if n < 65536 then some n.toUInt16 else none

def Address.parse (text : String) : Except AddressError Address :=
  match splitPort text.toList with
  | none => .error .colonMissing
  | some (host, number) =>
    match portNumber? (String.ofList number) with
    | none => .error .invalidPort
    | some portNumber => .ok ⟨String.ofList host, portNumber⟩

/-- Whether the host is written in numbers, so that nobody has to be asked for it. -/
def Address.isNumeric (address : Address) : Bool :=
  let parts := address.host.splitOn "."
  address.host.toList.contains ':'
    || parts.length == 4 && parts.all fun part => (Text.digitsValue? part.toList).any fun n => decide (n < 256)

end LoadGenerator.Network
