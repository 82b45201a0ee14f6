import LoadGenerator.Text.Digits

/-!
# Random ids

An id made of sixteen random bytes, six bits of which say that it is one: the hexadecimal digits of the bytes, with or without hyphens between their groups.
-/

namespace LoadGenerator.Text

def hexPair (b : UInt8) : List Char := [hexDigit (b.toNat / 16), hexDigit (b.toNat % 16)]

/-- The bytes with the version and the variant of random ids put in. -/
def markRandom (bytes : List UInt8) : List UInt8 :=
  bytes.zipIdx.map fun (b, place) =>
    if place = 6 then b % 16 + 0x40 else if place = 8 then b % 64 + 0x80 else b

/-- The 32 digits of an id. -/
def plainUuid (bytes : List UInt8) : String := String.ofList ((markRandom bytes).flatMap hexPair)

/-- The digits of an id in groups of 8, 4, 4, 4 and 12. -/
def uuid (bytes : List UInt8) : String :=
  let digits := (markRandom bytes).flatMap hexPair
  let group (start count : Nat) : List Char := (digits.drop start).take count
  String.ofList (group 0 8 ++ '-' :: group 8 4 ++ '-' :: group 12 4 ++ '-' :: group 16 4 ++ '-' :: group 20 12)

end LoadGenerator.Text
