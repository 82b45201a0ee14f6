/-!
# Bytes of text

The UTF-8 form of a text as a list of bytes. Decoding refuses overlong forms, surrogates and code points past the last plane, and says where the first bad sequence starts and how long it is.
-/

namespace LoadGenerator.Utf8

def encodeChar (c : Char) : List UInt8 :=
  let n := c.toNat
  if n < 0x80 then [UInt8.ofNat n]
  else if n < 0x800 then [UInt8.ofNat (0xc0 + n / 64), UInt8.ofNat (0x80 + n % 64)]
  else if n < 0x10000 then
    [UInt8.ofNat (0xe0 + n / 4096), UInt8.ofNat (0x80 + n / 64 % 64), UInt8.ofNat (0x80 + n % 64)]
  else
    [UInt8.ofNat (0xf0 + n / 262144), UInt8.ofNat (0x80 + n / 4096 % 64), UInt8.ofNat (0x80 + n / 64 % 64),
      UInt8.ofNat (0x80 + n % 64)]

def encode (text : List Char) : List UInt8 := text.flatMap encodeChar

def size (text : List Char) : Nat := (encode text).length

/-- A sequence that is not UTF-8: the bytes before it, and its length unless the input ends inside it. -/
structure Malformed where
  validUpTo : Nat
  length : Option Nat
  deriving DecidableEq

def Malformed.message (fault : Malformed) : String :=
  match fault.length with
  | some n => s!"invalid utf-8 sequence of {n} bytes from index {fault.validUpTo}"
  | none => s!"incomplete utf-8 byte sequence from index {fault.validUpTo}"

def isContinuation (b : UInt8) : Bool := decide (0x80 ≤ b ∧ b ≤ 0xbf)

/-- The six bits that a continuation carries. -/
def payload (b : UInt8) : Nat := b.toNat % 64

/-- The second bytes that may follow a lead byte of three or four. -/
def secondRange (lead : UInt8) : UInt8 × UInt8 :=
  if lead = 0xe0 then (0xa0, 0xbf)
  else if lead = 0xed then (0x80, 0x9f)
  else if lead = 0xf0 then (0x90, 0xbf)
  else if lead = 0xf4 then (0x80, 0x8f)
  else (0x80, 0xbf)

def isSecond (lead b : UInt8) : Bool := decide ((secondRange lead).1 ≤ b ∧ b ≤ (secondRange lead).2)

/-- The first character and the bytes after it, or the length of the bad sequence at the front. -/
def decodeChar : List UInt8 → Except (Option Nat) (Char × List UInt8)
  | [] => .error none
  | lead :: rest =>
    if lead < 0x80 then .ok (Char.ofNat lead.toNat, rest)
    else if lead < 0xc2 then .error (some 1)
    else if lead < 0xe0 then
      match rest with
      | [] => .error none
      | b :: rest =>
        if isContinuation b then .ok (Char.ofNat ((lead.toNat - 0xc0) * 64 + payload b), rest)
        else .error (some 1)
    else if lead < 0xf0 then
      match rest with
      | [] => .error none
      | b :: rest =>
        if isSecond lead b then
          match rest with
          | [] => .error none
          | c :: rest =>
            if isContinuation c then
              .ok (Char.ofNat ((lead.toNat - 0xe0) * 4096 + payload b * 64 + payload c), rest)
            else .error (some 2)
        else .error (some 1)
    else if lead < 0xf5 then
      match rest with
      | [] => .error none
      | b :: rest =>
        if isSecond lead b then
          match rest with
          | [] => .error none
          | c :: rest =>
            if isContinuation c then
              match rest with
              | [] => .error none
              | d :: rest =>
                if isContinuation d then
                  .ok (Char.ofNat ((lead.toNat - 0xf0) * 262144 + payload b * 4096 + payload c * 64 + payload d), rest)
                else .error (some 3)
            else .error (some 2)
        else .error (some 1)
    else .error (some 1)

/-- Decodes at most `fuel` characters, `before` bytes into the text. -/
def decodeFrom : Nat → Nat → List UInt8 → Except Malformed (List Char)
  | _, _, [] => .ok []
  | 0, _, _ :: _ => .ok []
  | fuel + 1, before, bytes =>
    match decodeChar bytes with
    | .error length => .error ⟨before, length⟩
    | .ok (c, rest) => (decodeFrom fuel (before + c.utf8Size) rest).map (c :: ·)

/-- Decodes a whole text; every character has a byte, so the number of bytes bounds the characters. -/
def decode (bytes : List UInt8) : Except Malformed (List Char) := decodeFrom bytes.length 0 bytes

end LoadGenerator.Utf8
