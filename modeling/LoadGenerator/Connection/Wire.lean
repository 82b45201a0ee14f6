import LoadGenerator.Text.Blank
import LoadGenerator.Text.Utf8

/-!
# Wires

One end of a byte stream in both directions. What has arrived waits in the inbox, and the other side may have ended its direction; what is written collects in the outbox, and the transport may fail after a number of bytes. A line ends with a newline that belongs to it, and the last one of an ended direction may lack it.
-/

namespace LoadGenerator

structure Wire where
  inbox : List UInt8 := []
  inputEnded : Bool := false
  outbox : List UInt8 := []
  /-- How many more bytes the transport takes, if it fails at all. -/
  room : Option Nat := none
  deriving DecidableEq

inductive LineRead where
  /-- The line is not all there yet. -/
  | waiting
  | ended
  | line (text : List Char)
  | malformed (fault : Utf8.Malformed)
  deriving DecidableEq

def newline : UInt8 := 10

/-- The first line with its newline, and the bytes after it. -/
def cutLine : List UInt8 → Option (List UInt8 × List UInt8)
  | [] => none
  | b :: rest => if b = newline then some ([b], rest) else (cutLine rest).map fun (line, after) => (b :: line, after)

def LineRead.ofBytes (bytes : List UInt8) : LineRead :=
  match Utf8.decode bytes with
  | .ok text => .line text
  | .error fault => .malformed fault

def isBlankLine (text : List Char) : Bool := text.all Text.isBlank

namespace Wire

/-- Takes the next line from the inbox; one that is not text is taken as well. -/
def readLine (wire : Wire) : LineRead × Wire :=
  match cutLine wire.inbox with
  | some (line, rest) => (.ofBytes line, { wire with inbox := rest })
  | none =>
    if !wire.inputEnded then (.waiting, wire)
    else if wire.inbox.isEmpty then (.ended, wire)
    else (.ofBytes wire.inbox, { wire with inbox := [] })

/-- Takes lines until one is not blank, at most `fuel` of them, with the number of bytes in all lines taken. -/
def nextLineWithin : Nat → Wire → LineRead × Nat × Wire
  | 0, wire => (.waiting, 0, wire)
  | fuel + 1, wire =>
    match wire.readLine with
    | (.line text, wire) =>
      if isBlankLine text then
        let (read, size, wire) := nextLineWithin fuel wire
        (read, Utf8.size text + size, wire)
      else (.line text, Utf8.size text, wire)
    | (read, wire) => (read, 0, wire)

/-- Takes the next line that is not blank, and the blank ones before it. Every line has a byte, so the inbox bounds them. -/
def nextLine (wire : Wire) : LineRead × Nat × Wire := wire.nextLineWithin (wire.inbox.length + 1)

def linesWithin : Nat → Wire → List (List Char)
  | 0, _ => []
  | fuel + 1, wire =>
    match wire.readLine with
    | (.line text, wire) => text :: linesWithin fuel wire
    | _ => []

/-- The lines of a whole direction, up to the first that is not text. -/
def linesOf (bytes : List UInt8) : List (List Char) :=
  linesWithin (bytes.length + 1) { inbox := bytes, inputEnded := true }

/-- Writes as many of the bytes as the transport takes, and says whether it took them all. -/
def write (wire : Wire) (bytes : List UInt8) : Bool × Wire :=
  match wire.room with
  | none => (true, { wire with outbox := wire.outbox ++ bytes })
  | some room =>
    (decide (bytes.length ≤ room),
      { wire with outbox := wire.outbox ++ bytes.take room, room := some (room - bytes.length) })

def deliver (wire : Wire) (bytes : List UInt8) : Wire := { wire with inbox := wire.inbox ++ bytes }

/-- Takes bytes from the front of the outbox, at most this many. -/
def depart (wire : Wire) (count : Nat) : List UInt8 × Wire := (wire.outbox.take count, { wire with outbox := wire.outbox.drop count })

def endInput (wire : Wire) : Wire := { wire with inputEnded := true }

/-- The other side has ended its direction and everything from it has been read. -/
def drained (wire : Wire) : Bool := wire.inputEnded && wire.inbox.isEmpty

/-- The reason of a write that failed. -/
def writeFailure : String := "Broken pipe (os error 32)"

end Wire

end LoadGenerator
