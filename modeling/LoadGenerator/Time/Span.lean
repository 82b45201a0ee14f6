import LoadGenerator.Text.Digits

/-!
# Spans of time

A span is a signed number of nanoseconds. Spans made from milliseconds or from seconds and nanoseconds lie within the signed 64-bit range of milliseconds, its lowest value left out, so that every such span has a negative.
-/

namespace LoadGenerator

open Text

structure Span where
  nanoseconds : Int
  deriving DecidableEq

/-- The fraction of a quantity counted in units of `10 ^ width`, without trailing zeros and with its point. -/
def fractionDigits (part width : Nat) : List Char :=
  if part = 0 then []
  else
    let digits := decimal part
    let padded := List.replicate (width - digits.length) '0' ++ digits
    '.' :: (padded.reverse.dropWhile (· == '0')).reverse

namespace Span

instance : Inhabited Span := ⟨⟨0⟩⟩

def zero : Span := ⟨0⟩

def longest : Int := 9223372036854775807 * 1000000

/-- A number of milliseconds, unless it has no negative. -/
def ofMillis? (ms : Int) : Option Span :=
  if -9223372036854775807 ≤ ms ∧ ms ≤ 9223372036854775807 then some ⟨ms * 1000000⟩ else none

/-- Seconds and nanoseconds, unless out of range. -/
def ofParts? (seconds nanoseconds : Int) : Option Span :=
  let total := seconds * 1000000000 + nanoseconds
  if 0 ≤ nanoseconds ∧ nanoseconds < 1000000000 ∧ -longest ≤ total ∧ total ≤ longest then some ⟨total⟩ else none

/-- Whole seconds, rounded down, and the nanoseconds above them. -/
def parts (span : Span) : Int × Int := (Int.fdiv span.nanoseconds 1000000000, Int.fmod span.nanoseconds 1000000000)

/-- The span as a length of time, if it is not negative. -/
def length? (span : Span) : Option Nat := if span.nanoseconds < 0 then none else some span.nanoseconds.toNat

/-- The text of a signed span: `P0D`, or seconds after `PT` with the sign in front. -/
def message (span : Span) : String :=
  if span.nanoseconds = 0 then "P0D"
  else
    let size := span.nanoseconds.natAbs
    let sign := if span.nanoseconds < 0 then ['-'] else []
    String.ofList (sign ++ ['P', 'T'] ++ decimal (size / 1000000000) ++ fractionDigits (size % 1000000000) 9 ++ ['S'])

/-- The two parts of a span, as a description of the value. -/
def description (span : Span) : String :=
  let (seconds, nanoseconds) := span.parts
  s!"TimeDelta \x7b secs: {seconds}, nanos: {nanoseconds} \x7d"

end Span

/-- The text of a length of time in the largest unit that is at least one. -/
def lengthText (nanoseconds : Nat) : String :=
  if 1000000000 ≤ nanoseconds then
    String.ofList (decimal (nanoseconds / 1000000000) ++ fractionDigits (nanoseconds % 1000000000) 9 ++ ['s'])
  else if 1000000 ≤ nanoseconds then
    String.ofList (decimal (nanoseconds / 1000000) ++ fractionDigits (nanoseconds % 1000000) 6 ++ ['m', 's'])
  else if 1000 ≤ nanoseconds then
    String.ofList (decimal (nanoseconds / 1000) ++ fractionDigits (nanoseconds % 1000) 3 ++ ['µ', 's'])
  else String.ofList (decimal nanoseconds ++ ['n', 's'])

end LoadGenerator
