import LoadGenerator.Text.Blank
import LoadGenerator.Text.Digits

/-!
# Durations on the command line

One amount or more, each a number with an optional fraction and a unit, added up in nanoseconds. Blanks are skipped inside a number and allowed between the parts. An amount of a short unit is counted in nanoseconds and one of a long unit in seconds; neither count may reach `2 ^ 64`, and a fraction has to come out as a whole count. The seconds of the sum have the same limit: passing it is a mistake of the text, except where the nanoseconds of the sum come to exactly one second too many.
-/

namespace LoadGenerator.CommandLine

open Text

def second : Nat := 1000000000

def unitLength? (name : String) : Option Nat :=
  if name ∈ ["ns", "nsec", "nanos"] then some 1
  else if name ∈ ["us", "usec", "µs"] then some 1000
  else if name ∈ ["ms", "msec", "millis"] then some 1000000
  else if name ∈ ["s", "sec", "secs", "second", "seconds"] then some second
  else if name ∈ ["m", "min", "mins", "minute", "minutes"] then some (60 * second)
  else if name ∈ ["h", "hr", "hrs", "hour", "hours"] then some (3600 * second)
  else if name ∈ ["d", "day", "days"] then some (86400 * second)
  else if name ∈ ["w", "wk", "wks", "week", "weeks"] then some (604800 * second)
  else if name ∈ ["M", "month", "months"] then some (2630016 * second)
  else if name ∈ ["y", "yr", "yrs", "year", "years"] then some (31557600 * second)
  else none

inductive DurationFault where
  | malformed
  /-- The nanoseconds fill up one second more than can be counted. -/
  | overrun
  deriving DecidableEq

/-- Adds a count of nanoseconds or of seconds to a duration. -/
def advance (total count grain : Nat) : Except DurationFault Nat :=
  let sum := total + count * grain
  if UInt64.size ≤ count ∨ grain = 1 ∧ UInt64.size ≤ total % second + count then .error .malformed
  else if sum / second < UInt64.size then .ok sum
  else .error (if grain = 1 ∧ total % second + count = second then .overrun else .malformed)

/-- Adds `numerator / denominator` units to a duration, counted in the given grain. -/
def advanceBy (total numerator denominator unit grain : Nat) : Except DurationFault Nat :=
  let count := numerator * (unit / grain)
  if UInt64.size ≤ count ∨ count % denominator ≠ 0 then .error .malformed
  else advance total (count / denominator) grain

/-- Whole units are counted in seconds from the second on. -/
def wholeGrain (unit : Nat) : Nat := if unit < second then 1 else second

/-- Fractions of units are counted in seconds from the hour on. -/
def fractionGrain (unit : Nat) : Nat := if unit < 3600 * second then 1 else second

def isUnitLetter (c : Char) : Bool := decide ('a' ≤ c ∧ c ≤ 'z' ∨ 'A' ≤ c ∧ c ≤ 'Z') || c == 'µ'

def isNumeral (c : Char) : Bool := isDigit c || isBlank c

/-- A number as it is written, with the digits of its fraction if it has one. -/
structure Amount where
  whole : List Char
  fraction : List Char
  unit : Nat

/-- The fraction after a number, if there is one, and what follows. -/
def fractionOf? : List Char → Option (List Char × List Char)
  | '.' :: rest =>
    let digits := (rest.takeWhile isNumeral).filter isDigit
    if digits.isEmpty then none else some (digits, rest.dropWhile isNumeral)
  | rest => some ([], rest)

/-- The amount in front, which starts with a digit, and what follows. -/
def readAmount? (cs : List Char) : Option (Amount × List Char) := do
  let whole := (cs.takeWhile isNumeral).filter isDigit
  let (fraction, rest) ← fractionOf? (cs.dropWhile isNumeral)
  let unit ← unitLength? (String.ofList (rest.takeWhile isUnitLetter))
  let rest := rest.dropWhile isUnitLetter
  guard (number whole < UInt64.size ∧ number fraction < UInt64.size ∧ Nat.pow 10 fraction.length < UInt64.size)
  guard (rest.head?.all isNumeral)
  return ({ whole, fraction, unit }, rest)

/-- Adds an amount to a duration. Nanoseconds have no fractions. -/
def Amount.addTo (amount : Amount) (total : Nat) : Except DurationFault Nat := do
  let total ← advanceBy total (number amount.whole) 1 amount.unit (wholeGrain amount.unit)
  if amount.fraction.isEmpty then .ok total
  else if amount.unit = 1 then .error .malformed
  else advanceBy total (number amount.fraction) (Nat.pow 10 amount.fraction.length) amount.unit (fractionGrain amount.unit)

/-- Adds all amounts of a text, at most `fuel` of them. -/
def addAmounts : Nat → Nat → List Char → Except DurationFault Nat
  | 0, _, _ => .error .malformed
  | fuel + 1, total, cs =>
    let cs := cs.dropWhile isBlank
    match if cs.head?.any isDigit then readAmount? cs else none with
    | none => .error .malformed
    | some (amount, rest) => do
      let total ← amount.addTo total
      if (rest.dropWhile isBlank).isEmpty then .ok total else addAmounts fuel total rest

/-- The nanoseconds of a duration. Only zero goes without a unit. -/
def duration (text : String) : Except DurationFault Nat :=
  if text = "0" then .ok 0 else addAmounts (text.toList.length + 1) 0 text.toList

end LoadGenerator.CommandLine
