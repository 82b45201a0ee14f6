import LoadGenerator.Binary64.Text
import LoadGenerator.Toml.Value

/-!
# TOML scalars without quotes

Booleans, integers in four bases, floating point numbers, dates and times. Underscores stand between two digits only, decimal integers have no leading zeros, and calendar fields are in range; seconds may be left out of a time.
-/

namespace LoadGenerator.Toml

open Text

/-- The digits of a run in which single underscores may stand between digits. -/
def ungroup? (accepts : Char → Bool) : List Char → Option (List Char)
  | [] => none
  | [c] => if accepts c then some [c] else none
  | c :: '_' :: rest => if accepts c then (ungroup? accepts rest).map (c :: ·) else none
  | c :: rest => if accepts c then (ungroup? accepts rest).map (c :: ·) else none

/-- A decimal integer without sign and without leading zeros. -/
def wholeDigits? (cs : List Char) : Option (List Char) := do
  let digits ← ungroup? isDigit cs
  if digits.head? = some '0' ∧ 1 < digits.length then none else some digits

def splitSign : List Char → Bool × List Char
  | '-' :: rest => (true, rest)
  | '+' :: rest => (false, rest)
  | rest => (false, rest)

def numberIn (base : Nat) (digits : List Char) : Nat :=
  digits.foldl (fun n c => base * n + (hexValue? c).getD 0) 0

def isDigitIn (base : Nat) (c : Char) : Bool := (hexValue? c).any fun n => decide (n < base)

/-- An integer that fits 128 bits, with or without sign. -/
def integer? (cs : List Char) : Option Int := do
  let n ← match cs with
    | '0' :: 'x' :: rest => (fun ds => (numberIn 16 ds : Int)) <$> ungroup? (isDigitIn 16) rest
    | '0' :: 'o' :: rest => (fun ds => (numberIn 8 ds : Int)) <$> ungroup? (isDigitIn 8) rest
    | '0' :: 'b' :: rest => (fun ds => (numberIn 2 ds : Int)) <$> ungroup? (isDigitIn 2) rest
    | _ => do
      let (negative, rest) := splitSign cs
      let digits ← wholeDigits? rest
      pure (if negative then -(number digits : Int) else number digits)
  if -(Nat.pow 2 127 : Int) ≤ n ∧ n < Nat.pow 2 128 then some n else none

/-- The exponent of a floating point number, from its letter on. -/
def exponent? : List Char → Option (List Char)
  | [] => some []
  | c :: rest =>
    if c = 'e' ∨ c = 'E' then
      let (negative, digits) := splitSign rest
      (ungroup? isDigit digits).map fun ds => 'e' :: (if negative then '-' :: ds else ds)
    else none

/-- A floating point number, its value finite unless it is named. -/
def isFloat (cs : List Char) : Bool :=
  let rest := (splitSign cs).2
  if rest = ['i', 'n', 'f'] ∨ rest = ['n', 'a', 'n'] then true
  else
    let whole := rest.takeWhile fun c => isDigit c || c == '_'
    let after := rest.drop whole.length
    let checked : Option (List Char) := do
      let digits ← wholeDigits? whole
      match after with
      | '.' :: more =>
        let fraction := more.takeWhile fun c => isDigit c || c == '_'
        let places ← ungroup? isDigit fraction
        let exponent ← exponent? (more.drop fraction.length)
        pure (digits ++ '.' :: places ++ exponent)
      | [] => none
      | _ => do
        let exponent ← exponent? after
        pure (digits ++ exponent)
    match checked with
    | none => false
    | some text => ((Binary64.parse? (String.ofList text)).any fun x => x.isFinite)

/-- A number of exactly so many digits at the front. -/
def fixedDigits? (count : Nat) (cs : List Char) : Option (Nat × List Char) :=
  let digits := cs.take count
  if digits.length = count ∧ digits.all isDigit then some (number digits, cs.drop count) else none

def isLeapYear (year : Nat) : Bool := year % 4 == 0 && (year % 100 != 0 || year % 400 == 0)

def daysIn (year month : Nat) : Nat :=
  if month = 2 then (if isLeapYear year then 29 else 28)
  else if month = 4 ∨ month = 6 ∨ month = 9 ∨ month = 11 then 30 else 31

def date? (cs : List Char) : Option (List Char) := do
  let (year, cs) ← fixedDigits? 4 cs
  let '-' :: cs := cs | none
  let (month, cs) ← fixedDigits? 2 cs
  let '-' :: cs := cs | none
  let (day, cs) ← fixedDigits? 2 cs
  if 1 ≤ month ∧ month ≤ 12 ∧ 1 ≤ day ∧ day ≤ daysIn year month then some cs else none

/-- A fraction of a second at the front, if there is a point. -/
def secondFraction? : List Char → Option (List Char)
  | '.' :: rest => if startsWith rest then some (rest.dropWhile isDigit) else none
  | rest => some rest
where
  startsWith : List Char → Bool
    | [] => false
    | c :: _ => isDigit c

def time? (cs : List Char) : Option (List Char) := do
  let (hour, cs) ← fixedDigits? 2 cs
  let ':' :: cs := cs | none
  let (minute, cs) ← fixedDigits? 2 cs
  if 23 < hour ∨ 59 < minute then none
  match cs with
  | ':' :: cs => do
    let (second, cs) ← fixedDigits? 2 cs
    if 60 < second then none else secondFraction? cs
  | _ => some cs

/-- An offset from universal time, to the end. -/
def isOffset : List Char → Bool
  | [] => true
  | [c] => c == 'Z' || c == 'z'
  | c :: rest =>
    (c == '+' || c == '-') && (match fixedDigits? 2 rest with
      | some (hour, ':' :: rest) =>
        (match fixedDigits? 2 rest with
        | some (minute, []) => decide (hour ≤ 23 ∧ minute ≤ 59)
        | _ => false)
      | _ => false)

/-- A date, a time, or both with an optional offset. -/
def isDateTime (cs : List Char) : Bool :=
  time? cs == some [] ||
    (match date? cs with
    | some [] => true
    | some (c :: rest) => (c == 'T' || c == 't' || c == ' ') && (time? rest).any isOffset
    | none => false)

def scalar? (cs : List Char) : Option TomlValue :=
  if cs = ['t', 'r', 'u', 'e'] ∨ cs = ['f', 'a', 'l', 's', 'e'] then some .otherScalar
  else
    match integer? cs with
    | some n => some (.integer n)
    | none => if isFloat cs || isDateTime cs then some .otherScalar else none

end LoadGenerator.Toml
