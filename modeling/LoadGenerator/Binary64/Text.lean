import LoadGenerator.Binary64.Decimal
import LoadGenerator.Text.Digits

/-!
# Texts of binary64 numbers

A style says where positional notation ends and how an exponent is written; `render` writes the shortest digits in a style. Reading accepts a sign, digits with an optional fraction and exponent, and the names of infinity and of the value that is not a number.
-/

namespace LoadGenerator

/-- The decisions of one number format. -/
structure DecimalStyle where
  tie : Tie
  /-- Whether a leading digit at this power of ten is written without an exponent. -/
  positional : Int → Bool
  /-- Whether a whole number in positional form ends with a fraction of zero. -/
  wholeFraction : Bool
  /-- Whether an exponent above zero carries a sign. -/
  plusSign : Bool

namespace Binary64

open Text

def positional (style : DecimalStyle) (digits : List Char) (exponent : Int) : List Char :=
  if 0 ≤ exponent then
    digits ++ List.replicate exponent.toNat '0' ++ (if style.wholeFraction then ['.', '0'] else [])
  else
    let places := exponent.natAbs
    if places < digits.length then
      digits.take (digits.length - places) ++ '.' :: digits.drop (digits.length - places)
    else '0' :: '.' :: List.replicate (places - digits.length) '0' ++ digits

/-- One digit before the point, and the power of ten of that digit. -/
def scientific (style : DecimalStyle) (digits : List Char) (leading : Int) : List Char :=
  let fraction := match digits.drop 1 with
    | [] => []
    | more => '.' :: more
  let sign := if leading < 0 then ['-'] else if style.plusSign then ['+'] else []
  digits.take 1 ++ fraction ++ 'e' :: sign ++ decimal leading.natAbs

def render (style : DecimalStyle) (x : Binary64) : List Char :=
  if x.isNan then ['N', 'a', 'N']
  else
    let sign := if x.negative then ['-'] else []
    if x.isFinite then
      let value := x.shortest style.tie
      let digits := decimal value.digits
      let leading := value.exponent + digits.length - 1
      sign ++ (if x.isZero || style.positional leading then positional style digits value.exponent
        else scientific style digits leading)
    else sign ++ ['i', 'n', 'f']

/-- Messages never use an exponent and write whole numbers without a fraction. -/
def messageStyle : DecimalStyle := ⟨.up, fun _ => true, false, false⟩

/-- Descriptions of values mark whole numbers and switch to exponents at `1e16` and below `1e-4`. -/
def descriptionStyle : DecimalStyle := ⟨.up, fun leading => decide (-4 ≤ leading ∧ leading < 16), true, false⟩

def message (x : Binary64) : String := String.ofList (render messageStyle x)

def description (x : Binary64) : String := String.ofList (render descriptionStyle x)

/-- The exponent of a decimal text: nothing, or a letter, an optional sign and digits to the end. -/
def exponentPart? : List Char → Option Int
  | [] => some 0
  | mark :: rest =>
    if mark = 'e' ∨ mark = 'E' then
      let (negative, digits) := match rest with
        | '-' :: more => (true, more)
        | '+' :: more => (false, more)
        | more => (false, more)
      if digits.isEmpty || !digits.all isDigit then none
      else some (if negative then -(number digits : Int) else number digits)
    else none

/-- Digits with an optional fraction and exponent, at least one digit in front of the exponent. -/
def unsignedDecimal? (text : List Char) : Option Decimal :=
  let (whole, rest) := splitDigits text
  let (fraction, rest) := match rest with
    | '.' :: more => splitDigits more
    | more => ([], more)
  if whole.isEmpty && fraction.isEmpty then none
  else
    (exponentPart? rest).map fun exponent => ⟨number (whole ++ fraction), exponent - fraction.length⟩

/-- Reads a decimal text, `inf`, `infinity` or `nan` in any letter case, to the nearest number. -/
def parse? (text : String) : Option Binary64 :=
  let (negative, rest) := match text.toList with
    | '-' :: more => (true, more)
    | '+' :: more => (false, more)
    | more => (false, more)
  let name := String.ofList (rest.map Char.toLower)
  if name = "inf" ∨ name = "infinity" then some (infinity negative)
  else if name = "nan" then some ⟨negative, nan.magnitude, nan.magnitude_lt⟩
  else (unsignedDecimal? rest).map (ofDecimal negative)

end Binary64

end LoadGenerator
