import LoadGenerator.Binary64.Text
import LoadGenerator.Json.Value

/-!
# Writing JSON

The compact form, without blanks. Strings escape quotes, backslashes and controls only; numbers that are not integers have the fewest digits that read back, with a fraction or an exponent.
-/

namespace LoadGenerator

open Text

/-- Exponents start below `1e-5` and from `1e16` on, and are always signed. -/
def jsonStyle : DecimalStyle := ⟨.even, fun leading => decide (-5 ≤ leading ∧ leading < 16), true, true⟩

def JsonNumber.render : JsonNumber → List Char
  | .natural n => decimal n.toNat
  | .negative n => '-' :: decimal (n.val + 1)
  | .real x => x.render jsonStyle

namespace Json

def escapeChar (c : Char) : List Char :=
  if c = '"' then ['\\', '"']
  else if c = '\\' then ['\\', '\\']
  else if c = '\x08' then ['\\', 'b']
  else if c = '\x0c' then ['\\', 'f']
  else if c = '\n' then ['\\', 'n']
  else if c = '\r' then ['\\', 'r']
  else if c = '\t' then ['\\', 't']
  else if c.toNat < 0x20 then
    ['\\', 'u', '0', '0', hexDigit (c.toNat / 16), hexDigit (c.toNat % 16)]
  else [c]

def renderString (s : String) : List Char := '"' :: s.toList.flatMap escapeChar ++ ['"']

mutual

def render : Json → List Char
  | null => ['n', 'u', 'l', 'l']
  | bool true => ['t', 'r', 'u', 'e']
  | bool false => ['f', 'a', 'l', 's', 'e']
  | number n => n.render
  | string s => renderString s
  | array items => '[' :: renderItems items ++ [']']
  | object members => '\x7b' :: renderMembers members ++ ['\x7d']

def renderItems : List Json → List Char
  | [] => []
  | [item] => item.render
  | item :: next :: rest => item.render ++ ',' :: renderItems (next :: rest)

def renderMembers : List (String × Json) → List Char
  | [] => []
  | [(key, value)] => renderString key ++ ':' :: value.render
  | (key, value) :: next :: rest => renderString key ++ ':' :: value.render ++ ',' :: renderMembers (next :: rest)

end

def text (value : Json) : String := String.ofList value.render

end Json

end LoadGenerator
