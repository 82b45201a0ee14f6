import LoadGenerator.Text.Digits
import LoadGenerator.Text.Unprintable

/-!
# Quoted text

A text between double quotes, on one line and readable: quotes and backslashes are escaped, the usual controls have letters, and any other character without a shape is written by its number.
-/

namespace LoadGenerator.Text

def quotedChar (c : Char) : List Char :=
  if c = '"' then ['\\', '"']
  else if c = '\\' then ['\\', '\\']
  else if c = '\n' then ['\\', 'n']
  else if c = '\r' then ['\\', 'r']
  else if c = '\t' then ['\\', 't']
  else if c = '\x00' then ['\\', '0']
  else if isUnprintable c then '\\' :: 'u' :: '\x7b' :: hexadecimal c.toNat ++ ['\x7d']
  else [c]

def quoted (text : String) : String :=
  String.ofList ('"' :: text.toList.flatMap quotedChar ++ ['"'])

end LoadGenerator.Text
