import Templating.Text.Case
import Templating.Text.PrintTable

/-!
# Quoted text in messages

`quote` writes a text in double quotes so that every character of it can be told apart: what has no
visible form is written as an escape.
-/

namespace Templating.Text

/-- The hexadecimal digits of a number, in lower case. -/
def hexDigits (n : Nat) : List Char := Nat.toDigits 16 n

/-- An opening brace. -/
def openBrace : Char := '\x7b'

/-- A closing brace. -/
def closeBrace : Char := '\x7d'

/-- A character as it stands between quotes. -/
def quoteChar (c : Char) : List Char :=
  if c = '\x00' then ['\\', '0']
  else if c = '\t' then ['\\', 't']
  else if c = '\n' then ['\\', 'n']
  else if c = '\r' then ['\\', 'r']
  else if c = '"' then ['\\', '"']
  else if c = '\\' then ['\\', '\\']
  else if 0x20 ≤ c.toNat ∧ c.toNat < 0x7F then [c]
  else if inRanges extendingRanges c || inRanges unprintableRanges c then
    ['\\', 'u', openBrace] ++ hexDigits c.toNat ++ [closeBrace]
  else [c]

def quote (text : String) : String :=
  String.ofList (['"'] ++ text.toList.flatMap quoteChar ++ ['"'])

end Templating.Text
