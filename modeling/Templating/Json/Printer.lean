import Templating.Json.Basic

/-!
# Printing JSON

`Json.text` is the compact form: no blanks, only the escapes that are needed, members in the order
in which the object holds them. A double that is not finite is printed as `null`.
-/

namespace Templating.Json

/-- A hexadecimal digit in lower case. -/
def hexDigit (n : Nat) : Char := Nat.digitChar n

/-- A character as it stands in a string. -/
def escapeChar (c : Char) : List Char :=
  if c = '"' then ['\\', '"']
  else if c = '\\' then ['\\', '\\']
  else if c = '\x08' then ['\\', 'b']
  else if c = '\x0c' then ['\\', 'f']
  else if c = '\n' then ['\\', 'n']
  else if c = '\r' then ['\\', 'r']
  else if c = '\t' then ['\\', 't']
  else if c.toNat < 0x20 then
    ['\\', 'u', '0', '0', hexDigit (c.toNat / 16), hexDigit (c.toNat % 16)]
  else [c]

def stringText (s : String) : List Char := ['"'] ++ s.toList.flatMap escapeChar ++ ['"']

mutual

def text : Json → List Char
  | .null => ['n', 'u', 'l', 'l']
  | .boolean true => ['t', 'r', 'u', 'e']
  | .boolean false => ['f', 'a', 'l', 's', 'e']
  | .integer n => (toString n).toList
  | .float x => (Number.Layout.json.print x).toList
  | .string s => stringText s
  | .array items => ['['] ++ itemsText items ++ [']']
  | .object members => ['\x7b'] ++ membersText members ++ ['\x7d']

def itemsText : List Json → List Char
  | [] => []
  | [item] => item.text
  | item :: rest => item.text ++ [','] ++ itemsText rest

def membersText : List (String × Json) → List Char
  | [] => []
  | [(name, value)] => stringText name ++ [':'] ++ value.text
  | (name, value) :: rest => stringText name ++ [':'] ++ value.text ++ [','] ++ membersText rest

end

def print (json : Json) : String := String.ofList json.text

end Templating.Json
