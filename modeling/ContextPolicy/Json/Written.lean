import ContextPolicy.Json.Number

/-! The compact written form of JSON. -/
namespace ContextPolicy.Json

def hexDigit (n : Nat) : Char :=
  Nat.digitChar n

/-- A character inside a string. -/
def escapeChar (c : Char) : List Char :=
  if c = '"' then ['\\', '"']
  else if c = '\\' then ['\\', '\\']
  else if c = '\x08' then ['\\', 'b']
  else if c = '\x0c' then ['\\', 'f']
  else if c = '\n' then ['\\', 'n']
  else if c = '\r' then ['\\', 'r']
  else if c = '\t' then ['\\', 't']
  else if c < ' ' then
    ['\\', 'u', '0', '0', hexDigit (c.toNat / 16), hexDigit (c.toNat % 16)]
  else [c]

def stringText (s : String) : List Char :=
  '"' :: s.toList.flatMap escapeChar ++ ['"']

def nullText : List Char :=
  ['n', 'u', 'l', 'l']

/-- The written form of a value that may be missing. -/
def nullableText {α : Type} (written : α → List Char) : Option α → List Char
  | none => nullText
  | some x => written x

/-- Written forms with commas between them. -/
def commas (items : List (List Char)) : List Char :=
  [','].intercalate items

def arrayText (items : List (List Char)) : List Char :=
  '[' :: commas items ++ [']']

def objectText (fields : List (String × List Char)) : List Char :=
  '\x7b' :: commas (fields.map fun (key, v) => stringText key ++ ':' :: v) ++ ['\x7d']

end ContextPolicy.Json
