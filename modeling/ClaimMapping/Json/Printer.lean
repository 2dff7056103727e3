import ClaimMapping.Decimal.Layout
import ClaimMapping.Json.Basic
import ClaimMapping.Text.Quoted

namespace ClaimMapping.Json

/-- Numbers from `1e-5` up to `1e16` are written positionally, whole ones with `.0`. JSON has no
numerals for the infinite and undefined ones. -/
def floatLayout : Decimal.Layout := ⟨some (-4, 16), true, "null", "null", "null"⟩

def Number.text : Number → List Char
  | .natural n => Decimal.natText n.toNat
  | .negative n => Decimal.intText n.toInt
  | .real x => floatLayout.write x

/-- Characters above the controls are written as they are. -/
def escapeChar (c : Char) : List Char :=
  if c = '"' then ['\\', '"']
  else if c = '\\' then ['\\', '\\']
  else if c = '\n' then ['\\', 'n']
  else if c = '\r' then ['\\', 'r']
  else if c = '\t' then ['\\', 't']
  else if c = '\x08' then ['\\', 'b']
  else if c = '\x0c' then ['\\', 'f']
  else if c.toNat < 0x20 then
    ['\\', 'u', '0', '0', Text.hexDigit (c.toNat / 16), Text.hexDigit (c.toNat % 16)]
  else [c]

def stringText (s : String) : List Char := '"' :: (s.toList.flatMap escapeChar ++ ['"'])

mutual

/-- Writes a value without any space. -/
def text : Json → List Char
  | .null => ['n', 'u', 'l', 'l']
  | .bool true => ['t', 'r', 'u', 'e']
  | .bool false => ['f', 'a', 'l', 's', 'e']
  | .number n => n.text
  | .string s => stringText s
  | .array items => '[' :: (itemsText items ++ [']'])
  | .object members => '\x7b' :: (membersText members ++ ['\x7d'])

def itemsText : List Json → List Char
  | [] => []
  | [item] => text item
  | item :: next :: items => text item ++ ',' :: itemsText (next :: items)

def membersText : List (String × Json) → List Char
  | [] => []
  | [(key, value)] => stringText key ++ ':' :: text value
  | (key, value) :: next :: members =>
    stringText key ++ ':' :: text value ++ ',' :: membersText (next :: members)

end

def compact (j : Json) : String := String.ofList j.text

/-- A new line and two blanks for each level. -/
def newLine (level : Nat) : List Char := '\n' :: List.replicate (2 * level) ' '

mutual

/-- Each item on a line of its own; an empty array or object stays on one line. -/
def indentedText : Nat → Json → List Char
  | _, .array [] => ['[', ']']
  | level, .array (item :: items) =>
    '[' :: (newLine (level + 1) ++ indentedText (level + 1) item
      ++ indentedItems (level + 1) items ++ newLine level ++ [']'])
  | _, .object [] => ['\x7b', '\x7d']
  | level, .object ((key, value) :: members) =>
    '\x7b' :: (newLine (level + 1) ++ stringText key ++ ':' :: ' ' :: indentedText (level + 1) value
      ++ indentedMembers (level + 1) members ++ newLine level ++ ['\x7d'])
  | _, .null => text .null
  | _, .bool b => text (.bool b)
  | _, .number n => n.text
  | _, .string s => stringText s

def indentedItems : Nat → List Json → List Char
  | _, [] => []
  | level, item :: items =>
    ',' :: (newLine level ++ indentedText level item ++ indentedItems level items)

def indentedMembers : Nat → List (String × Json) → List Char
  | _, [] => []
  | level, (key, value) :: members =>
    ',' :: (newLine level ++ stringText key ++ ':' :: ' ' :: indentedText level value
      ++ indentedMembers level members)

end

def indented (j : Json) : String := String.ofList (indentedText 0 j)

end ClaimMapping.Json
