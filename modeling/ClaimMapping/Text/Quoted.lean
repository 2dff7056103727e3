import ClaimMapping.Unicode.Hidden

namespace ClaimMapping.Text

def hexDigit (n : Nat) : Char :=
  if n < 10 then Char.ofNat ('0'.toNat + n) else Char.ofNat ('a'.toNat + n - 10)

def hexText (n : Nat) : List Char := (Nat.toDigits 16 n)

/-- Quotes and backslashes get a backslash, the common controls their letter, and hidden characters
their code point. -/
def quoteChar (c : Char) : List Char :=
  if c = '"' then ['\\', '"']
  else if c = '\\' then ['\\', '\\']
  else if c = '\n' then ['\\', 'n']
  else if c = '\r' then ['\\', 'r']
  else if c = '\t' then ['\\', 't']
  else if c.toNat = 0 then ['\\', '0']
  else if Unicode.isHidden c then ['\\', 'u', '\x7b'] ++ hexText c.toNat ++ ['\x7d']
  else [c]

/-- Text between double quotes, as error messages and log lines show it. -/
def quoted (s : String) : String :=
  String.ofList ('"' :: s.toList.flatMap quoteChar ++ ['"'])

/-- The items between brackets, with a comma and a blank between them. -/
def bracketed (items : List String) : String := "[" ++ ", ".intercalate items ++ "]"

end ClaimMapping.Text
