import ClaimMapping.Text.Blank
import ClaimMapping.Unicode.Folding
import ClaimMapping.Unicode.Word

namespace ClaimMapping.Regex

/-- Sets of characters as regular expressions write them. -/
inductive CharSet where
  | none
  | any
  | range (low high : Char)
  | blank
  | digit
  | word
  | complement (s : CharSet)
  | union (s t : CharSet)
  | inter (s t : CharSet)
  /-- Also the characters that differ from a member in case only. -/
  | folded (s : CharSet)
  deriving DecidableEq, Repr

namespace CharSet

def holds : CharSet → Char → Bool
  | .none, _ => false
  | .any, _ => true
  | .range low high, c => low ≤ c && c ≤ high
  | .blank, c => Text.isBlank c
  | .digit, c => Unicode.isDigit c
  | .word, c => Unicode.isWord c
  | .complement s, c => !s.holds c
  | .union s t, c => s.holds c || t.holds c
  | .inter s t, c => s.holds c && t.holds c
  | .folded s, c => s.holds c || (Unicode.caseVariants c).any s.holds

def single (c : Char) : CharSet := .range c c

def diff (s t : CharSet) : CharSet := .inter s (.complement t)

/-- The sets that have a name of their own between `[:` and `:]`. -/
def named? (name : String) : Option CharSet :=
  let r := CharSet.range
  match name with
  | "alnum" => some (.union (r '0' '9') (.union (r 'A' 'Z') (r 'a' 'z')))
  | "alpha" => some (.union (r 'A' 'Z') (r 'a' 'z'))
  | "ascii" => some (r '\x00' '\x7f')
  | "blank" => some (.union (single '\t') (single ' '))
  | "cntrl" => some (.union (r '\x00' '\x1f') (single '\x7f'))
  | "digit" => some (r '0' '9')
  | "graph" => some (r '!' '~')
  | "lower" => some (r 'a' 'z')
  | "print" => some (r ' ' '~')
  | "punct" => some (.union (r '!' '/') (.union (r ':' '@') (.union (r '[' '\x60') (r '\x7b' '~'))))
  | "space" => some (.union (r '\t' '\r') (single ' '))
  | "upper" => some (r 'A' 'Z')
  | "word" => some (.union (r '0' '9') (.union (r 'A' 'Z') (.union (single '_') (r 'a' 'z'))))
  | "xdigit" => some (.union (r '0' '9') (.union (r 'A' 'F') (r 'a' 'f')))
  | _ => Option.none

end CharSet
end ClaimMapping.Regex
