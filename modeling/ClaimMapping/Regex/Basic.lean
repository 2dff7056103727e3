import ClaimMapping.Regex.CharSet

namespace ClaimMapping

namespace Regex

/-- Conditions on a place between two characters. -/
inductive Look where
  | textStart
  | textEnd
  | lineStart
  | lineEnd
  | wordBoundary
  | notWordBoundary
  | wordStart
  | wordEnd
  | wordStartHalf
  | wordEndHalf
  deriving DecidableEq, Repr

/-- `before` and `after` are the characters on either side. -/
def Look.holds (l : Look) (before after : Option Char) : Bool :=
  let left := before.any Unicode.isWord
  let right := after.any Unicode.isWord
  match l with
  | .textStart => before.isNone
  | .textEnd => after.isNone
  | .lineStart => before.all (· == '\n')
  | .lineEnd => after.all (· == '\n')
  | .wordBoundary => left != right
  | .notWordBoundary => left == right
  | .wordStart => !left && right
  | .wordEnd => left && !right
  | .wordStartHalf => !left
  | .wordEndHalf => !right

end Regex

/-- Regular expressions with numbered groups. Of the alternatives the first one that leads to a
match counts, and a greedy repetition tries to repeat before it stops. -/
inductive Regex where
  | empty
  | set (s : Regex.CharSet)
  | look (l : Regex.Look)
  | group (index : Nat) (body : Regex)
  | seq (first second : Regex)
  | alt (first second : Regex)
  /-- At least `least` and at most `most` times. -/
  | repeat (least : Nat) (most : Option Nat) (greedy : Bool) (body : Regex)
  deriving DecidableEq, Repr

namespace Regex

/-- Whether some match takes no character. -/
def canBeEmpty : Regex → Bool
  | .empty => true
  | .set _ => false
  | .look _ => true
  | .group _ body => body.canBeEmpty
  | .seq first second => first.canBeEmpty && second.canBeEmpty
  | .alt first second => first.canBeEmpty || second.canBeEmpty
  | .repeat least _ _ body => least == 0 || body.canBeEmpty

/-- Whether no match takes a character. -/
def alwaysEmpty : Regex → Bool
  | .empty => true
  | .set _ => false
  | .look _ => true
  | .group _ body => body.alwaysEmpty
  | .seq first second => first.alwaysEmpty && second.alwaysEmpty
  | .alt first second => first.alwaysEmpty && second.alwaysEmpty
  | .repeat _ most _ body => most == some 0 || body.alwaysEmpty

/-- How many copies of its sets and conditions a regular expression stands for. -/
def weight : Regex → Nat
  | .empty => 1
  | .set _ => 1
  | .look _ => 1
  | .group _ body => body.weight + 2
  | .seq first second => first.weight + second.weight
  | .alt first second => first.weight + second.weight + 1
  | .repeat least most _ body => (max 1 (max least (most.getD 0))) * (body.weight + 1) + 1

/-- Repeating what takes no character more than once changes nothing, and repeating nothing or once
is no repetition. -/
def repeated (least : Nat) (most : Option Nat) (greedy : Bool) (body : Regex) : Regex :=
  let (least, most) :=
    if body.alwaysEmpty then (min least 1, some (min (most.getD 1) 1)) else (least, most)
  if most = some 0 then .empty
  else if least = 1 ∧ most = some 1 then body
  else .repeat least most greedy body

end Regex
end ClaimMapping
