import ClaimMapping.Regex.Basic

namespace ClaimMapping.Regex

inductive Step where
  /-- Takes one character of the set. -/
  | take (s : CharSet) (next : Nat)
  | look (l : Look) (next : Nat)
  /-- Records the current place in a slot. -/
  | mark (slot next : Nat)
  | fork (first second : Nat)
  | done
  deriving DecidableEq, Repr

/-- A program is an array of steps, each naming the steps that may come next; where two may, the
first one has priority. -/
abbrev Program := Array Step

namespace Program

def add (p : Program) (s : Step) : Program × Nat := (p.push s, p.size)

/-- A place where two steps may follow: going on with a repetition and leaving it. -/
def choice (greedy : Bool) (inside outside : Nat) : Step :=
  if greedy then .fork inside outside else .fork outside inside

/-- A number of copies of what `compile` adds, one in front of the other. -/
def copies (compile : Program → Nat → Program × Nat) : Nat → Program → Nat → Program × Nat
  | 0, p, next => (p, next)
  | n + 1, p, next =>
    let (p, start) := compile p next
    copies compile n p start

/-- Up to a number of copies in front of the step `inner`; each of them may be left out together
with those behind it, going straight to `next`. -/
def optionalCopies (compile : Program → Nat → Program × Nat) (greedy : Bool) (next : Nat) :
    Nat → Program → Nat → Program × Nat
  | 0, p, inner => (p, inner)
  | n + 1, p, inner =>
    let (p, start) := compile p inner
    let (p, start) := add p (choice greedy start next)
    optionalCopies compile greedy next n p start

/-- Adds the steps of a regular expression in front of the step `next`, and gives its first step. A
loop whose body can be empty is entered through a choice of its own, so that leaving it keeps its
priority. -/
def compile : Regex → Program → Nat → Program × Nat
  | .empty, p, next => (p, next)
  | .set s, p, next => add p (.take s next)
  | .look l, p, next => add p (.look l next)
  | .group index body, p, next =>
    let (p, close) := add p (.mark (2 * index + 1) next)
    let (p, start) := compile body p close
    add p (.mark (2 * index) start)
  | .seq first second, p, next =>
    let (p, middle) := compile second p next
    compile first p middle
  | .alt first second, p, next =>
    let (p, right) := compile second p next
    let (p, left) := compile first p next
    add p (.fork left right)
  | .repeat least (some most) greedy body, p, next =>
    let (p, middle) := optionalCopies (compile body) greedy next (most - least) p next
    copies (compile body) least p middle
  | .repeat 0 none greedy body, p, next =>
    let (p, loop) := p.add .done
    let (p, start) := compile body p loop
    let p := p.setIfInBounds loop (choice greedy start next)
    if body.canBeEmpty then add p (choice greedy start next) else (p, loop)
  | .repeat (least + 1) none greedy body, p, next =>
    let (p, loop) := p.add .done
    let (p, start) := compile body p loop
    let p := p.setIfInBounds loop (choice greedy start next)
    copies (compile body) least p start

end Program
end ClaimMapping.Regex
