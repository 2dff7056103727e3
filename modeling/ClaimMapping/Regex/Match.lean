import ClaimMapping.Regex.Program
import ClaimMapping.Regex.Reader

namespace ClaimMapping.Regex

/-- A place in the text: how many characters lie before it, the last of them, and the rest. -/
structure Cursor where
  offset : Nat
  before : Option Char
  rest : List Char

def Cursor.start (text : List Char) : Cursor := ⟨0, none, text⟩

def Cursor.next? (c : Cursor) : Option (Char × Cursor) :=
  match c.rest with
  | [] => none
  | x :: rest => some (x, ⟨c.offset + 1, some x, rest⟩)

/-- Slots with the offsets recorded in them, the latest first. -/
abbrev Slots := List (Nat × Nat)

structure Thread where
  step : Nat
  cursor : Cursor
  slots : Slots

/-- The threads that follow a thread by its step, in order of priority. -/
def Thread.follow (t : Thread) : Step → List Thread
  | .take s next =>
    match t.cursor.next? with
    | some (x, cursor) => if s.holds x then [⟨next, cursor, t.slots⟩] else []
    | none => []
  | .look l next =>
    if l.holds t.cursor.before t.cursor.rest.head? then [{ t with step := next }] else []
  | .mark slot next => [{ t with step := next, slots := (slot, t.cursor.offset) :: t.slots }]
  | .fork first second => [{ t with step := first }, { t with step := second }]
  | .done => []

/-- Which steps have been tried at which offsets. -/
structure Tried where
  places : Nat
  marks : Array Bool

def Tried.none (steps places : Nat) : Tried := ⟨places, Array.replicate (steps * places) false⟩

def Tried.index (d : Tried) (t : Thread) : Nat := t.step * d.places + t.cursor.offset

def Tried.holds (d : Tried) (t : Thread) : Bool := d.marks.getD (d.index t) true

def Tried.insert (d : Tried) (t : Thread) : Tried :=
  { d with marks := d.marks.setIfInBounds (d.index t) true }

/-- Runs threads until one is done: one at a time, while the others are kept, those of higher
priority first. `fuel` bounds the threads looked at. -/
def Program.run (p : Program) : Nat → List Thread → Tried → Option Slots × Tried
  | 0, _, tried => (none, tried)
  | _ + 1, [], tried => (none, tried)
  | fuel + 1, t :: threads, tried =>
    if tried.holds t then p.run fuel threads tried
    else match p[t.step]? with
      | some .done => (some t.slots, tried)
      | some step => p.run fuel (t.follow step ++ threads) (tried.insert t)
      | none => p.run fuel threads tried

/-- Every step at every place puts at most two threads on the list. -/
def Program.fuel (p : Program) (places : Nat) : Nat := 2 * p.size * places + 2

/-- The first place, from the cursor on, where a match begins. A step that has been tried at a place
has led to no match there, so it is not tried again, and the work is bounded by the steps times the
places. -/
def Program.searchFrom (p : Program) (start places : Nat) :
    List Char → Cursor → Tried → Option Slots
  | rest, cursor, tried =>
    match p.run (p.fuel places) [⟨start, cursor, []⟩] tried with
    | (some slots, _) => some slots
    | (none, tried) =>
      match rest with
      | [] => none
      | c :: rest => p.searchFrom start places rest ⟨cursor.offset + 1, some c, rest⟩ tried

/-- The slots of the leftmost match. -/
def slots? (r : Regex) (text : List Char) : Option Slots :=
  let (p, start) := Program.compile r #[.done] 0
  let places := text.length + 1
  p.searchFrom start places text (Cursor.start text) (Tried.none p.size places)

def hasMatch (r : Regex) (text : List Char) : Bool := (r.slots? text).isSome

/-- The text that a group took in the leftmost match. -/
def group? (r : Regex) (index : Nat) (text : List Char) : Option (List Char) := do
  let slots ← r.slots? text
  let first ← slots.lookup (2 * index)
  let last ← slots.lookup (2 * index + 1)
  return (text.drop first).take (last - first)

end ClaimMapping.Regex
