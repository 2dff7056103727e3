import ClaimMapping.CommandLine.Toml.Word
import ClaimMapping.Time.Timestamp

namespace ClaimMapping.CommandLine.Toml

open Time.Timestamp (takeFixed? takeChar? takeFraction?)

structure Day where
  year : Nat
  month : Nat
  day : Nat
  deriving DecidableEq, Repr

structure Clock where
  hour : Nat
  minute : Nat
  second : Nat
  nano : Nat
  deriving DecidableEq, Repr

inductive Offset where
  | universal
  /-- The sign belongs to the hours. -/
  | ahead (hours : Int) (minutes : Nat)
  deriving DecidableEq, Repr

/-- A date, a time of day, or both. The fields are checked one by one, so a date need not be in the
calendar. -/
structure Moment where
  day : Option Day
  clock : Option Clock
  offset : Option Offset
  deriving DecidableEq, Repr

def takeDay? (text : List Char) : Option (Day × List Char) := do
  let (year, rest) ← takeFixed? 4 text
  let rest ← dropSign? '-' rest
  let (month, rest) ← takeFixed? 2 rest
  let rest ← dropSign? '-' rest
  let (day, rest) ← takeFixed? 2 rest
  if month < 1 ∨ 12 < month ∨ day < 1 ∨ 31 < day then none else some (⟨year, month, day⟩, rest)

def takeClock? (text : List Char) : Option (Clock × List Char) := do
  let (hour, rest) ← takeFixed? 2 text
  let rest ← dropSign? ':' rest
  let (minute, rest) ← takeFixed? 2 rest
  let rest ← dropSign? ':' rest
  let (second, rest) ← takeFixed? 2 rest
  let (nano, rest) ← takeFraction? rest
  if 24 < hour ∨ 59 < minute ∨ 59 < second then none
  else some (⟨hour, minute, second, nano⟩, rest)

def readOffset? : List Char → Option (Option Offset)
  | [] => some none
  | ['Z'] => some (some .universal)
  | ['z'] => some (some .universal)
  | sign :: rest => do
    let (hours, rest) ← takeFixed? 2 rest
    let rest ← dropSign? ':' rest
    let (minutes, rest) ← takeFixed? 2 rest
    if rest ≠ [] then none
    else if sign = '+' then some (some (.ahead hours minutes))
    else if sign = '-' then some (some (.ahead (-hours) minutes))
    else none

def isClockOnly (text : List Char) : Bool := (text.drop 2).head? == some ':'

/-- A time of day, a date, or both; only both together may have an offset. -/
def Moment.read? (text : List Char) : Option Moment := do
  if isClockOnly text then
    let (clock, rest) ← takeClock? text
    if rest ≠ [] then none else some ⟨none, some clock, none⟩
  else
    let (day, rest) ← takeDay? text
    match takeChar? ['T', 't', ' '] rest with
    | none => if rest ≠ [] then none else some ⟨some day, none, none⟩
    | some rest =>
      let (clock, rest) ← takeClock? rest
      let offset ← readOffset? rest
      return ⟨some day, some clock, offset⟩

def Day.text (d : Day) : List Char :=
  Decimal.padded 4 d.year ++ '-' :: Decimal.padded 2 d.month ++ '-' :: Decimal.padded 2 d.day

def dropZeros (digits : List Char) : List Char := (digits.reverse.dropWhile (· == '0')).reverse

def Clock.text (c : Clock) : List Char :=
  Decimal.padded 2 c.hour ++ ':' :: Decimal.padded 2 c.minute ++ ':' :: Decimal.padded 2 c.second
    ++ if c.nano = 0 then [] else '.' :: dropZeros (Decimal.padded 9 c.nano)

def Offset.text : Offset → List Char
  | .universal => ['Z']
  | .ahead hours minutes =>
    (if hours < 0 then '-' else '+') :: Decimal.padded 2 hours.natAbs
      ++ ':' :: Decimal.padded 2 minutes

def Moment.text (m : Moment) : List Char :=
  let day := (m.day.map Day.text).getD []
  let clock := (m.clock.map Clock.text).getD []
  let between := if m.day.isSome && m.clock.isSome then ['T'] else []
  day ++ between ++ clock ++ (m.offset.map Offset.text).getD []

/-- The text of a moment in its one form. -/
def momentText? (text : List Char) : Option String :=
  (Moment.read? text).map fun m => String.ofList m.text

/-- The hour of a time of day that stands behind a date and a blank. -/
def takeHour (text : List Char) : List Char × List Char :=
  match text with
  | ' ' :: rest =>
    match takeWord? rest with
    | some (word, behind) => (' ' :: word, behind)
    | none => ([], text)
  | _ => ([], text)

/-- Minutes, seconds, a fraction and an offset, where a colon stands at the front. -/
def takeMinutes? (text : List Char) : Option (List Char × List Char) := do
  let (minutes, rest) ← takeMarked? ':' text
  if minutes.isEmpty then return ([], text)
  else
    let (seconds, rest) ← takeMarked? ':' rest
    if seconds.isEmpty then none
    else
      let (fraction, rest) ← takeMarked? '.' rest
      let (ahead, rest) ← takeMarked? '+' rest
      let (offset, rest) ← takeMarked? ':' rest
      return (minutes ++ seconds ++ fraction ++ ahead ++ offset, rest)

/-- All of a moment whose first word has been taken. -/
def takeMoment? (first rest : List Char) : Option (List Char × List Char) := do
  let (hour, rest) := takeHour rest
  let (minutes, rest) ← takeMinutes? rest
  return (first ++ hour ++ minutes, rest)

end ClaimMapping.CommandLine.Toml
