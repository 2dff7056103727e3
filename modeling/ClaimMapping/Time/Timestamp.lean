import ClaimMapping.Decimal.Layout
import ClaimMapping.Decimal.Numeral
import ClaimMapping.Time.Calendar

namespace ClaimMapping.Time

def daySeconds : Int := 86400

def secondNanos : Nat := 1000000000

/-- A point in time, written as a date, a time of day and an offset from universal time, as in
`2020-01-31T12:00:00.5+01:00`. A leap second is the second before it with a fraction of one or
more. -/
structure Timestamp where
  /-- Seconds of universal time since the beginning of 1970. -/
  second : Int
  /-- The fraction in nanoseconds, below two seconds. -/
  nano : Nat
  /-- Seconds by which the local time is ahead. -/
  offset : Int
  deriving DecidableEq, Repr

namespace Timestamp

def localSecond (t : Timestamp) : Int := t.second + t.offset

def localDays (t : Timestamp) : Int := Int.fdiv t.localSecond daySeconds

def date (t : Timestamp) : Date := Date.ofDays t.localDays

/-- Local seconds since midnight. -/
def clock (t : Timestamp) : Nat := (Int.fmod t.localSecond daySeconds).toNat

def hour (t : Timestamp) : Nat := t.clock / 3600

def minute (t : Timestamp) : Nat := t.clock / 60 % 60

def wholeSecond (t : Timestamp) : Nat := t.clock % 60

/-- Points in time are compared without regard to their offsets. -/
def compare (a b : Timestamp) : Ordering :=
  (Ord.compare a.second b.second).then (Ord.compare a.nano b.nano)

def same (a b : Timestamp) : Bool := a.second == b.second && a.nano == b.nano

/-- Nanoseconds since the beginning of 1970. -/
def nanos (t : Timestamp) : Int := t.second * secondNanos + t.nano

/-- A point within a leap second stays in it as long as only fractions are added; otherwise the leap
second counts as the end of the second before it. -/
def add (t : Timestamp) (nanos : Int) : Timestamp :=
  let seconds := Int.tdiv nanos secondNanos
  let fraction := Int.tmod nanos secondNanos
  let inLeap := secondNanos ≤ t.nano
  if inLeap ∧ seconds = 0 ∧ (t.nano : Int) + fraction < 2 * secondNanos then
    { t with nano := ((t.nano : Int) + fraction).toNat }
  else
    let base := if inLeap then t.nano - secondNanos else t.nano
    let second := if inLeap ∧ seconds < 0 then t.second + 1 else t.second
    let total := (base : Int) + fraction
    { t with
      second := second + seconds + Int.fdiv total secondNanos
      nano := (Int.fmod total secondNanos).toNat }

/-- The time of day in universal time. -/
def dayPart (t : Timestamp) : Int := Int.fmod t.second daySeconds

/-- Nanoseconds from `b` to `a`. A leap second between their times of day counts. -/
def since (a b : Timestamp) : Int :=
  let leap : Int :=
    if b.dayPart < a.dayPart ∧ secondNanos ≤ b.nano then 1
    else if a.dayPart < b.dayPart ∧ secondNanos ≤ a.nano then -1
    else 0
  (a.second - b.second + leap) * secondNanos + ((a.nano : Int) - b.nano)

/-- Four digits, or a sign with at least four digits outside of the years 0 to 9999. -/
def yearText (year : Int) : List Char :=
  if 0 ≤ year ∧ year ≤ 9999 then Decimal.padded 4 year.toNat
  else (if year < 0 then '-' else '+') :: Decimal.padded 4 year.natAbs

/-- Three, six or nine digits, as few as there are. -/
def fractionText (nano : Nat) : List Char :=
  if nano = 0 then []
  else if nano % 1000000 = 0 then '.' :: Decimal.padded 3 (nano / 1000000)
  else if nano % 1000 = 0 then '.' :: Decimal.padded 6 (nano / 1000)
  else '.' :: Decimal.padded 9 nano

def offsetText (offset : Int) : List Char :=
  let minutes := offset.natAbs / 60
  (if offset < 0 then '-' else '+') :: Decimal.padded 2 (minutes / 60)
    ++ ':' :: Decimal.padded 2 (minutes % 60)

def text (t : Timestamp) : List Char :=
  let d := t.date
  let leap := secondNanos ≤ t.nano
  let second := if leap then t.wholeSecond + 1 else t.wholeSecond
  let nano := if leap then t.nano - secondNanos else t.nano
  yearText d.year ++ '-' :: Decimal.padded 2 d.month ++ '-' :: Decimal.padded 2 d.day
    ++ 'T' :: Decimal.padded 2 t.hour ++ ':' :: Decimal.padded 2 t.minute
    ++ ':' :: Decimal.padded 2 second ++ fractionText nano ++ offsetText t.offset

/-- Exactly `count` digits. -/
def takeFixed? (count : Nat) (text : List Char) : Option (Nat × List Char) :=
  let ds := text.take count
  if ds.length = count ∧ ds.all Decimal.isDigit then some (Decimal.natValue ds, text.drop count)
  else none

def takeChar? (wanted : List Char) : List Char → Option (List Char)
  | [] => none
  | c :: rest => if c ∈ wanted then some rest else none

/-- Digits behind the ninth are dropped. -/
def takeFraction? : List Char → Option (Nat × List Char)
  | '.' :: rest =>
    let (ds, rest) := Decimal.takeDigits rest
    let kept := ds.take 9
    if kept.isEmpty then none
    else some (Decimal.natValue kept * Nat.pow 10 (9 - kept.length), rest)
  | rest => some (0, rest)

/-- The letter for universal time, or hours and minutes ahead of or behind it. -/
def readOffset? : List Char → Option Int
  | ['Z'] => some 0
  | ['z'] => some 0
  | sign :: rest => do
    let (hours, rest) ← takeFixed? 2 rest
    let rest ← takeChar? [':'] rest
    let (minutes, rest) ← takeFixed? 2 rest
    if rest ≠ [] ∨ 59 < minutes ∨ 23 < hours then none
    else
      let seconds : Int := hours * 3600 + minutes * 60
      if sign = '+' then some seconds
      else if sign = '-' ∨ sign = '\u2212' then some (-seconds)
      else none
  | [] => none

/-- The second 60 is a leap second, whatever the minute. -/
def read? (text : List Char) : Option Timestamp := do
  let (year, rest) ← takeFixed? 4 text
  let rest ← takeChar? ['-'] rest
  let (month, rest) ← takeFixed? 2 rest
  let rest ← takeChar? ['-'] rest
  let (day, rest) ← takeFixed? 2 rest
  let rest ← takeChar? ['T', 't', ' '] rest
  let (hour, rest) ← takeFixed? 2 rest
  let rest ← takeChar? [':'] rest
  let (minute, rest) ← takeFixed? 2 rest
  let rest ← takeChar? [':'] rest
  let (second, rest) ← takeFixed? 2 rest
  let (nano, rest) ← takeFraction? rest
  let offset ← readOffset? rest
  let d : Date := ⟨year, month, day⟩
  if !d.isValid || 23 < hour || 59 < minute || 60 < second then none
  else
    let leap := second = 60
    let clock := hour * 3600 + minute * 60 + (if leap then 59 else second)
    return {
      second := d.toDays * daySeconds + clock - offset
      nano := if leap then secondNanos + nano else nano
      offset := offset }

end Timestamp
end ClaimMapping.Time
