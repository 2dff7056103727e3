namespace ClaimMapping.Time

/-- A day of the Gregorian calendar, extended without end in both directions, where the types of the
engine are bounded. Months and days count from one. -/
structure Date where
  year : Int
  month : Nat
  day : Nat
  deriving DecidableEq, Repr

def isLeapYear (year : Int) : Bool :=
  year % 4 == 0 && (year % 100 != 0 || year % 400 == 0)

def daysInMonth (year : Int) (month : Nat) : Nat :=
  if month = 2 then if isLeapYear year then 29 else 28
  else if month = 4 ∨ month = 6 ∨ month = 9 ∨ month = 11 then 30
  else 31

def Date.isValid (d : Date) : Bool :=
  1 ≤ d.month && d.month ≤ 12 && 1 ≤ d.day && d.day ≤ daysInMonth d.year d.month

/-- Days in 400 years. -/
def eraDays : Int := 146097

/-- Days from the first of March of the year 0 to the first of January 1970. -/
def epochDays : Int := 719468

/-- Days of a year, beginning with March, before the first of a month. -/
def daysBefore (month : Nat) : Nat := (153 * ((month + 9) % 12) + 2) / 5

/-- Days since the first of January 1970. A year counts its days from the first of March, so that a
leap day is its last one. -/
def Date.toDays (d : Date) : Int :=
  let year := if d.month ≤ 2 then d.year - 1 else d.year
  let era := Int.fdiv year 400
  let y := (year - era * 400).toNat
  let inEra := y * 365 + y / 4 - y / 100 + daysBefore d.month + (d.day - 1)
  era * eraDays + inEra - epochDays

def Date.ofDays (days : Int) : Date :=
  let shifted := days + epochDays
  let era := Int.fdiv shifted eraDays
  let inEra := (shifted - era * eraDays).toNat
  let y := (inEra - inEra / 1460 + inEra / 36524 - inEra / 146096) / 365
  let inYear := inEra - (365 * y + y / 4 - y / 100)
  let m := (5 * inYear + 2) / 153
  let month := if m < 10 then m + 3 else m - 9
  { year := (y : Int) + era * 400 + (if month ≤ 2 then 1 else 0)
    month := month
    day := inYear - (153 * m + 2) / 5 + 1 }

/-- Days since the first of January. -/
def Date.dayOfYear (d : Date) : Int := d.toDays - (Date.mk d.year 1 1).toDays

/-- Sunday is zero. -/
def weekday (days : Int) : Int := Int.fmod (days + 4) 7

end ClaimMapping.Time
