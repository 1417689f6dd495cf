/-
LogCalls/Settings/Moment.lean

Days of the Gregorian calendar, and times on them.
-/
import LogCalls.Fault

namespace LogCalls

/-- A time of day with its offset from universal time in minutes, if it has
one. -/
structure Clock where
  hour : Nat
  minute : Nat
  second : Nat
  micro : Nat
  offset : Option Int
  deriving DecidableEq, Repr

/-- A day, and the time on it where one is given. -/
structure Moment where
  year : Nat
  month : Nat
  day : Nat
  clock : Option Clock
  deriving DecidableEq, Repr

namespace Moment

/-- Whether a year has a leap day. -/
def isLeap (year : Nat) : Bool := year % 4 == 0 && (year % 100 != 0 || year % 400 == 0)

/-- The number of days of a month. -/
def daysIn (year month : Nat) : Nat :=
  if month = 2 then if isLeap year then 29 else 28
  else if month = 4 ∨ month = 6 ∨ month = 9 ∨ month = 11 then 30
  else 31

/-- The first part that does not exist, years first. -/
def flaw? (m : Moment) : Option CalendarPart :=
  if m.year = 0 then some (.year m.year)
  else if m.month = 0 ∨ 12 < m.month then some .month
  else if m.day = 0 ∨ daysIn m.year m.month < m.day then some .day
  else
    match m.clock with
    | none => none
    | some c =>
      if 23 < c.hour then some .hour
      else if 59 < c.minute then some .minute
      else if 59 < c.second then some .second
      else none

/-- The day before, at the same time. -/
def dayBefore (m : Moment) : Moment :=
  if 1 < m.day then { m with day := m.day - 1 }
  else if 1 < m.month then { m with month := m.month - 1, day := daysIn m.year (m.month - 1) }
  else { m with year := m.year - 1, month := 12, day := 31 }

/-- The day after, at the same time. -/
def dayAfter (m : Moment) : Moment :=
  if m.day < daysIn m.year m.month then { m with day := m.day + 1 }
  else if m.month < 12 then { m with month := m.month + 1, day := 1 }
  else { m with year := m.year + 1, month := 1, day := 1 }

/-- The same moment in universal time, where its clock has an offset.  An offset
is less than a day. -/
def universal (m : Moment) : Moment :=
  match m.clock with
  | some ⟨hour, minute, second, micro, some offset⟩ =>
    let minutes := (hour * 60 + minute : Int) - offset
    let clock := some
      ⟨(minutes % 1440 / 60).toNat, (minutes % 60).toNat, second, micro, some 0⟩
    if minutes < 0 then { m.dayBefore with clock }
    else if minutes < 1440 then { m with clock }
    else { m.dayAfter with clock }
  | _ => m

/-- A number filled with zeros up to `width` digits. -/
def padded (width n : Nat) : String :=
  let digits := Nat.toDigits 10 n
  String.ofList (List.replicate (width - digits.length) '0' ++ digits)

/-- The offset of a clock as hours and minutes. -/
def offsetText (minutes : Int) : String :=
  (if minutes < 0 then "-" else "+") ++ padded 2 (minutes.natAbs / 60) ++ ":" ++
    padded 2 (minutes.natAbs % 60)

/-- The moment in the order year, month, day, and then its time. -/
def text (m : Moment) : String :=
  padded 4 m.year ++ "-" ++ padded 2 m.month ++ "-" ++ padded 2 m.day ++
    match m.clock with
    | none => ""
    | some c =>
      "T" ++ padded 2 c.hour ++ ":" ++ padded 2 c.minute ++ ":" ++ padded 2 c.second ++
        (if c.micro = 0 then "" else "." ++ padded 6 c.micro) ++
        (match c.offset with
          | none => ""
          | some minutes => offsetText minutes)

theorem daysIn_pos (year month : Nat) : 0 < daysIn year month := by
  unfold daysIn
  split
  · split <;> decide
  · split <;> decide

end Moment

end LogCalls
