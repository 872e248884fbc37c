import TagSync.Decimal
import TagSync.Tag

/-!
Events of a hub, and the points of its history a run can read its source at.

Times are shown as dates of the proleptic Gregorian calendar, counted from days and seconds.
-/

namespace TagSync

/-! ### Dates -/

namespace Calendar

structure Date where
  year : Int
  month : Nat
  day : Nat
  deriving DecidableEq, Repr

/-- The date of a day counted from 1970-01-01. Years are taken to begin in March, so that the
day a leap year adds is its last, and eras are the periods of 400 years. -/
def Date.ofDay (day : Int) : Date :=
  let shifted := day + 719468
  let era := shifted.fdiv 146097
  let dayOfEra := (shifted.fmod 146097).toNat
  let yearOfEra := (dayOfEra - dayOfEra / 1460 + dayOfEra / 36524 - dayOfEra / 146096) / 365
  let dayOfYear := dayOfEra - (365 * yearOfEra + yearOfEra / 4 - yearOfEra / 100)
  let monthFromMarch := (5 * dayOfYear + 2) / 153
  let month := if monthFromMarch < 10 then monthFromMarch + 3 else monthFromMarch - 9
  { year := era * 400 + yearOfEra + (if month ≤ 2 then 1 else 0)
    month
    day := dayOfYear - (153 * monthFromMarch + 2) / 5 + 1 }

def weekdays : List String := ["Sun", "Mon", "Tue", "Wed", "Thu", "Fri", "Sat"]

def months : List String :=
  ["Jan", "Feb", "Mar", "Apr", "May", "Jun", "Jul", "Aug", "Sep", "Oct", "Nov", "Dec"]

/-- The name of the weekday; 1970-01-01 was a Thursday. -/
def weekday (day : Int) : String := weekdays.getD ((day + 4).fmod 7).toNat ""

/-- A number filled up in front to a width. -/
def fill (c : Char) (width n : Nat) : String :=
  let digits := toString n
  String.ofList (List.replicate (width - digits.length) c) ++ digits

/-- Four digits and no sign from 0 to 9999, a sign and at least four digits otherwise. -/
def yearText (year : Int) : String :=
  if 0 ≤ year ∧ year ≤ 9999 then fill '0' 4 year.toNat
  else (if year < 0 then "-" else "+") ++ fill '0' 4 year.natAbs

/-- A second of time, with the nanoseconds of its fraction. Nanoseconds past one thousand
million are a leap second. -/
structure Instant where
  seconds : Int
  nanoseconds : Nat
  deriving DecidableEq, Repr

namespace Instant

def day (t : Instant) : Int := t.seconds.fdiv 86400

def secondOfDay (t : Instant) : Nat := (t.seconds.fmod 86400).toNat

/-- Whether the instant has a date: a year of the supported range, and a leap second only at
the end of a minute. -/
def isValid (t : Instant) : Bool :=
  let year := (Date.ofDay t.day).year
  year ≤ 262142 && -262143 ≤ year && t.nanoseconds < 2000000000 &&
    (t.nanoseconds < 1000000000 || t.secondOfDay % 60 = 59)

/-- The instant in the form `Tue Nov 14 22:13:20 2023`. -/
def display (t : Instant) : String :=
  let date := Date.ofDay t.day
  let s := t.secondOfDay
  weekday t.day ++ " " ++ months.getD (date.month - 1) "" ++ " " ++ fill ' ' 2 date.day ++ " " ++
    fill '0' 2 (s / 3600) ++ ":" ++ fill '0' 2 (s / 60 % 60) ++ ":" ++
    fill '0' 2 (s % 60 + t.nanoseconds / 1000000000) ++ " " ++ yearText date.year

end Instant

end Calendar

/-! ### Points of history -/

/-- A point in the history of a hub. -/
inductive AsOf where
  | event (id : EventId)
  /-- Seconds since the epoch; the last event at or before it counts. -/
  | timestamp (seconds : Float)
  /-- The event a repository was made at. -/
  | repo (id : Int)

namespace AsOf

def display : AsOf → String
  | .event id => "event " ++ toString id
  | .timestamp seconds => "timestamp " ++ Decimal.Style.plain.render seconds
  | .repo id => "repo " ++ toString id

def toJson : AsOf → Json
  | .event id => .object [("Event", .int id)]
  | .timestamp seconds => .object [("Timestamp", .float seconds)]
  | .repo id => .object [("Repo", .int id)]

def ofJson? : Json → Option AsOf
  | .object [("Event", j)] => j.int64?.map .event
  | .object [("Timestamp", j)] => j.float?.map .timestamp
  | .object [("Repo", j)] => j.int64?.map .repo
  | _ => none

end AsOf

/-- An event and its time in seconds since the epoch. -/
structure EventInfo where
  id : EventId
  ts : Float

namespace EventInfo

/-- The instant of a time in seconds: the whole seconds below it and the rest. What is no number
counts as the epoch. -/
def instant (e : EventInfo) : Calendar.Instant :=
  if e.ts.isNaN then ⟨0, 0⟩
  else
    let whole := e.ts.floor
    ⟨whole.toInt64.toInt, ((e.ts - whole) * 1e9).toUInt32.toNat⟩

def hasDate (e : EventInfo) : Bool := e.instant.isValid

/-- The date of the event, or the plain number where there is no date. -/
def timestr (e : EventInfo) : String :=
  if e.hasDate then e.instant.display else Decimal.Style.plain.render e.ts

def toJson (e : EventInfo) : Json := .object [("id", .int e.id), ("ts", .float e.ts)]

def layout : Json.Layout := [("id", .refused), ("ts", .refused)]

def ofJson? (j : Json) : Option EventInfo := do
  let [id, ts] ← j.fields? layout | none
  return ⟨← id.int64?, ← ts.float?⟩

end EventInfo

end TagSync
