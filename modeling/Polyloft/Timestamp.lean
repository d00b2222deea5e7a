/-!
# Polyloft.Timestamp

Days of the calendar and points in time, as they occur in catalogs. The calendar is the Gregorian
one, also for years before it was in use. A point in time may say how far its clock is ahead of
universal time; then it is fixed, and two clocks can show the same one.

A value is written in two ways: by itself as a reader would expect it, and inside of a list or
object by the parts it is made of.
-/

namespace Polyloft

/-- A number in decimal with at least `width` digits. -/
def paddedNat (width n : Nat) : String :=
  let digits := toString n
  String.ofList (List.replicate (width - digits.length) '0') ++ digits

/-! ### Days -/

/-- Does the year have a leap day? -/
def isLeapYear (year : Nat) : Bool :=
  year % 4 == 0 && (year % 100 != 0 || year % 400 == 0)

/-- The number of days of a month. -/
def daysInMonth (year month : Nat) : Nat :=
  if month = 2 then (if isLeapYear year then 29 else 28)
  else if month = 4 ∨ month = 6 ∨ month = 9 ∨ month = 11 then 30
  else 31

/-- A day of the calendar. -/
structure Date where
  year : Nat
  month : Nat
  day : Nat
  year_pos : 0 < year
  month_range : 1 ≤ month ∧ month ≤ 12
  day_range : 1 ≤ day ∧ day ≤ daysInMonth year month
deriving DecidableEq, Repr

namespace Date

/-- The day with the given year, month and day, if there is one. -/
def ofParts? (year month day : Nat) : Option Date :=
  if h : 0 < year ∧ (1 ≤ month ∧ month ≤ 12) ∧ 1 ≤ day ∧ day ≤ daysInMonth year month then
    some ⟨year, month, day, h.1, h.2.1, h.2.2⟩
  else none

/-- How many days the calendar has up to this one. -/
def ordinal (d : Date) : Nat :=
  let years := d.year - 1
  let months := (List.range (d.month - 1)).foldl (fun n m => n + daysInMonth d.year (m + 1)) 0
  365 * years + years / 4 - years / 100 + years / 400 + months + d.day

/-- The day by itself. -/
def render (d : Date) : String :=
  paddedNat 4 d.year ++ "-" ++ paddedNat 2 d.month ++ "-" ++ paddedNat 2 d.day

/-- The year, month and day, separated by commas. -/
def renderParts (d : Date) : String :=
  toString d.year ++ ", " ++ toString d.month ++ ", " ++ toString d.day

/-- The day by its parts. -/
def renderNested (d : Date) : String :=
  "datetime.date(" ++ d.renderParts ++ ")"

end Date

/-! ### Times of day -/

/-- What a clock shows. -/
structure ClockTime where
  hour : Nat
  minute : Nat
  second : Nat
  microsecond : Nat
  hour_lt : hour < 24
  minute_lt : minute < 60
  second_lt : second < 60
  microsecond_lt : microsecond < 1000000
deriving DecidableEq, Repr

namespace ClockTime

/-- The time with the given parts, if a clock shows it. -/
def ofParts? (hour minute second microsecond : Nat) : Option ClockTime :=
  if h : hour < 24 ∧ minute < 60 ∧ second < 60 ∧ microsecond < 1000000 then
    some ⟨hour, minute, second, microsecond, h.1, h.2.1, h.2.2.1, h.2.2.2⟩
  else none

/-- The microseconds since midnight. -/
def sinceMidnight (t : ClockTime) : Nat :=
  ((t.hour * 60 + t.minute) * 60 + t.second) * 1000000 + t.microsecond

/-- The time by itself; a fraction of a second is written if there is one. -/
def render (t : ClockTime) : String :=
  paddedNat 2 t.hour ++ ":" ++ paddedNat 2 t.minute ++ ":" ++ paddedNat 2 t.second ++
    (if t.microsecond = 0 then "" else "." ++ paddedNat 6 t.microsecond)

/-- The parts of the time, separated by commas; parts at the end that are zero are left out, but
for the hour and the minute. -/
def renderParts (t : ClockTime) : String :=
  toString t.hour ++ ", " ++ toString t.minute ++
    (if t.second = 0 ∧ t.microsecond = 0 then "" else ", " ++ toString t.second) ++
    (if t.microsecond = 0 then "" else ", " ++ toString t.microsecond)

end ClockTime

/-! ### Points in time -/

/-- How many minutes a clock is ahead of universal time: less than a day either way. -/
structure ClockOffset where
  minutes : Int
  lt_day : minutes.natAbs < 24 * 60
deriving DecidableEq, Repr

namespace ClockOffset

/-- The clock that is some minutes ahead, if it is less than a day. -/
def ofMinutes? (minutes : Int) : Option ClockOffset :=
  if h : minutes.natAbs < 24 * 60 then some ⟨minutes, h⟩ else none

/-- The offset by itself: a sign, hours and minutes. -/
def render (o : ClockOffset) : String :=
  let n := o.minutes.natAbs
  (if o.minutes < 0 then "-" else "+") ++ paddedNat 2 (n / 60) ++ ":" ++ paddedNat 2 (n % 60)

/-- The offset by its parts: whole days, which are minus one behind universal time, and seconds
within the day. -/
def renderNested (o : ClockOffset) : String :=
  if o.minutes = 0 then "datetime.timezone.utc"
  else
    let days := if o.minutes < 0 then "days=-1, " else ""
    let seconds := 60 * (if o.minutes < 0 then 24 * 60 + o.minutes else o.minutes)
    "datetime.timezone(datetime.timedelta(" ++ days ++ "seconds=" ++ toString seconds ++ "))"

end ClockOffset

/-- A point in time: a day, what the clock shows, and which clock it is, if that is known. -/
structure Timestamp where
  date : Date
  time : ClockTime
  offset : Option ClockOffset
deriving DecidableEq, Repr

namespace Timestamp

/-- The microseconds since the start of the calendar; a clock that is not known counts as one of
universal time. -/
def instant (t : Timestamp) : Int :=
  (t.date.ordinal * 86400000000 + t.time.sinceMidnight : Nat) -
    ((t.offset.map ClockOffset.minutes).getD 0) * 60000000

/-- Do both say the same? Where both clocks are known the instant counts, and a time by a known
clock is never one by an unknown clock. -/
def same (s t : Timestamp) : Bool :=
  s.offset.isSome == t.offset.isSome && s.instant == t.instant

/-- The point in time by itself. -/
def render (t : Timestamp) : String :=
  t.date.render ++ " " ++ t.time.render ++ ((t.offset.map ClockOffset.render).getD "")

/-- The point in time by its parts. -/
def renderNested (t : Timestamp) : String :=
  "datetime.datetime(" ++ t.date.renderParts ++ ", " ++ t.time.renderParts ++
    ((t.offset.map fun o => ", tzinfo=" ++ o.renderNested).getD "") ++ ")"

end Timestamp

end Polyloft
