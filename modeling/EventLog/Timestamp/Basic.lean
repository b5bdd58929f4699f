/-
# Instants

Times are kept as calendar fields in UTC, not as a count of seconds: the only arithmetic
they need is a shift of less than a day when a text carries an offset, and the fields are
what is written. A leap second is the sixtieth second of its minute, as it is written.
-/

namespace EventLog

def isLeapYear (year : Int) : Bool :=
  year % 4 = 0 && (year % 100 ≠ 0 || year % 400 = 0)

def daysIn (year : Int) (month : Nat) : Nat :=
  if month = 2 then (if isLeapYear year then 29 else 28)
  else if month = 4 ∨ month = 6 ∨ month = 9 ∨ month = 11 then 30 else 31

/-- A day of the proleptic Gregorian calendar. -/
structure Date where
  year : Int
  month : Nat
  day : Nat
  month_mem : 1 ≤ month ∧ month ≤ 12
  day_mem : 1 ≤ day ∧ day ≤ daysIn year month
deriving DecidableEq

theorem one_le_daysIn (year : Int) (month : Nat) : 1 ≤ daysIn year month := by
  unfold daysIn; repeat' split
  all_goals omega

namespace Date

/-- The day with these fields, if there is one. -/
def ofFields? (year : Int) (month day : Nat) : Option Date :=
  if hm : 1 ≤ month ∧ month ≤ 12 then
    if hd : 1 ≤ day ∧ day ≤ daysIn year month then some ⟨year, month, day, hm, hd⟩ else none
  else none

def firstOf (year : Int) (month : Nat) (h : 1 ≤ month ∧ month ≤ 12) : Date :=
  ⟨year, month, 1, h, ⟨Nat.le_refl 1, one_le_daysIn year month⟩⟩

def lastOf (year : Int) (month : Nat) (h : 1 ≤ month ∧ month ≤ 12) : Date :=
  ⟨year, month, daysIn year month, h, ⟨one_le_daysIn year month, Nat.le_refl _⟩⟩

def next (d : Date) : Date :=
  if h : d.day < daysIn d.year d.month then
    ⟨d.year, d.month, d.day + 1, d.month_mem, ⟨by omega, h⟩⟩
  else if h : d.month < 12 then firstOf d.year (d.month + 1) ⟨by omega, h⟩
  else firstOf (d.year + 1) 1 ⟨by omega, by omega⟩

def previous (d : Date) : Date :=
  if h : 1 < d.day then
    ⟨d.year, d.month, d.day - 1, d.month_mem, ⟨by omega, by have := d.day_mem; omega⟩⟩
  else if h : 1 < d.month then lastOf d.year (d.month - 1) ⟨by omega, by have := d.month_mem; omega⟩
  else lastOf (d.year - 1) 12 ⟨by omega, by omega⟩

/-- The years an instant may lie in. -/
def inRange (d : Date) : Bool := -262143 ≤ d.year && d.year ≤ 262142

end Date

/-- A time of day to the nanosecond. Its sixtieth second is a leap second. -/
structure TimeOfDay where
  hour : Nat
  minute : Nat
  second : Nat
  nano : Nat
  hour_lt : hour < 24
  minute_lt : minute < 60
  second_le : second ≤ 60
  nano_lt : nano < 1000000000
deriving DecidableEq

/-- An instant in UTC. -/
structure Timestamp where
  date : Date
  time : TimeOfDay
deriving DecidableEq

namespace Timestamp

/-- The beginning of the year 1970. -/
def epoch : Timestamp where
  date := Date.firstOf 1970 1 ⟨by decide, by decide⟩
  time := ⟨0, 0, 0, 0, by decide, by decide, by decide, by decide⟩

instance : Inhabited Timestamp := ⟨epoch⟩

/-- A number that grows with the instant: the fields in order, each with room for its
largest value. -/
def order (t : Timestamp) : Int :=
  let days := (t.date.year * 13 + t.date.month) * 32 + t.date.day
  let seconds := ((days * 24 + t.time.hour) * 60 + t.time.minute) * 61 + t.time.second
  seconds * 1000000000 + t.time.nano

instance : LE Timestamp := ⟨fun a b => a.order ≤ b.order⟩

instance (a b : Timestamp) : Decidable (a ≤ b) := inferInstanceAs (Decidable (a.order ≤ b.order))

/-- The instant that clocks `offset` minutes ahead of UTC call `t`; the offset is less than
a day. -/
def ofLocal (t : Timestamp) (offset : Int) : Timestamp :=
  let minutes : Int := t.time.hour * 60 + t.time.minute - offset
  let date :=
    if minutes < 0 then t.date.previous
    else if minutes < 1440 then t.date else t.date.next
  let ofDay := (minutes % 1440).toNat
  have hlt : ofDay < 1440 := by omega
  { date, time := { t.time with
      hour := ofDay / 60, minute := ofDay % 60,
      hour_lt := by omega, minute_lt := by omega } }

@[simp] theorem ofLocal_zero (t : Timestamp) : t.ofLocal 0 = t := by
  obtain ⟨date, hour, minute, second, nano, hhour, hminute, hsecond, hnano⟩ := t
  have h : ((hour : Int) * 60 + minute - 0) % 1440 = hour * 60 + minute := by omega
  have hnat : ((hour : Int) * 60 + minute).toNat = hour * 60 + minute := by omega
  have h1 : ¬ ((hour : Int) * 60 + minute - 0 < 0) := by omega
  have h2 : (hour : Int) * 60 + minute - 0 < 1440 := by omega
  simp only [ofLocal, h1, h2, if_true, if_false, h, hnat]
  congr 2 <;> omega

end Timestamp

end EventLog
