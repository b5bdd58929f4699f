/-
# How an instant is written

Date, the letter T and time of day, with as many decimals of a second as are needed in
groups of three, and then either the letter Z or the offset of UTC in figures. Years
outside the range of four digits carry a sign.
-/

import EventLog.Text.Numeral
import EventLog.Timestamp.Basic

namespace EventLog.Timestamp

open Text

def yearChars (year : Int) : List Char :=
  if 0 ≤ year ∧ year ≤ 9999 then Numeral.fixed 10 4 year.toNat
  else (if year < 0 then '-' else '+') :: Numeral.padded 4 year.natAbs

def dateChars (d : Date) : List Char :=
  yearChars d.year ++ '-' :: Numeral.fixed 10 2 d.month ++ '-' :: Numeral.fixed 10 2 d.day

/-- Nothing for a whole second, else three, six or nine decimals. -/
def fractionChars (nano : Nat) : List Char :=
  if nano = 0 then []
  else if nano % 1000000 = 0 then '.' :: Numeral.fixed 10 3 (nano / 1000000)
  else if nano % 1000 = 0 then '.' :: Numeral.fixed 10 6 (nano / 1000)
  else '.' :: Numeral.fixed 10 9 nano

def timeChars (t : TimeOfDay) : List Char :=
  Numeral.fixed 10 2 t.hour ++ ':' :: Numeral.fixed 10 2 t.minute ++
    ':' :: Numeral.fixed 10 2 t.second ++ fractionChars t.nano

def chars (t : Timestamp) : List Char := dateChars t.date ++ 'T' :: timeChars t.time

/-- The text with the letter Z, used in payloads and answers. -/
def text (t : Timestamp) : String := String.ofList (t.chars ++ ['Z'])

/-- The text with the offset in figures, used in headers. -/
def textWithOffset (t : Timestamp) : String := String.ofList (t.chars ++ "+00:00".toList)

end EventLog.Timestamp
