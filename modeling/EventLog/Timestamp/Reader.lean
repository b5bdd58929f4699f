/-
# How an instant is read

The reader takes more than the printer writes: blanks before each number and separator,
one digit where two are usual, a signed year of any length, any number of decimals, and
an offset of less than a day, by name or in figures. Only fields that make up a real date
and time of day are taken.
-/

import EventLog.Text.Blank
import EventLog.Text.Numeral
import EventLog.Timestamp.Basic

namespace EventLog.Timestamp.Reader

open Text

/-- A reader takes what it understands off the front of a text and leaves the rest. -/
abbrev Reads (α : Type) := List Char → Option (α × List Char)

/-- A number of at least one digit and, if a limit is given, at most that many. -/
def number (limit : Option Nat) : Reads Nat := fun cs =>
  let run := cs.takeWhile Numeral.isDecimal
  let digits := match limit with
    | some most => run.take most
    | none => run
  (Numeral.value? 10 digits).map fun n => (n, cs.drop digits.length)

/-- A number of one or two digits behind blanks. -/
def field : Reads Nat := fun cs => number (some 2) (dropBlanks cs)

/-- A separator behind blanks. -/
def separator (c : Char) : List Char → Option (List Char) := fun cs =>
  match dropBlanks cs with
  | d :: rest => if d = c then some rest else none
  | [] => none

/-- Four digits at most, or a sign and any number of digits. -/
def year : Reads Int := fun cs =>
  match dropBlanks cs with
  | '-' :: rest => (number none rest).map fun (n, rest) => (-(n : Int), rest)
  | '+' :: rest => (number none rest).map fun (n, rest) => ((n : Int), rest)
  | cs => (number (some 4) cs).map fun (n, rest) => ((n : Int), rest)

def date : Reads Date := fun cs => do
  let (year, cs) ← year cs
  let (month, cs) ← field (← separator '-' cs)
  let (day, cs) ← field (← separator '-' cs)
  let date ← Date.ofFields? year month day
  if date.inRange then some (date, cs) else none

/-- Decimals of a second, if there are any. Those beyond the ninth are passed over. -/
def fraction : Reads Nat := fun cs =>
  match cs with
  | '.' :: rest =>
    let digits := rest.takeWhile Numeral.isDecimal
    let kept := digits.take 9
    (Numeral.value? 10 kept).map fun n => (n * Nat.pow 10 (9 - kept.length), rest.drop digits.length)
  | _ => some (0, cs)

def timeOfDay : Reads TimeOfDay := fun cs => do
  let (hour, cs) ← field cs
  let (minute, cs) ← field (← separator ':' cs)
  let (second, cs) ← field (← separator ':' cs)
  let (nano, cs) ← fraction cs
  if h : hour < 24 ∧ minute < 60 ∧ second ≤ 60 ∧ nano < 1000000000 then
    some (⟨hour, minute, second, nano, h.1, h.2.1, h.2.2.1, h.2.2.2⟩, cs)
  else none

/-- Two digits. -/
def twoDigits : Reads Nat := fun cs =>
  if (cs.take 2).length = 2 then
    (Numeral.value? 10 (cs.take 2)).map fun n => (n, cs.drop 2)
  else none

/-- Hours and minutes behind the sign of an offset, with colons or blanks between them. -/
def offsetMinutes : Reads Nat := fun cs => do
  let (hours, cs) ← twoDigits cs
  let (minutes, cs) ← twoDigits (cs.dropWhile fun c => c = ':' || isBlank c)
  if minutes < 60 ∧ hours < 24 then some (hours * 60 + minutes, cs) else none

/-- Minutes ahead of UTC: the letter Z, the name UTC, or a sign with hours and minutes. -/
def offset : Reads Int := fun cs =>
  if (cs.take 3).map Char.toUpper = ['U', 'T', 'C'] then some (0, cs.drop 3)
  else match cs with
    | 'Z' :: rest => some (0, rest)
    | 'z' :: rest => some (0, rest)
    | '+' :: rest => (offsetMinutes rest).map fun (n, rest) => ((n : Int), rest)
    | c :: rest =>
      if c = '-' ∨ c = Char.ofNat 0x2212 then
        (offsetMinutes rest).map fun (n, rest) => (-(n : Int), rest)
      else none
    | [] => none

def instant : Reads Timestamp := fun cs => do
  let (date, cs) ← date cs
  let cs ← match cs with
    | 'T' :: rest => some rest
    | 't' :: rest => some rest
    | ' ' :: rest => some rest
    | _ => none
  let (time, cs) ← timeOfDay cs
  let (offset, cs) ← offset (dropBlanks cs)
  let instant := ofLocal { date, time } offset
  if instant.date.inRange then some (instant, cs) else none

end EventLog.Timestamp.Reader

namespace EventLog.Timestamp

open Text

/-- The instant a text stands for; nothing but blanks may follow it. -/
def ofChars? (cs : List Char) : Option Timestamp :=
  match Reader.instant cs with
  | some (instant, rest) => if (dropBlanks rest).isEmpty then some instant else none
  | none => none

def ofText? (s : String) : Option Timestamp := ofChars? s.toList

end EventLog.Timestamp
