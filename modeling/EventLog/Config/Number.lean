/-
# Numbers in settings

A setting that is a number is a run of decimal digits, with blanks around it and a plus
sign in front if one likes. Digits are read from the left, and the first thing that is
wrong decides what is reported: a character that is no digit, or a value that no longer
fits.
-/

import EventLog.Text.Blank
import EventLog.Text.Numeral

namespace EventLog.Config

open Text

inductive NumberError where
  | empty
  | invalidDigit
  | tooLarge
deriving DecidableEq

def NumberError.message : NumberError → String
  | empty => "cannot parse integer from empty string"
  | invalidDigit => "invalid digit found in string"
  | tooLarge => "number too large to fit in target type"

/-- Read on behind digits that stand for `value`. -/
def digitsFrom (limit value : Nat) : List Char → Except NumberError Nat
  | [] => .ok value
  | c :: rest =>
    match Numeral.digit? 10 c with
    | none => .error .invalidDigit
    | some d =>
      let value := value * 10 + d
      if value ≤ limit then digitsFrom limit value rest else .error .tooLarge

/-- The number of at most `limit` that a setting stands for. -/
def number (limit : Nat) (raw : String) : Except NumberError Nat :=
  match trim raw.toList with
  | [] => .error .empty
  | ['+'] => .error .invalidDigit
  | '+' :: digits => digitsFrom limit 0 digits
  | digits => digitsFrom limit 0 digits

end EventLog.Config
