/-
# Reading decimals

A decimal with an optional sign, fraction and exponent, or one of the names of the values
that are no decimals, as the nearest floating-point number.
-/

import EventLog.Text.Numeral

namespace EventLog.Decimal

open Text

/-- `digits · 10 ^ exponent` as a floating-point number. -/
def scaled (digits : Nat) (exponent : Int) : Float :=
  if 0 ≤ exponent then Float.ofScientific digits false exponent.toNat
  else Float.ofScientific digits true (-exponent).toNat

/-- An integer with an optional sign. -/
def exponent? : List Char → Option Int
  | '-' :: digits => (Numeral.value? 10 digits).map fun n => -(n : Int)
  | '+' :: digits => (Numeral.value? 10 digits).map fun n => (n : Int)
  | digits => (Numeral.value? 10 digits).map fun n => (n : Int)

/-- A number without a sign. -/
def magnitude? (cs : List Char) : Option Float := do
  let whole := cs.takeWhile Numeral.isDecimal
  let rest := cs.dropWhile Numeral.isDecimal
  let (places, rest) := match rest with
    | '.' :: rest => (rest.takeWhile Numeral.isDecimal, rest.dropWhile Numeral.isDecimal)
    | _ => ([], rest)
  let digits ← Numeral.value? 10 (whole ++ places)
  let exponent ← match rest with
    | [] => some 0
    | 'e' :: rest => exponent? rest
    | 'E' :: rest => exponent? rest
    | _ => none
  some (scaled digits (exponent - places.length))

/-- A decimal or a name without a sign. -/
def unsigned? (cs : List Char) : Option Float :=
  let name := String.ofList (cs.map Char.toLower)
  if name = "nan" then some (0.0 / 0.0)
  else if name = "inf" ∨ name = "infinity" then some (1.0 / 0.0)
  else magnitude? cs

def ofText? (s : String) : Option Float :=
  match s.toList with
  | '-' :: rest => (unsigned? rest).map fun x => -x
  | '+' :: rest => unsigned? rest
  | cs => unsigned? cs

end EventLog.Decimal
