/-
# Positional decimals

Floating-point settings and samples are shown by their shortest decimal, written out in
full: no exponent however large or small the number, and no point where there is no
fraction.
-/

import EventLog.Text.Numeral
import EventLog.Decimal.Shortest

namespace EventLog.Decimal

open Text

/-- All digits of `digits · 10 ^ exponent`, with a point only before a fraction. -/
def Scaled.positional (s : Scaled) : List Char :=
  let digits := Numeral.decimal s.digits
  if 0 ≤ s.exponent then
    if s.digits = 0 then ['0'] else digits ++ List.replicate s.exponent.toNat '0'
  else
    let places := (-s.exponent).toNat
    let filled := List.replicate (places + 1 - digits.length) '0' ++ digits
    filled.take (filled.length - places) ++ '.' :: filled.drop (filled.length - places)

/-- The text of the floating-point number with these 64 bits. -/
def ofBits (bits : Nat) : String :=
  let negative := bits >>> 63 &&& 1 = 1
  let sign := if negative then "-" else ""
  if bits >>> 52 &&& 0x7FF = 0x7FF then
    if bits &&& 0xFFFFFFFFFFFFF = 0 then sign ++ "inf" else "NaN"
  else sign ++ String.ofList (Binary.ofBits bits).shortest.positional

def text (x : Float) : String := ofBits x.toBits.toNat

end EventLog.Decimal
