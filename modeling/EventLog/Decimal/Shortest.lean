/-
# Shortest decimals

A binary floating-point number stands for every real number that rounds to it. Its
shortest decimal is the one with the fewest digits among those reals, and the nearest to
the number itself where several have equally few. The search is exact: it walks decimal
grids from coarse to fine and looks only at the two grid points next to the number,
because a grid that meets the interval at all meets it at one of these two.
-/

namespace EventLog.Decimal

/-- The number `mantissa · 2 ^ exponent`; `narrowBelow` when the next smaller
floating-point number is only half a step away. -/
structure Binary where
  mantissa : Nat
  exponent : Int
  narrowBelow : Bool

/-- The number `digits · 10 ^ exponent`. -/
structure Scaled where
  digits : Nat
  exponent : Int
deriving DecidableEq

namespace Binary

/-- The magnitude of a finite floating-point number from its 64 bits. -/
def ofBits (bits : Nat) : Binary :=
  let fraction : Nat := bits &&& 0xFFFFFFFFFFFFF
  let biased : Nat := bits >>> 52 &&& 0x7FF
  if biased = 0 then ⟨fraction, -1074, false⟩
  else ⟨fraction + 0x10000000000000, (biased : Int) - 1075, fraction = 0 ∧ 1 < biased⟩

/-- `quarters / 4` steps of the binary grid, over the common denominator that makes both
them and the points of the grid `10 ^ p` whole. -/
def overBinary (b : Binary) (p : Int) (quarters : Nat) : Nat :=
  quarters <<< (b.exponent - 2).toNat * Nat.pow 10 (-p).toNat

/-- `k` steps of the grid `10 ^ p` over the same denominator. -/
def overDecimal (b : Binary) (p : Int) (k : Nat) : Nat :=
  (k * Nat.pow 10 p.toNat) <<< (2 - b.exponent).toNat

/-- The grid point `k · 10 ^ p` rounds to the number. The ends of the interval belong to
it when the mantissa is even. -/
def rounds (b : Binary) (p : Int) (k : Nat) : Bool :=
  let point := b.overDecimal p k
  let low := b.overBinary p (4 * b.mantissa - if b.narrowBelow then 1 else 2)
  let high := b.overBinary p (4 * b.mantissa + 2)
  if b.mantissa % 2 = 0 then low ≤ point && point ≤ high else low < point && point < high

/-- The last grid point that does not exceed the number. -/
def floorAt (b : Binary) (p : Int) : Nat :=
  b.overBinary p (4 * b.mantissa) / b.overDecimal p 1

/-- The nearer of the grid points `k` and `k + 1` around the number; the even one of two
that are equally near. -/
def nearer (b : Binary) (p : Int) (k : Nat) : Nat :=
  let number := b.overBinary p (4 * b.mantissa)
  let below := number - b.overDecimal p k
  let above := b.overDecimal p (k + 1) - number
  if below < above then k else if above < below then k + 1 else if k % 2 = 0 then k else k + 1

/-- The grid point beside the number that rounds to it, if one does. -/
def hit? (b : Binary) (p : Int) : Option Nat :=
  let k := b.floorAt p
  match b.rounds p k, b.rounds p (k + 1) with
  | true, true => some (b.nearer p k)
  | true, false => some k
  | false, true => some (k + 1)
  | false, false => none

/-- The first hit on the grids `10 ^ p`, `10 ^ (p - 1)`, …; on the last of them the
nearest point is taken as it is. -/
def search (b : Binary) : (grids : Nat) → (p : Int) → Scaled
  | 0, p => ⟨b.nearer p (b.floorAt p), p⟩
  | grids + 1, p =>
    match b.hit? p with
    | some k => ⟨k, p⟩
    | none => b.search grids (p - 1)

/-- An exponent whose power of ten is at least the number, and at most a hundred times it. -/
def ceiling (b : Binary) : Int :=
  let whole := b.mantissa <<< b.exponent.toNat
  let parts := 1 <<< (-b.exponent).toNat
  if parts ≤ whole then (Nat.toDigits 10 (whole / parts)).length
  else 1 - ((Nat.toDigits 10 (parts / whole)).length : Int)

/-- The shortest decimal that rounds to the number. Seventeen digits always suffice. -/
def shortest (b : Binary) : Scaled :=
  if b.mantissa = 0 then ⟨0, 0⟩ else b.search 20 b.ceiling

end Binary

end EventLog.Decimal
