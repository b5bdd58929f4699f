/-
# Numerals

Counts, fields of fixed width and identifiers are all written as digits in some base
up to sixteen. `fixed` writes a number in a given number of places, `decimal` in as many
as it needs; `valueFrom` reads either back, and the two laws at the end say so.
-/

namespace EventLog.Text.Numeral

/-- The number a digit stands for, capital and small letters alike. -/
def digit? (base : Nat) (c : Char) : Option Nat :=
  let n :=
    if '0' ≤ c ∧ c ≤ '9' then c.toNat - 48
    else if 'a' ≤ c ∧ c ≤ 'f' then c.toNat - 87
    else if 'A' ≤ c ∧ c ≤ 'F' then c.toNat - 55
    else base
  if n < base then some n else none

def isDecimal (c : Char) : Bool := (digit? 10 c).isSome

/-- `n` in exactly `width` places; higher digits are dropped. -/
def fixed (base : Nat) : (width : Nat) → (n : Nat) → List Char
  | 0, _ => []
  | width + 1, n => fixed base width (n / base) ++ [(n % base).digitChar]

/-- `n` in decimal without leading zeros. -/
def decimal (n : Nat) : List Char :=
  if n < 10 then [n.digitChar] else decimal (n / 10) ++ [(n % 10).digitChar]
termination_by n
decreasing_by omega

/-- `n` in lower-case hexadecimal without leading zeros. -/
def hexadecimal (n : Nat) : List Char :=
  if n < 16 then [n.digitChar] else hexadecimal (n / 16) ++ [(n % 16).digitChar]
termination_by n
decreasing_by omega

/-- `n` in decimal with at least `width` places. -/
def padded (width n : Nat) : List Char :=
  let digits := decimal n
  List.replicate (width - digits.length) '0' ++ digits

/-- An integer in decimal, a minus sign in front of a negative one. -/
def integer : Int → List Char
  | .ofNat n => decimal n
  | .negSucc n => '-' :: decimal (n + 1)

/-- The number that `acc` followed by these digits stands for; `none` if one is no digit. -/
def valueFrom (base acc : Nat) : List Char → Option Nat
  | [] => some acc
  | c :: rest => do valueFrom base (acc * base + (← digit? base c)) rest

/-- The number a non-empty run of digits stands for. -/
def value? (base : Nat) (digits : List Char) : Option Nat :=
  if digits.isEmpty then none else valueFrom base 0 digits

theorem digit?_digitChar {base n : Nat} (hbase : base ≤ 16) (h : n < base) :
    digit? base n.digitChar = some n := by
  have : n < 16 := by omega
  rcases n with _ | _ | _ | _ | _ | _ | _ | _ | _ | _ | _ | _ | _ | _ | _ | _ | n
  all_goals first | omega | simp [digit?, Nat.digitChar, h]

theorem valueFrom_append (base acc : Nat) (xs ys : List Char) :
    valueFrom base acc (xs ++ ys) =
      (valueFrom base acc xs).bind (fun acc' => valueFrom base acc' ys) := by
  induction xs generalizing acc with
  | nil => rfl
  | cons c rest ih =>
    simp only [List.cons_append, valueFrom]
    cases digit? base c with
    | none => rfl
    | some d => exact ih _

@[simp] theorem length_fixed (base width n : Nat) : (fixed base width n).length = width := by
  induction width generalizing n with
  | zero => rfl
  | succ width ih => simp [fixed, ih]

-- Powers are written in full: which operation the sign stands for depends on whether the
-- powers of monoids are in scope where it is read.
/-- A number that fits its places reads back. -/
theorem valueFrom_fixed {base : Nat} (hpos : 0 < base) (hbase : base ≤ 16) {width n : Nat}
    (acc : Nat) (h : n < Nat.pow base width) :
    valueFrom base acc (fixed base width n) = some (acc * Nat.pow base width + n) := by
  induction width generalizing n with
  | zero =>
    have hzero : n = 0 := Nat.lt_one_iff.mp h
    simp [fixed, valueFrom, hzero]
  | succ width ih =>
    have hdiv : n / base < Nat.pow base width := (Nat.div_lt_iff_lt_mul hpos).mpr h
    have hlast := digit?_digitChar hbase (Nat.mod_lt n hpos)
    have hsplit := Nat.div_add_mod n base
    simp only [fixed, valueFrom_append, ih hdiv, Option.bind_some, valueFrom, hlast,
      Option.bind_eq_bind]
    congr 1
    rw [Nat.add_mul, Nat.mul_assoc, Nat.add_assoc, Nat.mul_comm (n / base) base, hsplit]
    rfl

/-- A decimal numeral reads back after any digits that stand before it. -/
theorem valueFrom_decimal (n acc : Nat) :
    valueFrom 10 acc (decimal n) = some (acc * Nat.pow 10 (decimal n).length + n) := by
  induction n using Nat.strongRecOn generalizing acc with
  | ind n ih =>
    unfold decimal
    split
    · rename_i h
      simp [valueFrom, digit?_digitChar (by decide : 10 ≤ 16) h]
    · rename_i h
      have hlast := digit?_digitChar (by decide : 10 ≤ 16) (Nat.mod_lt n (by decide : 0 < 10))
      have hsplit := Nat.div_add_mod n 10
      simp only [valueFrom_append, ih (n / 10) (by omega) acc, Option.bind_some, valueFrom,
        hlast, Option.bind_eq_bind, List.length_append, List.length_singleton]
      congr 1
      rw [Nat.add_mul, Nat.mul_assoc, Nat.add_assoc, Nat.mul_comm (n / 10) 10, hsplit]
      rfl

end EventLog.Text.Numeral
