/-
# Character classes as ranges

A Unicode property is kept as the list of its ranges, first and last code point
included, in increasing order.
-/

namespace EventLog.Text.Unicode

/-- The character lies in one of the ranges. -/
def within (ranges : List (Nat × Nat)) (c : Char) : Bool :=
  ranges.any (fun range => range.1 ≤ c.toNat && c.toNat ≤ range.2)

end EventLog.Text.Unicode
