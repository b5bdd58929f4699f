/-
# Identifiers

Events, customers and products are identified by 128-bit numbers. One text is written,
thirty-two lower-case digits in five groups; four are read, in either case: the groups,
the bare digits, the groups in braces, and the groups behind the URN scheme.
-/

import EventLog.Text.Numeral

namespace EventLog

open Text

structure Uuid where
  number : Nat
  number_lt : number < Nat.pow 16 32
deriving DecidableEq

namespace Uuid

/-- The identifier of nothing. -/
def nil : Uuid := ⟨0, by decide⟩

instance : Inhabited Uuid := ⟨nil⟩

/-- The identifier whose number is `n`, higher digits dropped. -/
def ofNat (n : Nat) : Uuid := ⟨n % Nat.pow 16 32, Nat.mod_lt _ (by decide)⟩

def digits (u : Uuid) : List Char := Numeral.fixed 16 32 u.number

/-- How many digits stand in each group. -/
def groups : List Nat := [8, 4, 4, 4, 12]

/-- Put hyphens between groups of these widths. -/
def joinGroups : List Nat → List Char → List Char
  | [], _ => []
  | [_], cs => cs
  | width :: rest, cs => cs.take width ++ '-' :: joinGroups rest (cs.drop width)

/-- Take the hyphens out; `none` unless the groups have exactly these widths. -/
def splitGroups? : List Nat → List Char → Option (List Char)
  | [], cs => if cs.isEmpty then some [] else none
  | [width], cs => if cs.length = width then some cs else none
  | width :: rest, cs =>
    if (cs.take width).length = width then
      match cs.drop width with
      | '-' :: tail => (splitGroups? rest tail).map (cs.take width ++ ·)
      | _ => none
    else none

def chars (u : Uuid) : List Char := joinGroups groups u.digits

def text (u : Uuid) : String := String.ofList u.chars

/-- The identifier with these thirty-two digits. -/
def ofDigits? (cs : List Char) : Option Uuid :=
  if cs.length = 32 then
    match Numeral.value? 16 cs with
    | some n => if h : n < Nat.pow 16 32 then some ⟨n, h⟩ else none
    | none => none
  else none

def ofGroups? (cs : List Char) : Option Uuid := (splitGroups? groups cs).bind ofDigits?

def urnScheme : List Char := "urn:uuid:".toList

def ofChars? (cs : List Char) : Option Uuid :=
  if cs.length = 32 then ofDigits? cs
  else if cs.length = 36 then ofGroups? cs
  else if cs.length = 38 then
    if cs.head? = some '{' ∧ cs.getLast? = some '}' then ofGroups? (cs.drop 1).dropLast
    else none
  else if cs.length = 45 then
    if (cs.take 9).map Char.toLower = urnScheme then ofGroups? (cs.drop 9) else none
  else none

def ofText? (s : String) : Option Uuid := ofChars? s.toList

end Uuid

end EventLog
