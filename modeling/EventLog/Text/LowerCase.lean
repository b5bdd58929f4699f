/-
# Lower case

The name of a stream begins with the lower-case form of its aggregate's type, so the form
has to be the same for every spelling in any script. Each character goes to its small
letter, with two exceptions of the Unicode standard: the capital I with a dot above
becomes two characters, and a capital sigma becomes the final form at the end of a word.
-/

import EventLog.Text.Unicode.Ranges
import EventLog.Text.Unicode.Cased
import EventLog.Text.Unicode.CaseIgnorable
import EventLog.Text.Unicode.SmallLetters

namespace EventLog.Text

open Unicode

/-- The first character that casing does not look through is a cased one. -/
def meetsCased (cs : List Char) : Bool :=
  match cs.dropWhile (within caseIgnorable) with
  | [] => false
  | c :: _ => within cased c

/-- A sigma is final when a cased letter comes before it and none after it, marks and
punctuation inside a word being looked through on both sides. `before` is reversed. -/
def isFinalSigma (before after : List Char) : Bool :=
  meetsCased before && !meetsCased after

/-- The lower-case form of one character between its neighbours. -/
def lowerAt (before : List Char) (c : Char) (after : List Char) : List Char :=
  if c.toNat = 0x3A3 then
    [if isFinalSigma before after then Char.ofNat 0x3C2 else Char.ofNat 0x3C3]
  else if c.toNat = 0x130 then ['i', Char.ofNat 0x307]
  else [smallLetter c]

/-- The lower-case form of a text that follows the reversed text `before`. -/
def lowerFrom (before : List Char) : List Char → List Char
  | [] => []
  | c :: after => lowerAt before c after ++ lowerFrom (c :: before) after

def lowerCase (s : String) : String := String.ofList (lowerFrom [] s.toList)

end EventLog.Text
