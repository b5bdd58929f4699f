/-
# Quotations

Settings, names and labels appear in messages between double quotes. What is quoted must
be recognisable whatever it holds, so quotes, backslashes, line ends and every character
that would not show are written as escapes; all else stands for itself.
-/

import EventLog.Text.Numeral
import EventLog.Text.Unicode.Ranges
import EventLog.Text.Unicode.Concealed

namespace EventLog.Text.Quoted

/-- The characters a quotation cannot show: concealed ones, and the ASCII controls. -/
def isConcealed (c : Char) : Bool := Unicode.within Unicode.concealed c

/-- How one character is written inside a quotation. -/
def escape (c : Char) : List Char :=
  if c = Char.ofNat 0 then ['\\', '0']
  else if c = '\t' then ['\\', 't']
  else if c = '\r' then ['\\', 'r']
  else if c = '\n' then ['\\', 'n']
  else if c = '\\' then ['\\', '\\']
  else if c = '"' then ['\\', '"']
  else if isConcealed c then
    ['\\', 'u', '{'] ++ Numeral.hexadecimal c.toNat ++ ['}']
  else [c]

def encode (cs : List Char) : List Char := '"' :: (cs.flatMap escape ++ ['"'])

end EventLog.Text.Quoted

namespace EventLog.Text

/-- The text between double quotes, escaped where it has to be. -/
def quoted (s : String) : String := String.ofList (Quoted.encode s.toList)

end EventLog.Text
