/-
# Tokens of a JSON text

A payload is read in two stages, and this is the data between them: the punctuation, the
literals and the strings of the text, without the white space. Two things are kept only
as far as a reader of payloads can use them. A number that is no integer literal is just
`real`, since no field holds one. A string literal with an unpaired surrogate escape is
well formed but denotes no text, so it is `string none`: it may stand where it is ignored
and nowhere else.
-/

import EventLog.Text.Numeral

namespace EventLog.Json

open Text

inductive Token where
  | openObject
  | closeObject
  | openArray
  | closeArray
  | colon
  | comma
  | null
  | bool (value : Bool)
  | int (value : Int)
  | real
  | string (value : Option String)
deriving DecidableEq

/-- The two digits of an escape below U+0020 that has no letter of its own. -/
def controlEscape (c : Char) : List Char :=
  ['\\', 'u', '0', '0'] ++ Numeral.fixed 16 2 c.toNat

/-- How one character is written inside a string literal. -/
def escape (c : Char) : List Char :=
  if c = '"' then ['\\', '"']
  else if c = '\\' then ['\\', '\\']
  else if c = Char.ofNat 8 then ['\\', 'b']
  else if c = Char.ofNat 12 then ['\\', 'f']
  else if c = '\n' then ['\\', 'n']
  else if c = '\r' then ['\\', 'r']
  else if c = '\t' then ['\\', 't']
  else if c.toNat < 32 then controlEscape c
  else [c]

/-- How a token is written. `real` and `string none` have no content of their own and are
written as the shortest literals that are read as such. -/
def Token.chars : Token → List Char
  | .openObject => ['{']
  | .closeObject => ['}']
  | .openArray => ['[']
  | .closeArray => [']']
  | .colon => [':']
  | .comma => [',']
  | .null => ['n', 'u', 'l', 'l']
  | .bool true => ['t', 'r', 'u', 'e']
  | .bool false => ['f', 'a', 'l', 's', 'e']
  | .int value => Numeral.integer value
  | .real => ['-', '0']
  | .string (some s) => '"' :: (s.toList.flatMap escape ++ ['"'])
  | .string none => ['"', '\\', 'u', 'd', '8', '0', '0', '"']

end EventLog.Json
