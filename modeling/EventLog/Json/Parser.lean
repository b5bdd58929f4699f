/-
# From tokens to a value

The parser keeps the brackets that are still open on a stack of its own, so values of any
depth are read in one pass over the tokens.
-/

import EventLog.Json.Basic
import EventLog.Json.Lexer

namespace EventLog.Json

/-- An open bracket and what has been read behind it, in reverse. In an object the name
of the member that is being read comes with it. -/
inductive Frame where
  | array (items : List Json)
  | object (members : List (Option String × Json)) (name : Option String)

/-- What has been read, and what may come next. -/
inductive ParserState where
  | needValue (stack : List Frame)
  | arrayStart (stack : List Frame)
  | objectStart (stack : List Frame)
  | needName (members : List (Option String × Json)) (stack : List Frame)
  | needColon (members : List (Option String × Json)) (name : Option String)
      (stack : List Frame)
  | after (value : Json) (stack : List Frame)

namespace ParserState

/-- The token begins a value inside `stack`. -/
def beginValue (stack : List Frame) : Token → Option ParserState
  | .null => some (after .null stack)
  | .bool value => some (after (.bool value) stack)
  | .int value => some (after (.int value) stack)
  | .real => some (after .real stack)
  | .string value => some (after (.string value) stack)
  | .openArray => some (arrayStart stack)
  | .openObject => some (objectStart stack)
  | _ => none

def step : ParserState → Token → Option ParserState
  | needValue stack, token => beginValue stack token
  | arrayStart stack, .closeArray => some (after (.array []) stack)
  | arrayStart stack, token => beginValue (.array [] :: stack) token
  | objectStart stack, .closeObject => some (after (.object []) stack)
  | objectStart stack, .string name => some (needColon [] name stack)
  | needName members stack, .string name => some (needColon members name stack)
  | needColon members name stack, .colon => some (needValue (.object members name :: stack))
  | after value (.array items :: stack), .comma =>
    some (needValue (.array (value :: items) :: stack))
  | after value (.array items :: stack), .closeArray =>
    some (after (.array (value :: items).reverse) stack)
  | after value (.object members name :: stack), .comma =>
    some (needName ((name, value) :: members) stack)
  | after value (.object members name :: stack), .closeObject =>
    some (after (.object ((name, value) :: members).reverse) stack)
  | _, _ => none

/-- The value, once it is complete. -/
def value? : ParserState → Option Json
  | after value [] => some value
  | _ => none

/-- The state after these tokens. -/
def run (state : ParserState) : List Token → Option ParserState
  | [] => some state
  | token :: rest =>
    match state.step token with
    | some next => run next rest
    | none => none

end ParserState

/-- The value these tokens make up. -/
def ofTokens? (tokens : List Token) : Option Json :=
  (ParserState.run (.needValue []) tokens).bind ParserState.value?

/-- The value a text stands for. -/
def ofChars? (cs : List Char) : Option Json := (lex cs).bind ofTokens?

def ofText? (s : String) : Option Json := ofChars? s.toList

end EventLog.Json
