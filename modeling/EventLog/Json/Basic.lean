/-
# JSON values

A value is what a payload says, with the members of an object in the order in which they
stand: a name may occur twice, and it is for the reader of a record to refuse that.
`Json.chars` is the compact text, with nothing between its tokens.
-/

import EventLog.Json.Token

namespace EventLog

/-- A JSON value, as far as a record can tell values apart. -/
inductive Json where
  | null
  | bool (value : Bool)
  | int (value : Int)
  | real
  | string (value : Option String)
  | array (items : List Json)
  | object (members : List (Option String × Json))

namespace Json

/-- A string that denotes a text. -/
def ofText (s : String) : Json := .string (some s)

/-- `null` for nothing. -/
def ofOption {α : Type} (encode : α → Json) : Option α → Json
  | none => .null
  | some a => encode a

/-- An object with these members. -/
def record (members : List (String × Json)) : Json :=
  .object (members.map fun member => (some member.1, member.2))

mutual

/-- The tokens of a value in order. -/
def tokens : Json → List Token
  | .null => [.null]
  | .bool value => [.bool value]
  | .int value => [.int value]
  | .real => [.real]
  | .string value => [.string value]
  | .array items => .openArray :: itemTokens items
  | .object members => .openObject :: memberTokens members

/-- The rest of an array after its opening bracket. -/
def itemTokens : List Json → List Token
  | [] => [.closeArray]
  | [last] => last.tokens ++ [.closeArray]
  | item :: rest => item.tokens ++ .comma :: itemTokens rest

/-- The rest of an object after its opening brace. -/
def memberTokens : List (Option String × Json) → List Token
  | [] => [.closeObject]
  | [(name, value)] => .string name :: .colon :: (value.tokens ++ [.closeObject])
  | (name, value) :: rest =>
    .string name :: .colon :: (value.tokens ++ .comma :: memberTokens rest)

end

/-- The compact text of a value. -/
def chars (v : Json) : List Char := v.tokens.flatMap Token.chars

def text (v : Json) : String := String.ofList v.chars

end Json

end EventLog
