/-
# From characters to tokens

The lexer is a machine that takes one character at a time, so a text of any length is
read in one pass, and reading a text is reading its beginning and then the rest from the
state reached. It accepts exactly the tokens of the JSON grammar with blanks between
them; whether they make up a value is for the parser to say.
-/

import EventLog.Json.Token

namespace EventLog.Json

open Text

/-- What a character or an escape inside a string literal contributes. -/
inductive Piece where
  | char (c : Char)
  | surrogate (code : Nat)
deriving DecidableEq

/-- An escape with four hexadecimal digits. -/
def Piece.ofCode (code : Nat) : Piece :=
  if 0xD800 ≤ code ∧ code < 0xE000 then .surrogate code else .char (Char.ofNat code)

/-- The character that a leading and a trailing surrogate make up. -/
def pairOf (leading trailing : Nat) : Char :=
  Char.ofNat (0x10000 + (leading - 0xD800) * 0x400 + (trailing - 0xDC00))

/-- The text of a string literal whose pieces are given in reverse; `none` if a surrogate
has no partner. -/
def textOf (after : List Char) : List Piece → Option (List Char)
  | [] => some after
  | .char c :: before => textOf (c :: after) before
  | .surrogate trailing :: .surrogate leading :: before =>
    if leading < 0xDC00 ∧ 0xDC00 ≤ trailing then textOf (pairOf leading trailing :: after) before
    else none
  | .surrogate _ :: _ => none

/-- How far into a number literal the lexer is. -/
inductive NumberState where
  | minus
  | zero (negative : Bool)
  | digits (negative : Bool) (value : Nat)
  | point
  | decimals
  | exponent
  | exponentSign
  | exponentDigits
deriving DecidableEq

namespace NumberState

/-- The state after one more character of the literal; `none` if it is not part of it. -/
def step (state : NumberState) (c : Char) : Option NumberState :=
  match state, Numeral.digit? 10 c with
  | .minus, some 0 => some (.zero true)
  | .minus, some d => some (.digits true d)
  | .digits negative value, some d => some (.digits negative (value * 10 + d))
  | .point, some _ => some .decimals
  | .decimals, some _ => some .decimals
  | .exponent, some _ => some .exponentDigits
  | .exponentSign, some _ => some .exponentDigits
  | .exponentDigits, some _ => some .exponentDigits
  | .zero _, none => afterWhole c
  | .digits _ _, none => afterWhole c
  | .decimals, none => if c = 'e' ∨ c = 'E' then some .exponent else none
  | .exponent, none => if c = '+' ∨ c = '-' then some .exponentSign else none
  | _, _ => none
where
  /-- What may follow the whole part of a number. -/
  afterWhole (c : Char) : Option NumberState :=
    if c = '.' then some .point
    else if c = 'e' ∨ c = 'E' then some .exponent
    else none

/-- The token of a complete literal. A zero with a sign is no integer. -/
def token? : NumberState → Option Token
  | .zero false => some (.int 0)
  | .zero true => some .real
  | .digits false value => some (.int value)
  | .digits true value => some (.int (-(value : Int)))
  | .decimals => some .real
  | .exponentDigits => some .real
  | _ => none

end NumberState

/-- Where the lexer is. Pieces of a string literal are kept in reverse. -/
inductive LexerState where
  | between
  | word (rest : List Char) (meaning : Token)
  | number (state : NumberState)
  | string (pieces : List Piece)
  | escape (pieces : List Piece)
  | hex (pieces : List Piece) (left : Nat) (code : Nat)
deriving DecidableEq

namespace LexerState

/-- The first character of a token, or a blank before one. -/
def start (c : Char) : Option (LexerState × List Token) :=
  match c with
  | ' ' | '\n' | '\t' | '\r' => some (between, [])
  | '{' => some (between, [.openObject])
  | '}' => some (between, [.closeObject])
  | '[' => some (between, [.openArray])
  | ']' => some (between, [.closeArray])
  | ':' => some (between, [.colon])
  | ',' => some (between, [.comma])
  | 'n' => some (word ['u', 'l', 'l'] .null, [])
  | 't' => some (word ['r', 'u', 'e'] (.bool true), [])
  | 'f' => some (word ['a', 'l', 's', 'e'] (.bool false), [])
  | '"' => some (string [], [])
  | '-' => some (number .minus, [])
  | '0' => some (number (.zero false), [])
  | c => (Numeral.digit? 10 c).map fun d => (number (.digits false d), [])

/-- The piece of an escape with a letter of its own. -/
def letterEscape? (c : Char) : Option Char :=
  match c with
  | '"' => some '"'
  | '\\' => some '\\'
  | '/' => some '/'
  | 'b' => some (Char.ofNat 8)
  | 'f' => some (Char.ofNat 12)
  | 'n' => some '\n'
  | 'r' => some '\r'
  | 't' => some '\t'
  | _ => none

/-- One character further: the next state and the tokens that are complete with it. -/
def step (state : LexerState) (c : Char) : Option (LexerState × List Token) :=
  match state with
  | between => start c
  | word [] _ => none
  | word [last] meaning => if c = last then some (between, [meaning]) else none
  | word (letter :: rest) meaning => if c = letter then some (word rest meaning, []) else none
  | number inside =>
    match inside.step c with
    | some further => some (number further, [])
    | none => do
      let token ← inside.token?
      let (next, tokens) ← start c
      some (next, token :: tokens)
  | string pieces =>
    if c = '"' then some (between, [.string ((textOf [] pieces).map String.ofList)])
    else if c = '\\' then some (escape pieces, [])
    else if c.toNat < 32 then none
    else some (string (.char c :: pieces), [])
  | escape pieces =>
    if c = 'u' then some (hex pieces 4 0, [])
    else (letterEscape? c).map fun d => (string (.char d :: pieces), [])
  | hex pieces left code =>
    (Numeral.digit? 16 c).map fun d =>
      let code := code * 16 + d
      if left ≤ 1 then (string (.ofCode code :: pieces), []) else (hex pieces (left - 1) code, [])

/-- The tokens that are complete at the end of the text. -/
def finish : LexerState → Option (List Token)
  | between => some []
  | number inside => inside.token?.map fun token => [token]
  | _ => none

/-- Read on from `state`; `read` are the tokens so far, in reverse. -/
def run (read : List Token) (state : LexerState) : List Char → Option (List Token)
  | [] => state.finish.map fun tokens => read.reverse ++ tokens
  | c :: rest =>
    match state.step c with
    | some (next, tokens) => run (tokens.reverse ++ read) next rest
    | none => none

end LexerState

/-- The tokens of a text; `none` if it holds anything else. -/
def lex (cs : List Char) : Option (List Token) := LexerState.run [] .between cs

end EventLog.Json
