/-
# Texts that stand for a value

A value can be written in many ways. Its tokens follow from it, commas and colons included, but
strings and numbers have several spellings, and white space may stand between any two tokens.
`Written` says this and nothing about how a text is read: a text is written for some tokens if it
spells them in order, with white space around them. A text stands for a value if it is written for
the tokens of the value.

What the library writes itself is one of these texts, the one without white space
(`standsFor_text`).
-/

import EventLog.Json.Basic
import EventLog.Json.Lexer

namespace EventLog.Json

open Text

/-- White space between tokens. -/
def isSpace (c : Char) : Bool := c == ' ' || c == '\n' || c == '\t' || c == '\r'

/-! ## Strings -/

/-- The letters behind a backslash, and what they stand for. -/
def letterEscapes : List (Char × Char) :=
  [('"', '"'), ('\\', '\\'), ('/', '/'), ('b', Char.ofNat 8), ('f', Char.ofNat 12), ('n', '\n'),
    ('r', '\r'), ('t', '\t')]

/-- A character of a string, or half of one, and a spelling of it. -/
inductive Piece.Spelled : Piece → List Char → Prop
  | plain {c : Char} (hquote : c ≠ '"') (hslash : c ≠ '\\') (hprints : 32 ≤ c.toNat) :
      Spelled (.char c) [c]
  | letter {letter c : Char} (h : (letter, c) ∈ letterEscapes) : Spelled (.char c) ['\\', letter]
  | code {digits : List Char} {code : Nat} (hlength : digits.length = 4)
      (h : Numeral.valueFrom 16 0 digits = some code) :
      Spelled (.ofCode code) ('\\' :: 'u' :: digits)

/-- What stands between the quotation marks of a string. -/
inductive Body : List Piece → List Char → Prop
  | nil : Body [] []
  | cons {piece : Piece} {pieces : List Piece} {cs ds : List Char} (h : piece.Spelled cs)
      (hrest : Body pieces ds) : Body (piece :: pieces) (cs ++ ds)

/-! ## Numbers -/

/-- One digit or more. -/
def Digits (ds : List Char) : Prop := ds ≠ [] ∧ ∀ d ∈ ds, Numeral.isDecimal d = true

/-- The whole part of a number, without a zero that could be left out. -/
inductive Whole : Nat → List Char → Prop
  | zero : Whole 0 ['0']
  | positive {n : Nat} {first : Char} {rest : List Char} (hfirst : first ≠ '0')
      (h : Numeral.valueFrom 10 0 (first :: rest) = some n) : Whole n (first :: rest)

inductive Fraction : List Char → Prop
  | point {ds : List Char} (h : Digits ds) : Fraction ('.' :: ds)

inductive Exponent : List Char → Prop
  | mark {mark : Char} {sign ds : List Char} (hmark : mark = 'e' ∨ mark = 'E')
      (hsign : sign = [] ∨ sign = ['+'] ∨ sign = ['-']) (h : Digits ds) :
      Exponent (mark :: (sign ++ ds))

/-- What makes a number one that is no integer literal. -/
inductive Scale : List Char → Prop
  | fraction {ds : List Char} (h : Fraction ds) : Scale ds
  | exponent {ds : List Char} (h : Exponent ds) : Scale ds
  | both {ds es : List Char} (h : Fraction ds) (hexponent : Exponent es) : Scale (ds ++ es)

/-! ## Tokens and texts -/

/-- The spellings of a token. -/
inductive Token.Spelled : Token → List Char → Prop
  | openObject : Spelled .openObject ['{']
  | closeObject : Spelled .closeObject ['}']
  | openArray : Spelled .openArray ['[']
  | closeArray : Spelled .closeArray [']']
  | colon : Spelled .colon [':']
  | comma : Spelled .comma [',']
  | wordNull : Spelled .null ['n', 'u', 'l', 'l']
  | wordTrue : Spelled (.bool true) ['t', 'r', 'u', 'e']
  | wordFalse : Spelled (.bool false) ['f', 'a', 'l', 's', 'e']
  | string {pieces : List Piece} {body : List Char} (h : Body pieces body) :
      Spelled (.string ((textOf [] pieces.reverse).map String.ofList)) ('"' :: (body ++ ['"']))
  | whole {n : Nat} {ds : List Char} (h : Whole n ds) : Spelled (.int n) ds
  | negative {n : Nat} {ds : List Char} (h : Whole n ds) (hpositive : 0 < n) :
      Spelled (.int (-n)) ('-' :: ds)
  | negativeZero : Spelled .real ['-', '0']
  | scaled {sign ds es : List Char} {n : Nat} (hsign : sign = [] ∨ sign = ['-'])
      (h : Whole n ds) (hscale : Scale es) : Spelled .real (sign ++ (ds ++ es))

/-- A text that spells these tokens, with white space around them. -/
inductive Written : List Token → List Char → Prop
  | nil : Written [] []
  | space {tokens : List Token} {c : Char} {cs : List Char} (hspace : isSpace c = true)
      (h : Written tokens cs) : Written tokens (c :: cs)
  | token {token : Token} {tokens : List Token} {ds cs : List Char} (hspelled : token.Spelled ds)
      (h : Written tokens cs) : Written (token :: tokens) (ds ++ cs)

/-- The text is one of those that are written for the value. -/
def StandsFor (s : String) (v : Json) : Prop := Written v.tokens s.toList

/-! ## Texts in parts -/

namespace Written

variable {tokens others : List Token} {cs ds : List Char}

theorem append (h : Written tokens cs) (h' : Written others ds) :
    Written (tokens ++ others) (cs ++ ds) := by
  induction h with
  | nil => exact h'
  | space hspace _ ih => exact .space hspace ih
  | token hspelled _ ih =>
      rw [List.append_assoc]
      exact .token hspelled ih

/-- White space can be put in front of any token. -/
theorem spaces {spaces : List Char} (hspaces : ∀ c ∈ spaces, isSpace c = true)
    (h : Written tokens cs) : Written tokens (spaces ++ cs) := by
  induction spaces with
  | nil => exact h
  | cons c rest ih =>
      obtain ⟨hfirst, hrest⟩ := List.forall_mem_cons.mp hspaces
      exact .space hfirst (ih hrest)

end Written

/-! ## What the library writes -/

theorem Piece.spelled_escape (c : Char) : (Piece.char c).Spelled (escape c) := by
  unfold escape
  by_cases hquote : c = '"'
  · subst hquote
    exact .letter (by decide)
  rw [if_neg hquote]
  by_cases hslash : c = '\\'
  · subst hslash
    exact .letter (by decide)
  rw [if_neg hslash]
  by_cases hback : c = Char.ofNat 8
  · subst hback
    exact .letter (by decide)
  rw [if_neg hback]
  by_cases hfeed : c = Char.ofNat 12
  · subst hfeed
    exact .letter (by decide)
  rw [if_neg hfeed]
  by_cases hline : c = '\n'
  · subst hline
    exact .letter (by decide)
  rw [if_neg hline]
  by_cases hreturn : c = '\r'
  · subst hreturn
    exact .letter (by decide)
  rw [if_neg hreturn]
  by_cases htab : c = '\t'
  · subst htab
    exact .letter (by decide)
  rw [if_neg htab]
  by_cases hcontrol : c.toNat < 32
  · rw [if_pos hcontrol]
    have hvalue : Numeral.valueFrom 16 0 ('0' :: '0' :: Numeral.fixed 16 2 c.toNat) =
        some c.toNat := by
      have hfixed := Numeral.valueFrom_fixed (by decide : 0 < 16) (by decide : 16 ≤ 16) 0
        (show c.toNat < Nat.pow 16 2 from Nat.lt_trans hcontrol (by decide))
      rw [Nat.zero_mul, Nat.zero_add] at hfixed
      exact hfixed
    have hcode : Piece.ofCode c.toNat = .char c := by
      rw [Piece.ofCode, if_neg (by omega), Char.ofNat_toNat]
    exact hcode ▸ .code (by simp) hvalue
  · rw [if_neg hcontrol]
    exact .plain hquote hslash (by omega)

theorem body_flatMap_escape (cs : List Char) : Body (cs.map Piece.char) (cs.flatMap escape) := by
  induction cs with
  | nil => exact .nil
  | cons c rest ih => exact .cons (Piece.spelled_escape c) ih

/-- Pieces that are all characters denote these. -/
theorem textOf_chars (after cs : List Char) :
    textOf after (cs.map Piece.char) = some (cs.reverse ++ after) := by
  induction cs generalizing after with
  | nil => rfl
  | cons c rest ih =>
      rw [List.map_cons, textOf, ih, List.reverse_cons, List.append_assoc]
      rfl

/-- A positive number in decimal begins with a digit that is not zero. -/
theorem exists_decimal_cons {n : Nat} (h : 0 < n) :
    ∃ (first : Char) (rest : List Char), first ≠ '0' ∧ Numeral.decimal n = first :: rest := by
  induction n using Nat.strongRecOn with
  | ind n ih =>
      rw [Numeral.decimal]
      by_cases hsmall : n < 10
      · have hdigits : ∀ d : Fin 10, d.val ≠ 0 → Nat.digitChar d.val ≠ '0' := by decide
        rw [if_pos hsmall]
        exact ⟨Nat.digitChar n, [], hdigits ⟨n, hsmall⟩ (Nat.ne_of_gt h), rfl⟩
      · obtain ⟨first, rest, hfirst, hrest⟩ := ih (n / 10) (by omega) (by omega)
        rw [if_neg hsmall, hrest]
        exact ⟨first, rest ++ [Nat.digitChar (n % 10)], hfirst, rfl⟩

theorem whole_decimal (n : Nat) : Whole n (Numeral.decimal n) := by
  rcases Nat.eq_zero_or_pos n with rfl | hpos
  · rw [Numeral.decimal]
    exact .zero
  · obtain ⟨first, rest, hfirst, hdecimal⟩ := exists_decimal_cons hpos
    have hvalue := Numeral.valueFrom_decimal n 0
    rw [Nat.zero_mul, Nat.zero_add, hdecimal] at hvalue
    rw [hdecimal]
    exact .positive hfirst hvalue

theorem Token.spelled_chars (token : Token) : token.Spelled token.chars := by
  cases token with
  | openObject => exact .openObject
  | closeObject => exact .closeObject
  | openArray => exact .openArray
  | closeArray => exact .closeArray
  | colon => exact .colon
  | comma => exact .comma
  | null => exact .wordNull
  | bool value =>
      cases value with
      | false => exact .wordFalse
      | true => exact .wordTrue
  | real => exact .negativeZero
  | int value =>
      cases value with
      | ofNat n => exact .whole (whole_decimal n)
      | negSucc n => exact .negative (whole_decimal (n + 1)) (Nat.succ_pos n)
  | string s =>
      cases s with
      | none =>
          have hcode : (Piece.ofCode 0xD800).Spelled ['\\', 'u', 'd', '8', '0', '0'] :=
            .code rfl rfl
          exact .string (.cons hcode .nil)
      | some s =>
          have hbody := Token.Spelled.string (body_flatMap_escape s.toList)
          rw [← List.map_reverse, textOf_chars, List.reverse_reverse, List.append_nil,
            Option.map_some, String.ofList_toList] at hbody
          exact hbody

theorem written_flatMap_chars (tokens : List Token) :
    Written tokens (tokens.flatMap Token.chars) := by
  induction tokens with
  | nil => exact .nil
  | cons token rest ih => exact .token token.spelled_chars ih

/-- The compact text of a value stands for it. -/
theorem standsFor_text (v : Json) : StandsFor v.text v := by
  rw [StandsFor, text, String.toList_ofList]
  exact written_flatMap_chars v.tokens

end EventLog.Json
