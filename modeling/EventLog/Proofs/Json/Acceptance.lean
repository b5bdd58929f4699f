/-
# Only what is written is read

The converse of reading back. What the lexer and the parser have read so far is kept as an
invariant of their states: for a state of the lexer, the tokens that are complete and the
characters of the one that is not (`LexerState.HasRead`); for a state of the parser, the tokens
behind it (`ParserState.consumed`). One more character, or one more token, is shown to extend
them by itself, and at the end of the text they are what the grammar asks for. So a text is read
as a value exactly if it stands for it (`ofText?_eq_some_iff`), and no text stands for two.
-/

import EventLog.Proofs.Json.RoundTrip

namespace EventLog.Json

open Text

/-! ## Numbers -/

/-- Every digit makes the number larger, or leaves it at zero. -/
theorem le_of_valueFrom {acc n : Nat} {ds : List Char}
    (h : Numeral.valueFrom 10 acc ds = some n) : acc ≤ n := by
  induction ds generalizing acc with
  | nil =>
      cases h
      exact Nat.le_refl _
  | cons c rest ih =>
      rw [Numeral.valueFrom] at h
      obtain ⟨d, -, h⟩ := Option.bind_eq_some_iff.mp h
      have hle := ih h
      omega

/-- A whole part that does not begin with zero is not zero. -/
theorem pos_of_valueFrom {n : Nat} {first : Char} {rest : List Char} (hfirst : first ≠ '0')
    (h : Numeral.valueFrom 10 0 (first :: rest) = some n) : 0 < n := by
  rw [Numeral.valueFrom] at h
  obtain ⟨d, hdigit, h⟩ := Option.bind_eq_some_iff.mp h
  have hle := le_of_valueFrom h
  have hne : d ≠ 0 := by
    rintro rfl
    exact hfirst (Numeral.eq_digitChar_of_digit?_ten hdigit).2
  omega

/-- A sign in front of a number, and its characters. -/
def signOf (negative : Bool) : List Char := if negative then ['-'] else []

theorem signOf_eq (negative : Bool) : signOf negative = [] ∨ signOf negative = ['-'] := by
  cases negative with
  | false => exact .inl rfl
  | true => exact .inr rfl

/-- A number up to its exponent. -/
inductive Mantissa : List Char → Prop
  | whole {negative : Bool} {n : Nat} {ds : List Char} (h : Whole n ds) :
      Mantissa (signOf negative ++ ds)
  | fraction {negative : Bool} {n : Nat} {ds fs : List Char} (h : Whole n ds)
      (hfraction : Fraction fs) : Mantissa (signOf negative ++ (ds ++ fs))

/-- The characters of a number that lead to a state. -/
inductive NumberState.HasRead : NumberState → List Char → Prop
  | minus : HasRead .minus ['-']
  | zero (negative : Bool) : HasRead (.zero negative) (signOf negative ++ ['0'])
  | digits {negative : Bool} {n : Nat} {first : Char} {rest : List Char} (hfirst : first ≠ '0')
      (h : Numeral.valueFrom 10 0 (first :: rest) = some n) :
      HasRead (.digits negative n) (signOf negative ++ first :: rest)
  | point {negative : Bool} {n : Nat} {ds : List Char} (h : Whole n ds) :
      HasRead .point (signOf negative ++ (ds ++ ['.']))
  | decimals {negative : Bool} {n : Nat} {ds fs : List Char} (h : Whole n ds)
      (hfraction : Fraction fs) : HasRead .decimals (signOf negative ++ (ds ++ fs))
  | exponent {front : List Char} {mark : Char} (h : Mantissa front)
      (hmark : mark = 'e' ∨ mark = 'E') : HasRead .exponent (front ++ [mark])
  | exponentSign {front : List Char} {mark sign : Char} (h : Mantissa front)
      (hmark : mark = 'e' ∨ mark = 'E') (hsign : sign = '+' ∨ sign = '-') :
      HasRead .exponentSign (front ++ [mark, sign])
  | exponentDigits {front es : List Char} (h : Mantissa front) (hexponent : Exponent es) :
      HasRead .exponentDigits (front ++ es)

section

variable {c : Char} {ds : List Char} (hc : Numeral.isDecimal c = true)

include hc

theorem digits_singleton : Digits [c] :=
  ⟨List.cons_ne_nil c [], fun _ hd => List.mem_singleton.mp hd ▸ hc⟩

theorem Digits.concat (h : Digits ds) : Digits (ds ++ [c]) := by
  refine ⟨List.append_ne_nil_of_left_ne_nil h.1 _, ?_⟩
  intro d hd
  rcases List.mem_append.mp hd with hbefore | hlast
  · exact h.2 d hbefore
  · exact List.mem_singleton.mp hlast ▸ hc

theorem Fraction.concat (h : Fraction ds) : Fraction (ds ++ [c]) := by
  cases h with
  | point h => exact .point (h.concat hc)

theorem Exponent.concat (h : Exponent ds) : Exponent (ds ++ [c]) := by
  cases h with
  | mark hmark hsign h =>
      rw [List.cons_append, List.append_assoc]
      exact .mark hmark hsign (h.concat hc)

end

theorem valueFrom_singleton {c : Char} {d : Nat} (h : Numeral.digit? 10 c = some d) :
    Numeral.valueFrom 10 0 [c] = some d := by
  rw [Numeral.valueFrom, h]
  exact congrArg some (Nat.zero_add d)

/-- One more digit. -/
theorem valueFrom_concat {base n d : Nat} {ds : List Char} {c : Char}
    (h : Numeral.valueFrom base 0 ds = some n) (hdigit : Numeral.digit? base c = some d) :
    Numeral.valueFrom base 0 (ds ++ [c]) = some (n * base + d) := by
  rw [Numeral.valueFrom_append, h, Option.bind_some, Numeral.valueFrom, hdigit]
  rfl

namespace NumberState

variable {state next : NumberState} {cs : List Char} {c : Char}

/-- Behind a whole part comes a point or an exponent. -/
theorem hasRead_afterWhole {negative : Bool} {n : Nat} {ds : List Char} (h : Whole n ds)
    (hstep : step.afterWhole c = some next) : next.HasRead (signOf negative ++ ds ++ [c]) := by
  unfold step.afterWhole at hstep
  split at hstep
  · rename_i hpoint
    subst hpoint
    cases hstep
    rw [List.append_assoc]
    exact .point h
  · split at hstep
    · rename_i hmark
      cases hstep
      exact .exponent (.whole h) hmark
    · cases hstep

/-- The characters of a number with one more, which the state allows. -/
theorem HasRead.step (h : state.HasRead cs) (hstep : state.step c = some next) :
    next.HasRead (cs ++ [c]) := by
  unfold NumberState.step at hstep
  cases hdigit : Numeral.digit? 10 c with
  | none =>
      rw [hdigit] at hstep
      cases h with
      | zero => exact hasRead_afterWhole .zero hstep
      | digits hfirst h => exact hasRead_afterWhole (.positive hfirst h) hstep
      | decimals h hfraction =>
          obtain ⟨hmark, hnext⟩ := Option.ite_none_right_eq_some.mp hstep
          cases hnext
          exact .exponent (.fraction h hfraction) hmark
      | exponent h hmark =>
          obtain ⟨hsign, hnext⟩ := Option.ite_none_right_eq_some.mp hstep
          cases hnext
          rw [List.append_assoc]
          exact .exponentSign h hmark hsign
      | _ => cases hstep
  | some d =>
      rw [hdigit] at hstep
      have hdecimal : Numeral.isDecimal c = true := Option.isSome_iff_exists.mpr ⟨d, hdigit⟩
      cases h with
      | minus =>
          cases d with
          | zero =>
              cases hstep
              rw [(Numeral.eq_digitChar_of_digit?_ten hdigit).2]
              exact .zero true
          | succ d =>
              cases hstep
              have hfirst : c ≠ '0' := by
                rintro rfl
                cases hdigit
              exact .digits hfirst (valueFrom_singleton hdigit)
      | zero => cases hstep
      | digits hfirst h =>
          cases hstep
          rw [List.append_assoc]
          exact .digits hfirst (valueFrom_concat h hdigit)
      | point h =>
          cases hstep
          rw [List.append_assoc, List.append_assoc]
          exact .decimals h (.point (digits_singleton hdecimal))
      | decimals h hfraction =>
          cases hstep
          rw [List.append_assoc, List.append_assoc]
          exact .decimals h (hfraction.concat hdecimal)
      | exponent h hmark =>
          cases hstep
          rw [List.append_assoc]
          exact .exponentDigits h (.mark hmark (.inl rfl) (digits_singleton hdecimal))
      | @exponentSign _ _ sign h hmark hsign =>
          cases hstep
          rw [List.append_assoc]
          have hsigns : [sign] = [] ∨ [sign] = ['+'] ∨ [sign] = ['-'] := by
            obtain rfl | rfl := hsign <;> decide
          exact .exponentDigits h (.mark hmark hsigns (digits_singleton hdecimal))
      | exponentDigits h hexponent =>
          cases hstep
          rw [List.append_assoc]
          exact .exponentDigits h (hexponent.concat hdecimal)

/-- Where a number may end, its characters spell it. -/
theorem HasRead.spelled {token : Token} (h : state.HasRead cs)
    (htoken : state.token? = some token) : token.Spelled cs := by
  cases h with
  | zero negative =>
      cases negative <;> cases htoken
      · exact .whole .zero
      · exact .negativeZero
  | @digits negative n first rest hfirst h =>
      cases negative <;> cases htoken
      · exact .whole (.positive hfirst h)
      · exact .negative (.positive hfirst h) (pos_of_valueFrom hfirst h)
  | @decimals negative _ _ _ h hfraction =>
      cases htoken
      exact .scaled (signOf_eq negative) h (.fraction hfraction)
  | exponentDigits h hexponent =>
      cases htoken
      cases h with
      | @whole negative _ _ h =>
          rw [List.append_assoc]
          exact .scaled (signOf_eq negative) h (.exponent hexponent)
      | @fraction negative _ _ _ h hfraction =>
          rw [List.append_assoc, List.append_assoc]
          exact .scaled (signOf_eq negative) h (.both hfraction hexponent)
  | _ => cases htoken

end NumberState

/-! ## The lexer -/

theorem Written.concat {tokens : List Token} {token : Token} {cs ds : List Char}
    (h : Written tokens cs) (hspelled : token.Spelled ds) :
    Written (tokens ++ [token]) (cs ++ ds) := by
  have hlast := Written.token hspelled .nil
  rw [List.append_nil] at hlast
  exact h.append hlast

theorem Body.concat {pieces : List Piece} {piece : Piece} {cs ds : List Char}
    (h : Body pieces cs) (hspelled : piece.Spelled ds) :
    Body (pieces ++ [piece]) (cs ++ ds) := by
  induction h with
  | nil =>
      have hlast := Body.cons hspelled .nil
      rwa [List.append_nil] at hlast
  | cons hfirst _ ih =>
      rw [List.append_assoc]
      exact .cons hfirst ih

namespace LexerState

/-- The complete tokens and the characters that lead to a state. -/
inductive HasRead : LexerState → List Token → List Char → Prop
  | between {tokens : List Token} {cs : List Char} (h : Written tokens cs) :
      HasRead .between tokens cs
  | word {tokens : List Token} {front begun rest : List Char} {meaning : Token}
      (h : Written tokens front) (hspelled : meaning.Spelled (begun ++ rest)) :
      HasRead (.word rest meaning) tokens (front ++ begun)
  | number {tokens : List Token} {front begun : List Char} {inside : NumberState}
      (h : Written tokens front) (hinside : inside.HasRead begun) :
      HasRead (.number inside) tokens (front ++ begun)
  | string {tokens : List Token} {front body : List Char} {pieces : List Piece}
      (h : Written tokens front) (hbody : Body pieces.reverse body) :
      HasRead (.string pieces) tokens (front ++ '"' :: body)
  | escape {tokens : List Token} {front body : List Char} {pieces : List Piece}
      (h : Written tokens front) (hbody : Body pieces.reverse body) :
      HasRead (.escape pieces) tokens (front ++ '"' :: (body ++ ['\\']))
  | hex {tokens : List Token} {front body digits : List Char} {pieces : List Piece}
      {left code : Nat} (h : Written tokens front) (hbody : Body pieces.reverse body)
      (hleft : digits.length + left = 4) (hpositive : 0 < left)
      (hcode : Numeral.valueFrom 16 0 digits = some code) :
      HasRead (.hex pieces left code) tokens (front ++ '"' :: (body ++ '\\' :: 'u' :: digits))

variable {state next : LexerState} {tokens complete : List Token} {cs : List Char} {c : Char}

/-- The first character of a token, or white space before one. -/
theorem hasRead_start (h : Written tokens cs) (hstep : start c = some (next, complete)) :
    next.HasRead (tokens ++ complete) (cs ++ [c]) := by
  have hspace (hspace : isSpace c = true) : Written (tokens ++ []) (cs ++ [c]) :=
    h.append (.space hspace .nil)
  have hbefore : Written (tokens ++ []) cs := by rwa [List.append_nil]
  unfold start at hstep
  split at hstep <;> try cases hstep
  · exact .between (hspace rfl)
  · exact .between (hspace rfl)
  · exact .between (hspace rfl)
  · exact .between (hspace rfl)
  · exact .between (h.concat .openObject)
  · exact .between (h.concat .closeObject)
  · exact .between (h.concat .openArray)
  · exact .between (h.concat .closeArray)
  · exact .between (h.concat .colon)
  · exact .between (h.concat .comma)
  · exact .word hbefore .wordNull
  · exact .word hbefore .wordTrue
  · exact .word hbefore .wordFalse
  · exact .string hbefore .nil
  · exact .number hbefore .minus
  · exact .number hbefore (.zero false)
  · rename_i hzero
    obtain ⟨d, hdigit, hstep⟩ := Option.map_eq_some_iff.mp hstep
    cases hstep
    exact .number hbefore (.digits hzero (valueFrom_singleton hdigit))

theorem mem_letterEscapes {letter : Char} (h : letterEscape? letter = some c) :
    (letter, c) ∈ letterEscapes := by
  unfold letterEscape? at h
  split at h <;> cases h <;> decide

/-- One character further: the tokens are those that are complete with it. -/
theorem HasRead.step (h : state.HasRead tokens cs) (hstep : state.step c = some (next, complete)) :
    next.HasRead (tokens ++ complete) (cs ++ [c]) := by
  cases h with
  | between h => exact hasRead_start h hstep
  | @word _ front begun rest meaning h hspelled =>
      rw [List.append_assoc]
      cases rest with
      | nil => cases hstep
      | cons letter rest =>
          cases rest with
          | nil =>
              obtain ⟨rfl, hnext⟩ := Option.ite_none_right_eq_some.mp hstep
              cases hnext
              exact .between (h.concat hspelled)
          | cons further rest =>
              obtain ⟨rfl, hnext⟩ := Option.ite_none_right_eq_some.mp hstep
              cases hnext
              rw [List.append_nil]
              refine .word h ?_
              rwa [List.append_assoc]
  | @number _ front begun inside h hinside =>
      rw [LexerState.step] at hstep
      cases hinner : inside.step c with
      | some further =>
          rw [hinner] at hstep
          cases hstep
          rw [List.append_nil, List.append_assoc]
          exact .number h (hinside.step hinner)
      | none =>
          -- The character ends the number and is the first one of what comes behind it.
          rw [hinner] at hstep
          obtain ⟨token, htoken, hstep⟩ := Option.bind_eq_some_iff.mp hstep
          obtain ⟨⟨after, later⟩, hstart, hstep⟩ := Option.bind_eq_some_iff.mp hstep
          cases hstep
          have hnext := hasRead_start (h.concat (hinside.spelled htoken)) hstart
          rwa [List.append_assoc tokens] at hnext
  | @string _ front body pieces h hbody =>
      rw [LexerState.step] at hstep
      rw [List.append_assoc]
      split at hstep
      · rename_i hquote
        cases hquote
        cases hstep
        have hstring := Token.Spelled.string hbody
        rw [List.reverse_reverse] at hstring
        exact .between (h.concat hstring)
      · rename_i hquote
        split at hstep
        · rename_i hslash
          cases hslash
          cases hstep
          rw [List.append_nil]
          exact .escape h hbody
        · rename_i hslash
          obtain ⟨hprints, hnext⟩ := Option.ite_none_left_eq_some.mp hstep
          cases hnext
          rw [List.append_nil]
          refine .string h ?_
          rw [List.reverse_cons]
          exact hbody.concat (.plain hquote hslash (Nat.not_lt.mp hprints))
  | @escape _ front body pieces h hbody =>
      rw [LexerState.step] at hstep
      rw [List.append_assoc, List.cons_append, List.append_assoc]
      split at hstep
      · rename_i hletter
        cases hletter
        cases hstep
        rw [List.append_nil]
        exact .hex h hbody rfl (by decide) rfl
      · obtain ⟨d, hletter, hnext⟩ := Option.map_eq_some_iff.mp hstep
        cases hnext
        rw [List.append_nil]
        refine .string h ?_
        rw [List.reverse_cons]
        exact hbody.concat (.letter (mem_letterEscapes hletter))
  | @hex _ front body digits pieces left code h hbody hleft hpositive hcode =>
      obtain ⟨d, hdigit, hnext⟩ := Option.map_eq_some_iff.mp hstep
      have hvalue := valueFrom_concat hcode hdigit
      rw [List.append_assoc, List.cons_append, List.append_assoc, List.cons_append,
        List.cons_append]
      by_cases hlast : left ≤ 1
      · dsimp only at hnext
        rw [if_pos hlast] at hnext
        cases hnext
        have hlength : (digits ++ [c]).length = 4 := by
          rw [List.length_append, List.length_singleton]
          omega
        rw [List.append_nil]
        refine .string h ?_
        rw [List.reverse_cons]
        exact hbody.concat (.code hlength hvalue)
      · dsimp only at hnext
        rw [if_neg hlast] at hnext
        cases hnext
        have hlength : (digits ++ [c]).length + (left - 1) = 4 := by
          rw [List.length_append, List.length_singleton]
          omega
        rw [List.append_nil]
        exact .hex h hbody hlength (by omega) hvalue

theorem HasRead.written (h : state.HasRead tokens cs) (hfinish : state.finish = some complete) :
    Written (tokens ++ complete) cs := by
  cases h with
  | between h =>
      cases hfinish
      rwa [List.append_nil]
  | number h hinside =>
      obtain ⟨token, htoken, hcomplete⟩ := Option.map_eq_some_iff.mp hfinish
      cases hcomplete
      exact h.concat (hinside.spelled htoken)
  | _ => cases hfinish

/-- A run that comes to its end has read what is written in the text. -/
theorem HasRead.run {read rest : List Char} {result : List Token}
    (h : state.HasRead tokens read) (hrun : run tokens.reverse state rest = some result) :
    Written result (read ++ rest) := by
  induction rest generalizing state tokens read with
  | nil =>
      obtain ⟨complete, hfinish, hresult⟩ := Option.map_eq_some_iff.mp hrun
      rw [List.reverse_reverse] at hresult
      rw [List.append_nil, ← hresult]
      exact h.written hfinish
  | cons c rest ih =>
      rw [LexerState.run] at hrun
      cases hstep : state.step c with
      | none =>
          rw [hstep] at hrun
          cases hrun
      | some result =>
          obtain ⟨next, complete⟩ := result
          rw [hstep] at hrun
          dsimp only at hrun
          rw [← List.reverse_append] at hrun
          have hwritten := ih (h.step hstep) hrun
          rwa [List.append_assoc] at hwritten

end LexerState

theorem written_of_lex {cs : List Char} {tokens : List Token} (h : lex cs = some tokens) :
    Written tokens cs :=
  LexerState.HasRead.run (.between .nil) h

/-! ## The parser -/

/-- What stands before a further item of an array. -/
def itemsBefore (items : List Json) : List Token :=
  items.flatMap fun item => item.tokens ++ [.comma]

/-- What stands before a further member of an object. -/
def membersBefore (members : List (Option String × Json)) : List Token :=
  members.flatMap fun (name, value) => .string name :: .colon :: (value.tokens ++ [.comma])

theorem itemTokens_concat (items : List Json) (last : Json) :
    itemTokens (items ++ [last]) = itemsBefore items ++ (last.tokens ++ [.closeArray]) := by
  induction items with
  | nil => rfl
  | cons item rest ih =>
      obtain ⟨next, later, hlater⟩ := List.exists_cons_of_ne_nil
        (List.append_ne_nil_of_right_ne_nil rest (List.cons_ne_nil last []))
      rw [List.cons_append, hlater, itemTokens_cons_cons, ← hlater, ih]
      show _ = ((item.tokens ++ [.comma]) ++ itemsBefore rest) ++ _
      rw [List.append_assoc, List.append_assoc]
      rfl

theorem memberTokens_concat (members : List (Option String × Json)) (name : Option String)
    (value : Json) :
    memberTokens (members ++ [(name, value)]) =
      membersBefore members ++ .string name :: .colon :: (value.tokens ++ [.closeObject]) := by
  induction members with
  | nil => rfl
  | cons member rest ih =>
      obtain ⟨first, content⟩ := member
      obtain ⟨next, later, hlater⟩ := List.exists_cons_of_ne_nil
        (List.append_ne_nil_of_right_ne_nil rest (List.cons_ne_nil (name, value) []))
      rw [List.cons_append, hlater, memberTokens_cons_cons, ← hlater, ih]
      show _ = ((.string first :: .colon :: (content.tokens ++ [.comma])) ++
        membersBefore rest) ++ _
      simp only [List.cons_append, List.append_assoc, List.nil_append]

/-- The tokens from an open bracket on. -/
def Frame.tokens : Frame → List Token
  | .array items => .openArray :: itemsBefore items.reverse
  | .object members name => .openObject :: (membersBefore members.reverse ++ [.string name, .colon])

namespace ParserState

/-- The tokens from the first bracket that is open on. -/
def opened (stack : List Frame) : List Token := stack.reverse.flatMap Frame.tokens

/-- The tokens that lead to a state. -/
def consumed : ParserState → List Token
  | needValue stack => opened stack
  | arrayStart stack => opened stack ++ [.openArray]
  | objectStart stack => opened stack ++ [.openObject]
  | needName members stack => opened stack ++ .openObject :: membersBefore members.reverse
  | needColon members name stack =>
    opened stack ++ .openObject :: (membersBefore members.reverse ++ [.string name])
  | after value stack => opened stack ++ value.tokens

theorem opened_cons (frame : Frame) (stack : List Frame) :
    opened (frame :: stack) = opened stack ++ frame.tokens := by
  rw [opened, List.reverse_cons, List.flatMap_append, List.flatMap_singleton]
  rfl

variable {state next : ParserState} {token : Token}

theorem consumed_of_beginValue {stack : List Frame} (h : beginValue stack token = some next) :
    next.consumed = opened stack ++ [token] := by
  cases token <;> cases h <;> rfl

/-- One token further: the state has that token behind it, too. -/
theorem consumed_of_step (h : state.step token = some next) :
    next.consumed = state.consumed ++ [token] := by
  cases state with
  | needValue stack => exact consumed_of_beginValue h
  | arrayStart stack =>
      by_cases hclose : token = .closeArray
      · subst hclose
        cases h
        exact (List.append_assoc _ [_] [_]).symm
      · have hbegin : beginValue (.array [] :: stack) token = some next := by
          rw [ParserState.step] at h
          · exact h
          · exact hclose
        rw [consumed_of_beginValue hbegin, opened_cons]
        rfl
  | objectStart stack =>
      cases token <;> cases h
      · exact (List.append_assoc _ [_] [_]).symm
      · exact (List.append_assoc _ [_] [_]).symm
  | needName members stack =>
      cases token <;> cases h
      exact (List.append_assoc _ (_ :: _) [_]).symm
  | needColon members name stack =>
      cases token <;> cases h
      rw [consumed, opened_cons, consumed, Frame.tokens, List.append_assoc, List.cons_append,
        List.append_assoc]
      rfl
  | after value stack =>
      cases stack with
      | nil => cases token <;> cases h
      | cons frame stack =>
          cases frame with
          | array items =>
              cases token <;> cases h
              -- The bracket closes the array, the comma leaves it open with one item more.
              · rw [consumed, consumed, opened_cons, tokens, List.reverse_cons, itemTokens_concat,
                  Frame.tokens]
                simp only [List.cons_append, List.append_assoc]
              · rw [consumed, consumed, opened_cons, opened_cons, Frame.tokens, Frame.tokens,
                  List.reverse_cons]
                simp [itemsBefore]
          | object members name =>
              cases token <;> cases h
              · rw [consumed, consumed, opened_cons, tokens, List.reverse_cons,
                  memberTokens_concat, Frame.tokens]
                simp only [List.cons_append, List.append_assoc, List.nil_append]
              · rw [consumed, consumed, opened_cons, Frame.tokens, List.reverse_cons]
                simp [membersBefore]

/-- The tokens of a run are those behind its last state. -/
theorem consumed_of_run {rest : List Token} (h : run state rest = some next) :
    next.consumed = state.consumed ++ rest := by
  induction rest generalizing state with
  | nil =>
      cases h
      rw [List.append_nil]
  | cons token rest ih =>
      rw [run] at h
      cases hstep : state.step token with
      | none =>
          rw [hstep] at h
          cases h
      | some middle =>
          rw [hstep] at h
          rw [ih h, consumed_of_step hstep, List.append_assoc]
          rfl

end ParserState

/-- Tokens that make up a value are the tokens of this value. -/
theorem eq_tokens_of_ofTokens? {tokens : List Token} {v : Json} (h : ofTokens? tokens = some v) :
    tokens = v.tokens := by
  obtain ⟨last, hrun, hvalue⟩ := Option.bind_eq_some_iff.mp h
  have hconsumed := ParserState.consumed_of_run hrun
  cases last with
  | after value stack =>
      cases stack with
      | nil =>
          cases hvalue
          exact hconsumed.symm
      | cons frame stack => cases hvalue
  | _ => cases hvalue

/-! ## Texts -/

/-- A text is read as the values it stands for, and as no other. -/
theorem ofText?_eq_some_iff {s : String} {v : Json} : ofText? s = some v ↔ StandsFor s v := by
  constructor
  · intro h
    obtain ⟨tokens, hlex, hparse⟩ := Option.bind_eq_some_iff.mp h
    rw [StandsFor, ← eq_tokens_of_ofTokens? hparse]
    exact written_of_lex hlex
  · exact ofText?_of_standsFor

end EventLog.Json
