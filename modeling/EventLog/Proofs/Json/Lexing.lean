/-
# The lexer reads what is written

A text is gone through part by part. `LexerState.through` says where the lexer gets and which
tokens are complete after some characters, whatever stands behind them. Every token but one
kind is complete with its last character. A number is complete only with a character that is
not part of it any more, which may be white space, a comma or a closing bracket
(`run_number`): token lists in which nothing else stands behind a number are `Separated`, and
these the lexer gives back from every text that is written for them (`lex_of_written`).
-/

import EventLog.Proofs.Json.Grammar
import EventLog.Proofs.Numerals

namespace EventLog.Json

open Text

/-! ## Going through characters -/

namespace LexerState

/-- The state after these characters and the tokens that are complete with them. -/
def through (state : LexerState) : List Char → Option (LexerState × List Token)
  | [] => some (state, [])
  | c :: rest => do
    let (middle, tokens) ← state.step c
    let (next, others) ← middle.through rest
    some (next, tokens ++ others)

variable {state middle next : LexerState} {c : Char} {cs ds : List Char}
  {tokens others : List Token}

/-- One character and then the rest. -/
theorem through_cons (h : state.step c = some (middle, tokens))
    (h' : middle.through ds = some (next, others)) :
    state.through (c :: ds) = some (next, tokens ++ others) := by
  rw [through, h]
  show (middle.through ds).bind _ = _
  rw [h']
  rfl

/-- What is gone through is gone through character by character. -/
theorem exists_of_through_cons (h : state.through (c :: ds) = some (next, tokens)) :
    ∃ middle complete later, state.step c = some (middle, complete) ∧
      middle.through ds = some (next, later) ∧ tokens = complete ++ later := by
  rw [through] at h
  obtain ⟨⟨middle, complete⟩, hstep, h⟩ := Option.bind_eq_some_iff.mp h
  obtain ⟨⟨last, later⟩, hrest, h⟩ := Option.bind_eq_some_iff.mp h
  cases h
  exact ⟨middle, complete, later, hstep, hrest, rfl⟩

/-- One part and then the other. -/
theorem through_append (h : state.through cs = some (middle, tokens))
    (h' : middle.through ds = some (next, others)) :
    state.through (cs ++ ds) = some (next, tokens ++ others) := by
  induction cs generalizing state tokens with
  | nil =>
      cases h
      exact h'
  | cons c rest ih =>
      obtain ⟨first, complete, later, hstep, hrest, rfl⟩ := exists_of_through_cons h
      rw [List.cons_append, through_cons hstep (ih hrest), List.append_assoc]

/-- A run goes through the front of its text first. -/
theorem run_append (h : state.through cs = some (next, tokens)) (read : List Token)
    (rest : List Char) : run read state (cs ++ rest) = run (tokens.reverse ++ read) next rest := by
  induction cs generalizing state tokens read with
  | nil =>
      cases h
      rfl
  | cons c cs ih =>
      obtain ⟨first, complete, later, hstep, hrest, rfl⟩ := exists_of_through_cons h
      rw [List.cons_append, run, hstep]
      dsimp only
      rw [ih hrest, List.reverse_append, List.append_assoc]

end LexerState

/-! ## Strings -/

/-- Hexadecimal digits, as many as are left. -/
theorem through_hex (pieces : List Piece) {digits : List Char} {code last : Nat}
    (hdigits : digits ≠ []) (h : Numeral.valueFrom 16 code digits = some last) :
    (LexerState.hex pieces digits.length code).through digits =
      some (.string (.ofCode last :: pieces), []) := by
  induction digits generalizing code with
  | nil => exact absurd rfl hdigits
  | cons c rest ih =>
      rw [Numeral.valueFrom] at h
      obtain ⟨d, hdigit, h⟩ := Option.bind_eq_some_iff.mp h
      cases rest with
      | nil =>
          cases h
          have hstep : (LexerState.hex pieces 1 code).step c =
              some (.string (.ofCode (code * 16 + d) :: pieces), []) := by
            rw [LexerState.step, hdigit]
            rfl
          exact LexerState.through_cons hstep rfl
      | cons next later =>
          have hstep : (LexerState.hex pieces (next :: later).length.succ code).step c =
              some (.hex pieces (next :: later).length (code * 16 + d), []) := by
            rw [LexerState.step, hdigit]
            rfl
          exact LexerState.through_cons hstep (ih (List.cons_ne_nil _ _) h)

/-- A character inside a string literal, however it is spelled. -/
theorem Piece.Spelled.through {piece : Piece} {cs : List Char} (h : piece.Spelled cs)
    (pieces : List Piece) :
    (LexerState.string pieces).through cs = some (.string (piece :: pieces), []) := by
  cases h with
  | @plain c hquote hslash hprints =>
      have hstep : (LexerState.string pieces).step c = some (.string (.char c :: pieces), []) := by
        rw [LexerState.step, if_neg hquote, if_neg hslash, if_neg (Nat.not_lt.mpr hprints)]
      exact LexerState.through_cons hstep rfl
  | letter h =>
      simp only [letterEscapes, List.mem_cons, List.not_mem_nil, or_false, Prod.mk.injEq] at h
      obtain ⟨rfl, rfl⟩ | ⟨rfl, rfl⟩ | ⟨rfl, rfl⟩ | ⟨rfl, rfl⟩ | ⟨rfl, rfl⟩ | ⟨rfl, rfl⟩ |
        ⟨rfl, rfl⟩ | ⟨rfl, rfl⟩ := h <;> rfl
  | code hlength h =>
      have hopen : (LexerState.string pieces).through ['\\', 'u'] =
          some (.hex pieces 4 0, []) := rfl
      have hdigits := through_hex pieces (List.ne_nil_of_length_pos (by omega)) h
      rw [hlength] at hdigits
      exact LexerState.through_append hopen hdigits

theorem Body.through {pieces : List Piece} {cs : List Char} (h : Body pieces cs)
    (before : List Piece) :
    (LexerState.string before).through cs = some (.string (pieces.reverse ++ before), []) := by
  induction h generalizing before with
  | nil => rfl
  | cons hpiece _ ih =>
      rw [List.reverse_cons, List.append_assoc]
      exact LexerState.through_append (hpiece.through before) (ih _)

theorem through_string {pieces : List Piece} {body : List Char} (h : Body pieces body) :
    LexerState.between.through ('"' :: (body ++ ['"'])) =
      some (.between, [.string ((textOf [] pieces.reverse).map String.ofList)]) := by
  have hopen : LexerState.between.step '"' = some (.string [], []) := rfl
  have hclose : (LexerState.string (pieces.reverse ++ [])).step '"' =
      some (.between, [.string ((textOf [] pieces.reverse).map String.ofList)]) := by
    rw [List.append_nil]
    rfl
  exact LexerState.through_cons hopen
    (LexerState.through_append (h.through []) (LexerState.through_cons hclose rfl))

/-! ## Numbers -/

/-- The state in front of the whole part of a number. -/
def numberStart (negative : Bool) : LexerState := if negative then .number .minus else .between

/-- The states behind the whole part `n`. -/
inductive BehindWhole (negative : Bool) : Nat → NumberState → Prop
  | zero : BehindWhole negative 0 (.zero negative)
  | digits (n : Nat) : BehindWhole negative n (.digits negative n)

/-- A digit that is not zero begins a whole part. -/
theorem step_numberStart {c : Char} {d : Nat} (hc : c ≠ '0') (h : Numeral.digit? 10 c = some d)
    (negative : Bool) :
    (numberStart negative).step c = some (.number (.digits negative d), []) := by
  have hdigits : ∀ d : Fin 10, Nat.digitChar d.val ≠ '0' → ∀ negative,
      (numberStart negative).step (Nat.digitChar d.val) =
        some (.number (.digits negative d.val), []) := by decide
  obtain ⟨hsmall, rfl⟩ := Numeral.eq_digitChar_of_digit?_ten h
  exact hdigits ⟨d, hsmall⟩ hc negative

/-- Digits behind digits. -/
theorem through_digits {negative : Bool} {value last : Nat} {ds : List Char}
    (h : Numeral.valueFrom 10 value ds = some last) :
    (LexerState.number (.digits negative value)).through ds =
      some (.number (.digits negative last), []) := by
  induction ds generalizing value with
  | nil =>
      cases h
      rfl
  | cons c rest ih =>
      rw [Numeral.valueFrom] at h
      obtain ⟨d, hdigit, h⟩ := Option.bind_eq_some_iff.mp h
      have hinside : NumberState.step (.digits negative value) c =
          some (.digits negative (value * 10 + d)) := by
        unfold NumberState.step
        rw [hdigit]
      have hstep : (LexerState.number (.digits negative value)).step c =
          some (.number (.digits negative (value * 10 + d)), []) := by
        rw [LexerState.step, hinside]
      exact LexerState.through_cons hstep (ih h)

theorem Whole.exists_through {n : Nat} {ds : List Char} (h : Whole n ds) (negative : Bool) :
    ∃ state, BehindWhole negative n state ∧
      (numberStart negative).through ds = some (.number state, []) := by
  cases h with
  | zero =>
      refine ⟨_, .zero, ?_⟩
      cases negative <;> rfl
  | positive hfirst h =>
      refine ⟨_, .digits n, ?_⟩
      rw [Numeral.valueFrom] at h
      obtain ⟨d, hdigit, h⟩ := Option.bind_eq_some_iff.mp h
      rw [Nat.zero_mul, Nat.zero_add] at h
      exact LexerState.through_cons (step_numberStart hfirst hdigit negative) (through_digits h)

/-- One character further in a number. -/
theorem through_number {state next last : NumberState} {c : Char} {ds : List Char}
    (h : state.step c = some next)
    (hrest : (LexerState.number next).through ds = some (.number last, [])) :
    (LexerState.number state).through (c :: ds) = some (.number last, []) := by
  have hstep : (LexerState.number state).step c = some (.number next, []) := by
    rw [LexerState.step, h]
  exact LexerState.through_cons hstep hrest

/-- Digits that do not count, from a state in which every digit leads to `last`. -/
theorem Digits.through {state last : NumberState} {ds : List Char} (h : Digits ds)
    (hfirst : ∀ c d, Numeral.digit? 10 c = some d → state.step c = some last)
    (hlater : ∀ c d, Numeral.digit? 10 c = some d → last.step c = some last) :
    (LexerState.number state).through ds = some (.number last, []) := by
  obtain ⟨hne, hdigits⟩ := h
  induction ds generalizing state with
  | nil => exact absurd rfl hne
  | cons c rest ih =>
      obtain ⟨hc, hrest⟩ := List.forall_mem_cons.mp hdigits
      obtain ⟨d, hd⟩ := Option.isSome_iff_exists.mp hc
      refine through_number (hfirst c d hd) ?_
      cases rest with
      | nil => rfl
      | cons next later => exact ih hlater (List.cons_ne_nil _ _) hrest

theorem Fraction.through {state : NumberState} {ds : List Char}
    (hpoint : state.step '.' = some .point) (h : Fraction ds) :
    (LexerState.number state).through ds = some (.number .decimals, []) := by
  cases h with
  | point h =>
      refine through_number hpoint (h.through ?_ ?_)
      · intro c d hd
        simp only [NumberState.step, hd]
      · intro c d hd
        simp only [NumberState.step, hd]

/-- The digits of an exponent, behind its mark or its sign. -/
theorem through_exponentDigits {state : NumberState} {ds : List Char}
    (hstate : state = .exponent ∨ state = .exponentSign) (h : Digits ds) :
    (LexerState.number state).through ds = some (.number .exponentDigits, []) := by
  refine h.through ?_ ?_
  · intro c d hd
    obtain rfl | rfl := hstate <;> simp only [NumberState.step, hd]
  · intro c d hd
    simp only [NumberState.step, hd]

theorem Exponent.through {state : NumberState} {ds : List Char}
    (hmark : ∀ mark, mark = 'e' ∨ mark = 'E' → state.step mark = some .exponent)
    (h : Exponent ds) :
    (LexerState.number state).through ds = some (.number .exponentDigits, []) := by
  cases h with
  | mark hthis hsign h =>
      refine through_number (hmark _ hthis) ?_
      obtain rfl | rfl | rfl := hsign
      · exact through_exponentDigits (.inl rfl) h
      · exact through_number rfl (through_exponentDigits (.inr rfl) h)
      · exact through_number rfl (through_exponentDigits (.inr rfl) h)

theorem Scale.exists_through {state : NumberState} {ds : List Char}
    (hpoint : state.step '.' = some .point)
    (hmark : ∀ mark, mark = 'e' ∨ mark = 'E' → state.step mark = some .exponent)
    (h : Scale ds) :
    ∃ last : NumberState, last.token? = some .real ∧
      (LexerState.number state).through ds = some (.number last, []) := by
  cases h with
  | fraction h => exact ⟨_, rfl, h.through hpoint⟩
  | exponent h => exact ⟨_, rfl, h.through hmark⟩
  | both h hexponent =>
      have hbehind : ∀ mark, mark = 'e' ∨ mark = 'E' →
          NumberState.step .decimals mark = some .exponent := by
        rintro _ (rfl | rfl) <;> rfl
      exact ⟨_, rfl, LexerState.through_append (h.through hpoint) (hexponent.through hbehind)⟩

namespace BehindWhole

variable {negative : Bool} {n : Nat} {state : NumberState}

theorem step_point (h : BehindWhole negative n state) : state.step '.' = some .point := by
  cases h <;> rfl

theorem step_mark (h : BehindWhole negative n state) (mark : Char)
    (hmark : mark = 'e' ∨ mark = 'E') : state.step mark = some .exponent := by
  cases h <;> obtain rfl | rfl := hmark <;> rfl

end BehindWhole

/-! ## Tokens -/

/-- A token that the lexer completes only with the character behind it. -/
inductive IsNumber : Token → Prop
  | int (value : Int) : IsNumber (.int value)
  | real : IsNumber .real

/-- Behind its spelling the token is complete, or it is the number that has been read. -/
inductive Reads (token : Token) (ds : List Char) : Prop
  | complete (hother : ¬ IsNumber token)
      (h : LexerState.between.through ds = some (.between, [token]))
  | pending {state : NumberState} (hnumber : IsNumber token) (htoken : state.token? = some token)
      (h : LexerState.between.through ds = some (.number state, []))

/-- A number with a scale, from its sign on. -/
theorem reads_scaled {n : Nat} {front ds es : List Char} (negative : Bool)
    (hfront : LexerState.between.through front = some (numberStart negative, []))
    (h : Whole n ds) (hscale : Scale es) : Reads .real (front ++ (ds ++ es)) := by
  obtain ⟨state, hbehind, hwhole⟩ := h.exists_through negative
  obtain ⟨last, htoken, hlast⟩ := hscale.exists_through hbehind.step_point hbehind.step_mark
  exact .pending .real htoken
    (LexerState.through_append hfront (LexerState.through_append hwhole hlast))

theorem Token.Spelled.reads {token : Token} {ds : List Char} (h : token.Spelled ds) :
    Reads token ds := by
  cases h with
  | string h => exact .complete nofun (through_string h)
  | whole h =>
      obtain ⟨state, hbehind, hwhole⟩ := h.exists_through false
      refine .pending (.int _) ?_ hwhole
      cases hbehind <;> rfl
  | negative h hpositive =>
      obtain ⟨state, hbehind, hwhole⟩ := h.exists_through true
      have hminus : LexerState.between.step '-' = some (numberStart true, []) := rfl
      refine .pending (.int _) ?_ (LexerState.through_cons hminus hwhole)
      cases hbehind with
      | zero => exact absurd hpositive (Nat.lt_irrefl 0)
      | digits n => rfl
  | negativeZero => exact .pending .real rfl rfl
  | scaled hsign h hscale =>
      obtain rfl | rfl := hsign
      · exact reads_scaled false rfl h hscale
      · exact reads_scaled true rfl h hscale
  | _ => exact .complete nofun rfl

/-! ## Lists of tokens -/

/-- Tokens with which a number ends. -/
inductive Ends : Token → Prop
  | comma : Ends .comma
  | closeArray : Ends .closeArray
  | closeObject : Ends .closeObject

theorem Ends.not_isNumber {token : Token} (h : Ends token) : ¬ IsNumber token := by
  intro hnumber
  cases h <;> cases hnumber

/-- Behind each number stands a token that ends it, or nothing. -/
inductive Separated : List Token → Prop
  | nil : Separated []
  | token {token : Token} {rest : List Token} (h : ¬ IsNumber token) (hrest : Separated rest) :
      Separated (token :: rest)
  | last {token : Token} (h : IsNumber token) : Separated [token]
  | number {token closing : Token} {rest : List Token} (h : IsNumber token)
      (hends : Ends closing) (hrest : Separated rest) : Separated (token :: closing :: rest)

theorem Separated.tail {token : Token} {rest : List Token} (h : Separated (token :: rest)) :
    Separated rest := by
  cases h with
  | token _ hrest => exact hrest
  | last _ => exact .nil
  | number _ hends hrest => exact .token hends.not_isNumber hrest

/-- A character that is no part of a number completes it. -/
theorem run_number_cons {state : NumberState} {token : Token} {c : Char}
    (htoken : state.token? = some token) (h : state.step c = none) (read : List Token)
    (cs : List Char) :
    LexerState.run read (.number state) (c :: cs) =
      LexerState.run (token :: read) .between (c :: cs) := by
  have hstep : (LexerState.number state).step c =
      (LexerState.start c).map fun (next, tokens) => (next, token :: tokens) := by
    rw [LexerState.step, h, htoken]
    cases LexerState.start c <;> rfl
  rw [LexerState.run, hstep, LexerState.run, LexerState.step]
  cases LexerState.start c with
  | none => rfl
  | some result =>
      dsimp only [Option.map_some]
      rw [List.reverse_cons, List.append_assoc]
      rfl

/-- What stands behind a number completes it: white space, a token that ends it, or nothing. -/
theorem run_number {state : NumberState} {token : Token} {rest : List Token} {cs : List Char}
    (htoken : state.token? = some token) (hnumber : IsNumber token)
    (hseparated : Separated (token :: rest)) (h : Written rest cs) (read : List Token) :
    LexerState.run read (.number state) cs = LexerState.run (token :: read) .between cs := by
  cases h with
  | nil =>
      simp only [LexerState.run, LexerState.finish, htoken, Option.map_some, List.reverse_cons,
        List.append_nil]
  | space hspace _ =>
      refine run_number_cons htoken ?_ read _
      simp only [isSpace, Bool.or_eq_true, beq_iff_eq] at hspace
      obtain ((rfl | rfl) | rfl) | rfl := hspace <;> cases state <;> rfl
  | token hspelled _ =>
      cases hseparated with
      | token hother _ => exact absurd hnumber hother
      | number _ hends _ =>
          cases hends <;> cases hspelled <;> refine run_number_cons htoken ?_ read _ <;>
            cases state <;> rfl

theorem run_of_written {tokens : List Token} {cs : List Char} (h : Written tokens cs)
    (hseparated : Separated tokens) (read : List Token) :
    LexerState.run read .between cs = some (read.reverse ++ tokens) := by
  induction h generalizing read with
  | nil => rfl
  | @space tokens c cs hspace _ ih =>
      have hstep : LexerState.between.step c = some (.between, []) := by
        simp only [isSpace, Bool.or_eq_true, beq_iff_eq] at hspace
        obtain ((rfl | rfl) | rfl) | rfl := hspace <;> rfl
      rw [LexerState.run, hstep]
      exact ih hseparated read
  | @token token tokens ds cs hspelled h ih =>
      -- Either way the rest is read as if the token had just been completed.
      have hrest := ih hseparated.tail (token :: read)
      rw [List.reverse_cons, List.append_assoc] at hrest
      cases hspelled.reads with
      | complete _ hreads =>
          rw [LexerState.run_append hreads]
          exact hrest
      | pending hnumber htoken hreads =>
          rw [LexerState.run_append hreads]
          exact (run_number htoken hnumber hseparated h read).trans hrest

/-- Every text that is written for separated tokens is read as these tokens. -/
theorem lex_of_written {tokens : List Token} {cs : List Char} (h : Written tokens cs)
    (hseparated : Separated tokens) : lex cs = some tokens :=
  run_of_written h hseparated []

end EventLog.Json
