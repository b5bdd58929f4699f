/-
# What is written is read back

The parser follows the tokens of a value to the value (`run_tokens`): an array or an object
leaves a frame on the stack, and the frame is gone when its bracket is closed. With the
lexer this makes every text that stands for a value readable as that value, whatever its depth
(`ofText?_of_standsFor`), and so the compact text with which it is written (`ofText?_text`).
-/

import EventLog.Json.Parser
import EventLog.Proofs.Json.Lexing

namespace EventLog.Json

theorem itemTokens_cons_cons (item next : Json) (later : List Json) :
    itemTokens (item :: next :: later) = item.tokens ++ .comma :: itemTokens (next :: later) := by
  rw [itemTokens]
  exact List.cons_ne_nil _ _

theorem memberTokens_cons_cons (name : Option String) (value : Json)
    (next : Option String × Json) (later : List (Option String × Json)) :
    memberTokens ((name, value) :: next :: later) =
      .string name :: .colon :: (value.tokens ++ .comma :: memberTokens (next :: later)) := by
  rw [memberTokens]
  exact List.cons_ne_nil _ _

/-! ## The tokens of a value are separated -/

/-- What may stand behind a value. -/
inductive Follows : List Token → Prop
  | nil : Follows []
  | cons {closing : Token} {rest : List Token} (hends : Ends closing) (hrest : Separated rest) :
      Follows (closing :: rest)

theorem Follows.separated {rest : List Token} (h : Follows rest) : Separated rest := by
  cases h with
  | nil => exact .nil
  | cons hends hrest => exact .token hends.not_isNumber hrest

/-- A number and what follows it. -/
theorem Follows.separated_number {token : Token} {rest : List Token} (h : Follows rest)
    (hnumber : IsNumber token) : Separated (token :: rest) := by
  cases h with
  | nil => exact .last hnumber
  | cons hends hrest => exact .number hnumber hends hrest

mutual

theorem separated_tokens (v : Json) {rest : List Token} (h : Follows rest) :
    Separated (v.tokens ++ rest) := by
  cases v with
  | null => exact .token nofun h.separated
  | bool value => exact .token nofun h.separated
  | int value => exact h.separated_number (.int value)
  | real => exact h.separated_number .real
  | string value => exact .token nofun h.separated
  | array items => exact .token nofun (separated_itemTokens items h.separated)
  | object members => exact .token nofun (separated_memberTokens members h.separated)

theorem separated_itemTokens (items : List Json) {rest : List Token} (h : Separated rest) :
    Separated (itemTokens items ++ rest) := by
  cases items with
  | nil => exact .token nofun h
  | cons item others =>
      cases others with
      | nil =>
          rw [itemTokens, List.append_assoc]
          exact separated_tokens item (.cons .closeArray h)
      | cons next later =>
          rw [itemTokens_cons_cons, List.append_assoc]
          exact separated_tokens item (.cons .comma (separated_itemTokens (next :: later) h))

theorem separated_memberTokens (members : List (Option String × Json)) {rest : List Token}
    (h : Separated rest) : Separated (memberTokens members ++ rest) := by
  cases members with
  | nil => exact .token nofun h
  | cons member others =>
      obtain ⟨name, value⟩ := member
      cases others with
      | nil =>
          have hvalue := separated_tokens value (.cons .closeObject h)
          rw [memberTokens, List.cons_append, List.cons_append, List.append_assoc]
          exact .token nofun (.token nofun hvalue)
      | cons next later =>
          have hvalue := separated_tokens value
            (.cons .comma (separated_memberTokens (next :: later) h))
          rw [memberTokens_cons_cons, List.cons_append, List.cons_append, List.append_assoc]
          exact .token nofun (.token nofun hvalue)

end

/-- The lexer reads the tokens of a value from every text that is written for them. -/
theorem lex_of_written_tokens {v : Json} {cs : List Char} (h : Written v.tokens cs) :
    lex cs = some v.tokens := by
  have hseparated := separated_tokens v .nil
  rw [List.append_nil] at hseparated
  exact lex_of_written h hseparated

/-! ## The parser follows them -/

namespace ParserState

/-- In an array that has just been opened a value begins as anywhere else. -/
theorem run_arrayStart (v : Json) (stack : List Frame) (rest : List Token) :
    run (arrayStart stack) (v.tokens ++ rest) =
      run (needValue (.array [] :: stack)) (v.tokens ++ rest) := by
  cases v <;> rfl

mutual

/-- The tokens of a value lead to the value. -/
theorem run_tokens (v : Json) (stack : List Frame) (rest : List Token) :
    run (needValue stack) (v.tokens ++ rest) = run (after v stack) rest := by
  cases v with
  | null => rfl
  | bool value => rfl
  | int value => rfl
  | real => rfl
  | string value => rfl
  | array items =>
      cases items with
      | nil => rfl
      | cons item others =>
          have hitems := run_itemTokens (item :: others) (List.cons_ne_nil _ _) [] stack rest
          show run (arrayStart stack) (itemTokens (item :: others) ++ rest) = _
          cases others with
          | nil =>
              rw [itemTokens, List.append_assoc] at hitems ⊢
              rw [run_arrayStart]
              exact hitems
          | cons next later =>
              rw [itemTokens_cons_cons, List.append_assoc] at hitems ⊢
              rw [run_arrayStart]
              exact hitems
  | object members =>
      cases members with
      | nil => rfl
      | cons member others =>
          have hmembers := run_memberTokens (member :: others) (List.cons_ne_nil _ _) [] stack rest
          show run (objectStart stack) (memberTokens (member :: others) ++ rest) = _
          cases others with
          | nil => exact hmembers
          | cons next later => exact hmembers

/-- The items that are left of an array, behind those that have been read. -/
theorem run_itemTokens (items : List Json) (h : items ≠ []) (read : List Json)
    (stack : List Frame) (rest : List Token) :
    run (needValue (.array read :: stack)) (itemTokens items ++ rest) =
      run (after (.array (read.reverse ++ items)) stack) rest := by
  cases items with
  | nil => exact absurd rfl h
  | cons item others =>
      cases others with
      | nil =>
          rw [itemTokens, List.append_assoc, run_tokens item]
          show run (after (.array (item :: read).reverse) stack) rest = _
          rw [List.reverse_cons]
      | cons next later =>
          rw [itemTokens_cons_cons, List.append_assoc, run_tokens item]
          show run (needValue (.array (item :: read) :: stack))
            (itemTokens (next :: later) ++ rest) = _
          rw [run_itemTokens (next :: later) (List.cons_ne_nil _ _), List.reverse_cons,
            List.append_assoc]
          rfl

/-- The members that are left of an object, behind those that have been read. -/
theorem run_memberTokens (members : List (Option String × Json)) (h : members ≠ [])
    (read : List (Option String × Json)) (stack : List Frame) (rest : List Token) :
    run (needName read stack) (memberTokens members ++ rest) =
      run (after (.object (read.reverse ++ members)) stack) rest := by
  cases members with
  | nil => exact absurd rfl h
  | cons member others =>
      obtain ⟨name, value⟩ := member
      cases others with
      | nil =>
          rw [memberTokens]
          show run (needValue (.object read name :: stack))
            ((value.tokens ++ [.closeObject]) ++ rest) = _
          rw [List.append_assoc, run_tokens value]
          show run (after (.object ((name, value) :: read).reverse) stack) rest = _
          rw [List.reverse_cons]
      | cons next later =>
          rw [memberTokens_cons_cons]
          show run (needValue (.object read name :: stack))
            ((value.tokens ++ .comma :: memberTokens (next :: later)) ++ rest) = _
          rw [List.append_assoc, run_tokens value]
          show run (needName ((name, value) :: read) stack)
            (memberTokens (next :: later) ++ rest) = _
          rw [run_memberTokens (next :: later) (List.cons_ne_nil _ _), List.reverse_cons,
            List.append_assoc]
          rfl

end

end ParserState

theorem ofTokens?_tokens (v : Json) : ofTokens? v.tokens = some v := by
  have h := ParserState.run_tokens v [] []
  rw [List.append_nil] at h
  rw [ofTokens?, h]
  rfl

/-- A text is read as the value that it stands for. -/
theorem ofText?_of_standsFor {s : String} {v : Json} (h : StandsFor s v) :
    ofText? s = some v := by
  rw [ofText?, ofChars?, lex_of_written_tokens h]
  exact ofTokens?_tokens v

/-- The compact text of a value is read as the value. -/
@[simp] theorem ofText?_text (v : Json) : ofText? v.text = some v :=
  ofText?_of_standsFor (standsFor_text v)

end EventLog.Json
