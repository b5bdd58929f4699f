/-
# The words of a statement

The text of a statement is taken apart into words, and a placeholder is a word. Most texts are
put together from pieces, some of which depend on what is asked for. Each piece ends or begins
between two words, so the words of the whole are those of the pieces; `Leads` and `Follows`
say this of a piece once, wherever it stands. The words of a piece that is written out are
found by going through its characters.
-/

import EventLog.Postgres.Statement
import EventLog.Proofs.Numerals

namespace EventLog.Postgres

open Text

/-! ## Words -/

/-- The characters that stand between words. -/
def isSeparator (c : Char) : Bool := c = ' ' || c = ',' || c = '(' || c = ')'

/-- The words of a text, in order. -/
def words (text : List Char) : List String :=
  ((text.splitOnP isSeparator).filter fun word => !word.isEmpty).map String.ofList

@[simp] theorem words_nil : words [] = [] := rfl

/-- A text falls into two at a separator. -/
theorem words_append_cons {c : Char} (h : isSeparator c = true) (front rest : List Char) :
    words (front ++ c :: rest) = words front ++ words rest := by
  rw [words, List.splitOnP_append_cons front rest h, List.filter_append, List.map_append]
  rfl

theorem words_cons {c : Char} (h : isSeparator c = true) (rest : List Char) :
    words (c :: rest) = words rest := words_append_cons h [] rest

theorem words_append_of_begins (front : List Char) {rest : List Char}
    (h : rest.head?.all isSeparator = true) :
    words (front ++ rest) = words front ++ words rest := by
  cases rest with
  | nil => simp
  | cons c rest => rw [words_append_cons h, words_cons h]

theorem words_append_of_ends {front : List Char} (rest : List Char)
    (h : front.getLast?.all isSeparator = true) :
    words (front ++ rest) = words front ++ words rest := by
  rcases List.eq_nil_or_concat front with rfl | ⟨front, c, rfl⟩
  · rfl
  · have hc : isSeparator c = true := by simpa using h
    rw [List.concat_eq_append, List.append_assoc, List.singleton_append, words_append_cons hc,
      words_append_cons hc, words_nil, List.append_nil]

/-- Without separators there is one word. -/
theorem words_singleton {word : List Char} (hne : word ≠ [])
    (h : ∀ c ∈ word, isSeparator c = false) : words word = [String.ofList word] := by
  rw [words, List.splitOnP_eq_singleton h]
  simp [hne]

/-! ## Placeholders -/

/-- The number of a placeholder. -/
def placeholder? (word : String) : Option Nat :=
  match word.toList with
  | '$' :: digits => Numeral.value? 10 digits
  | _ => none

/-- The numbers of the placeholders among words. -/
def placeholdersIn (words : List String) : List Nat := words.filterMap placeholder?

theorem placeholdersIn_append (first second : List String) :
    placeholdersIn (first ++ second) = placeholdersIn first ++ placeholdersIn second :=
  List.filterMap_append

theorem toList_placeholderText (n : Nat) :
    (Select.placeholderText n).toList = '$' :: Numeral.decimal n := by
  rw [Select.placeholderText, String.toList_append, String.toList_ofList, String.toList_ofList]
  rfl

@[simp] theorem placeholder?_placeholderText (n : Nat) :
    placeholder? (Select.placeholderText n) = some n := by
  rw [placeholder?, toList_placeholderText]
  exact value?_decimal n

theorem placeholdersIn_values (numbers : List Nat) :
    placeholdersIn (numbers.map Select.placeholderText) = numbers := by
  have hread : placeholder? ∘ Select.placeholderText = some := funext placeholder?_placeholderText
  rw [placeholdersIn, List.filterMap_map, hread, List.filterMap_some]

/-- A placeholder is one word. -/
theorem words_placeholderText (n : Nat) :
    words (Select.placeholderText n).toList = [Select.placeholderText n] := by
  have hword : ∀ c ∈ (Select.placeholderText n).toList, isSeparator c = false := by
    intro c hc
    rw [toList_placeholderText] at hc
    cases hc with
    | head => rfl
    | tail _ hc =>
        obtain ⟨hlow, -⟩ := toNat_of_isDecimal (allDigits_decimal n c hc)
        have hne : ∀ d : Char, d.toNat < 48 → c ≠ d := by
          rintro d hd rfl
          omega
        simp [isSeparator, hne ' ' (by decide), hne ',' (by decide), hne '(' (by decide),
          hne ')' (by decide)]
  rw [words_singleton (by simp [toList_placeholderText]) hword, String.ofList_toList]

/-! ## Pieces of a text -/

/-- In front of any text this piece adds these words. -/
def Leads (piece : String) (added : List String) : Prop :=
  ∀ rest : List Char, words (piece.toList ++ rest) = added ++ words rest

/-- Behind any text this piece adds these words. -/
def Follows (piece : String) (added : List String) : Prop :=
  ∀ front : List Char, words (front ++ piece.toList) = words front ++ added

theorem words_ofList (text : List Char) : words (String.ofList text).toList = words text := by
  rw [String.toList_ofList]

theorem leads_ofList {text : List Char} (h : text.getLast?.all isSeparator = true) :
    Leads (String.ofList text) (words text) := by
  intro rest
  rw [String.toList_ofList, words_append_of_ends rest h]

theorem follows_ofList {text : List Char} (h : text.head?.all isSeparator = true) :
    Follows (String.ofList text) (words text) := by
  intro front
  rw [String.toList_ofList, words_append_of_begins front h]

namespace Leads

variable {first second : String} {before after : List String}

theorem append (h : Leads first before) (h' : Leads second after) :
    Leads (first ++ second) (before ++ after) := by
  intro rest
  rw [String.toList_append, List.append_assoc, h, h', List.append_assoc]

theorem words_append (h : Leads first before) (h' : words second.toList = after) :
    words (first ++ second).toList = before ++ after := by
  rw [String.toList_append, h, h']

end Leads

namespace Follows

variable {first second : String} {before after : List String}

theorem nothing : Follows "" [] := follows_ofList rfl

theorem append (h : Follows first before) (h' : Follows second after) :
    Follows (first ++ second) (before ++ after) := by
  intro front
  rw [String.toList_append, ← List.append_assoc, h', h, List.append_assoc]

theorem words_append (h : Follows second after) (h' : words first.toList = before) :
    words (first ++ second).toList = before ++ after := by
  rw [String.toList_append, h, h']

theorem join {α : Type} {piece : α → String} {added : α → List String}
    (h : ∀ a, Follows (piece a) (added a)) (list : List α) :
    Follows (String.join (list.map piece)) (list.flatMap added) := by
  induction list with
  | nil => exact nothing
  | cons a rest ih =>
      rw [List.map_cons, String.join_cons, List.flatMap_cons]
      exact (h a).append ih

/-- A placeholder that comes with the words in front of it. -/
theorem value {c : Char} {rest : List Char} (h : isSeparator c = true)
    (hends : (c :: rest).getLast?.all isSeparator = true) (n : Nat) :
    Follows (String.ofList (c :: rest) ++ Select.placeholderText n)
      (words rest ++ [Select.placeholderText n]) := by
  intro front
  have hbegins : (String.ofList (c :: rest) ++ Select.placeholderText n).toList.head?.all
      isSeparator = true := by
    rw [String.toList_append, String.toList_ofList]
    exact h
  rw [words_append_of_begins front hbegins,
    (leads_ofList hends).words_append (words_placeholderText n), words_cons h]

end Follows

/-! ## Rows of placeholders -/

theorem words_intercalate (texts : List String) :
    words (", ".intercalate texts).toList = texts.flatMap fun text => words text.toList := by
  have hcomma : (", ").toList = [',', ' '] := String.toList_ofList
  rw [String.toList_intercalate, hcomma]
  induction texts with
  | nil => rfl
  | cons text rest ih =>
      cases rest with
      | nil => simp
      | cons next rest =>
          rw [List.map_cons, List.map_cons, List.intercalate_cons_cons, ← List.map_cons,
            List.append_assoc, List.cons_append, words_append_cons (by decide), List.cons_append,
            words_cons (by decide), List.nil_append, ih]
          simp only [List.flatMap_cons]

/-- A row holds the placeholders behind number `n`. -/
theorem words_placeholderRow (n width : Nat) :
    words (Statement.placeholderRow n width).toList =
      (List.range' (n + 1) width).map Select.placeholderText := by
  have hvalues : words (", ".intercalate ((List.range width).map fun i =>
      Select.placeholderText (n + i + 1))).toList =
        (List.range' (n + 1) width).map Select.placeholderText := by
    rw [words_intercalate, List.flatMap_map, List.range'_eq_map_range, List.map_map,
      List.map_eq_flatMap]
    refine congrArg (List.flatMap · _) (funext fun i => ?_)
    rw [words_placeholderText, Function.comp_apply, Nat.add_right_comm]
  have hopen : Leads "(" [] := leads_ofList (by decide)
  have hclose : Follows ")" [] := follows_ofList (by decide)
  exact (hclose.words_append (hopen.words_append hvalues)).trans (List.append_nil _)

/-- Rows are numbered on. -/
theorem words_placeholderRows (rows width : Nat) :
    words (Statement.placeholderRows rows width).toList =
      (List.range' 1 (rows * width)).map Select.placeholderText := by
  rw [Statement.placeholderRows, words_intercalate, List.flatMap_map]
  induction rows with
  | zero => simp
  | succ rows ih =>
      rw [List.range_succ, List.flatMap_append, ih, List.flatMap_singleton, words_placeholderRow,
        ← List.map_append, Nat.add_comm, List.range'_append_1, Nat.succ_mul]

end EventLog.Postgres
