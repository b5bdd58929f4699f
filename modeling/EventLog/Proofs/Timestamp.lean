/-
# Instants are read as they are written

The reader takes much that the printer never writes, so each part of a text is followed
here as the printer writes it: digits up to a character that is none, separators without
blanks before them, decimals in one of three lengths. The one thing a reader refuses that
an instant may hold is a year out of range (`ofText?_text`).
-/

import EventLog.Proofs.Numerals
import EventLog.Timestamp.Printer
import EventLog.Timestamp.Reader

namespace EventLog.Timestamp

open Text

namespace Reader

/-! ## Digits -/

/-- No blanks stand before a digit. -/
theorem dropBlanks_digits {cs rest : List Char} (h : AllDigits cs) (hcs : cs ≠ []) :
    dropBlanks (cs ++ rest) = cs ++ rest := by
  cases cs with
  | nil => exact absurd rfl hcs
  | cons c others =>
      have hblank := isBlank_of_isDecimal (h c List.mem_cons_self)
      rw [dropBlanks, List.cons_append, List.dropWhile_cons_of_neg (by rw [hblank]; simp)]

/-- The digits at the front of a text end where something else begins. -/
theorem takeWhile_digits {cs rest : List Char} (h : AllDigits cs)
    (hrest : ∀ c, rest.head? = some c → Numeral.isDecimal c = false) :
    (cs ++ rest).takeWhile Numeral.isDecimal = cs := by
  rw [List.takeWhile_append_of_pos h]
  cases rest with
  | nil => exact List.append_nil _
  | cons c others =>
      rw [List.takeWhile_cons_of_neg (by rw [hrest c rfl]; simp)]
      exact List.append_nil _

/-- A number is read up to the character behind its last digit. -/
theorem number_digits {limit : Option Nat} {cs rest : List Char} {n : Nat} (h : AllDigits cs)
    (hrest : ∀ c, rest.head? = some c → Numeral.isDecimal c = false)
    (hlimit : ∀ most, limit = some most → cs.length ≤ most)
    (hvalue : Numeral.value? 10 cs = some n) : number limit (cs ++ rest) = some (n, rest) := by
  cases limit with
  | none =>
      unfold number
      rw [takeWhile_digits h hrest]
      dsimp only
      rw [hvalue, Option.map_some, List.drop_left]
  | some most =>
      have htake : cs.take most = cs := List.take_of_length_le (hlimit most rfl)
      unfold number
      rw [takeWhile_digits h hrest]
      dsimp only
      rw [htake, hvalue, Option.map_some, List.drop_left]

/-- A field of two digits. -/
theorem field_fixed {n : Nat} {rest : List Char} (h : n < 100)
    (hrest : ∀ c, rest.head? = some c → Numeral.isDecimal c = false) :
    field (Numeral.fixed 10 2 n ++ rest) = some (n, rest) := by
  have hlength : (Numeral.fixed 10 2 n).length = 2 := Numeral.length_fixed _ _ _
  have hsome : Numeral.fixed 10 2 n ≠ [] := by
    intro hnone
    rw [hnone] at hlength
    cases hlength
  rw [field, dropBlanks_digits (allDigits_fixed 2 n) hsome]
  refine number_digits (allDigits_fixed 2 n) hrest ?_ (value?_fixed (by decide) h)
  rintro most ⟨⟩
  exact Nat.le_of_eq hlength

/-! ## The parts of an instant -/

/-- A separator that is no blank, without blanks before it. -/
theorem separator_cons {c : Char} {rest : List Char} (h : isBlank c = false) :
    separator c (c :: rest) = some rest := by
  have hdrop : dropBlanks (c :: rest) = c :: rest :=
    List.dropWhile_cons_of_neg (by rw [h]; simp)
  rw [separator, hdrop]
  exact if_pos rfl

/-- A year that begins with a digit has four of them. -/
theorem year_of_isDecimal {c : Char} {cs : List Char} (h : Numeral.isDecimal c = true) :
    year (c :: cs) = (number (some 4) (c :: cs)).map fun found => ((found.1 : Int), found.2) := by
  have hdrop : dropBlanks (c :: cs) = c :: cs :=
    List.dropWhile_cons_of_neg (by rw [isBlank_of_isDecimal h]; simp)
  rw [year, hdrop]
  split
  · rename_i heq
    cases heq
    cases h
  · rename_i heq
    cases heq
    cases h
  · rfl

/-- The year, with a sign or without. -/
theorem year_yearChars (y : Int) (rest : List Char)
    (hrest : ∀ c, rest.head? = some c → Numeral.isDecimal c = false) :
    year (yearChars y ++ rest) = some (y, rest) := by
  have hpadded : number none (Numeral.padded 4 y.natAbs ++ rest) = some (y.natAbs, rest) :=
    number_digits (allDigits_padded 4 _) hrest nofun (value?_padded 4 _)
  unfold yearChars
  by_cases hfour : 0 ≤ y ∧ y ≤ 9999
  · rw [if_pos hfour]
    have hlength : (Numeral.fixed 10 4 y.toNat).length = 4 := Numeral.length_fixed _ _ _
    have hnumber : number (some 4) (Numeral.fixed 10 4 y.toNat ++ rest) =
        some (y.toNat, rest) := by
      have hfits : y.toNat < 10000 := by omega
      refine number_digits (allDigits_fixed 4 _) hrest ?_ (value?_fixed (by decide) hfits)
      rintro most ⟨⟩
      exact Nat.le_of_eq hlength
    cases hdigits : Numeral.fixed 10 4 y.toNat with
    | nil =>
        rw [hdigits] at hlength
        cases hlength
    | cons c others =>
        have hc := allDigits_fixed 4 y.toNat c (by rw [hdigits]; exact List.mem_cons_self)
        rw [hdigits] at hnumber
        rw [List.cons_append] at hnumber ⊢
        rw [year_of_isDecimal hc, hnumber, Option.map_some, Int.toNat_of_nonneg hfour.1]
  · rw [if_neg hfour]
    by_cases hneg : y < 0
    · rw [if_pos hneg]
      have hyear : year ('-' :: (Numeral.padded 4 y.natAbs ++ rest)) =
          (number none (Numeral.padded 4 y.natAbs ++ rest)).map
            fun found => (-(found.1 : Int), found.2) := rfl
      rw [List.cons_append, hyear, hpadded, Option.map_some]
      congr 2
      omega
    · rw [if_neg hneg]
      have hyear : year ('+' :: (Numeral.padded 4 y.natAbs ++ rest)) =
          (number none (Numeral.padded 4 y.natAbs ++ rest)).map
            fun found => ((found.1 : Int), found.2) := rfl
      rw [List.cons_append, hyear, hpadded, Option.map_some]
      congr 2
      omega

/-- Something that is no digit comes first. -/
theorem head?_cons_not_isDecimal {d : Char} {rest : List Char} (h : Numeral.isDecimal d = false) :
    ∀ c, (d :: rest).head? = some c → Numeral.isDecimal c = false := by
  rintro c ⟨⟩
  exact h

theorem ofFields?_fields (d : Date) : Date.ofFields? d.year d.month d.day = some d := by
  rw [Date.ofFields?, dif_pos d.month_mem, dif_pos d.day_mem]

theorem date_dateChars {d : Date} (hrange : d.inRange = true) {rest : List Char}
    (hrest : ∀ c, rest.head? = some c → Numeral.isDecimal c = false) :
    date (dateChars d ++ rest) = some (d, rest) := by
  have hmonth : d.month < 100 := by
    have := d.month_mem
    omega
  have hday : d.day < 100 := by
    have hle := d.day_mem.2
    have hdays : daysIn d.year d.month ≤ 31 := by
      unfold daysIn
      repeat' split
      all_goals omega
    omega
  have hminus : Numeral.isDecimal '-' = false := by decide
  have hchars : dateChars d ++ rest = yearChars d.year ++ ('-' :: (Numeral.fixed 10 2 d.month ++
      ('-' :: (Numeral.fixed 10 2 d.day ++ rest)))) := by
    simp [dateChars]
  rw [hchars, date, year_yearChars _ _ (head?_cons_not_isDecimal hminus)]
  simp only [Option.bind_eq_bind, Option.bind_some,
    separator_cons (by decide : isBlank '-' = false),
    field_fixed hmonth (head?_cons_not_isDecimal hminus), field_fixed hday hrest,
    ofFields?_fields, hrange, if_true]

/-- Decimals of a second as they are printed. -/
theorem fraction_fixed {width n : Nat} {rest : List Char} (hwidth : 0 < width) (hle : width ≤ 9)
    (h : n < Nat.pow 10 width) (hrest : ∀ c, rest.head? = some c → Numeral.isDecimal c = false) :
    fraction ('.' :: (Numeral.fixed 10 width n ++ rest)) =
      some (n * Nat.pow 10 (9 - width), rest) := by
  have hlength : (Numeral.fixed 10 width n).length = width := Numeral.length_fixed _ _ _
  have htake : (Numeral.fixed 10 width n).take 9 = Numeral.fixed 10 width n :=
    List.take_of_length_le (by omega)
  rw [fraction, takeWhile_digits (allDigits_fixed width n) hrest, htake, value?_fixed hwidth h,
    Option.map_some, hlength, List.drop_left' hlength]

theorem fraction_fractionChars {n : Nat} (h : n < 1000000000) {rest : List Char}
    (hrest : ∀ c, rest.head? = some c → Numeral.isDecimal c = false)
    (hpoint : rest.head? ≠ some '.') : fraction (fractionChars n ++ rest) = some (n, rest) := by
  unfold fractionChars
  by_cases hzero : n = 0
  · rw [if_pos hzero, List.nil_append, fraction, hzero]
    rintro others rfl
    exact hpoint rfl
  rw [if_neg hzero]
  by_cases hmilli : n % 1000000 = 0
  · have hfits : n / 1000000 < Nat.pow 10 3 := Nat.div_lt_of_lt_mul h
    rw [if_pos hmilli, List.cons_append, fraction_fixed (by decide) (by decide) hfits hrest]
    have hscaled := Nat.div_mul_cancel (Nat.dvd_of_mod_eq_zero hmilli)
    exact congrArg (fun nano => some (nano, rest)) hscaled
  rw [if_neg hmilli]
  by_cases hmicro : n % 1000 = 0
  · have hfits : n / 1000 < Nat.pow 10 6 := Nat.div_lt_of_lt_mul h
    rw [if_pos hmicro, List.cons_append, fraction_fixed (by decide) (by decide) hfits hrest]
    have hscaled := Nat.div_mul_cancel (Nat.dvd_of_mod_eq_zero hmicro)
    exact congrArg (fun nano => some (nano, rest)) hscaled
  rw [if_neg hmicro, List.cons_append, fraction_fixed (by decide) (by decide) h hrest]
  simp

theorem timeOfDay_timeChars (t : TimeOfDay) {rest : List Char}
    (hrest : ∀ c, rest.head? = some c → Numeral.isDecimal c = false)
    (hpoint : rest.head? ≠ some '.') :
    timeOfDay (timeChars t ++ rest) = some (t, rest) := by
  have hcolon : Numeral.isDecimal ':' = false := by decide
  have hpointDigit : Numeral.isDecimal '.' = false := by decide
  have hhour : t.hour < 100 := Nat.lt_of_lt_of_le t.hour_lt (by decide)
  have hminute : t.minute < 100 := Nat.lt_of_lt_of_le t.minute_lt (by decide)
  have hsecond : t.second < 100 := Nat.lt_of_le_of_lt t.second_le (by decide)
  have hfraction : ∀ c, (fractionChars t.nano ++ rest).head? = some c →
      Numeral.isDecimal c = false := by
    unfold fractionChars
    split
    · exact hrest
    · split
      · exact head?_cons_not_isDecimal hpointDigit
      · split
        · exact head?_cons_not_isDecimal hpointDigit
        · exact head?_cons_not_isDecimal hpointDigit
  have hchars : timeChars t ++ rest = Numeral.fixed 10 2 t.hour ++ (':' ::
      (Numeral.fixed 10 2 t.minute ++ (':' :: (Numeral.fixed 10 2 t.second ++
        (fractionChars t.nano ++ rest))))) := by
    simp [timeChars]
  have hall : t.hour < 24 ∧ t.minute < 60 ∧ t.second ≤ 60 ∧ t.nano < 1000000000 :=
    ⟨t.hour_lt, t.minute_lt, t.second_le, t.nano_lt⟩
  rw [hchars, timeOfDay]
  simp only [Option.bind_eq_bind, Option.bind_some,
    separator_cons (by decide : isBlank ':' = false),
    field_fixed hhour (head?_cons_not_isDecimal hcolon),
    field_fixed hminute (head?_cons_not_isDecimal hcolon), field_fixed hsecond hfraction,
    fraction_fractionChars t.nano_lt hrest hpoint, dif_pos hall]

theorem instant_chars {t : Timestamp} (hrange : t.date.inRange = true) :
    instant (t.chars ++ ['Z']) = some (t, []) := by
  have hchars : t.chars ++ ['Z'] = dateChars t.date ++ ('T' :: (timeChars t.time ++ ['Z'])) := by
    simp [Timestamp.chars]
  have hoffset : offset (dropBlanks ['Z']) = some (0, []) := by decide
  have hletter : Numeral.isDecimal 'Z' = false := by decide
  have htime : timeOfDay (timeChars t.time ++ ['Z']) = some (t.time, ['Z']) :=
    timeOfDay_timeChars t.time (head?_cons_not_isDecimal hletter) (by decide)
  rw [hchars, instant, date_dateChars hrange (head?_cons_not_isDecimal (by decide))]
  simp only [Option.bind_eq_bind, Option.bind_some, htime, hoffset, ofLocal_zero, hrange,
    if_true]

end Reader

/-- An instant is read from its text, in every year an instant may lie in. -/
theorem ofText?_text {t : Timestamp} (hrange : t.date.inRange = true) :
    ofText? t.text = some t := by
  rw [ofText?, text, String.toList_ofList, ofChars?, Reader.instant_chars hrange]
  rfl

end EventLog.Timestamp
