/-
# Settings are taken as they are given, or refused

Whoever sets a variable and is not heard has no way of knowing. So what is said here of the
settings is said of every text of every variable: `Variable.Usable` tells which texts can be used,
`Shows` what is then taken from them, and checking the variables one after another either finds
all of them usable or names the first that is not (`ofLookup_checked`).

What a number is, is not left to its reader. `Literal` is the notation: decimal digits, perhaps a
plus sign in front, perhaps blanks around; the reader, which stops at the first digit that takes
the value beyond the limit, accepts the literals of the numbers within the limit and nothing
else (`number_eq_ok_iff`).

One setting is not taken as it is given. There is always a first attempt, so none is taken as
one (`not_attempts_as_given`).
-/

import EventLog.Config.Basic
import EventLog.Proofs.Except
import EventLog.Proofs.Numerals

namespace EventLog

/-- The variable that an error is about. -/
def ConfigError.name : ConfigError → String
  | invalid name _ _ => name
  | missing name => name

namespace Config

open Text

/-! ## Numerals -/

/-- The characters are decimal digits, one at least, that stand for `n`. -/
structure Digits (digits : List Char) (n : Nat) : Prop where
  nonempty : digits ≠ []
  decimal : ∀ c ∈ digits, c.isDigit = true
  value : Nat.ofDigitChars 10 digits 0 = n

/-- The text is a decimal numeral for `n`, with a plus sign in front or without. -/
def Denotes (text : List Char) (n : Nat) : Prop :=
  Digits text n ∨ ∃ digits, text = '+' :: digits ∧ Digits digits n

/-- The setting is a numeral for `n` with blanks around it. -/
def Literal (raw : String) (n : Nat) : Prop :=
  ∃ front text back, raw.toList = front ++ text ++ back ∧
    (∀ c ∈ front, isBlank c = true) ∧ (∀ c ∈ back, isBlank c = true) ∧ Denotes text n

section Numerals

variable {limit n : Nat} {text : List Char} {raw : String}

theorem Digits.isBlank_eq_false (h : Digits text n) : ∀ c ∈ text, isBlank c = false :=
  fun c hc => isBlank_of_isDecimal ((Numeral.isDecimal_eq_isDigit c).trans (h.decimal c hc))

/-- There are no blanks in a numeral. -/
theorem Denotes.isBlank_eq_false (h : Denotes text n) : ∀ c ∈ text, isBlank c = false := by
  obtain hdigits | ⟨digits, rfl, hdigits⟩ := h
  · exact hdigits.isBlank_eq_false
  · intro c hc
    obtain rfl | hc := List.mem_cons.mp hc
    · rfl
    · exact hdigits.isBlank_eq_false c hc

theorem Denotes.begins (h : Denotes text n) : Begins text ∧ Begins text.reverse :=
  ⟨fun c hc => h.isBlank_eq_false c (List.mem_of_head? hc),
    fun c hc => h.isBlank_eq_false c (List.mem_reverse.mp (List.mem_of_head? hc))⟩

/-- A setting is a literal if what is left of it between the blanks is a numeral. -/
theorem literal_iff : Literal raw n ↔ Denotes (trim raw.toList) n := by
  constructor
  · rintro ⟨front, text, back, hraw, hfront, hback, hdenotes⟩
    rwa [trim_eq_iff.mpr ⟨⟨front, back, hraw, hfront, hback⟩, hdenotes.begins⟩]
  · intro h
    obtain ⟨⟨front, back, hraw, hfront, hback⟩, -⟩ := trim_eq_iff.mp (Eq.refl (trim raw.toList))
    exact ⟨front, _, back, hraw, hfront, hback, h⟩

theorem le_ofDigitChars (value : Nat) (digits : List Char) :
    value ≤ Nat.ofDigitChars 10 digits value := by
  induction digits generalizing value with
  | nil => exact Nat.le_refl value
  | cons c rest ih =>
      rw [Nat.ofDigitChars_cons]
      exact Nat.le_trans (by omega) (ih _)

/-- Digits are read to the end if each is one and the value they stand for fits; it fits at the
end if it has fitted all along. -/
theorem digitsFrom_eq_ok_iff {value : Nat} (hvalue : value ≤ limit) {digits : List Char} :
    digitsFrom limit value digits = .ok n ↔
      (∀ c ∈ digits, c.isDigit = true) ∧ Nat.ofDigitChars 10 digits value = n ∧ n ≤ limit := by
  induction digits generalizing value with
  | nil =>
      rw [digitsFrom, Except.ok.injEq]
      constructor
      · rintro rfl
        exact ⟨nofun, rfl, hvalue⟩
      · exact fun h => h.2.1
  | cons c rest ih =>
      rw [digitsFrom, Numeral.digit?_ten, Nat.ofDigitChars_cons, List.forall_mem_cons]
      by_cases hdigit : c.isDigit = true
      · rw [if_pos hdigit, Nat.mul_comm value]
        dsimp only
        by_cases hfits : 10 * value + (c.toNat - '0'.toNat) ≤ limit
        · rw [if_pos hfits, ih hfits, and_iff_right hdigit]
        · rw [if_neg hfits]
          refine iff_of_false nofun ?_
          rintro ⟨-, rfl, hle⟩
          exact hfits (Nat.le_trans (le_ofDigitChars _ _) hle)
      · rw [if_neg hdigit]
        exact iff_of_false nofun fun h => hdigit h.1.1

theorem digitsFrom_zero_eq_ok_iff {digits : List Char} (hne : digits ≠ []) :
    digitsFrom limit 0 digits = .ok n ↔ Digits digits n ∧ n ≤ limit := by
  rw [digitsFrom_eq_ok_iff (Nat.zero_le limit)]
  exact ⟨fun ⟨hdecimal, hvalue, hle⟩ => ⟨⟨hne, hdecimal, hvalue⟩, hle⟩,
    fun ⟨h, hle⟩ => ⟨h.decimal, h.value, hle⟩⟩

theorem denotes_nil : ¬ Denotes [] n := by
  rintro (h | ⟨digits, h, -⟩)
  · exact h.nonempty rfl
  · cases h

/-- A plus sign is no digit. -/
theorem denotes_plus_iff {digits : List Char} : Denotes ('+' :: digits) n ↔ Digits digits n := by
  constructor
  · rintro (h | ⟨digits', h, hdigits⟩)
    · exact absurd (h.decimal '+' List.mem_cons_self) (by decide)
    · cases h
      exact hdigits
  · exact fun h => .inr ⟨digits, rfl, h⟩

theorem denotes_cons_iff {c : Char} (h : c ≠ '+') {rest : List Char} :
    Denotes (c :: rest) n ↔ Digits (c :: rest) n := by
  refine or_iff_left ?_
  rintro ⟨digits, hplus, -⟩
  exact h (List.cons.inj hplus).1

/-- What is left between the blanks is read if it is a numeral for a number that fits. -/
theorem number_eq_ok_iff_denotes :
    number limit raw = .ok n ↔ Denotes (trim raw.toList) n ∧ n ≤ limit := by
  unfold number
  split
  next hnil =>
      rw [hnil]
      exact iff_of_false nofun fun h => denotes_nil h.1
  next hplus =>
      rw [hplus, denotes_plus_iff]
      exact iff_of_false nofun fun h => h.1.nonempty rfl
  next digits hne hplus =>
      rw [hplus, denotes_plus_iff, digitsFrom_zero_eq_ok_iff]
      rintro rfl
      exact hne rfl
  next hnil hsign hplus =>
      obtain ⟨c, rest, htext⟩ := List.exists_cons_of_ne_nil hnil
      have hc : c ≠ '+' := by
        rintro rfl
        exact hplus rest htext
      rw [digitsFrom_zero_eq_ok_iff hnil, htext, denotes_cons_iff hc]

/-- A setting is read as a number if it is a literal for it and it fits. -/
theorem number_eq_ok_iff : number limit raw = .ok n ↔ Literal raw n ∧ n ≤ limit := by
  rw [literal_iff, number_eq_ok_iff_denotes]

end Numerals

/-! ## Variables -/

/-- A variable that settings are taken from. -/
inductive Variable where
  | backend
  | databaseUrl
  | maxConnections
  | operationTimeout
  | retryAttempts
  | retryDelay

namespace Variable

def name : Variable → String
  | backend => "ES_BACKEND"
  | databaseUrl => "DATABASE_URL"
  | maxConnections => "ES_MAX_CONNECTIONS"
  | operationTimeout => "ES_OPERATION_TIMEOUT_MS"
  | retryAttempts => "ES_RETRY_MAX_ATTEMPTS"
  | retryDelay => "ES_RETRY_INITIAL_DELAY_MS"

/-- The order in which they are looked at. -/
def inOrder : List Variable :=
  [backend, databaseUrl, maxConnections, operationTimeout, retryAttempts, retryDelay]

/-- The variable is not set, or to a literal for a number from `least` up to, not including,
`size`. -/
def Ranges (lookup : Lookup) (v : Variable) (least size : Nat) : Prop :=
  ∀ raw, lookup v.name = some raw → ∃ n, Literal raw n ∧ least ≤ n ∧ n < size

/-- What the variable is set to can be used. -/
def Usable (lookup : Lookup) : Variable → Prop
  | backend => lookup backend.name ∈ [none, some "memory", some "postgres"]
  | databaseUrl => lookup backend.name = some "postgres" →
      ∃ url, lookup databaseUrl.name = some url ∧ url ≠ ""
  | maxConnections => maxConnections.Ranges lookup 1 UInt32.size
  | operationTimeout => operationTimeout.Ranges lookup 0 UInt64.size
  | retryAttempts => retryAttempts.Ranges lookup 0 UInt32.size
  | retryDelay => retryDelay.Ranges lookup 0 UInt64.size

/-- The number that the variable is a literal for; none if it is not set. -/
def Gives (lookup : Lookup) (v : Variable) (given : Option Nat) : Prop :=
  match lookup v.name with
  | none => given = none
  | some raw => ∃ n, Literal raw n ∧ given = some n

end Variable

/-- The settings are what the variables say, and the defaults where they say nothing. No fewer
than one attempt can be asked for. -/
structure Shows (lookup : Lookup) (c : Config) : Prop where
  storage : c.storage =
    if lookup Variable.backend.name = some "postgres" then .postgres else .memory
  databaseUrl : c.databaseUrl = (lookup Variable.databaseUrl.name).filter fun url => url ≠ ""
  databaseUrl_present : c.storage = .postgres → c.databaseUrl ≠ none
  maxConnections : ∃ given, Variable.maxConnections.Gives lookup given ∧
    c.maxConnections = given.getD 5
  operationTimeout : Variable.operationTimeout.Gives lookup c.operationTimeout
  retryAttempts : ∃ given, Variable.retryAttempts.Gives lookup given ∧
    c.retry.maxAttempts.toNat = given.elim 3 (max 1)
  retryDelay : ∃ given, Variable.retryDelay.Gives lookup given ∧
    c.retry.initialDelay = given.getD 100
  retryBound : c.retry.maxDelay = 10000
  retryFactor : c.retry.multiplier = 2.0

/-! ## Checks -/

/-- How checking these variables in order ends: all can be used and a value with property `P` is
taken from them, or the first that cannot be used is named. -/
inductive Checked {α : Type} (lookup : Lookup) (checked : List Variable) (P : α → Prop) :
    Except ConfigError α → Prop
  | accepted {a : α} (usable : ∀ v ∈ checked, v.Usable lookup) (taken : P a) :
      Checked lookup checked P (.ok a)
  | refused {e : ConfigError} {before after : List Variable} {v : Variable}
      (split : checked = before ++ v :: after) (usable : ∀ w ∈ before, w.Usable lookup)
      (offends : ¬ v.Usable lookup) (names : e.name = v.name) :
      Checked lookup checked P (.error e)

namespace Checked

variable {α β : Type} {lookup : Lookup} {first second : List Variable} {P : α → Prop}
  {Q : β → Prop} {x : Except ConfigError α} {f : α → Except ConfigError β}

/-- Checks follow each other. -/
theorem bind (h : Checked lookup first P x)
    (hf : ∀ a, (∀ v ∈ first, v.Usable lookup) → P a → Checked lookup second Q (f a)) :
    Checked lookup (first ++ second) Q (x >>= f) := by
  cases h with
  | @accepted a usable taken =>
      have hnext := hf a usable taken
      show Checked lookup (first ++ second) Q (f a)
      generalize f a = y at hnext
      cases hnext with
      | accepted usable' taken' =>
          refine .accepted (fun v hv => ?_) taken'
          exact (List.mem_append.mp hv).elim (usable v) (usable' v)
      | @refused e before after v split usable' offends names =>
          have hsplit : first ++ second = (first ++ before) ++ v :: after := by
            rw [split, List.append_assoc]
          refine .refused hsplit (fun w hw => ?_) offends names
          exact (List.mem_append.mp hw).elim (usable w) (usable' w)
  | @refused e before after v split usable offends names =>
      have hsplit : first ++ second = before ++ v :: (after ++ second) := by
        rw [split, List.append_assoc, List.cons_append]
      exact .refused hsplit usable offends names

/-- One variable that can be used. -/
theorem of_usable {v : Variable} {a : α} (usable : v.Usable lookup) (taken : P a) :
    Checked lookup [v] P (.ok a) := by
  refine .accepted (fun w hw => ?_) taken
  rw [List.mem_singleton.mp hw]
  exact usable

/-- One variable that cannot. -/
theorem of_not_usable {v : Variable} {e : ConfigError} (offends : ¬ v.Usable lookup)
    (names : e.name = v.name) : Checked lookup [v] P (.error e) :=
  .refused (List.nil_append [v]).symm nofun offends names

end Checked

/-! ## The six checks -/

section Checks

variable {lookup : Lookup}

theorem storageOf_checked (lookup : Lookup) :
    Checked lookup [.backend] (fun storage => storage =
      if lookup Variable.backend.name = some "postgres" then .postgres else .memory)
      (storageOf lookup) := by
  have husable : Variable.backend.Usable lookup ↔
      lookup "ES_BACKEND" ∈ [none, some "memory", some "postgres"] := Iff.rfl
  have hname : Variable.backend.name = "ES_BACKEND" := rfl
  rw [hname, storageOf]
  cases hraw : lookup "ES_BACKEND" with
  | none => exact .of_usable (husable.mpr (by simp [hraw])) rfl
  | some raw =>
      dsimp only
      by_cases hmemory : raw = "memory"
      · subst hmemory
        exact .of_usable (husable.mpr (by simp [hraw])) rfl
      · rw [if_neg hmemory]
        by_cases hpostgres : raw = "postgres"
        · subst hpostgres
          exact .of_usable (husable.mpr (by simp [hraw])) rfl
        · rw [if_neg hpostgres]
          refine .of_not_usable (mt husable.mp ?_) rfl
          simp [hraw, hmemory, hpostgres]

theorem databaseUrlOf_checked {storage : StorageKind} (hstorage : storage =
      if lookup Variable.backend.name = some "postgres" then .postgres else .memory) :
    Checked lookup [.databaseUrl] (fun url =>
        url = ((lookup Variable.databaseUrl.name).filter fun url => url ≠ "") ∧
        (storage = .postgres → url ≠ none))
      (databaseUrlOf lookup storage) := by
  have hpostgres : storage = .postgres ↔ lookup Variable.backend.name = some "postgres" := by
    rw [hstorage]
    split <;> simp_all
  have hnone : ((lookup "DATABASE_URL").filter fun url => url ≠ "") = none ↔
      ¬ ∃ url, lookup Variable.databaseUrl.name = some url ∧ url ≠ "" := by
    simp [Variable.name, Option.filter_eq_none_iff]
  unfold databaseUrlOf
  dsimp only
  by_cases hmissing : storage = .postgres ∧
      ((lookup "DATABASE_URL").filter fun url => url ≠ "").isNone
  · rw [if_pos hmissing]
    obtain ⟨hstorage, hurl⟩ := hmissing
    refine .of_not_usable (fun usable => ?_) rfl
    exact hnone.mp (Option.isNone_iff_eq_none.mp hurl) (usable (hpostgres.mp hstorage))
  · rw [if_neg hmissing]
    have hpresent : storage = .postgres →
        ((lookup "DATABASE_URL").filter fun url => url ≠ "") ≠ none :=
      fun hstorage hurl => hmissing ⟨hstorage, Option.isNone_iff_eq_none.mpr hurl⟩
    refine .of_usable (fun hbackend => ?_) ⟨rfl, hpresent⟩
    exact not_not.mp (mt hnone.mpr (hpresent (hpostgres.mpr hbackend)))

/-- A number is read from nothing but a literal for it. -/
theorem gives_of_numberOf {v : Variable} {limit : Nat} {given : Option Nat}
    (h : numberOf lookup v.name limit = .ok given) :
    v.Gives lookup given ∧ ∀ n, given = some n → n ≤ limit := by
  unfold numberOf at h
  unfold Variable.Gives
  cases hraw : lookup v.name with
  | none =>
      rw [hraw] at h
      cases h
      exact ⟨rfl, nofun⟩
  | some raw =>
      simp only [hraw] at h
      cases hnumber : number limit raw with
      | error e =>
          rw [hnumber] at h
          cases h
      | ok n =>
          rw [hnumber] at h
          cases h
          obtain ⟨hliteral, hle⟩ := number_eq_ok_iff.mp hnumber
          exact ⟨⟨n, hliteral, rfl⟩, fun m hm => Option.some.inj hm ▸ hle⟩

/-- A number is refused only if the variable is set to none that is in range. -/
theorem not_ranges_of_numberOf {v : Variable} {least size : Nat} {e : ConfigError}
    (h : numberOf lookup v.name (size - 1) = .error e) :
    e.name = v.name ∧ ¬ v.Ranges lookup least size := by
  unfold numberOf at h
  cases hraw : lookup v.name with
  | none =>
      rw [hraw] at h
      cases h
  | some raw =>
      simp only [hraw] at h
      cases hnumber : number (size - 1) raw with
      | ok n =>
          rw [hnumber] at h
          cases h
      | error reason =>
          rw [hnumber] at h
          cases h
          refine ⟨rfl, fun ranges => ?_⟩
          obtain ⟨n, hliteral, -, hlt⟩ := ranges raw hraw
          rw [number_eq_ok_iff.mpr ⟨hliteral, Nat.le_sub_one_of_lt hlt⟩] at hnumber
          cases hnumber

/-- A variable that is set in range gives the number it is a literal for. -/
theorem ranges_of_gives {v : Variable} {given : Option Nat} {least size : Nat}
    (hgives : v.Gives lookup given) (hrange : ∀ n, given = some n → least ≤ n ∧ n < size) :
    v.Ranges lookup least size := by
  intro raw hraw
  rw [Variable.Gives, hraw] at hgives
  obtain ⟨n, hliteral, hgiven⟩ := hgives
  exact ⟨n, hliteral, hrange n hgiven⟩

/-- A literal is for one number only. -/
theorem Literal.unique {raw : String} {m n : Nat} (hm : Literal raw m) (hn : Literal raw n) :
    m = n := by
  have hreadm := number_eq_ok_iff.mpr ⟨hm, Nat.le_max_left m n⟩
  have hreadn := number_eq_ok_iff.mpr ⟨hn, Nat.le_max_right m n⟩
  exact Except.ok.inj (hreadm.symm.trans hreadn)

/-- A number that may be any that its size has room for. -/
theorem numberOf_checked {v : Variable} {size : Nat} (hsize : 0 < size)
    (husable : v.Usable lookup ↔ v.Ranges lookup 0 size) :
    Checked lookup [v] (fun given => v.Gives lookup given ∧ ∀ n, given = some n → n < size)
      (numberOf lookup v.name (size - 1)) := by
  cases hnumber : numberOf lookup v.name (size - 1) with
  | ok given =>
      obtain ⟨hgives, hle⟩ := gives_of_numberOf hnumber
      have hlt : ∀ n, given = some n → n < size := fun n hn => Nat.lt_of_le_pred hsize (hle n hn)
      exact .of_usable
        (husable.mpr (ranges_of_gives hgives fun n hn => ⟨Nat.zero_le n, hlt n hn⟩)) ⟨hgives, hlt⟩
  | error e =>
      obtain ⟨hname, hranges⟩ := not_ranges_of_numberOf hnumber
      exact .of_not_usable (mt husable.mp hranges) hname

theorem exists_literal_of_gives {v : Variable} {n : Nat} (h : v.Gives lookup (some n)) :
    ∃ raw, lookup v.name = some raw ∧ Literal raw n := by
  unfold Variable.Gives at h
  cases hraw : lookup v.name with
  | none =>
      rw [hraw] at h
      cases h
  | some raw =>
      rw [hraw] at h
      obtain ⟨m, hliteral, hm⟩ := h
      cases hm
      exact ⟨raw, rfl, hliteral⟩

/-- The number of connections is checked a second time, to be one at least. -/
theorem maxConnectionsOf_checked (lookup : Lookup) :
    Checked lookup [.maxConnections] (fun count =>
        ∃ given, Variable.maxConnections.Gives lookup given ∧ count = given.getD 5)
      (maxConnectionsOf lookup) := by
  have hunfold : maxConnectionsOf lookup =
      numberOf lookup Variable.maxConnections.name (UInt32.size - 1) >>= fun given =>
        if given.getD 5 = 0 then .error (.invalid "ES_MAX_CONNECTIONS" "0" "must be at least 1")
        else .ok (given.getD 5) := rfl
  rw [hunfold]
  cases hnumber : numberOf lookup Variable.maxConnections.name (UInt32.size - 1) with
  | error e =>
      obtain ⟨hname, hranges⟩ := not_ranges_of_numberOf hnumber
      exact .of_not_usable hranges hname
  | ok given =>
      obtain ⟨hgives, hle⟩ := gives_of_numberOf hnumber
      show Checked lookup _ _ (if given.getD 5 = 0 then _ else _)
      by_cases hzero : given.getD 5 = 0
      · rw [if_pos hzero]
        refine .of_not_usable (fun usable => ?_) rfl
        cases given with
        | none => cases hzero
        | some n =>
            obtain ⟨raw, hraw, hliteral⟩ := exists_literal_of_gives hgives
            obtain ⟨m, hliteral', hpositive, -⟩ := usable raw hraw
            have hsame : m = n := hliteral'.unique hliteral
            exact absurd (hsame.trans hzero) (Nat.pos_iff_ne_zero.mp hpositive)
      · rw [if_neg hzero]
        refine .of_usable (ranges_of_gives hgives fun n hn => ?_) ⟨given, hgives, rfl⟩
        rw [hn, Option.getD_some] at hzero
        exact ⟨Nat.pos_of_ne_zero hzero, Nat.lt_of_le_pred (by decide) (hle n hn)⟩

theorem retryOf_checked (lookup : Lookup) :
    Checked lookup [.retryAttempts, .retryDelay] (fun retry =>
        (∃ given, Variable.retryAttempts.Gives lookup given ∧
          retry.maxAttempts.toNat = given.elim 3 (max 1)) ∧
        (∃ given, Variable.retryDelay.Gives lookup given ∧
          retry.initialDelay = given.getD 100) ∧
        retry.maxDelay = 10000 ∧ retry.multiplier = 2.0)
      (retryOf lookup) := by
  show Checked lookup ([.retryAttempts] ++ ([.retryDelay] ++ [])) _ (_ >>= _)
  refine (numberOf_checked (by decide) Iff.rfl).bind fun attempts _ hattempts => ?_
  refine (numberOf_checked (by decide) Iff.rfl).bind fun delay _ hdelay => ?_
  refine .accepted nofun ⟨⟨attempts, hattempts.1, ?_⟩, ⟨delay, hdelay.1, rfl⟩, rfl, rfl⟩
  cases attempts with
  | none => rfl
  | some n =>
      have hn : n < UInt32.size := hattempts.2 n rfl
      exact UInt32.toNat_ofNat_of_lt (Nat.max_lt.mpr ⟨by decide, hn⟩)

/-- Whatever the variables are, either all of them can be used and the settings show what they
say, or the first of them that cannot be used is named. -/
theorem ofLookup_checked (lookup : Lookup) :
    Checked lookup Variable.inOrder (Shows lookup) (ofLookup lookup) := by
  show Checked lookup ([.backend] ++ ([.databaseUrl] ++ ([.maxConnections] ++
    ([.operationTimeout] ++ ([.retryAttempts, .retryDelay] ++ []))))) _ (_ >>= _)
  refine (storageOf_checked lookup).bind fun storage _ hstorage => ?_
  refine (databaseUrlOf_checked hstorage).bind fun url _ hurl => ?_
  refine (maxConnectionsOf_checked lookup).bind fun count _ hcount => ?_
  refine (numberOf_checked (by decide) Iff.rfl).bind fun timeout _ htimeout => ?_
  refine (retryOf_checked lookup).bind fun retry _ ⟨hattempts, hdelay, hbound, hfactor⟩ => ?_
  exact .accepted nofun ⟨hstorage, hurl.1, hurl.2, hcount, htimeout.1, hattempts, hdelay, hbound,
    hfactor⟩

/-- A number of attempts that is given need not be the one that is set: none is taken as one. -/
theorem not_attempts_as_given :
    ¬ ∀ (lookup : Lookup) (c : Config), ofLookup lookup = .ok c → ∀ raw n,
      lookup "ES_RETRY_MAX_ATTEMPTS" = some raw → Literal raw n →
        c.retry.maxAttempts.toNat = n := by
  intro h
  let lookup : Lookup := fun name => if name = "ES_RETRY_MAX_ATTEMPTS" then some "0" else none
  have hliteral : Literal "0" 0 := number_eq_ok_iff.mp (show number 0 "0" = .ok 0 from rfl) |>.1
  let once : RetryPolicy := { RetryPolicy.standard with maxAttempts := 1 }
  have hone := h lookup { Config.standard with retry := once } rfl "0" 0 rfl hliteral
  exact absurd hone (by decide)

end Checks

end Config

end EventLog
