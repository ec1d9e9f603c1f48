/-
Which refill rates are read as they are meant.

# The two readers

A rate is a number of tokens, a `/` and a unit of time; a window is a
number and a unit. Both look their unit up in one table, which is in
lower case, but only the reader of windows converts the unit first. So
the two agree on a unit in lower case and on one that is no day, hour or
minute in any case, and otherwise on no tokens only.

# The rest

A text that is no rate should give the default. The branches that find
digits out of range or no `/` only log that; the division behind them is
that of the digits' number, or of zero, by the seconds of whatever stands
behind the first `/` (`loadRefillRate_digits`).
-/
import CgiWebServer.Proofs.LimiterSettings

namespace CgiWebServer

open Scan

-- ============================================================= the rates

/-- The text is the digits `v`, a `/` and the unit `u`. -/
structure IsRate (rateStr v u : Bytes) : Prop where
  text : rateStr = v ++ (bytes "/" ++ u)
  digits : v ≠ [] ∧ ∀ b ∈ v, isDigit b = true
  in_range : digitsVal v ≤ 2147483647
  unit : ∀ b ∈ u, isSpace b = false ∧ b ≠ 47
  unit_head : ∀ b ∈ u.head?, isDigit b = false

/-- A rate is divided by the seconds a window of the same unit has, and
anything else is the default. -/
structure ReadsAsMeant (rateStr : Bytes) : Prop where
  rate : ∀ v u, IsRate rateStr v u →
    loadRefillRate (some rateStr)
      = (digitsVal v : Int) / getSecondsFromTimeStr (bytes "1" ++ u)
  fallback : (¬ ∃ v u, IsRate rateStr v u) →
    loadRefillRate (some rateStr) = defaultRefillRate

-- ============================================================= the units

/-- The units of the table are in lower case. -/
theorem toLower_of_multiplier {unit : Bytes}
    (h : getSecondsMultiplier unit ≠ 1) : unit.map toLower = unit := by
  unfold getSecondsMultiplier at h
  split at h
  next hday => rcases hday with rfl | rfl | rfl <;> decide
  next =>
    split at h
    next hhour => rcases hhour with rfl | rfl | rfl | rfl <;> decide
    next =>
      split at h
      next hminute => rcases hminute with rfl | rfl | rfl <;> decide
      next => exact absurd rfl h

theorem getSecondsMultiplier_le (unit : Bytes) :
    getSecondsMultiplier unit ≤ 86400 := by
  unfold getSecondsMultiplier
  split_ifs <;> decide

/-- No unit begins with a digit. -/
theorem getSecondsMultiplier_of_digit {unit : Bytes}
    (h : unit.takeWhile isDigit ≠ []) : getSecondsMultiplier unit = 1 := by
  unfold getSecondsMultiplier
  split
  next hday => rcases hday with rfl | rfl | rfl <;> exact absurd rfl h
  next =>
    split
    next hhour =>
      rcases hhour with rfl | rfl | rfl | rfl <;> exact absurd rfl h
    next =>
      split
      next hminute =>
        rcases hminute with rfl | rfl | rfl <;> exact absurd rfl h
      next => rfl

/-- One of a unit, as a window, is the unit's seconds in lower case. -/
theorem getSecondsFromTimeStr_one {u : Bytes}
    (hunit : ∀ b ∈ u, isSpace b = false)
    (hhead : ∀ b ∈ u.head?, isDigit b = false) :
    getSecondsFromTimeStr (bytes "1" ++ u)
      = getSecondsMultiplier (u.map toLower) := by
  have htoken : windowToken (bytes "1" ++ u) = bytes "1" ++ u := by
    unfold windowToken
    rw [show bytes "1" ++ u = 49 :: u from rfl,
      List.dropWhile_cons_of_neg (by decide), List.takeWhile_eq_self_iff]
    intro b hb
    rcases List.mem_cons.mp hb with rfl | hb
    · decide
    · rw [hunit b hb]
      rfl
  have hdigits : windowDigits (bytes "1" ++ u) = bytes "1" := by
    rw [windowDigits, htoken, show bytes "1" ++ u = 49 :: u from rfl,
      List.takeWhile_cons_of_pos (by decide)]
    -- The digits end where the unit begins.
    cases u with
    | nil => rfl
    | cons b rest =>
        rw [List.takeWhile_cons_of_neg (by simp [hhead b rfl])]
        rfl
  have hu : windowUnit (bytes "1" ++ u) = u.map toLower := by
    rw [windowUnit, htoken, hdigits]
    rfl
  have hone : digitsVal (bytes "1") = 1 := by decide
  have hpos := getSecondsMultiplier_pos (u.map toLower)
  have hle := getSecondsMultiplier_le (u.map toLower)
  -- One times a multiplier is in range, so the product does not wrap.
  rw [getSecondsFromTimeStr_eq, windowProduct_eq, hdigits, hu, hone,
    if_neg (by decide), Option.map_some, Option.getD_some]
  show wrapInt (getSecondsMultiplier (u.map toLower) * 1) = _
  rw [Int.mul_one, wrapInt_of_range ⟨by omega, by omega⟩]

-- ============================================================ the division

/-- The digits a text begins with. -/
def leadingDigits (rateStr : Bytes) : Bytes := rateStr.takeWhile isDigit

/-- The seconds of the unit behind the first `/`, one if there is none. -/
def rateSeconds (rateStr : Bytes) : Int :=
  match find (bytes "/") rateStr with
  | none => 1
  | some pos => getSecondsMultiplier (rateStr.drop (pos + 1))

theorem rateSeconds_pos (rateStr : Bytes) : 1 ≤ rateSeconds rateStr := by
  unfold rateSeconds
  split
  · exact Int.le_refl 1
  · exact getSecondsMultiplier_pos _

/-- Digits give a quotient, of zero where no `int` holds them. -/
theorem loadRefillRate_digits {rateStr : Bytes}
    (h : leadingDigits rateStr ≠ []) :
    loadRefillRate (some rateStr)
      = (if digitsVal (leadingDigits rateStr) ≤ 2147483647
          then (digitsVal (leadingDigits rateStr) : Int) else 0)
        / rateSeconds rateStr := by
  have hread := stoi_digits h fun b hb => List.mem_takeWhile_imp hb
  rw [leadingDigits] at hread
  have hempty : ¬ (rateStr.takeWhile isDigit).isEmpty = true :=
    fun hnil => h (List.isEmpty_iff.mp hnil)
  have hquotient : ∀ seconds : Int,
      ((if digitsVal (rateStr.takeWhile isDigit) ≤ 2147483647
          then some (digitsVal (rateStr.takeWhile isDigit) : Int)
          else none).getD 0).tdiv seconds
        = (if digitsVal (rateStr.takeWhile isDigit) ≤ 2147483647
          then (digitsVal (rateStr.takeWhile isDigit) : Int) else 0)
          / seconds := by
    intro seconds
    split
    · exact Int.tdiv_eq_ediv_of_nonneg (Int.natCast_nonneg _)
    · exact Int.tdiv_eq_ediv_of_nonneg (Int.le_refl 0)
  simp only [loadRefillRate, if_neg hempty, hread, leadingDigits,
    rateSeconds, hquotient]
  cases find (bytes "/") rateStr with
  | none => exact congrArg _ (getSecondsMultiplier_of_digit h)
  | some pos => rfl

/-- A rate's digits and seconds. -/
theorem leadingDigits_rate {rateStr v u : Bytes} (h : IsRate rateStr v u) :
    leadingDigits rateStr = v ∧ rateSeconds rateStr
      = getSecondsMultiplier u := by
  have hslash : (47 : Byte) ∉ v := fun hmem =>
    absurd (h.digits.2 47 hmem) (by decide)
  rw [leadingDigits, rateSeconds, h.text]
  constructor
  · rw [List.takeWhile_append_of_pos h.digits.2]
    exact List.append_nil v
  · rw [show find (bytes "/") (v ++ (bytes "/" ++ u)) = some v.length from
      find_field u hslash]
    show getSecondsMultiplier ((v ++ (bytes "/" ++ u)).drop (v.length + 1))
      = getSecondsMultiplier u
    rw [← List.append_assoc]
    exact congrArg _ (List.drop_left' List.length_append)

-- ========================================================= rates as meant

/-- A rate is read as it is meant exactly if it is of no tokens, or its
unit is in lower case, or the unit in lower case is of one second. -/
theorem rate_iff {rateStr v u : Bytes} (h : IsRate rateStr v u) :
    loadRefillRate (some rateStr)
        = (digitsVal v : Int) / getSecondsFromTimeStr (bytes "1" ++ u)
      ↔ digitsVal v = 0 ∨ u.map toLower = u
        ∨ getSecondsMultiplier (u.map toLower) = 1 := by
  obtain ⟨hdigits, hseconds⟩ := leadingDigits_rate h
  rw [loadRefillRate_digits (hdigits ▸ h.digits.1), hdigits, hseconds,
    if_pos h.in_range,
    getSecondsFromTimeStr_one (fun b hb => (h.unit b hb).1) h.unit_head]
  by_cases hlower : u.map toLower = u
  · rw [hlower]
    exact iff_of_true rfl (Or.inr (Or.inl rfl))
  · have hone : getSecondsMultiplier u = 1 := by
      by_contra hne
      exact hlower (toLower_of_multiplier hne)
    have hpos := getSecondsMultiplier_pos (u.map toLower)
    rw [hone, Int.ediv_one]
    constructor
    · intro heq
      by_contra hnone
      have hval : (0 : Int) < digitsVal v := by omega
      have hbig : 1 < getSecondsMultiplier (u.map toLower) := by omega
      have hless := Int.ediv_lt_self_of_pos_of_ne_one hval
        (Int.ne_of_gt hbig)
      omega
    · intro h
      rcases h with hzero | hsame | hunit
      · rw [hzero]
        simp
      · exact absurd hsame hlower
      · rw [hunit, Int.ediv_one]

/-- A text that is no rate gives the default exactly if it begins with no
digit, or with digits that happen to give it. -/
theorem fallback_iff (rateStr : Bytes) :
    loadRefillRate (some rateStr) = defaultRefillRate
      ↔ leadingDigits rateStr = []
        ∨ digitsVal (leadingDigits rateStr) ≤ 2147483647
          ∧ 2 * rateSeconds rateStr ≤ digitsVal (leadingDigits rateStr)
          ∧ digitsVal (leadingDigits rateStr) < 3 * rateSeconds rateStr := by
  by_cases hnil : leadingDigits rateStr = []
  · refine iff_of_true ?_ (Or.inl hnil)
    rw [leadingDigits] at hnil
    simp only [loadRefillRate, hnil]
    rfl
  · have hpos := rateSeconds_pos rateStr
    rw [loadRefillRate_digits hnil]
    simp only [hnil, false_or]
    by_cases hle : digitsVal (leadingDigits rateStr) ≤ 2147483647
    · rw [if_pos hle]
      simp only [hle, true_and]
      rw [show defaultRefillRate = 2 from rfl,
        Int.ediv_eq_iff_of_pos (by omega)]
      omega
    · rw [if_neg hle, Int.zero_ediv]
      simp only [hle, false_and, iff_false]
      decide

/-- A text is read as it is meant exactly if, being a rate, it is of no
tokens or of a unit whose case makes no difference, and, being none, it
begins with no digit or with digits that happen to give the default. -/
theorem readsAsMeant_iff (rateStr : Bytes) :
    ReadsAsMeant rateStr
      ↔ (∀ v u, IsRate rateStr v u →
          digitsVal v = 0 ∨ u.map toLower = u
            ∨ getSecondsMultiplier (u.map toLower) = 1)
        ∧ ((¬ ∃ v u, IsRate rateStr v u) →
          leadingDigits rateStr = []
            ∨ digitsVal (leadingDigits rateStr) ≤ 2147483647
              ∧ 2 * rateSeconds rateStr ≤ digitsVal (leadingDigits rateStr)
              ∧ digitsVal (leadingDigits rateStr)
                < 3 * rateSeconds rateStr) := by
  constructor
  · intro h
    exact ⟨fun v u hrate => (rate_iff hrate).mp (h.rate v u hrate),
      fun hnone => (fallback_iff rateStr).mp (h.fallback hnone)⟩
  · intro h
    obtain ⟨hrate, hnone⟩ := h
    exact ⟨fun v u h => (rate_iff h).mpr (hrate v u h),
      fun h => (fallback_iff rateStr).mpr (hnone h)⟩

/-- An hour in capitals is a second, a number alone is a rate, and digits
out of range give no tokens. -/
theorem rates_misread :
    (loadRefillRate (some (bytes "120/H")) = 120
        ∧ ¬ ReadsAsMeant (bytes "120/H"))
      ∧ (loadRefillRate (some (bytes "5")) = 5
        ∧ ¬ ReadsAsMeant (bytes "5"))
      ∧ loadRefillRate (some (bytes "99999999999/s")) = 0
        ∧ ¬ ReadsAsMeant (bytes "99999999999/s") := by
  refine ⟨⟨by decide, fun h => ?_⟩, ⟨by decide, fun h => ?_⟩, by decide,
    fun h => ?_⟩
  · have hrate : IsRate (bytes "120/H") (bytes "120") (bytes "H") :=
      ⟨rfl, ⟨by decide, List.all_eq_true.mp rfl⟩, by decide,
        by decide +kernel, by decide +kernel⟩
    exact absurd (h.rate _ _ hrate) (by decide)
  · refine absurd (h.fallback ?_) (by decide)
    intro h
    obtain ⟨v, u, hrate⟩ := h
    have hmem : (47 : Byte) ∈ bytes "5" := by
      rw [hrate.text]
      exact List.mem_append_right v List.mem_cons_self
    exact absurd hmem (by decide)
  · refine absurd (h.fallback ?_) (by decide)
    intro h
    obtain ⟨v, u, hrate⟩ := h
    have hrange := hrate.in_range
    rw [← (leadingDigits_rate hrate).1] at hrange
    exact absurd hrange (by decide)

end CgiWebServer
