/-
Bytes, texts and the two standard-library readers the server leans on.

A C++ `char` buffer is a list of bytes; a string literal of the source
enters through `bytes`. The classification functions are those of the C
locale, in which no byte from 0x80 on is a letter, a digit or a space.
-/
import Mathlib.Data.List.Basic
import Mathlib.Data.List.TakeWhile

namespace CgiWebServer

/-- A C++ `char`, as the eight bits it is. -/
abbrev Byte := UInt8

/-- A `std::string`, `std::string_view` or `std::span<const char>`. -/
abbrev Bytes := List Byte

/-- A string literal of the source (ASCII throughout). -/
def bytes (s : String) : Bytes := s.toList.map fun c => c.toUInt8

/-- `std::to_string`. -/
def toStr (n : Int) : Bytes := bytes (toString n)

/-- A number with two digits at least. -/
def twoDigits (n : Nat) : Bytes :=
  (if n < 10 then bytes "0" else []) ++ toStr n

/-- What the C library sees of a `std::string`'s `c_str()`: everything
before the first NUL. -/
def cStr (s : Bytes) : Bytes := s.takeWhile (· ≠ 0)

-- ===================================================== the C locale

def isDigit (b : Byte) : Bool := 48 ≤ b && b ≤ 57

def isSpace (b : Byte) : Bool := b == 32 || (9 ≤ b && b ≤ 13)

def isUpper (b : Byte) : Bool := 65 ≤ b && b ≤ 90

def isLower (b : Byte) : Bool := 97 ≤ b && b ≤ 122

def isAlnum (b : Byte) : Bool := isDigit b || isUpper b || isLower b

def isXDigit (b : Byte) : Bool :=
  isDigit b || (65 ≤ b && b ≤ 70) || (97 ≤ b && b ≤ 102)

/-- `std::tolower`. -/
def toLower (b : Byte) : Byte := if isUpper b then b + 32 else b

/-- `std::toupper`. -/
def toUpper (b : Byte) : Byte := if isLower b then b - 32 else b

-- ============================================================== stoi

/-- The decimal value of a digit string. -/
def digitsVal (ds : Bytes) : Nat :=
  ds.foldl (fun acc d => acc * 10 + (d.toNat - 48)) 0

/-- `std::stoi` in base ten: leading white space, an optional sign, the
longest run of digits. No digit and a value outside `int` are the two
exceptions it throws; every caller catches both alike. -/
def stoi (s : Bytes) : Option Int :=
  let t := s.dropWhile isSpace
  let neg := t.head? == some 45
  let u := if neg || t.head? == some 43 then t.tail else t
  let ds := u.takeWhile isDigit
  let v : Int := if neg then -(digitsVal ds : Int) else digitsVal ds
  if ds.isEmpty then none
  else if -2147483648 ≤ v ∧ v ≤ 2147483647 then some v
  else none

example : stoi (bytes " -12x") = some (-12) := by decide

/-- What is read is an `int`. -/
theorem stoi_range {s : Bytes} {n : Int} (h : stoi s = some n) :
    -2147483648 ≤ n ∧ n ≤ 2147483647 := by
  unfold stoi at h
  extract_lets t neg u ds v at h
  by_cases hempty : ds.isEmpty = true
  · rw [if_pos hempty] at h
    cases h
  · rw [if_neg hempty] at h
    by_cases hrange : -2147483648 ≤ v ∧ v ≤ 2147483647
    · rw [if_pos hrange] at h
      exact Option.some.inj h ▸ hrange
    · rw [if_neg hrange] at h
      cases h

/-- A digit is no white space and no sign. -/
theorem isDigit_not_space {b : Byte} (h : isDigit b = true) :
    isSpace b = false ∧ b ≠ 45 ∧ b ≠ 43 := by
  have hlow : (48 : Byte) ≤ b := by
    rw [isDigit, Bool.and_eq_true, decide_eq_true_eq] at h
    exact h.1
  have hval : 48 ≤ b.toNat := hlow
  refine ⟨?_, ?_, ?_⟩
  · have hsp : b ≠ 32 := by
      rintro rfl
      exact absurd hval (by decide)
    have htab : ¬ b ≤ 13 := by
      intro hle
      have hle' : b.toNat ≤ 13 := hle
      omega
    simp [isSpace, hsp, htab]
  · rintro rfl
    exact absurd hval (by decide)
  · rintro rfl
    exact absurd hval (by decide)

/-- A digit string reads as its number, as far as `int` goes. -/
theorem stoi_digits {ds : Bytes} (hne : ds ≠ [])
    (hdigits : ∀ b ∈ ds, isDigit b = true) :
    stoi ds = if digitsVal ds ≤ 2147483647
      then some (digitsVal ds : Int) else none := by
  obtain ⟨d, ds', rfl⟩ := List.exists_cons_of_ne_nil hne
  obtain ⟨hspace, hminus, hplus⟩ :=
    isDigit_not_space (hdigits d List.mem_cons_self)
  have hdrop : (d :: ds').dropWhile isSpace = d :: ds' :=
    List.dropWhile_cons_of_neg (by simp [hspace])
  have htake : (d :: ds').takeWhile isDigit = d :: ds' :=
    List.takeWhile_eq_self_iff.mpr hdigits
  have hneg : ((d :: ds').head? == some 45) = false := by
    simpa using hminus
  have hpos : ((d :: ds').head? == some 43) = false := by
    simpa using hplus
  unfold stoi
  simp only [hdrop, hneg, hpos, Bool.or_self, Bool.false_eq_true, if_false,
    htake, List.isEmpty_cons]
  by_cases hle : digitsVal (d :: ds') ≤ 2147483647
  · rw [if_pos hle, if_pos (by omega)]
  · rw [if_neg hle, if_neg (by omega)]

/-- A digit's character code is its byte. -/
private theorem toNat_of_isDigit {c : Char} (hc : c.isDigit = true) :
    c.toUInt8.toNat = c.toNat := by
  have hlt : c.toNat ≤ 57 := (Char.isDigit_iff_toNat.mp hc).2
  show (UInt8.ofNat c.toNat).toNat = c.toNat
  exact UInt8.toNat_ofNat_of_lt' (by
    show c.toNat < 256
    omega)

private theorem toStr_natCast (n : Nat) :
    toStr n = (Nat.toDigits 10 n).map fun c => c.toUInt8 := by
  show (Nat.repr n).toList.map _ = _
  rw [Nat.toList_repr]

/-- Printing a natural number and reading its digits. -/
theorem digitsVal_toStr (n : Nat) : digitsVal (toStr n) = n := by
  have hfold : ∀ (cs : List Char), (∀ c ∈ cs, c.isDigit = true) →
      ∀ acc : Nat, (cs.map fun c => c.toUInt8).foldl
          (fun acc d => acc * 10 + (d.toNat - 48)) acc
        = Nat.ofDigitChars 10 cs acc := by
    intro cs
    induction cs with
    | nil => exact fun _ acc => (Nat.ofDigitChars_nil).symm
    | cons c cs ih =>
        intro hdigits acc
        rw [List.map_cons, List.foldl_cons, Nat.ofDigitChars_cons,
          toNat_of_isDigit (hdigits c (by simp)), ih fun d hd =>
            hdigits d (List.mem_cons_of_mem _ hd), Nat.mul_comm acc]
        rfl
  rw [toStr_natCast, digitsVal, hfold _ fun c hc =>
    Nat.isDigit_of_mem_toDigits (by decide) (by decide) hc]
  exact Nat.ofDigitChars_ten_toDigits

/-- What is printed of a natural number are digits. -/
theorem isDigit_of_mem_toStr {n : Nat} {b : Byte} (h : b ∈ toStr n) :
    isDigit b = true := by
  rw [toStr_natCast] at h
  obtain ⟨c, hc, rfl⟩ := List.mem_map.mp h
  have hdigit := Nat.isDigit_of_mem_toDigits (by decide) (by decide) hc
  obtain ⟨hlow, hhigh⟩ := Char.isDigit_iff_toNat.mp hdigit
  have hcode := toNat_of_isDigit hdigit
  rw [isDigit, Bool.and_eq_true, decide_eq_true_eq, decide_eq_true_eq]
  constructor
  · show 48 ≤ c.toUInt8.toNat
    rw [hcode]
    exact hlow
  · show c.toUInt8.toNat ≤ 57
    rw [hcode]
    exact hhigh

private theorem toStr_negSucc (n : Nat) :
    toStr (Int.negSucc n) = 45 :: toStr (n + 1 : Nat) := by
  show bytes ("-" ++ Nat.repr (n + 1)) = 45 :: bytes (Nat.repr (n + 1))
  simp only [bytes, String.toList_append, List.map_append]
  rfl

/-- What is printed of an integer: digits, and a minus sign perhaps. -/
theorem minus_or_digit_of_mem_toStr {n : Int} {b : Byte}
    (h : b ∈ toStr n) : b = 45 ∨ isDigit b = true := by
  cases n with
  | ofNat n => exact Or.inr (isDigit_of_mem_toStr h)
  | negSucc n =>
      rw [toStr_negSucc] at h
      rcases List.mem_cons.mp h with hminus | hdigit
      · exact Or.inl hminus
      · exact Or.inr (isDigit_of_mem_toStr hdigit)

/-- A negative number prints no natural one's text. -/
private theorem toStr_negSucc_ne (m n : Nat) :
    toStr (Int.negSucc m) ≠ toStr n := by
  intro h
  rw [toStr_negSucc] at h
  have hminus : isDigit 45 = true :=
    isDigit_of_mem_toStr (h ▸ List.mem_cons_self)
  exact absurd hminus (by decide)

/-- No two numbers print the same. -/
theorem toStr_inj {a b : Int} : toStr a = toStr b ↔ a = b := by
  have hnat : ∀ {m n : Nat}, toStr m = toStr n → m = n := by
    intro m n h
    rw [← digitsVal_toStr m, h, digitsVal_toStr]
  refine ⟨fun h => ?_, congrArg toStr⟩
  cases a with
  | ofNat m =>
      cases b with
      | ofNat n => exact congrArg Int.ofNat (hnat h)
      | negSucc n => exact absurd h.symm (toStr_negSucc_ne n m)
  | negSucc m =>
      cases b with
      | ofNat n => exact absurd h (toStr_negSucc_ne m n)
      | negSucc n =>
          rw [toStr_negSucc, toStr_negSucc] at h
          have hsucc := hnat (List.cons.inj h).2
          rw [Nat.succ.inj hsucc]

end CgiWebServer
