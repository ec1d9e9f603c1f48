/-
What the form validator accepts.

A form is built from its grammar: pieces (a character that may stand as
it is, or a `%` with two hex digits), words of pieces, pairs of a key and
a value, and a list of pairs with an optional `&` at the end. `UrlForm`
is such a form and `UrlForm.text` its text.

The validator looks for its separators with `find` and checks what is
between them in two loops that skip a triple's digits, with a bound taken
from the whole string. A triple cannot reach over a separator all the
same, since a separator is no hex digit: each loop accepts exactly the
words (`isFormSpan_word`). The same loops, with every read of the string
and every turn accounted for, are `isValidUrlFormReads`; that it always
has an answer says that no read is past the end and that the loops end.
-/
import CgiWebServer.Http.Extract

namespace CgiWebServer

open Scan

-- ============================================================== the grammar

/-- A piece of a key or a value. -/
inductive Piece
  | char (b : Byte) (ok : isFormChar b = true)
  | triple (high low : Byte) (high_ok : isXDigit high = true)
      (low_ok : isXDigit low = true)

namespace Piece

def text : Piece → Bytes
  | char b _ => [b]
  | triple high low _ _ => [37, high, low]

end Piece

/-- The text of a word. -/
def wordText (word : List Piece) : Bytes := word.flatMap Piece.text

/-- A pair: the key is not empty. -/
structure FormPair where
  key : List Piece
  value : List Piece
  key_ok : key ≠ []

def FormPair.text (p : FormPair) : Bytes :=
  wordText p.key ++ bytes "=" ++ wordText p.value

/-- Pairs with a `&` between them. -/
def pairsText : List FormPair → Bytes
  | [] => []
  | [p] => p.text
  | p :: q :: rest => p.text ++ (bytes "&" ++ pairsText (q :: rest))

/-- A form: one pair or more, and whether a `&` stands at the end. -/
structure UrlForm where
  pairs : List FormPair
  trailing : Bool
  pairs_ok : pairs ≠ []

def UrlForm.text (f : UrlForm) : Bytes :=
  pairsText f.pairs ++ if f.trailing then bytes "&" else []

/-- A text of the grammar. -/
def IsForm (s : Bytes) : Prop := ∃ f : UrlForm, f.text = s

-- ================================================ the validator, read by read

/-- The inner `for`, with its reads: `none` is a read past the end, or
the loop still running without fuel. -/
def formSpanReads (sv : Bytes) (stop : Nat) : Nat → Nat → Option Bool
  | 0, _ => none
  | fuel + 1, k =>
      if stop ≤ k then some true
      else do
        let c ← sv[k]?
        if c == 37 then
          if k + 2 ≥ sv.length then some false
          else do
            let high ← sv[k + 1]?
            if !isXDigit high then some false
            else do
              let low ← sv[k + 2]?
              if !isXDigit low then some false
              else formSpanReads sv stop fuel (k + 3)
        else if isFormChar c then formSpanReads sv stop fuel (k + 1)
        else some false

/-- The outer `while`, with its reads. -/
def urlFormReads (sv : Bytes) : Nat → Nat → Option Bool
  | 0, _ => none
  | fuel + 1, i =>
      if sv.length ≤ i then some true
      else
        match findFrom (bytes "=") sv i with
        | none => some false
        | some eq =>
            if eq == i then some false
            else do
              let key ← formSpanReads sv eq (sv.length + 1) i
              if !key then some false
              else
                match findFrom (bytes "&") sv (eq + 1) with
                | none =>
                    formSpanReads sv sv.length (sv.length + 1) (eq + 1)
                | some amp => do
                    let value ←
                      formSpanReads sv amp (sv.length + 1) (eq + 1)
                    if !value then some false
                    else urlFormReads sv fuel (amp + 1)

/-- `is_valid_url_form`, with its reads. -/
def isValidUrlFormReads (sv : Bytes) : Option Bool :=
  if sv.isEmpty then some false else urlFormReads sv (sv.length + 1) 0

-- =================================================================== words

/-- A word, read from the left. -/
def isWord : Bytes → Bool
  | [] => true
  | [b] => isFormChar b
  | [b, c] => isFormChar b && isFormChar c
  | b :: high :: low :: rest =>
      if b = 37 then isXDigit high && isXDigit low && isWord rest
      else isFormChar b && isWord (high :: low :: rest)

theorem isFormChar_percent : isFormChar 37 = false := rfl

theorem isWord_char {b : Byte} (hb : b ≠ 37) (rest : Bytes) :
    isWord (b :: rest) = (isFormChar b && isWord rest) := by
  match rest with
  | [] => rw [isWord, isWord, Bool.and_true]
  | [c] => rw [isWord, isWord]
  | high :: low :: rest => rw [isWord, if_neg hb]

theorem isWord_triple (high low : Byte) (rest : Bytes) :
    isWord (37 :: high :: low :: rest)
      = (isXDigit high && isXDigit low && isWord rest) := by
  rw [isWord, if_pos rfl]

theorem isWord_cut {rest : Bytes} (h : rest.length ≤ 1) :
    isWord (37 :: rest) = false := by
  match rest, h with
  | [], _ => rfl
  | [c], _ => rw [isWord, isFormChar_percent, Bool.false_and]
  | _ :: _ :: _, h => exact absurd h (by simp)

/-- A piece is read whole. -/
theorem isWord_piece (p : Piece) (rest : Bytes) :
    isWord (p.text ++ rest) = isWord rest := by
  cases p with
  | char b ok =>
      have hb : b ≠ 37 := by
        intro h
        rw [h, isFormChar_percent] at ok
        cases ok
      show isWord (b :: rest) = isWord rest
      rw [isWord_char hb, ok, Bool.true_and]
  | triple high low high_ok low_ok =>
      show isWord (37 :: high :: low :: rest) = isWord rest
      rw [isWord_triple, high_ok, low_ok, Bool.and_self, Bool.true_and]

/-- What is read from the left is the text of pieces. -/
theorem isWord_iff (s : Bytes) :
    isWord s = true ↔ ∃ word, wordText word = s := by
  constructor
  -- An encoding takes three bytes at once, so the induction is on the
  -- length.
  · induction hlen : s.length using Nat.strong_induction_on generalizing s with
    | h n ih =>
      intro h
      match s with
      | [] => exact ⟨[], rfl⟩
      | b :: rest =>
          rw [List.length_cons] at hlen
          by_cases hb : b = 37
          · subst hb
            match rest with
            | [] => exact absurd h (by decide)
            | [c] =>
                have hcut : isWord [37, c] = false := isWord_cut (by simp)
                rw [hcut] at h
                cases h
            | high :: low :: rest =>
                rw [isWord_triple, Bool.and_eq_true, Bool.and_eq_true] at h
                obtain ⟨⟨hhigh, hlow⟩, hrest⟩ := h
                simp only [List.length_cons] at hlen
                obtain ⟨word, hword⟩ := ih _ (by omega) rest rfl hrest
                refine ⟨.triple high low hhigh hlow :: word, ?_⟩
                rw [← hword]
                rfl
          · rw [isWord_char hb, Bool.and_eq_true] at h
            obtain ⟨hchar, hrest⟩ := h
            obtain ⟨word, hword⟩ := ih _ (by omega) rest rfl hrest
            refine ⟨.char b hchar :: word, ?_⟩
            rw [← hword]
            rfl
  · intro h
    obtain ⟨word, rfl⟩ := h
    induction word with
    | nil => rfl
    | cons p word ih =>
        rw [wordText, List.flatMap_cons, isWord_piece]
        exact ih

-- ================================================================ the inner for

section Span

variable {sv tail more : Bytes} {stop k fuel fuel' : Nat} {b : Byte}

/-- A character at the loop's position. -/
theorem span_char (hk : k < stop) (hat : sv.drop k = b :: more)
    (hb : b ≠ 37) :
    formSpanReads sv stop (fuel + 1) k
        = (if isFormChar b then formSpanReads sv stop fuel (k + 1)
          else some false)
      ∧ isFormSpan sv stop (fuel' + 1) k
        = (if isFormChar b then isFormSpan sv stop fuel' (k + 1)
          else false) := by
  have hread : sv[k]? = some b := by
    have hzero : (sv.drop k)[0]? = some b := by rw [hat]; rfl
    rwa [List.getElem?_drop] at hzero
  have hne : (b == 37) = false := beq_eq_false_iff_ne.mpr hb
  have hle : ¬ stop ≤ k := by omega
  rw [formSpanReads, isFormSpan, if_neg hle, if_neg hle]
  simp only [byteAt, hread, hne, bind, Option.bind, Bool.false_eq_true,
    if_false, and_self]

/-- A `%` with two bytes behind it. -/
theorem span_triple {high low : Byte} (hk : k < stop)
    (hat : sv.drop k = 37 :: high :: low :: more) :
    formSpanReads sv stop (fuel + 1) k
        = (if isXDigit high && isXDigit low then
            formSpanReads sv stop fuel (k + 3) else some false)
      ∧ isFormSpan sv stop (fuel' + 1) k
        = (if isXDigit high && isXDigit low then
            isFormSpan sv stop fuel' (k + 3) else false) := by
  have hread : ∀ j, sv[k + j]? = (37 :: high :: low :: more)[j]? := by
    intro j
    rw [← hat, List.getElem?_drop]
  have hzero : sv[k]? = some 37 := hread 0
  have hone : sv[k + 1]? = some high := hread 1
  have htwo : sv[k + 2]? = some low := hread 2
  have hlen : ¬ sv.length ≤ k + 2 := by
    intro hle
    rw [List.getElem?_eq_none hle] at htwo
    cases htwo
  have hle : ¬ stop ≤ k := by omega
  rw [formSpanReads, isFormSpan, if_neg hle, if_neg hle]
  simp only [byteAt, hzero, hone, htwo, bind, Option.bind, beq_self_eq_true,
    if_true, ge_iff_le, hlen, if_false, decide_false, Bool.false_or]
  cases isXDigit high
  · exact ⟨rfl, rfl⟩
  · cases isXDigit low
    · exact ⟨rfl, rfl⟩
    · exact ⟨rfl, rfl⟩

/-- A `%` too near to the end of the string. -/
theorem span_cut (hk : k < stop) (hat : sv.drop k = 37 :: more)
    (hshort : more.length ≤ 1) :
    formSpanReads sv stop (fuel + 1) k = some false
      ∧ isFormSpan sv stop (fuel' + 1) k = false := by
  have hread : sv[k]? = some 37 := by
    have hzero : (sv.drop k)[0]? = some 37 := by rw [hat]; rfl
    rwa [List.getElem?_drop] at hzero
  have hlen : sv.length ≤ k + 2 := by
    have hdrop := congrArg List.length hat
    rw [List.length_drop, List.length_cons] at hdrop
    omega
  have hle : ¬ stop ≤ k := by omega
  rw [formSpanReads, isFormSpan, if_neg hle, if_neg hle]
  simp only [byteAt, hread, bind, Option.bind, beq_self_eq_true, if_true,
    ge_iff_le, hlen, decide_true, Bool.true_or, and_self]

/-- A `%` too near to a separator, or to the end: a separator is no hex
digit. -/
theorem span_short {rest : Bytes} (hk : k < stop)
    (htail : ∀ b ∈ tail.head?, isXDigit b = false)
    (hat : sv.drop k = 37 :: (rest ++ tail)) (hshort : rest.length ≤ 1) :
    formSpanReads sv stop (fuel + 1) k = some false
      ∧ isFormSpan sv stop (fuel' + 1) k = false := by
  have hno : ∀ {high low : Byte} {more : Bytes},
      sv.drop k = 37 :: high :: low :: more →
      (isXDigit high && isXDigit low) = false →
      formSpanReads sv stop (fuel + 1) k = some false
        ∧ isFormSpan sv stop (fuel' + 1) k = false := by
    intro high low more hat hdigits
    obtain ⟨hreads, hspan⟩ :=
      @span_triple sv more stop k fuel fuel' high low hk hat
    rw [hreads, hspan, hdigits]
    exact ⟨rfl, rfl⟩
  match rest, tail with
  | [], [] => exact span_cut hk hat (by simp)
  | [], [c] => exact span_cut hk hat (by simp)
  | [c], [] => exact span_cut hk hat (by simp)
  | [], c :: d :: more =>
      apply hno hat
      rw [htail c rfl, Bool.false_and]
  | [c], d :: more =>
      apply hno hat
      rw [htail d rfl, Bool.and_false]
  | _ :: _ :: _, _ => exact absurd hshort (by simp)

/-- Up to a separator, or to the end, the loop accepts the words, and
reads nothing past the end. -/
theorem isFormSpan_word (htail : ∀ b ∈ tail.head?, isXDigit b = false)
    (seg : Bytes) :
    ∀ (k fuel : Nat), sv.drop k = seg ++ tail → stop = k + seg.length →
      seg.length ≤ fuel →
      formSpanReads sv stop (fuel + 1) k = some (isWord seg)
        ∧ isFormSpan sv stop fuel k = isWord seg := by
  induction hlen : seg.length using Nat.strong_induction_on
    generalizing seg with
  | h n ih =>
    intro k fuel hat hstop hfuel
    match seg with
    | [] =>
        rw [List.length_nil] at hlen
        have hle : stop ≤ k := by omega
        cases fuel with
        | zero => exact ⟨if_pos hle, rfl⟩
        | succ fuel => exact ⟨if_pos hle, if_pos hle⟩
    | b :: rest =>
        rw [List.length_cons] at hlen
        have hk : k < stop := by omega
        obtain ⟨fuel, rfl⟩ : ∃ f, fuel = f + 1 := ⟨fuel - 1, by omega⟩
        have hdrop : ∀ j, sv.drop (k + j) = (b :: rest ++ tail).drop j := by
          intro j
          rw [← hat, List.drop_drop]
        -- A `%` takes three characters, any other one.
        by_cases hb : b = 37
        · subst hb
          by_cases hshort : rest.length ≤ 1
          · rw [isWord_cut hshort]
            exact span_short hk htail hat hshort
          · obtain ⟨high, low, rest, rfl⟩ :
                ∃ high low more, rest = high :: low :: more := by
              match rest with
              | [] => exact absurd (Nat.zero_le 1) hshort
              | [c] => exact absurd (Nat.le_refl 1) hshort
              | high :: low :: more => exact ⟨high, low, more, rfl⟩
            simp only [List.length_cons] at hlen
            obtain ⟨hreads, hspan⟩ := @span_triple sv (rest ++ tail) stop k
              (fuel + 1) fuel high low hk hat
            obtain ⟨ihreads, ihspan⟩ := ih rest.length (by omega) rest rfl
              (k + 3) fuel (hdrop 3) (by omega) (by omega)
            have hfuel' : formSpanReads sv stop (fuel + 1 + 1) k
                = if isXDigit high && isXDigit low then
                    some (isWord rest) else some false := by
              rw [hreads, ihreads]
            rw [hfuel', hspan, ihspan, isWord_triple]
            cases isXDigit high && isXDigit low
            · exact ⟨rfl, rfl⟩
            · exact ⟨rfl, rfl⟩
        · obtain ⟨hreads, hspan⟩ := @span_char sv (rest ++ tail) stop k
            (fuel + 1) fuel b hk hat hb
          obtain ⟨ihreads, ihspan⟩ := ih rest.length (by omega) rest rfl
            (k + 1) fuel (hdrop 1) (by omega) (by omega)
          rw [hreads, hspan, ihreads, ihspan, isWord_char hb]
          cases isFormChar b
          · exact ⟨rfl, rfl⟩
          · exact ⟨rfl, rfl⟩

end Span

-- =========================================================== forms and pairs

theorem not_mem_wordText {c : Byte} (hchar : isFormChar c = false)
    (hdigit : isXDigit c = false) (hne : c ≠ 37) (word : List Piece) :
    c ∉ wordText word := by
  intro hmem
  obtain ⟨p, -, hp⟩ := List.mem_flatMap.mp hmem
  cases p with
  | char b ok =>
      rw [List.mem_singleton.mp hp, ok] at hchar
      cases hchar
  | triple high low high_ok low_ok =>
      simp only [Piece.text, List.mem_cons, List.not_mem_nil, or_false] at hp
      rcases hp with rfl | rfl | rfl
      · exact hne rfl
      · exact absurd high_ok (by simp [hdigit])
      · exact absurd low_ok (by simp [hdigit])

theorem equals_not_mem (word : List Piece) : 61 ∉ wordText word :=
  not_mem_wordText rfl rfl (by decide) word

theorem amp_not_mem (word : List Piece) : 38 ∉ wordText word :=
  not_mem_wordText rfl rfl (by decide) word

/-- Two splits at the first of an element are the same. -/
theorem split_inj {c : Byte} {a a' b b' : Bytes} (ha : c ∉ a)
    (ha' : c ∉ a') (h : a ++ c :: b = a' ++ c :: b') : a = a' ∧ b = b' := by
  have hfind := find_field (p := []) b ha
  have hfind' := find_field (p := []) b' ha'
  have hlen : a.length = a'.length := by
    change find [c] (a ++ c :: b) = some a.length at hfind
    change find [c] (a' ++ c :: b') = some a'.length at hfind'
    rw [h] at hfind
    exact Option.some.inj (hfind.symm.trans hfind')
  obtain ⟨hfront, hback⟩ := List.append_inj h hlen
  exact ⟨hfront, List.tail_eq_of_cons_eq hback⟩

/-- A form is a pair, and behind a `&` nothing or a form again. -/
theorem isForm_cases {s : Bytes} :
    IsForm s ↔ ∃ p : FormPair, s = p.text
      ∨ ∃ rest, s = p.text ++ 38 :: rest ∧ (rest = [] ∨ IsForm rest) := by
  constructor
  · intro h
    obtain ⟨⟨pairs, trailing, hne⟩, rfl⟩ := h
    match pairs, trailing with
    | [], _ => exact absurd rfl hne
    | [p], false => exact ⟨p, Or.inl (List.append_nil _)⟩
    | [p], true => exact ⟨p, Or.inr ⟨[], rfl, Or.inl rfl⟩⟩
    | p :: q :: more, trailing =>
        refine ⟨p, Or.inr ⟨_, ?_, Or.inr ⟨⟨q :: more, trailing, by simp⟩,
          rfl⟩⟩⟩
        simp only [UrlForm.text, pairsText, List.append_assoc]
        rfl
  · intro h
    obtain ⟨p, rfl | ⟨rest, rfl, rfl | hrest⟩⟩ := h
    · exact ⟨⟨[p], false, by simp⟩, List.append_nil _⟩
    · exact ⟨⟨[p], true, by simp⟩, rfl⟩
    · obtain ⟨⟨pairs, trailing, hne⟩, rfl⟩ := hrest
      obtain ⟨q, more, rfl⟩ := List.exists_cons_of_ne_nil hne
      refine ⟨⟨p :: q :: more, trailing, by simp⟩, ?_⟩
      simp only [UrlForm.text, pairsText, List.append_assoc]
      rfl

/-- A pair, cut at its `=`. -/
theorem FormPair.text_eq (p : FormPair) :
    p.text = wordText p.key ++ 61 :: wordText p.value := by
  rw [FormPair.text, List.append_assoc]
  rfl

theorem amp_not_mem_pair (p : FormPair) : 38 ∉ p.text := by
  rw [p.text_eq, List.mem_append, List.mem_cons, not_or, not_or]
  exact ⟨amp_not_mem _, by decide, amp_not_mem _⟩

/-- A word that is not empty has a text. -/
theorem wordText_ne_nil {word : List Piece} (h : word ≠ []) :
    wordText word ≠ [] := by
  obtain ⟨p, rest, rfl⟩ := List.exists_cons_of_ne_nil h
  cases p with
  | char b ok => exact List.cons_ne_nil _ _
  | triple high low high_ok low_ok => exact List.cons_ne_nil _ _

/-- A text cut at its first `=` is a pair's if it is made of words. -/
theorem pair_of_words {key value : Bytes} (hne : key ≠ [])
    (hkey : isWord key = true) (hvalue : isWord value = true) :
    ∃ p : FormPair, p.text = key ++ 61 :: value := by
  obtain ⟨kw, rfl⟩ := (isWord_iff key).mp hkey
  obtain ⟨vw, rfl⟩ := (isWord_iff value).mp hvalue
  exact ⟨⟨kw, vw, fun h => hne (by rw [h]; rfl)⟩, FormPair.text_eq _⟩

section Split

variable {key value rest : Bytes}

/-- A text cut at its first `=`, without a `&` behind that. -/
theorem isForm_last (hkey : 61 ∉ key) (hvalue : 38 ∉ value) :
    IsForm (key ++ 61 :: value)
      ↔ key ≠ [] ∧ isWord key = true ∧ isWord value = true := by
  constructor
  · intro h
    obtain ⟨p, htext | ⟨more, htext, -⟩⟩ := isForm_cases.mp h
    · rw [p.text_eq] at htext
      obtain ⟨rfl, rfl⟩ := split_inj hkey (equals_not_mem _) htext
      exact ⟨wordText_ne_nil p.key_ok, (isWord_iff _).mpr ⟨_, rfl⟩,
        (isWord_iff _).mpr ⟨_, rfl⟩⟩
    · rw [p.text_eq, List.append_assoc, List.cons_append] at htext
      obtain ⟨rfl, rfl⟩ := split_inj hkey (equals_not_mem _) htext
      exact absurd (List.mem_append_right _ List.mem_cons_self) hvalue
  · intro h
    obtain ⟨p, hp⟩ := pair_of_words h.1 h.2.1 h.2.2
    exact isForm_cases.mpr ⟨p, Or.inl hp.symm⟩

/-- A text cut at its first `=` and the first `&` behind that. -/
theorem isForm_more (hkey : 61 ∉ key) (hvalue : 38 ∉ value) :
    IsForm (key ++ 61 :: (value ++ 38 :: rest))
      ↔ key ≠ [] ∧ isWord key = true ∧ isWord value = true
        ∧ (rest = [] ∨ IsForm rest) := by
  constructor
  · intro h
    obtain ⟨p, htext | ⟨more, htext, hmore⟩⟩ := isForm_cases.mp h
    · have hamp := amp_not_mem_pair p
      rw [← htext] at hamp
      exact absurd (List.mem_append_right _ (List.mem_cons_of_mem _
        (List.mem_append_right _ List.mem_cons_self))) hamp
    · rw [p.text_eq, List.append_assoc, List.cons_append] at htext
      obtain ⟨rfl, htail⟩ := split_inj hkey (equals_not_mem _) htext
      obtain ⟨rfl, rfl⟩ := split_inj hvalue (amp_not_mem _) htail
      exact ⟨wordText_ne_nil p.key_ok, (isWord_iff _).mpr ⟨_, rfl⟩,
        (isWord_iff _).mpr ⟨_, rfl⟩, hmore⟩
  · intro h
    obtain ⟨p, hp⟩ := pair_of_words h.1 h.2.1 h.2.2.1
    refine isForm_cases.mpr ⟨p, Or.inr ⟨rest, ?_, h.2.2.2⟩⟩
    rw [hp, List.append_assoc]
    rfl

end Split

/-- A text without `=` is no form. -/
theorem not_isForm_of_no_equals {s : Bytes} (h : 61 ∉ s) : ¬ IsForm s := by
  intro hform
  obtain ⟨p, rfl | ⟨rest, rfl, -⟩⟩ := isForm_cases.mp hform
  · rw [p.text_eq] at h
    exact h (List.mem_append_right _ List.mem_cons_self)
  · rw [p.text_eq] at h
    exact h (List.mem_append_left _
      (List.mem_append_right _ List.mem_cons_self))

-- ============================================================ the outer while

section Loop

variable {sv key value more : Bytes} {i fuel fuel' : Nat}

/-- A key in front of its `=`, and whether it may be one. -/
def isKey (key : Bytes) : Bool := !key.isEmpty && isWord key

/-- A separator in front is no hex digit. -/
theorem not_digit_head {c : Byte} {l : Bytes} (hc : isXDigit c = false) :
    ∀ b ∈ (c :: l).head?, isXDigit b = false := by
  intro b hb
  cases hb
  exact hc

/-- What the turn of a pair starts with: the `=`, and the check of the
key. -/
theorem loop_key {after : Bytes} (hat : sv.drop i = key ++ 61 :: after)
    (hkey : 61 ∉ key) :
    ¬ sv.length ≤ i
      ∧ findFrom (bytes "=") sv i = some (i + key.length)
      ∧ sv.drop (i + key.length + 1) = after
      ∧ formSpanReads sv (i + key.length) (sv.length + 1) i
          = some (isWord key)
      ∧ isFormSpan sv (i + key.length) sv.length i = isWord key := by
  have hlen := congrArg List.length hat
  rw [List.length_drop, List.length_append, List.length_cons] at hlen
  have hfrom : findFrom (bytes "=") sv i = some (i + key.length) := by
    have hfield : find (bytes "=") (key ++ 61 :: after)
        = some key.length := find_field after hkey
    rw [findFrom, hat, hfield]
    rfl
  have hafter : sv.drop (i + key.length + 1) = after := by
    rw [Nat.add_assoc, ← List.drop_drop, hat, ← List.drop_drop,
      List.drop_left]
    rfl
  obtain ⟨hreads, hspan⟩ := @isFormSpan_word sv (61 :: after) _
    (not_digit_head rfl) key i sv.length hat rfl (by omega)
  exact ⟨by omega, hfrom, hafter, hreads, hspan⟩

/-- The turn of the last pair. -/
theorem loop_last (hat : sv.drop i = key ++ 61 :: value)
    (hkey : 61 ∉ key) (hvalue : 38 ∉ value) :
    urlFormReads sv (fuel + 1) i = some (isKey key && isWord value)
      ∧ isValidUrlFormLoop sv (fuel' + 1) i
        = (isKey key && isWord value) := by
  obtain ⟨hle, hfrom, hafter, hkreads, hkspan⟩ := loop_key hat hkey
  have hlen := congrArg List.length hafter
  rw [List.length_drop] at hlen
  have hnone : findFrom (bytes "&") sv (i + key.length + 1) = none := by
    have hfield : find (bytes "&") value = none := find_none_of_head hvalue
    rw [findFrom, hafter, hfield]
    rfl
  have hpos := congrArg List.length hat
  rw [List.length_drop, List.length_append, List.length_cons] at hpos
  obtain ⟨hvreads, hvspan⟩ := @isFormSpan_word sv [] sv.length
    (by simp) value (i + key.length + 1) sv.length
    (by rw [hafter, List.append_nil]) (by omega) (by omega)
  rw [urlFormReads, isValidUrlFormLoop, if_neg hle, if_neg hle]
  simp only [hfrom, hkreads, hkspan, hnone, hvreads, hvspan, bind,
    Option.bind, isKey]
  cases key with
  | nil => simp
  | cons b rest =>
      cases isWord (b :: rest)
      · simp
      · simp

/-- The turn of a pair with a `&` behind it. -/
theorem loop_more (hat : sv.drop i = key ++ 61 :: (value ++ 38 :: more))
    (hkey : 61 ∉ key) (hvalue : 38 ∉ value) :
    ∃ next, sv.drop next = more
      ∧ urlFormReads sv (fuel + 1) i
        = (if isKey key && isWord value then urlFormReads sv fuel next
          else some false)
      ∧ isValidUrlFormLoop sv (fuel' + 1) i
        = (if isKey key && isWord value then
            isValidUrlFormLoop sv fuel' next else false) := by
  obtain ⟨hle, hfrom, hafter, hkreads, hkspan⟩ := loop_key hat hkey
  -- The value ends at the next ampersand, and reading it stays in front of
  -- that.
  have hamp : findFrom (bytes "&") sv (i + key.length + 1)
      = some (i + key.length + 1 + value.length) := by
    have hfield : find (bytes "&") (value ++ 38 :: more)
        = some value.length := find_field more hvalue
    rw [findFrom, hafter, hfield]
    rfl
  have hnext : sv.drop (i + key.length + 1 + value.length + 1) = more := by
    rw [Nat.add_assoc _ value.length, ← List.drop_drop, hafter,
      ← List.drop_drop, List.drop_left]
    rfl
  have hlen := congrArg List.length hafter
  rw [List.length_drop, List.length_append, List.length_cons] at hlen
  obtain ⟨hvreads, hvspan⟩ := @isFormSpan_word sv (38 :: more) _
    (not_digit_head rfl) value (i + key.length + 1) sv.length hafter rfl
    (by omega)
  refine ⟨_, hnext, ?_⟩
  rw [urlFormReads, isValidUrlFormLoop, if_neg hle, if_neg hle]
  simp only [hfrom, hkreads, hkspan, hamp, hvreads, hvspan, bind,
    Option.bind, isKey]
  cases key with
  | nil => simp
  | cons b rest =>
      by_cases hword : isWord (b :: rest) = true
      · by_cases hval : isWord value = true
        · simp [hword, hval]
        · simp [hword, hval]
      · simp [hword]

theorem isKey_iff : isKey key = true ↔ key ≠ [] ∧ isWord key = true := by
  rw [isKey, Bool.and_eq_true, Bool.not_eq_true', List.isEmpty_eq_false_iff]

/-- From any place on, the loop accepts nothing more or a form, and reads
nothing past the end. -/
theorem isValidUrlFormLoop_form (rest : Bytes) :
    ∀ (i fuel : Nat), sv.drop i = rest → rest.length ≤ fuel →
      urlFormReads sv (fuel + 1) i = some (isValidUrlFormLoop sv fuel i)
        ∧ (isValidUrlFormLoop sv fuel i = true
          ↔ rest = [] ∨ IsForm rest) := by
  induction hlen : rest.length using Nat.strong_induction_on
    generalizing rest with
  | h n ih =>
    intro i fuel hat hfuel
    have hsv := congrArg List.length hat
    rw [List.length_drop] at hsv
    by_cases hnil : rest = []
    · subst hnil
      have hle : sv.length ≤ i := by
        rw [List.length_nil] at hsv
        omega
      have htrue : isValidUrlFormLoop sv fuel i = true := by
        cases fuel with
        | zero => rfl
        | succ fuel => exact if_pos hle
      rw [htrue]
      exact ⟨if_pos hle, iff_of_true rfl (Or.inl rfl)⟩
    · have hpos := List.length_pos_iff.mpr hnil
      obtain ⟨fuel, rfl⟩ : ∃ f, fuel = f + 1 := ⟨fuel - 1, by omega⟩
      rw [or_iff_right hnil]
      -- A pair is a key up to `=` and a value up to `&` or the end.
      rcases find_singleton_cases 61 rest with
        ⟨hno, hfind⟩ | ⟨key, after, rfl, hkey, -⟩
      · -- No `=` is left.
        have hle : ¬ sv.length ≤ i := by omega
        have hfrom : findFrom (bytes "=") sv i = none := by
          rw [findFrom, hat, show bytes "=" = [61] from rfl, hfind]
          rfl
        rw [urlFormReads, isValidUrlFormLoop, if_neg hle, if_neg hle]
        simp only [hfrom]
        exact ⟨trivial, iff_of_false (by simp) (not_isForm_of_no_equals hno)⟩
      · rcases find_singleton_cases 38 after with
          ⟨hno, -⟩ | ⟨value, more, rfl, hvalue, -⟩
        · obtain ⟨hreads, hloop⟩ :=
            @loop_last sv key after i (fuel + 1) fuel hat hkey hno
          rw [hreads, hloop, isForm_last hkey hno, Bool.and_eq_true,
            isKey_iff, and_assoc]
          exact ⟨rfl, Iff.rfl⟩
        · obtain ⟨next, hnext, hreads, hloop⟩ :=
            @loop_more sv key value more i (fuel + 1) fuel hat hkey hvalue
          have hshort : more.length < n := by
            simp only [List.length_append, List.length_cons] at hlen
            omega
          obtain ⟨ihreads, ihloop⟩ :=
            ih more.length hshort more rfl next fuel hnext (by omega)
          rw [hreads, hloop, ihreads, isForm_more hkey hvalue, ← ihloop,
            ← and_assoc, ← and_assoc, ← isKey_iff, and_assoc,
            ← and_assoc, ← Bool.and_eq_true]
          cases isKey key && isWord value
          · simp
          · simp

end Loop

-- ============================================================ the validator

/-- Both variants of the validator, from the start of a text. -/
theorem isValidUrlForm_isForm (s : Bytes) :
    isValidUrlFormReads s = some (isValidUrlForm s)
      ∧ (isValidUrlForm s = true ↔ IsForm s) := by
  unfold isValidUrlForm isValidUrlFormReads
  by_cases hnil : s = []
  · subst hnil
    exact ⟨rfl, iff_of_false (by simp) (not_isForm_of_no_equals (by simp))⟩
  · obtain ⟨hreads, hloop⟩ :=
      @isValidUrlFormLoop_form s s 0 s.length rfl (Nat.le_refl _)
    have hempty : s.isEmpty = false := List.isEmpty_eq_false_iff.mpr hnil
    rw [hempty, if_neg Bool.false_ne_true, if_neg Bool.false_ne_true,
      hloop, or_iff_right hnil]
    exact ⟨hreads, Iff.rfl⟩

/-- The validator accepts exactly the texts of the grammar. It reads no
index past the end and its loops end: read by read it has its answer. -/
theorem isValidUrlForm_iff (s : Bytes) :
    (isValidUrlForm s = true ↔ IsForm s)
      ∧ isValidUrlFormReads s = some (isValidUrlForm s) :=
  ⟨(isValidUrlForm_isForm s).2, (isValidUrlForm_isForm s).1⟩

example : isValidUrlForm (bytes "a%3Db=1&c=&") = true := by decide

example : isValidUrlForm (bytes "a=1&&b=2") = false := by decide

end CgiWebServer
