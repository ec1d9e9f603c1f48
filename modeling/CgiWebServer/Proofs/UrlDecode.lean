/-
What validated form data decodes to.

The decoder is lenient and reads a text byte by byte; on the text of a
word it decodes piece by piece (`urlDecode_wordText`), since a `%` of a
word has its digits. `parse_url_form` cuts with `getline` and at the
first `=`, and finds the pairs the validator has found
(`getlines_pairsText`). The decoder also undoes every encoding of a text,
whichever bytes it leaves as they are.
-/
import CgiWebServer.Http.Form
import CgiWebServer.Proofs.Request
import CgiWebServer.Proofs.UrlForm

namespace CgiWebServer

open Scan

-- ================================================================== decoding

/-- What a piece stands for: a triple for its byte, a `+` for a space,
any other character for itself. -/
def Piece.decoded : Piece → Byte
  | .char b _ => if b = 43 then 32 else b
  | .triple high low _ _ => hexByte high low

/-- The reference decoding of a word. -/
def decodeWord (word : List Piece) : Bytes := word.map Piece.decoded

theorem urlDecode_cons {b : Byte} (hb : b ≠ 37) (rest : Bytes) :
    urlDecode (b :: rest) = decodeByte b :: urlDecode rest := by
  match rest with
  | [] => rw [urlDecode, urlDecode]
  | [c] => rw [urlDecode, urlDecode]
  | high :: low :: rest => rw [urlDecode, if_neg fun h => hb h.1]

theorem urlDecode_triple {high low : Byte} (hhigh : isXDigit high = true)
    (hlow : isXDigit low = true) (rest : Bytes) :
    urlDecode (37 :: high :: low :: rest)
      = hexByte high low :: urlDecode rest := by
  rw [urlDecode, if_pos ⟨rfl, hhigh, hlow⟩]

theorem urlDecode_piece (p : Piece) (rest : Bytes) :
    urlDecode (p.text ++ rest) = p.decoded :: urlDecode rest := by
  cases p with
  | char b ok =>
      have hb : b ≠ 37 := by
        intro h
        rw [h, isFormChar_percent] at ok
        cases ok
      exact urlDecode_cons hb rest
  | triple high low high_ok low_ok =>
      exact urlDecode_triple high_ok low_ok rest

/-- A word is decoded piece by piece. -/
theorem urlDecode_wordText (word : List Piece) :
    urlDecode (wordText word) = decodeWord word := by
  induction word with
  | nil => rfl
  | cons p word ih =>
      rw [wordText, List.flatMap_cons, urlDecode_piece]
      exact congrArg (p.decoded :: ·) ih

-- =================================================================== parsing

/-- The decoded pairs of a form, in order. -/
def UrlForm.decoded (f : UrlForm) : List (Bytes × Bytes) :=
  f.pairs.map fun p => (decodeWord p.key, decodeWord p.value)

/-- A line up to its delimiter. -/
theorem getlines_line {delim : Byte} {text : Bytes} (rest : Bytes)
    (h : delim ∉ text) :
    ∀ line, getlines delim line (text ++ delim :: rest)
      = (line ++ text) :: getlines delim [] rest := by
  induction text with
  | nil =>
      intro line
      rw [List.nil_append, getlines, if_pos rfl, List.append_nil]
  | cons b text ih =>
      intro line
      rw [List.mem_cons, not_or] at h
      rw [List.cons_append, getlines, if_neg (Ne.symm h.1), ih h.2,
        List.append_assoc]
      rfl

/-- The last line, if there is anything on it. -/
theorem getlines_last {delim : Byte} {text : Bytes} (h : delim ∉ text) :
    ∀ line, line ++ text ≠ [] →
      getlines delim line text = [line ++ text] := by
  induction text with
  | nil =>
      intro line hne
      rw [List.append_nil] at hne
      rw [getlines, List.append_nil, List.isEmpty_eq_false_iff.mpr hne]
      rfl
  | cons b text ih =>
      intro line hne
      rw [List.mem_cons, not_or] at h
      rw [getlines, if_neg (Ne.symm h.1), ih h.2 (line ++ [b]) (by simp),
        List.append_assoc]
      rfl

theorem FormPair.text_ne_nil (p : FormPair) : p.text ≠ [] := by
  rw [p.text_eq]
  exact List.append_ne_nil_of_right_ne_nil _ (List.cons_ne_nil _ _)

/-- `getline` finds the pairs: a `&` at the end adds none. -/
theorem getlines_pairsText (pairs : List FormPair) (trailing : Bool) :
    pairs ≠ [] →
    getlines 38 [] (pairsText pairs ++ if trailing then bytes "&" else [])
      = pairs.map FormPair.text := by
  induction pairs with
  | nil => exact fun h => absurd rfl h
  | cons p rest ih =>
      intro _
      cases rest with
      | nil =>
          cases trailing with
          | false =>
              have hlast := getlines_last (amp_not_mem_pair p) []
                p.text_ne_nil
              rw [if_neg Bool.false_ne_true, List.append_nil]
              exact hlast
          | true => exact getlines_line [] (amp_not_mem_pair p) []
      | cons q rest =>
          have hline := getlines_line
            (pairsText (q :: rest) ++ if trailing then bytes "&" else [])
            (amp_not_mem_pair p) []
          rw [ih (List.cons_ne_nil _ _)] at hline
          rw [pairsText, List.append_assoc, List.append_assoc]
          exact hline

/-- A pair adds its decoded key with its decoded value. -/
theorem addPair_pair (result : Headers) (p : FormPair) :
    addPair result p.text
      = result.insert (decodeWord p.key) (decodeWord p.value) := by
  have hfind : find (bytes "=") p.text
      = some (wordText p.key).length := by
    rw [p.text_eq]
    exact find_field _ (equals_not_mem _)
  have hvalue : p.text.drop ((wordText p.key).length + 1)
      = wordText p.value := by
    rw [p.text_eq, ← List.drop_drop, List.drop_left]
    rfl
  have hkey : p.text.take (wordText p.key).length = wordText p.key := by
    rw [p.text_eq, List.take_left]
  rw [addPair, hfind]
  dsimp only
  rw [hkey, hvalue, urlDecode_wordText, urlDecode_wordText]

/-- A form parses to the map of its decoded pairs. -/
theorem parseUrlForm_text (f : UrlForm) :
    parseUrlForm f.text = headerMap f.decoded ∅ := by
  have hfold : ∀ (pairs : List FormPair) (m : Headers),
      (pairs.map FormPair.text).foldl addPair m
        = headerMap (pairs.map fun p =>
            (decodeWord p.key, decodeWord p.value)) m := by
    intro pairs
    induction pairs with
    | nil => exact fun m => rfl
    | cons p rest ih =>
        intro m
        rw [List.map_cons, List.foldl_cons, addPair_pair, ih]
        rfl
  rw [parseUrlForm, UrlForm.text, getlines_pairsText _ _ f.pairs_ok, hfold]
  rfl

-- ================================================================== encoding

/-- `s` encodes `w`: every byte of `w` stands as itself, unless it is a
`%` or a `+`, or as a triple of either case, or is a space and stands as
a `+`. -/
inductive Encodes : Bytes → Bytes → Prop
  | nil : Encodes [] []
  | plain {b : Byte} {w s : Bytes} : b ≠ 37 → b ≠ 43 → Encodes w s →
      Encodes (b :: w) (b :: s)
  | space {w s : Bytes} : Encodes w s → Encodes (32 :: w) (43 :: s)
  | triple {b high low : Byte} {w s : Bytes} : isXDigit high = true →
      isXDigit low = true → hexByte high low = b → Encodes w s →
      Encodes (b :: w) (37 :: high :: low :: s)

/-- The decoder undoes every encoding. -/
theorem urlDecode_of_encodes {w s : Bytes} (h : Encodes w s) :
    urlDecode s = w := by
  induction h with
  | nil => rfl
  | plain hpercent hplus _ ih =>
      rw [urlDecode_cons hpercent, ih, decodeByte, if_neg hplus]
  | space _ ih =>
      rw [urlDecode_cons (by decide), ih]
      rfl
  | triple hhigh hlow hbyte _ ih =>
      rw [urlDecode_triple hhigh hlow, ih, hbyte]

/-- A hex digit. -/
def upperHex (n : Nat) : Byte :=
  UInt8.ofNat (if n < 10 then 48 + n else 55 + n)

theorem upperHex_spec : ∀ n < 16,
    isXDigit (upperHex n) = true ∧ hexValue (upperHex n) = n := by decide

/-- The triple of a byte spells it. -/
theorem hexByte_upperHex (b : Byte) :
    hexByte (upperHex (b.toNat / 16)) (upperHex (b.toNat % 16)) = b := by
  have hlt : b.toNat < 256 := b.toNat_lt
  rw [hexByte, (upperHex_spec _ (by omega)).2,
    (upperHex_spec _ (by omega)).2, Nat.div_add_mod', UInt8.ofNat_toNat]

/-- The encoding that leaves the places of `plain` as they are, as far as
it may. -/
def percentEncode (plain : Nat → Bool) : (place : Nat) → Bytes → Bytes
  | _, [] => []
  | place, b :: rest =>
      (if plain place ∧ b ≠ 37 ∧ b ≠ 43 then [b]
        else [37, upperHex (b.toNat / 16), upperHex (b.toNat % 16)])
        ++ percentEncode plain (place + 1) rest

/-- Whichever bytes are to be encoded, it is an encoding. -/
theorem encodes_percentEncode (plain : Nat → Bool) (w : Bytes) :
    ∀ place, Encodes w (percentEncode plain place w) := by
  induction w with
  | nil => exact fun place => .nil
  | cons b rest ih =>
      intro place
      have hlt : b.toNat < 256 := b.toNat_lt
      rw [percentEncode]
      split
      next hplain => exact .plain hplain.2.1 hplain.2.2 (ih (place + 1))
      next =>
        exact .triple (upperHex_spec _ (by omega)).1
          (upperHex_spec _ (by omega)).1 (hexByte_upperHex b)
          (ih (place + 1))

-- ============================================================ forms decoded

/-- Validated forms decode without loss: an accepted text is a form's,
and its map has exactly the decoded keys, each with the decoded value of
the last pair of that key. And the decoder undoes every encoding. -/
theorem forms_decode :
    (∀ s, isValidUrlForm s = true →
      (∃ f : UrlForm, f.text = s)
        ∧ ∀ f : UrlForm, f.text = s → ∀ key,
          (parseUrlForm s).lookup key = f.decoded.reverse.lookup key)
      ∧ (∀ w s, Encodes w s → urlDecode s = w)
      ∧ ∀ plain w, urlDecode (percentEncode plain 0 w) = w := by
  refine ⟨fun s hs => ⟨(isValidUrlForm_isForm s).2.mp hs, fun f hf key => ?_⟩,
    fun w s h => urlDecode_of_encodes h,
    fun plain w => urlDecode_of_encodes (encodes_percentEncode plain w 0)⟩
  rw [← hf, parseUrlForm_text, lookup_headerMap]
  cases f.decoded.reverse.lookup key with
  | none => rfl
  | some value => rfl

/-- A form with a key twice, once with a `+` and once with a triple. -/
theorem forms_decode_twice :
    (∃ f : UrlForm, f.text = bytes "a=1+2&a=%41%3d")
      ∧ urlDecode (bytes "%41%3d") = bytes "A=" :=
  ⟨(forms_decode.1 _ (by decide)).1,
    forms_decode.2.1 _ _ (.triple rfl rfl rfl (.triple rfl rfl rfl .nil))⟩

example : (parseUrlForm (bytes "a=1+2&a=%41%3d")).lookup (bytes "a")
    = some (bytes "A=") := by decide

end CgiWebServer
