/-
Which cookie the token is taken from.

The search is for `jwt=` anywhere in the `Cookie` header. It stops at the
first pair that holds these four bytes: at the end of a longer name, in
front of a value, or inside a value. What stands behind them, up to the
pair's end, is the token (`extractJwtFromCookie_header`). So the lookup
is one by name exactly where that first pair is the named one, or hands
out what the named one would have.
-/
import CgiWebServer.Http.Extract

namespace CgiWebServer

open Scan

-- ============================================================== the header

/-- A cookie pair: a name without `=`, `;` or white space, and a value
without `;`. -/
structure CookiePair where
  name : Bytes
  value : Bytes
  name_ok : ∀ b ∈ name, b ≠ 61 ∧ b ≠ 59 ∧ isSpace b = false
  value_ok : 59 ∉ value

def jwtName : Bytes := bytes "jwt"

/-- What `extract_jwt_from_cookie` searches for. -/
def jwtKey : Bytes := bytes "jwt="

namespace CookiePair

/-- `name=value`. -/
def text (p : CookiePair) : Bytes := p.name ++ bytes "=" ++ p.value

/-- What stands behind the first `jwt=` of a pair, if it holds one. -/
def behindKey (p : CookiePair) : Option Bytes :=
  (find jwtKey p.text).map fun i => p.text.drop (i + jwtKey.length)

theorem text_no_semicolon (p : CookiePair) : 59 ∉ p.text := by
  have hname : (59 : Byte) ∉ p.name := fun h => (p.name_ok _ h).2.1 rfl
  have hsplit : (59 : Byte) ∉ bytes "=" := by decide
  simp only [text, List.mem_append, not_or]
  exact ⟨⟨hname, hsplit⟩, p.value_ok⟩

/-- The pair of the name holds the key, in front of its value. -/
theorem behindKey_of_jwt {p : CookiePair} (h : p.name = jwtName) :
    p.behindKey = some p.value := by
  have htext : p.text = jwtKey ++ p.value := by
    rw [text, h]
    rfl
  rw [behindKey, htext, find_self_append, Option.map_some, Nat.zero_add,
    List.drop_left]

theorem behindKey_eq_none_iff {p : CookiePair} :
    p.behindKey = none ↔ ¬ jwtKey <:+: p.text := by
  rw [behindKey, Option.map_eq_none_iff, find_eq_none_iff]

end CookiePair

/-- The pairs with `; ` between them. -/
def cookieHeader : List CookiePair → Bytes
  | [] => []
  | [p] => p.text
  | p :: q :: rest => p.text ++ (bytes "; " ++ cookieHeader (q :: rest))

-- ============================================================== the search

section Search

variable {text tail l : Bytes} {i : Nat}

/-- The key is found in a text without `;`: the token is the rest of it,
whatever comes behind the `;`. -/
theorem extractJwt_found (hfind : find jwtKey text = some i)
    (hsemi : 59 ∉ text) (htail : tail = [] ∨ ∃ rest, tail = 59 :: rest) :
    extractJwtFromCookie (text ++ tail)
      = text.drop (i + jwtKey.length) := by
  have hlen := length_of_find hfind
  have hwhole : find (bytes "jwt=") (text ++ tail) = some i :=
    find_append_of_some tail hfind
  have hdrop : (text ++ tail).drop (i + jwtKey.length)
      = text.drop (i + jwtKey.length) ++ tail :=
    List.drop_append_of_le_length hlen
  have hrest : 59 ∉ text.drop (i + jwtKey.length) := fun h =>
    hsemi (List.mem_of_mem_drop h)
  have hkey : (bytes "jwt=").length = jwtKey.length := rfl
  unfold extractJwtFromCookie
  simp only [hwhole, hkey, findFrom, hdrop]
  rcases htail with rfl | ⟨rest, rfl⟩
  · rw [List.append_nil,
      show find (bytes ";") (text.drop (i + jwtKey.length)) = none from
        find_none_of_head hrest]
    rfl
  · rw [show find (bytes ";")
        (text.drop (i + jwtKey.length) ++ 59 :: rest)
        = some (text.drop (i + jwtKey.length)).length from
          find_field rest hrest]
    simp only [Option.map_some, Nat.add_sub_cancel_left]
    rw [substr, hdrop, List.take_left]

/-- Nothing is found. -/
theorem extractJwt_none (hfree : ¬ jwtKey <:+: text) :
    extractJwtFromCookie text = [] := by
  have hnone : find (bytes "jwt=") text = none :=
    find_eq_none_iff.mpr hfree
  rw [extractJwtFromCookie, hnone]

/-- What the search skips does not matter. -/
theorem extractJwt_skip {a : Bytes}
    (h : find jwtKey (a ++ l) = (find jwtKey l).map (a.length + ·)) :
    extractJwtFromCookie (a ++ l) = extractJwtFromCookie l := by
  have hfind : find (bytes "jwt=") (a ++ l)
      = (find (bytes "jwt=") l).map (a.length + ·) := h
  unfold extractJwtFromCookie
  rw [hfind]
  cases find (bytes "jwt=") l with
  | none => rfl
  | some i =>
      have hdrop : ∀ n, (a ++ l).drop (a.length + n) = l.drop n := fun n => by
        rw [← List.drop_drop, List.drop_left]
      simp only [Option.map_some, findFrom, substr, Nat.add_assoc, hdrop]
      cases find (bytes ";") (l.drop (i + (bytes "jwt=").length)) with
      | none => rfl
      | some e =>
          simp only [Option.map_some, Nat.add_sub_cancel_left,
            ← Nat.add_assoc]

/-- A pair that does not hold the key is skipped with what is behind
it. -/
theorem extractJwt_next (hfree : ¬ jwtKey <:+: text) :
    extractJwtFromCookie (text ++ (bytes "; " ++ l))
      = extractJwtFromCookie l := by
  have hpair : find jwtKey (text ++ 59 :: 32 :: l)
      = (find jwtKey (32 :: l)).map (text.length + 1 + ·) :=
    find_over_separator (32 :: l) (by decide) hfree
  have hblank : find jwtKey ([] ++ 32 :: l)
      = (find jwtKey l).map (1 + ·) :=
    find_over_separator l (by decide) (by decide)
  have hsplit : text ++ (bytes "; " ++ l) = (text ++ bytes "; ") ++ l :=
    (List.append_assoc ..).symm
  rw [hsplit]
  apply extractJwt_skip
  rw [← hsplit, List.length_append]
  apply hpair.trans
  rw [show (32 :: l) = [] ++ 32 :: l from rfl, hblank, Option.map_map]
  congr 1
  funext n
  have htwo : (bytes "; ").length = 2 := rfl
  rw [htwo]
  simp only [Function.comp_apply]
  omega

end Search

/-- The token is what stands behind the key in the first pair that holds
it. -/
theorem extractJwtFromCookie_header (pairs : List CookiePair) :
    extractJwtFromCookie (cookieHeader pairs)
      = (pairs.findSome? CookiePair.behindKey).getD [] := by
  induction pairs with
  | nil => rfl
  | cons p rest ih =>
      cases hkey : find jwtKey p.text with
      | some i =>
          have hbehind : p.behindKey
              = some (p.text.drop (i + jwtKey.length)) := by
            rw [CookiePair.behindKey, hkey, Option.map_some]
          rw [List.findSome?_cons_of_isSome (by rw [hbehind]; rfl), hbehind]
          cases rest with
          | nil =>
              have hfound := extractJwt_found hkey p.text_no_semicolon
                (Or.inl rfl)
              rw [List.append_nil] at hfound
              exact hfound
          | cons q rest =>
              exact extractJwt_found hkey p.text_no_semicolon
                (Or.inr ⟨_, rfl⟩)
      | none =>
          have hfree := find_eq_none_iff.mp hkey
          have hbehind : p.behindKey = none :=
            CookiePair.behindKey_eq_none_iff.mpr hfree
          rw [List.findSome?_cons_of_isNone (by rw [hbehind]; rfl)]
          cases rest with
          | nil => exact extractJwt_none hfree
          | cons q rest => exact (extractJwt_next hfree).trans ih

-- =========================================================== lookup by name

/-- The first pair whose name is exactly `jwt`. -/
def namedJwt (pairs : List CookiePair) : Option CookiePair :=
  pairs.find? (·.name = jwtName)

/-- The lookup is one by name. -/
structure FoundByName (pairs : List CookiePair) : Prop where
  value : ∀ p, namedJwt pairs = some p →
    extractJwtFromCookie (cookieHeader pairs) = p.value
  empty : extractJwtFromCookie (cookieHeader pairs) = []
    ↔ namedJwt pairs = none

/-- `p` is the first pair that holds `jwt=` anywhere. -/
def FirstHolder (pairs : List CookiePair) (p : CookiePair) : Prop :=
  ∃ before after, pairs = before ++ p :: after
    ∧ jwtKey <:+: p.text ∧ ∀ q ∈ before, ¬ jwtKey <:+: q.text

/-- No pair holds `jwt=`, or the first one that does is the named one
with a value, or stands in for it: what follows `jwt=` in it is the named
one's value, or nothing where no pair is named so. -/
inductive HolderIsNamed (pairs : List CookiePair) : Prop
  | noHolder : (∀ p ∈ pairs, ¬ jwtKey <:+: p.text) → HolderIsNamed pairs
  | named {p : CookiePair} : FirstHolder pairs p → p.name = jwtName →
      p.value ≠ [] → HolderIsNamed pairs
  | sameValue {p q : CookiePair} : FirstHolder pairs p →
      p.name ≠ jwtName → namedJwt pairs = some q →
      p.behindKey = some q.value → q.value ≠ [] → HolderIsNamed pairs
  | noValue {p : CookiePair} : FirstHolder pairs p → p.name ≠ jwtName →
      namedJwt pairs = none → p.behindKey = some [] → HolderIsNamed pairs

section Holder

variable {pairs : List CookiePair} {p : CookiePair}

/-- The first holder decides. -/
theorem findSome?_of_firstHolder (h : FirstHolder pairs p) :
    pairs.findSome? CookiePair.behindKey = p.behindKey := by
  obtain ⟨before, after, rfl, hholds, hbefore⟩ := h
  cases hbehind : p.behindKey with
  | none => exact absurd hholds (CookiePair.behindKey_eq_none_iff.mp hbehind)
  | some t =>
      exact List.findSome?_eq_some_iff.mpr ⟨before, p, after, rfl, hbehind,
        fun q hq => CookiePair.behindKey_eq_none_iff.mpr (hbefore q hq)⟩

/-- The named pair, where it is the first holder. -/
theorem namedJwt_of_firstHolder (h : FirstHolder pairs p)
    (hname : p.name = jwtName) : namedJwt pairs = some p := by
  obtain ⟨before, after, rfl, -, hbefore⟩ := h
  refine List.find?_eq_some_iff_append.mpr
    ⟨decide_eq_true hname, before, after, rfl, fun q hq => ?_⟩
  have hfree := CookiePair.behindKey_eq_none_iff.mpr (hbefore q hq)
  have hne : q.name ≠ jwtName := fun hq' => by
    rw [CookiePair.behindKey_of_jwt hq'] at hfree
    cases hfree
  simpa using hne

/-- Without a holder there is no named pair. -/
theorem namedJwt_of_no_holder (h : ∀ p ∈ pairs, ¬ jwtKey <:+: p.text) :
    namedJwt pairs = none := by
  refine List.find?_eq_none.mpr fun p hp => ?_
  have hfree := CookiePair.behindKey_eq_none_iff.mpr (h p hp)
  have hne : p.name ≠ jwtName := fun hname => by
    rw [CookiePair.behindKey_of_jwt hname] at hfree
    cases hfree
  simpa using hne

/-- No pair holds the key, or there is a first one. -/
theorem firstHolder_cases (pairs : List CookiePair) :
    (∀ p ∈ pairs, ¬ jwtKey <:+: p.text)
      ∨ ∃ p t, FirstHolder pairs p ∧ p.behindKey = some t := by
  cases hfound : pairs.findSome? CookiePair.behindKey with
  | none =>
      exact Or.inl fun p hp => CookiePair.behindKey_eq_none_iff.mp
        (List.findSome?_eq_none_iff.mp hfound p hp)
  | some t =>
      obtain ⟨before, p, after, rfl, hbehind, hbefore⟩ :=
        List.findSome?_eq_some_iff.mp hfound
      refine Or.inr ⟨p, t, ⟨before, after, rfl, ?_, fun q hq =>
        CookiePair.behindKey_eq_none_iff.mp (hbefore q hq)⟩, hbehind⟩
      by_contra hfree
      cases (CookiePair.behindKey_eq_none_iff.mpr hfree).symm.trans hbehind

/-- The token found is what the first holder has behind the key. -/
theorem extractJwt_of_firstHolder {t : Bytes} (h : FirstHolder pairs p)
    (hbehind : p.behindKey = some t) :
    extractJwtFromCookie (cookieHeader pairs) = t := by
  rw [extractJwtFromCookie_header, findSome?_of_firstHolder h, hbehind]
  rfl

/-- Without a holder no token is found. -/
theorem extractJwt_of_no_holder (h : ∀ p ∈ pairs, ¬ jwtKey <:+: p.text) :
    extractJwtFromCookie (cookieHeader pairs) = [] := by
  have hall : pairs.findSome? CookiePair.behindKey = none :=
    List.findSome?_eq_none_iff.mpr fun p hp =>
      CookiePair.behindKey_eq_none_iff.mpr (h p hp)
  rw [extractJwtFromCookie_header, hall]
  rfl

/-- The named pair's value, where that is not empty, is the right answer. -/
theorem foundByName_of_some (hnamed : namedJwt pairs = some p)
    (htoken : extractJwtFromCookie (cookieHeader pairs) = p.value)
    (hvalue : p.value ≠ []) : FoundByName pairs := by
  constructor
  · intro q hq
    cases hnamed.symm.trans hq
    exact htoken
  · apply iff_of_false
    · exact htoken ▸ hvalue
    · rw [hnamed]
      exact Option.some_ne_none _

/-- Nothing is the right answer where no pair is named so. -/
theorem foundByName_of_none (hnamed : namedJwt pairs = none)
    (htoken : extractJwtFromCookie (cookieHeader pairs) = []) :
    FoundByName pairs := by
  constructor
  · intro q hq
    cases hnamed.symm.trans hq
  · exact iff_of_true htoken hnamed

/-- A value found by name is not empty: the empty token says that there is
no such pair. -/
theorem value_ne_nil_of_found (h : FoundByName pairs)
    (hnamed : namedJwt pairs = some p) : p.value ≠ [] := by
  intro hnil
  have hnone : namedJwt pairs = none :=
    h.empty.mp ((h.value p hnamed).trans hnil)
  cases hnamed.symm.trans hnone

/-- A lookup that is one by name has such a first holder. -/
theorem holderIsNamed_of_found (h : FoundByName pairs) :
    HolderIsNamed pairs := by
  rcases firstHolder_cases pairs with hnone | ⟨p, t, hfirst, hbehind⟩
  · exact .noHolder hnone
  · have htoken := extractJwt_of_firstHolder hfirst hbehind
    by_cases hname : p.name = jwtName
    · have hnamed := namedJwt_of_firstHolder hfirst hname
      exact .named hfirst hname (value_ne_nil_of_found h hnamed)
    · cases hnamed : namedJwt pairs with
      | some q =>
          have hsame : t = q.value := htoken.symm.trans (h.value q hnamed)
          rw [hsame] at hbehind
          exact .sameValue hfirst hname hnamed hbehind
            (value_ne_nil_of_found h hnamed)
      | none =>
          have hnil : t = [] := htoken.symm.trans (h.empty.mpr hnamed)
          rw [hnil] at hbehind
          exact .noValue hfirst hname hnamed hbehind

/-- Such a first holder makes the lookup one by name. -/
theorem foundByName_of_holder (h : HolderIsNamed pairs) :
    FoundByName pairs := by
  cases h with
  | noHolder hnone =>
      exact foundByName_of_none (namedJwt_of_no_holder hnone)
        (extractJwt_of_no_holder hnone)
  | named hfirst hname hvalue =>
      exact foundByName_of_some (namedJwt_of_firstHolder hfirst hname)
        (extractJwt_of_firstHolder hfirst (CookiePair.behindKey_of_jwt hname))
        hvalue
  | sameValue hfirst hname hnamed hbehind hvalue =>
      exact foundByName_of_some hnamed
        (extractJwt_of_firstHolder hfirst hbehind) hvalue
  | noValue hfirst hname hnamed hbehind =>
      exact foundByName_of_none hnamed
        (extractJwt_of_firstHolder hfirst hbehind)

end Holder

/-- The token is looked up by name exactly where the first pair that
holds `jwt=` is the named one or stands in for it. -/
theorem found_by_name_iff (pairs : List CookiePair) :
    FoundByName pairs ↔ HolderIsNamed pairs := by
  constructor
  · intro h
    exact holderIsNamed_of_found h
  · intro h
    exact foundByName_of_holder h

/-- Another application's cookie, whose name ends in the key's. -/
def otherJwt : CookiePair where
  name := bytes "myjwt"
  value := bytes "a"
  name_ok := by decide +kernel
  value_ok := by decide

/-- The token. -/
def ownJwt : CookiePair where
  name := jwtName
  value := bytes "b"
  name_ok := by decide +kernel
  value_ok := by decide

/-- The other application's cookie is taken for the token. -/
theorem other_cookie_taken :
    ¬ FoundByName [otherJwt, ownJwt]
      ∧ extractJwtFromCookie (cookieHeader [otherJwt, ownJwt])
          = bytes "a" := by
  have htoken : extractJwtFromCookie (cookieHeader [otherJwt, ownJwt])
      = bytes "a" := rfl
  have hnamed : namedJwt [otherJwt, ownJwt] = some ownJwt := rfl
  refine ⟨fun h => ?_, htoken⟩
  have hvalue : bytes "b" = bytes "a" :=
    (h.value ownJwt hnamed).symm.trans htoken
  exact absurd hvalue (by decide)

end CgiWebServer
