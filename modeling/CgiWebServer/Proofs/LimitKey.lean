/-
What a limiter's key is, against what its `Key` element asks for.

`get_key_func` and the three closures it builds do one thing apart from
where they look: the value if it is there, and the fallback otherwise.
They differ from what is asked in two places. Every `fallback` that is
not exactly `ip` counts as `error`, and the `X-Forwarded-For` closure
asks whether the header is empty, not whether the element it then cuts
out is. `key_identifies_iff` has both.
-/
import CgiWebServer.Config

namespace CgiWebServer

-- ============================================================ the document

/-- The address `storeIP` stores: that of the peer, or a text that says
that there is none. It is never empty. -/
structure PeerAddress where
  text : Bytes
  text_ne : text ≠ []

/-- Where a key comes from. -/
inductive KeySource
  | ip
  | header (name : Bytes)
  | xff
  | query
  deriving DecidableEq

/-- The source a `RateLimit` element configures: the address where it
names no other, or a header without its name. -/
def keySource (algo : XMLElement) : KeySource :=
  match algo.firstChildElement (bytes "Key") with
  | none => .ip
  | some key =>
      let keyType := (attributeOrEmpty key "type").map toLower
      let headerName := attributeOrEmpty key "name"
      if keyType = bytes "header" ∧ headerName ≠ [] then .header headerName
      else if keyType = bytes "xff" then .xff
      else if keyType = bytes "query" then .query
      else .ip

/-- The `fallback` attribute. -/
def keyFallback (algo : XMLElement) : Option Bytes :=
  (algo.firstChildElement (bytes "Key")).bind
    (·.attributeOf (bytes "fallback"))

/-- The source's value for a client's request. -/
def KeySource.value (ip : PeerAddress) (request : Request) :
    KeySource → Bytes
  | .ip => ip.text
  | .header name => request.getHeader name
  | .xff => parseXff (request.getHeader (bytes "X-Forwarded-For"))
  | .query => request.query

-- ======================================================== the client's key

/-- What `make_key` does with a request. -/
def madeKey (algo : XMLElement) (ip : PeerAddress) (request : Request) :
    Except Exn Bytes :=
  (getKeyFunc algo).1.makeKey ip.text request

/-- The key is the client's: the value of the source, or what the
fallback says of an empty one, and no empty key in any case. -/
structure IdentifiesClient (algo : XMLElement) (ip : PeerAddress)
    (request : Request) : Prop where
  nonempty : ∀ key, madeKey algo ip request = .ok key → key ≠ []
  value : (keySource algo).value ip request ≠ [] →
    madeKey algo ip request = .ok ((keySource algo).value ip request)
  refused : (keySource algo).value ip request = [] →
    keyFallback algo = some (bytes "error") →
    ∃ e, madeKey algo ip request = .error e ∧ e.status = .badRequest
  fallsBack : (keySource algo).value ip request = [] →
    keyFallback algo ≠ some (bytes "error") →
    madeKey algo ip request = .ok ip.text

/-- The source has a value; or its fallback is one of the two there are,
or left out, and what is cut out of `X-Forwarded-For` is empty only where
the header is. -/
def KeyIsKnown (algo : XMLElement) (request : Request) (ip : PeerAddress) :
    Prop :=
  (keySource algo).value ip request ≠ []
    ∨ keyFallback algo ∈ [none, some (bytes "ip"), some (bytes "error")]
      ∧ (keySource algo = .xff →
          request.getHeader (bytes "X-Forwarded-For") = [])

-- ============================================================ the closures

/-- `ip_fallback`. -/
def ipFallbackOf (algo : XMLElement) : Bool :=
  match keyFallback algo with
  | none => true
  | some f => f == bytes "ip"

/-- The closure of a source. -/
def KeySource.keyFunc (ipFallback : Bool) : KeySource → KeyFunc
  | .ip => .ip
  | .header name => .header name ipFallback
  | .xff => .xff ipFallback
  | .query => .query ipFallback

/-- `get_key_func` builds the closure of the configured source. -/
theorem getKeyFunc_eq (algo : XMLElement) :
    (getKeyFunc algo).1 = (keySource algo).keyFunc (ipFallbackOf algo) := by
  have hheader : bytes "header" ≠ bytes "xff" := by decide
  have hquery : bytes "header" ≠ bytes "query" := by decide
  unfold getKeyFunc keySource ipFallbackOf keyFallback
  cases algo.firstChildElement (bytes "Key") with
  | none => rfl
  | some key =>
      dsimp only [Option.bind_some]
      by_cases htype : (attributeOrEmpty key "type").map toLower
          = bytes "header"
      · by_cases hname : attributeOrEmpty key "name" = []
        · rw [if_pos htype, if_pos (List.isEmpty_iff.mpr hname),
            if_neg fun h => h.2 hname, htype, if_neg hheader,
            if_neg hquery]
          rfl
        · rw [if_pos htype, if_neg fun h => hname (List.isEmpty_iff.mp h),
            if_pos ⟨htype, hname⟩]
          rfl
      -- The type is compared with three constants that differ, so at most
      -- one branch is taken.
      · have hnone : ¬ ((attributeOrEmpty key "type").map toLower
            = bytes "header" ∧ attributeOrEmpty key "name" ≠ []) :=
          fun h => htype h.1
        rw [if_neg htype, if_neg hnone]
        by_cases hxff : (attributeOrEmpty key "type").map toLower
            = bytes "xff"
        · rw [if_pos hxff, if_pos hxff]
          rfl
        · rw [if_neg hxff, if_neg hxff]
          by_cases hq : (attributeOrEmpty key "type").map toLower
              = bytes "query"
          · rw [if_pos hq, if_pos hq]
            rfl
          · rw [if_neg hq, if_neg hq]
            rfl

section Closure

variable {value : Bytes} {use : Bytes → Bytes} {ip message : Bytes}

/-- A value that is there is used. -/
theorem keyOr_of_ne (h : value ≠ []) (ipFallback : Bool) :
    keyOr value use ipFallback ip message = .ok (use value) :=
  if_pos (by simpa [List.isEmpty_iff] using h)

/-- For one that is not the address stands in, or it is refused. -/
theorem keyOr_of_nil (h : value = []) (ipFallback : Bool) :
    (ipFallback = true →
        keyOr value use ipFallback ip message = .ok ip)
      ∧ (ipFallback = false →
          ∃ e, keyOr value use ipFallback ip message = .error e
            ∧ e.status = .badRequest) := by
  subst h
  constructor
  · rintro rfl
    rfl
  · rintro rfl
    exact ⟨_, rfl, rfl⟩

end Closure

variable {algo : XMLElement} {ip : PeerAddress} {request : Request}

/-- A source that has a value gives it as the key. -/
theorem madeKey_of_value (h : (keySource algo).value ip request ≠ []) :
    madeKey algo ip request = .ok ((keySource algo).value ip request) := by
  unfold madeKey
  rw [getKeyFunc_eq]
  cases hsource : keySource algo with
  | ip => rfl
  | header name =>
      rw [hsource] at h
      exact keyOr_of_ne h _
  | query =>
      rw [hsource] at h
      exact keyOr_of_ne h _
  | xff =>
      rw [hsource] at h
      apply keyOr_of_ne
      intro hnil
      dsimp only [KeySource.value] at h
      rw [hnil] at h
      exact h rfl

/-- Without a value, and without a header the value was cut out of, the
fallback is asked, where only `ip` means the address. -/
theorem madeKey_of_nil (h : (keySource algo).value ip request = [])
    (hxff : keySource algo = .xff →
      request.getHeader (bytes "X-Forwarded-For") = []) :
    (ipFallbackOf algo = true → madeKey algo ip request = .ok ip.text)
      ∧ (ipFallbackOf algo = false →
          ∃ e, madeKey algo ip request = .error e
            ∧ e.status = .badRequest) := by
  unfold madeKey
  rw [getKeyFunc_eq]
  cases hsource : keySource algo with
  | ip =>
      rw [hsource] at h
      exact absurd h ip.text_ne
  | header name =>
      rw [hsource] at h
      exact keyOr_of_nil h _
  | query =>
      rw [hsource] at h
      exact keyOr_of_nil h _
  | xff => exact keyOr_of_nil (hxff hsource) _

/-- A header whose first element is blank is an empty key. -/
theorem madeKey_blank (hsource : keySource algo = .xff)
    (hvalue : (keySource algo).value ip request = [])
    (hheader : request.getHeader (bytes "X-Forwarded-For") ≠ []) :
    madeKey algo ip request = .ok [] := by
  unfold madeKey
  rw [getKeyFunc_eq, hsource]
  rw [hsource] at hvalue
  exact (keyOr_of_ne hheader _).trans (congrArg Except.ok hvalue)

/-- The two fallbacks there are, and a missing one, are read as they are
meant. -/
theorem ipFallbackOf_iff
    (h : keyFallback algo
      ∈ [none, some (bytes "ip"), some (bytes "error")]) :
    ipFallbackOf algo = true ↔ keyFallback algo ≠ some (bytes "error") := by
  unfold ipFallbackOf
  simp only [List.mem_cons, List.not_mem_nil, or_false] at h
  rcases h with hnone | hip | herror
  · rw [hnone]
    exact iff_of_true rfl (by decide)
  · rw [hip]
    exact iff_of_true rfl (by decide)
  · rw [herror]
    exact iff_of_false (by decide) (not_not.mpr rfl)

/-- Every other one is read as `error`. -/
theorem ipFallbackOf_of_unknown
    (h : keyFallback algo
      ∉ [none, some (bytes "ip"), some (bytes "error")]) :
    ipFallbackOf algo = false := by
  unfold ipFallbackOf
  cases hfallback : keyFallback algo with
  | none =>
      rw [hfallback] at h
      exact absurd (by simp) h
  | some f =>
      rw [hfallback] at h
      simp only [List.mem_cons, List.not_mem_nil, or_false, not_or,
        Option.some_inj] at h
      simpa using h.2.1

/-- A key identifies the client exactly where it is known what to do. -/
theorem key_identifies_iff (algo : XMLElement) (ip : PeerAddress)
    (request : Request) :
    IdentifiesClient algo ip request ↔ KeyIsKnown algo request ip := by
  -- Only an empty value leaves anything to decide.
  by_cases hvalue : (keySource algo).value ip request = []
  · constructor
    · intro h
      refine Or.inr ?_
      by_cases hxff : keySource algo = .xff →
          request.getHeader (bytes "X-Forwarded-For") = []
      · refine ⟨?_, hxff⟩
        by_contra hunknown
        have hip := ipFallbackOf_of_unknown hunknown
        obtain ⟨e, herror, -⟩ := (madeKey_of_nil hvalue hxff).2 hip
        have haddress := h.fallsBack hvalue fun heq =>
          hunknown (by rw [heq]; simp)
        cases herror.symm.trans haddress
      -- A header that is there and parses to nothing is an empty key.
      · obtain ⟨hsource, hheader⟩ := Classical.not_imp.mp hxff
        exact absurd rfl
          (h.nonempty [] (madeKey_blank hsource hvalue hheader))
    · rintro (hne | ⟨hknown, hxff⟩)
      · exact absurd hvalue hne
      · obtain ⟨haddress, herror⟩ := madeKey_of_nil hvalue hxff
        have hmeant := ipFallbackOf_iff hknown
        have hrefused : keyFallback algo = some (bytes "error") →
            ipFallbackOf algo = false := by
          intro heq
          cases hip : ipFallbackOf algo with
          | false => rfl
          | true => exact absurd heq (hmeant.mp hip)
        exact {
          nonempty := by
            intro key hkey
            cases hip : ipFallbackOf algo with
            | true =>
                cases hkey.symm.trans (haddress hip)
                exact ip.text_ne
            | false =>
                obtain ⟨e, he, -⟩ := herror hip
                cases hkey.symm.trans he
          value := fun hne => absurd hvalue hne
          refused := fun _ heq => herror (hrefused heq)
          fallsBack := fun _ hne => haddress (hmeant.mpr hne) }
  · refine iff_of_true ?_ (Or.inl hvalue)
    have hmade := madeKey_of_value hvalue
    exact {
      nonempty := by
        intro key hkey
        cases hkey.symm.trans hmade
        exact hvalue
      value := fun _ => hmade
      refused := fun hnil => absurd hnil hvalue
      fallsBack := fun hnil => absurd hnil hvalue }

/-- A key by `X-Forwarded-For`. -/
def xffKey (fallback : String) : XMLElement :=
  .mk (bytes "RateLimit") [] [.mk (bytes "Key")
    [(bytes "type", bytes "xff"), (bytes "fallback", bytes fallback)] []]

/-- An address. -/
def someAddress : PeerAddress where
  text := bytes "10.0.0.7"
  text_ne := by decide

/-- A list of addresses that begins with a comma is an empty key, and a
fallback in capitals is an error. -/
theorem clients_share_a_key :
    ¬ IdentifiesClient (xffKey "ip") someAddress
        { headers := (∅ : Headers).insert (bytes "X-Forwarded-For")
            (bytes " ,10.0.0.9") }
      ∧ ¬ IdentifiesClient (xffKey "IP") someAddress {} := by
  constructor
  · intro h
    exact absurd rfl (h.nonempty [] (by decide +kernel))
  · intro h
    have haddress := h.fallsBack (by decide +kernel) (by decide +kernel)
    revert haddress
    decide +kernel

end CgiWebServer
