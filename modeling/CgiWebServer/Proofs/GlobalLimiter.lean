/-
The global limiter of a loaded pipeline, against the document.

There is a pipeline unless the limiter asked for has an algorithm that
`load_limiter` does not know and is not disabled (`loadPipeline_ok_iff`).
Which limiter it has, that it is there once, and where it stands are as
the document has them: `*uses_ip` is false exactly for the keys that read
the request (`getKeyFunc_readsRequest`). Whether it is there is decided
by the `disable` attribute of the `RateLimit` element and not of the
`Global` element, so a pipeline is the one asked for exactly where the
two agree (`follows_configuration_iff`).
-/
import CgiWebServer.Proofs.Authorization

namespace CgiWebServer

-- ============================================================ the document

/-- The operator's switch: a `Global` element with `disable="true"`. -/
def GloballyDisabled (serverConfig : XMLElement) : Prop :=
  ∃ globalElem ∈ serverConfig.childElements (bytes "Global"),
    globalElem.attributeOf (bytes "disable") = some (bytes "true")

/-- The first `RateLimit` of the `Global` element. -/
def globalRateLimit (serverConfig : XMLElement) : Option XMLElement :=
  (serverConfig.firstChildElement (bytes "Global")).bind
    (·.firstChildElement (bytes "RateLimit"))

/-- The limiter a `RateLimit` element asks for: the default one for an
algorithm that is not known. -/
def limiterOf (rateElem : XMLElement) : Limiter :=
  match algorithmOf rateElem with
  | .fixedWindow => (loadFixedWindow rateElem).1
  | .tokenBucket => (loadTokenBucket rateElem).1
  | .unsupported => .fixedWindow {}

/-- The limiter the document asks for. -/
def configuredGlobal (serverConfig : XMLElement) : Limiter :=
  match globalRateLimit serverConfig with
  | none => .fixedWindow {}
  | some rateElem => limiterOf rateElem

/-- Its algorithm is one `load_limiter` knows. -/
def KnownAlgorithm (serverConfig : XMLElement) : Prop :=
  ∀ rateElem, globalRateLimit serverConfig = some rateElem →
    algorithmOf rateElem ≠ .unsupported

/-- The switch as the code reads it. -/
def RateLimitDisabled (serverConfig : XMLElement) : Prop :=
  ∃ rateElem, globalRateLimit serverConfig = some rateElem
    ∧ rateElem.attributeOf (bytes "disable") = some (bytes "true")

-- ================================================================ the keys

/-- The key function of a limiter. -/
def Limiter.makeKey : Limiter → KeyFunc
  | .fixedWindow s => s.makeKey
  | .tokenBucket s => s.makeKey

/-- The key depends on the parsed request. -/
def KeyFunc.ReadsRequest (k : KeyFunc) : Prop :=
  ∃ ip r r', k.makeKey ip r ≠ k.makeKey ip r'

/-- A request with one header. -/
def requestWith (name value : Bytes) : Request :=
  { headers := (∅ : Headers).insert name value }

theorem getHeader_requestWith (name value : Bytes) :
    (requestWith name value).getHeader name = value := by
  rw [Request.getHeader, requestWith, AList.lookup_insert]
  rfl

theorem getHeader_noHeaders (name : Bytes) :
    ({} : Request).getHeader name = [] := rfl

/-- Where the value is there in one request and not in the other, the two
keys differ. -/
theorem keyOr_ne {value : Bytes} {use : Bytes → Bytes}
    (hvalue : value ≠ []) (huse : use value ≠ [])
    (ipFallback : Bool) (message : Bytes) :
    keyOr value use ipFallback [] message
      ≠ keyOr [] use ipFallback [] message := by
  have hthere : (!value.isEmpty) = true := by
    simpa [List.isEmpty_iff] using hvalue
  have hmissing : (!([] : Bytes).isEmpty) = false := rfl
  intro heq
  simp only [keyOr, hthere, hmissing, if_true, Bool.false_eq_true,
    if_false] at heq
  cases ipFallback with
  | true =>
      simp only [Bool.not_true, Bool.false_eq_true, if_false] at heq
      exact huse (Except.ok.inj heq)
  | false =>
      simp only [Bool.not_false, if_true] at heq
      cases heq

/-- Every key but the address does. -/
theorem KeyFunc.readsRequest_iff (k : KeyFunc) :
    k.ReadsRequest ↔ k ≠ .ip := by
  constructor
  · rintro ⟨ip, r, r', hne⟩ rfl
    exact hne rfl
  · intro hk
    cases k with
    | ip => exact absurd rfl hk
    | header name ipFallback =>
        refine ⟨[], requestWith name [65], {}, ?_⟩
        dsimp only [KeyFunc.makeKey]
        rw [getHeader_requestWith, getHeader_noHeaders]
        exact keyOr_ne (by decide) (by decide) _ _
    | xff ipFallback =>
        refine ⟨[], requestWith (bytes "X-Forwarded-For") [65], {}, ?_⟩
        dsimp only [KeyFunc.makeKey]
        rw [getHeader_requestWith, getHeader_noHeaders]
        exact keyOr_ne (by decide) (by decide) _ _
    | query ipFallback =>
        refine ⟨[], { query := [65] }, {}, ?_⟩
        exact keyOr_ne (by decide) (by decide) _ _

/-- Where `*uses_ip` is cleared, the key is not the address. -/
theorem getKeyFunc_not_ip {algo : XMLElement}
    (h : (getKeyFunc algo).2 = false) : (getKeyFunc algo).1 ≠ .ip := by
  unfold getKeyFunc at h ⊢
  split
  next hkey =>
    rw [hkey] at h
    cases h
  next key hkey =>
    rw [hkey] at h
    dsimp only at h ⊢
    split
    next hheader =>
      rw [if_pos hheader] at h
      split
      next hname =>
        rw [if_pos hname] at h
        cases h
      next => exact fun heq => by cases heq
    next hheader =>
      rw [if_neg hheader] at h
      split
      next => exact fun heq => by cases heq
      next hxff =>
        rw [if_neg hxff] at h
        split
        next => exact fun heq => by cases heq
        next hquery =>
          rw [if_neg hquery] at h
          cases h

/-- `*uses_ip` is left true exactly where the key does not read the
request. -/
theorem getKeyFunc_readsRequest (algo : XMLElement) :
    (getKeyFunc algo).2 = false ↔ (getKeyFunc algo).1.ReadsRequest := by
  rw [KeyFunc.readsRequest_iff]
  constructor
  · exact getKeyFunc_not_ip
  · intro hne
    cases hip : (getKeyFunc algo).2 with
    | false => rfl
    | true => exact absurd (getKeyFunc_ip hip) hne

/-- A limiter that is loaded is the one asked for, and `*uses_ip` is what
it says. -/
theorem loadLimiter_ok {algo : XMLElement} {l : Limiter} {usesIp : Bool}
    (h : loadLimiter algo = .ok (l, usesIp)) :
    l = limiterOf algo ∧ (usesIp = false ↔ l.makeKey.ReadsRequest) := by
  rw [loadLimiter_eq] at h
  unfold limiterOf
  cases halgo : algorithmOf algo with
  | fixedWindow =>
      rw [halgo] at h
      have hpair : loadFixedWindow algo = (l, usesIp) := Except.ok.inj h
      obtain rfl : (loadFixedWindow algo).1 = l := congrArg Prod.fst hpair
      obtain rfl : (getKeyFunc algo).2 = usesIp := congrArg Prod.snd hpair
      exact ⟨rfl, getKeyFunc_readsRequest algo⟩
  | tokenBucket =>
      rw [halgo] at h
      have hpair : loadTokenBucket algo = (l, usesIp) := Except.ok.inj h
      obtain rfl : (loadTokenBucket algo).1 = l := congrArg Prod.fst hpair
      obtain rfl : (getKeyFunc algo).2 = usesIp := congrArg Prod.snd hpair
      exact ⟨rfl, getKeyFunc_readsRequest algo⟩
  | unsupported =>
      rw [halgo] at h
      cases h

/-- A limiter is loaded exactly if its algorithm is known. -/
theorem loadLimiter_ok_iff (algo : XMLElement) :
    (∃ loaded, loadLimiter algo = .ok loaded)
      ↔ algorithmOf algo ≠ .unsupported := by
  rw [loadLimiter_eq]
  cases algorithmOf algo with
  | fixedWindow => exact iff_of_true ⟨_, rfl⟩ (by decide)
  | tokenBucket => exact iff_of_true ⟨_, rfl⟩ (by decide)
  | unsupported =>
      refine iff_of_false ?_ (not_not.mpr rfl)
      rintro ⟨loaded, h⟩
      cases h

-- ============================================================ the pipeline

/-- A component that is the global limiter. -/
def Component.isLimiter : Component → Bool
  | .limiter _ => true
  | _ => false

/-- A pipeline is the one the document asks for. -/
structure FollowsConfiguration (serverConfig : XMLElement)
    (pipeline : List Component) : Prop where
  present : (∃ l, Component.limiter l ∈ pipeline)
    ↔ ¬ GloballyDisabled serverConfig
  built : ∀ l, Component.limiter l ∈ pipeline →
    l = configuredGlobal serverConfig
  once : (∃ l, Component.limiter l ∈ pipeline) →
    pipeline.countP (·.isLimiter) = 1
  placed : ∀ l before after, pipeline = before ++ .limiter l :: after →
    (.parser ∈ after ↔ ¬ l.makeKey.ReadsRequest)

variable {serverConfig : XMLElement} {pipeline : List Component}

/-- What is loaded: no limiter where the code's switch is set, and the
configured one with its place otherwise. -/
theorem loadGlobalRateLimit_cases {limiter : Option Limiter}
    {usesIp : Bool}
    (h : loadGlobalRateLimit serverConfig = .ok (limiter, usesIp)) :
    (RateLimitDisabled serverConfig ∧ limiter = none ∧ usesIp = true)
      ∨ (¬ RateLimitDisabled serverConfig
        ∧ limiter = some (configuredGlobal serverConfig)
        ∧ (usesIp = false
          ↔ (configuredGlobal serverConfig).makeKey.ReadsRequest)) := by
  have hdefault : true = false
      ↔ (Limiter.fixedWindow {}).makeKey.ReadsRequest := by
    rw [KeyFunc.readsRequest_iff]
    exact iff_of_false (by decide) (not_not.mpr rfl)
  unfold RateLimitDisabled configuredGlobal globalRateLimit
  unfold loadGlobalRateLimit at h
  -- Without the elements nothing is disabled, and the default is loaded.
  cases hglobal : serverConfig.firstChildElement (bytes "Global") with
  | none =>
      rw [hglobal] at h
      cases h
      refine Or.inr ⟨?_, rfl, hdefault⟩
      rintro ⟨rateElem, hnone, -⟩
      cases hnone
  | some globalElem =>
      rw [hglobal] at h
      simp only [Option.bind_some]
      cases hrate : globalElem.firstChildElement (bytes "RateLimit") with
      | none =>
          simp only [hrate] at h
          cases h
          refine Or.inr ⟨?_, rfl, hdefault⟩
          rintro ⟨rateElem, hnone, -⟩
          cases hnone
      | some rateElem =>
          simp only [hrate] at h
          by_cases hdisable : rateElem.attributeOf (bytes "disable")
              = some (bytes "true")
          · rw [if_pos hdisable] at h
            cases h
            exact Or.inl ⟨⟨rateElem, rfl, hdisable⟩, rfl, rfl⟩
          · rw [if_neg hdisable] at h
            obtain ⟨⟨l, loadedIp⟩, hload, h⟩ := Loads.bind_ok h
            cases h
            obtain ⟨rfl, hreads⟩ := loadLimiter_ok hload
            refine Or.inr ⟨?_, rfl, hreads⟩
            rintro ⟨other, hsome, hdisabled⟩
            cases hsome
            exact hdisable hdisabled

/-- The pipelines there are. -/
theorem loadPipeline_cases (h : loadPipeline serverConfig = .ok pipeline) :
    (RateLimitDisabled serverConfig ∧ pipeline
        = [.logger, .errorHandler, .parser, .rateLimiter, .authenticator])
      ∨ (¬ RateLimitDisabled serverConfig
        ∧ ¬ (configuredGlobal serverConfig).makeKey.ReadsRequest
        ∧ pipeline
          = [.logger, .errorHandler, .limiter (configuredGlobal serverConfig),
              .parser, .rateLimiter, .authenticator])
      ∨ (¬ RateLimitDisabled serverConfig
        ∧ (configuredGlobal serverConfig).makeKey.ReadsRequest
        ∧ pipeline
          = [.logger, .errorHandler, .parser,
              .limiter (configuredGlobal serverConfig), .rateLimiter,
              .authenticator]) := by
  obtain ⟨⟨limiter, usesIp⟩, hload, h⟩ := Loads.bind_ok h
  cases h
  rcases loadGlobalRateLimit_cases hload with
    ⟨hdisabled, rfl, rfl⟩ | ⟨henabled, rfl, hreads⟩
  · exact Or.inl ⟨hdisabled, rfl⟩
  · cases usesIp with
    | true =>
        refine Or.inr (Or.inl ⟨henabled, ?_, rfl⟩)
        rw [← hreads]
        decide
    | false =>
        exact Or.inr (Or.inr ⟨henabled, hreads.mp rfl, rfl⟩)

/-- There is a pipeline exactly where the code's switch is set or the
algorithm is known. -/
theorem loadPipeline_ok_iff (serverConfig : XMLElement) :
    (∃ pipeline, loadPipeline serverConfig = .ok pipeline)
      ↔ RateLimitDisabled serverConfig ∨ KnownAlgorithm serverConfig := by
  have hglobal : (∃ pipeline, loadPipeline serverConfig = .ok pipeline)
      ↔ ∃ loaded, loadGlobalRateLimit serverConfig = .ok loaded := by
    constructor
    · rintro ⟨pipeline, h⟩
      obtain ⟨loaded, hload, -⟩ := Loads.bind_ok h
      exact ⟨loaded, hload⟩
    · rintro ⟨loaded, h⟩
      unfold loadPipeline
      rw [h]
      exact ⟨_, rfl⟩
  rw [hglobal]
  unfold RateLimitDisabled KnownAlgorithm globalRateLimit
    loadGlobalRateLimit
  -- Without the element the defaults are loaded, and no algorithm is read.
  cases serverConfig.firstChildElement (bytes "Global") with
  | none => exact iff_of_true ⟨_, rfl⟩ (Or.inr fun rateElem h => by cases h)
  | some globalElem =>
      simp only [Option.bind_some]
      cases globalElem.firstChildElement (bytes "RateLimit") with
      | none =>
          exact iff_of_true ⟨_, rfl⟩ (Or.inr fun rateElem h => by cases h)
      | some rateElem =>
          simp only [Option.some.injEq, exists_eq_left', forall_eq']
          by_cases hdisable : rateElem.attributeOf (bytes "disable")
              = some (bytes "true")
          · rw [if_pos hdisable]
            exact iff_of_true ⟨_, rfl⟩ (Or.inl hdisable)
          -- Not switched off, so loadLimiter is reached and decides alone.
          · rw [if_neg hdisable, or_iff_right hdisable,
              ← loadLimiter_ok_iff]
            constructor
            · rintro ⟨loaded, h⟩
              obtain ⟨limiter, hload, -⟩ := Loads.bind_ok h
              exact ⟨limiter, hload⟩
            · rintro ⟨limiter, hload⟩
              rw [hload]
              exact ⟨_, rfl⟩

/-- There is a limiter exactly where the code's switch is not set. -/
theorem limiter_mem_iff (hload : loadPipeline serverConfig = .ok pipeline) :
    (∃ l, Component.limiter l ∈ pipeline)
      ↔ ¬ RateLimitDisabled serverConfig := by
  rcases loadPipeline_cases hload with
    ⟨hdisabled, rfl⟩ | ⟨henabled, -, rfl⟩ | ⟨henabled, -, rfl⟩
  · exact iff_of_false (by simp) (not_not.mpr hdisabled)
  · exact iff_of_true ⟨configuredGlobal serverConfig, by simp⟩ henabled
  · exact iff_of_true ⟨configuredGlobal serverConfig, by simp⟩ henabled

/-- It is the configured one. -/
theorem eq_configuredGlobal {l : Limiter}
    (hload : loadPipeline serverConfig = .ok pipeline)
    (h : Component.limiter l ∈ pipeline) :
    l = configuredGlobal serverConfig := by
  rcases loadPipeline_cases hload with ⟨-, rfl⟩ | ⟨-, -, rfl⟩ | ⟨-, -, rfl⟩
  · simp at h
  · simpa using h
  · simpa using h

theorem countP_isLimiter
    (hload : loadPipeline serverConfig = .ok pipeline)
    (h : ∃ l, Component.limiter l ∈ pipeline) :
    pipeline.countP (·.isLimiter) = 1 := by
  have henabled := (limiter_mem_iff hload).mp h
  rcases loadPipeline_cases hload with
    ⟨hdisabled, -⟩ | ⟨-, -, rfl⟩ | ⟨-, -, rfl⟩
  · exact absurd hdisabled henabled
  · rfl
  · rfl

/-- Where an element of a kind is the only one of a list, what is behind
it is what is behind an element of the kind. -/
theorem eq_behind_only {α : Type} {p : α → Bool}
    {a b : α} {before after before' after' : List α} (ha : p a = true)
    (hbefore : ∀ c ∈ before', p c = false)
    (hafter : ∀ c ∈ after', p c = false)
    (h : before ++ a :: after = before' ++ b :: after') :
    after = after' := by
  rcases List.append_eq_append_iff.mp h with
    ⟨more, rfl, hrest⟩ | ⟨more, rfl, hrest⟩
  · cases more with
    | nil => exact (List.cons.inj hrest).2
    | cons c more =>
        obtain ⟨rfl, -⟩ := List.cons.inj hrest
        exact absurd (hbefore a (by simp)) (by simp [ha])
  · cases more with
    | nil => exact (List.cons.inj hrest).2.symm
    | cons c more =>
        obtain ⟨-, rfl⟩ := List.cons.inj hrest
        exact absurd (hafter a (by simp)) (by simp [ha])

/-- It stands before the parser exactly where its key does not read the
request. -/
theorem parser_mem_after_iff {l : Limiter} {before after : List Component}
    (hload : loadPipeline serverConfig = .ok pipeline)
    (h : pipeline = before ++ .limiter l :: after) :
    .parser ∈ after ↔ ¬ l.makeKey.ReadsRequest := by
  have hmem : Component.limiter l ∈ pipeline := by
    rw [h]
    simp
  obtain rfl := eq_configuredGlobal hload hmem
  rcases loadPipeline_cases hload with
    ⟨-, hpipeline⟩ | ⟨-, hip, hpipeline⟩ | ⟨-, hreads, hpipeline⟩
  · rw [hpipeline] at hmem
    simp at hmem
  · have hfront : ∀ c ∈ [Component.logger, .errorHandler],
        c.isLimiter = false := by simp [Component.isLimiter]
    have hback : ∀ c ∈ [Component.parser, .rateLimiter, .authenticator],
        c.isLimiter = false := by simp [Component.isLimiter]
    have hafter := eq_behind_only (p := Component.isLimiter) rfl hfront hback
      (h.symm.trans hpipeline)
    rw [hafter]
    exact iff_of_true (by simp) hip
  · have hfront : ∀ c ∈ [Component.logger, .errorHandler, .parser],
        c.isLimiter = false := by simp [Component.isLimiter]
    have hback : ∀ c ∈ [Component.rateLimiter, .authenticator],
        c.isLimiter = false := by simp [Component.isLimiter]
    have hafter := eq_behind_only (p := Component.isLimiter) rfl hfront hback
      (h.symm.trans hpipeline)
    rw [hafter]
    exact iff_of_false (by simp) (not_not.mpr hreads)

/-- A pipeline that is loaded follows the document exactly where the two
switches agree. -/
theorem followsConfiguration_iff
    (hload : loadPipeline serverConfig = .ok pipeline) :
    FollowsConfiguration serverConfig pipeline
      ↔ (RateLimitDisabled serverConfig ↔ GloballyDisabled serverConfig) := by
  constructor
  · intro h
    have hpresent := h.present
    rw [limiter_mem_iff hload] at hpresent
    exact not_iff_not.mp hpresent
  · intro h
    exact {
      present := (limiter_mem_iff hload).trans (not_congr h)
      built := fun l hl => eq_configuredGlobal hload hl
      once := countP_isLimiter hload
      placed := fun l before after hsplit =>
        parser_mem_after_iff hload hsplit }

-- ======================================================= the configuration

/-- A pipeline that follows the document is loaded exactly where the
`RateLimit` element has the `disable="true"` that a `Global` element has,
and has it or asks for an algorithm that is known. -/
theorem follows_configuration_iff (serverConfig : XMLElement) :
    (∃ pipeline, loadPipeline serverConfig = .ok pipeline
        ∧ FollowsConfiguration serverConfig pipeline)
      ↔ (RateLimitDisabled serverConfig ↔ GloballyDisabled serverConfig)
        ∧ (RateLimitDisabled serverConfig ∨ KnownAlgorithm serverConfig) := by
  rw [← loadPipeline_ok_iff]
  constructor
  · rintro ⟨pipeline, hload, hfollows⟩
    exact ⟨(followsConfiguration_iff hload).mp hfollows, pipeline, hload⟩
  · rintro ⟨hswitch, pipeline, hload⟩
    exact ⟨pipeline, hload, (followsConfiguration_iff hload).mpr hswitch⟩

/-- The document that turns the global limiter off, as the README has
it. -/
def globalOff : XMLElement :=
  .mk (bytes "ServerConfig") []
    [.mk (bytes "Global") [(bytes "disable", bytes "true")] []]

/-- A document that asks for an algorithm there is not. -/
def globalSliding : XMLElement :=
  .mk (bytes "ServerConfig") []
    [.mk (bytes "Global") []
      [.mk (bytes "RateLimit") [(bytes "algorithm", bytes "sliding")] []]]

/-- The first is loaded with a limiter all the same; the second ends the
start-up. -/
theorem disabled_limiter_loaded :
    (∃ pipeline, loadPipeline globalOff = .ok pipeline
        ∧ .limiter (.fixedWindow {}) ∈ pipeline
        ∧ ¬ FollowsConfiguration globalOff pipeline)
      ∧ GloballyDisabled globalOff
      ∧ loadPipeline globalSliding = .error .badFormat := by
  have hload : loadPipeline globalOff
      = .ok [.logger, .errorHandler, .limiter (.fixedWindow {}), .parser,
          .rateLimiter, .authenticator] := rfl
  have hoff : GloballyDisabled globalOff :=
    ⟨.mk (bytes "Global") [(bytes "disable", bytes "true")] [],
      List.mem_singleton.mpr rfl, by decide⟩
  refine ⟨⟨_, hload, by simp, fun h => ?_⟩, hoff, rfl⟩
  exact h.present.mp ⟨.fixedWindow {}, by simp⟩ hoff

end CgiWebServer
