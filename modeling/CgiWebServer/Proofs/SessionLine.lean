/-
What of a request buffer gets into its session's log line.

The buffer is cut at pairs of CR and LF only, so a single CR or LF stays
in whatever piece it stands in. Four pieces are printed: the first line,
and of the user agent what comes before its parenthesis, what is in it,
and the name of a browser. The line is one line exactly if all of them
are unbroken.
-/
import Mathlib.Algebra.Order.GroupWithZero.Basic
import Mathlib.Algebra.Order.Ring.Int
import CgiWebServer.Log.Session

namespace CgiWebServer

open Scan (find findFrom FirstAt exists_firstAt_of_find
  not_firstAt_of_find)

-- ================================================================ the pieces

/-- A text without CR and LF. -/
def Unbroken (text : Bytes) : Prop := 13 ∉ text ∧ 10 ∉ text

/-- What comes before the first parenthesis, but for its last byte; all,
where the parenthesis comes first. -/
def IdentifierPart (agent piece : Bytes) : Prop :=
  ∃ before after, FirstAt (bytes "(") agent before after
    ∧ piece = if before = [] then agent else before.dropLast

/-- What stands in the first parentheses. -/
def OsPart (agent piece : Bytes) : Prop :=
  ∃ before behind rest, FirstAt (bytes "(") agent before behind
    ∧ FirstAt (bytes ")") behind piece rest

/-- The name of a browser that is there, with what follows it up to a
space, of the first one in the list. -/
def BrowserPart (agent piece : Bytes) : Prop :=
  ∃ others browser later before after,
    browsers = others ++ browser :: later
      ∧ (∀ other ∈ others, ¬ other <:+: agent)
      ∧ FirstAt browser agent before after
      ∧ piece = (browser ++ after).takeWhile (· ≠ 32)

/-- What a user agent shows. -/
def Shown (agent piece : Bytes) : Prop :=
  IdentifierPart agent piece ∨ OsPart agent piece
    ∨ BrowserPart agent piece

/-- A buffer's user agent: from its first `User-Agent` to the next line
end, less the label. -/
def AgentOf (buffer agent : Bytes) : Prop :=
  ∃ before rest line after,
    FirstAt (bytes "User-Agent") buffer before rest
      ∧ FirstAt crlf (bytes "User-Agent" ++ rest) line after
      ∧ agent = if userAgentLabel <+: line
          then line.drop userAgentLabel.length else line

-- ================================================================== one line

/-- A line: its only CR or LF is its last byte. -/
def OneLine (text : Bytes) : Prop :=
  ∃ line, text = line ++ [10] ∧ Unbroken line

/-- The session of a client is logged in one line. The address and the
status line have neither. -/
def LogsOneLine (t : LocalTime) (ip : { ip : Bytes // Unbroken ip })
    (buffer : Bytes) (response : { r : Response // Unbroken r.statusMsg })
    (rttEndTime : Int) (entry : SessionEntry) : Prop :=
  ∃ filled text,
    loggerProcess ip.val buffer response.val rttEndTime entry = .ok filled
      ∧ buildSession (getTime t) filled = some text ∧ OneLine text

/-- What a buffer shows is unbroken: its first line, and all pieces of its
user agent. -/
structure ShowsUnbroken (buffer : Bytes) : Prop where
  line : ∀ line rest, FirstAt crlf buffer line rest → Unbroken line
  agent : ∀ agent piece, AgentOf buffer agent → Shown agent piece →
    Unbroken piece

/-- A size that `format_bytes` has a unit for. -/
def SizeHasUnit (size : Int) : Prop :=
  -2147483648 ≤ size ∧ size ≤ 1024 ^ 5

-- ================================================================== the cuts

theorem unbroken_append {a b : Bytes} :
    Unbroken (a ++ b) ↔ Unbroken a ∧ Unbroken b := by
  simp only [Unbroken, List.mem_append, not_or]
  constructor
  · rintro ⟨⟨ha, hb⟩, ha', hb'⟩
    exact ⟨⟨ha, ha'⟩, hb, hb'⟩
  · rintro ⟨⟨ha, ha'⟩, hb, hb'⟩
    exact ⟨⟨ha, hb⟩, ha', hb'⟩

theorem unbroken_nil : Unbroken [] :=
  ⟨List.not_mem_nil, List.not_mem_nil⟩

/-- An extractor yields the one piece of a kind behind a text of its own,
or nothing where there is no such piece. -/
def Cuts (part : Bytes → Prop) (lead : Bytes) (result : Except Exn Bytes) :
    Prop :=
  (∃ piece, part piece ∧ (∀ other, part other → other = piece)
      ∧ result = .ok (lead ++ piece))
    ∨ ((∀ piece, ¬ part piece) ∧ result = .ok [])

/-- What it yields is unbroken exactly if the pieces are. -/
theorem Cuts.unbroken {part : Bytes → Prop} {lead : Bytes}
    {result : Except Exn Bytes} (h : Cuts part lead result)
    (hlead : Unbroken lead) :
    ∃ text, result = .ok text
      ∧ (Unbroken text ↔ ∀ piece, part piece → Unbroken piece) := by
  rcases h with ⟨piece, hpart, hunique, hresult⟩ | ⟨hnone, hresult⟩
  · refine ⟨lead ++ piece, hresult, ?_⟩
    rw [unbroken_append]
    constructor
    · rintro ⟨-, hunbroken⟩ other hother
      exact hunique other hother ▸ hunbroken
    · intro hall
      exact ⟨hlead, hall piece hpart⟩
  · exact ⟨[], hresult,
      iff_of_true unbroken_nil fun piece hpiece => absurd hpiece (hnone piece)⟩

-- ============================================================ the extractors

/-- A cut within the string does not throw. -/
theorem substrAt_of_le {s : Bytes} {pos : Nat} (h : pos ≤ s.length)
    (n : Option Nat) :
    substrAt s pos n
      = .ok (n.elim (s.drop pos) fun n => substr s pos n) := by
  unfold substrAt
  rw [if_pos h]
  cases n <;> rfl

/-- The front of a string. -/
theorem substrAt_zero (s : Bytes) (n : Nat) :
    substrAt s 0 (some n) = .ok (s.take n) :=
  substrAt_of_le (Nat.zero_le _) _

/-- `get_identifier` yields its part. -/
theorem getIdentifier_cuts (agent : Bytes) :
    Cuts (IdentifierPart agent) [] (getIdentifier agent) := by
  unfold getIdentifier
  cases hfind : find (bytes "(") agent with
  | none =>
      refine Or.inr ⟨?_, rfl⟩
      rintro piece ⟨before, after, hcut, -⟩
      exact not_firstAt_of_find hfind before after hcut
  | some identifierEnd =>
      obtain ⟨before, after, hcut, hlen⟩ := exists_firstAt_of_find hfind
      refine Or.inl ⟨_, ⟨before, after, hcut, rfl⟩, ?_, ?_⟩
      · rintro other ⟨before', after', hcut', rfl⟩
        rw [(hcut'.unique hcut).1]
      · cases identifierEnd with
        | zero =>
            rw [if_pos (List.length_eq_zero_iff.mp hlen)]
            exact substrAt_of_le (Nat.zero_le _) none
        | succ identifierEnd =>
            have hne : before ≠ [] := by
              rintro rfl
              cases hlen
            have hfront : agent.take identifierEnd = before.dropLast := by
              rw [List.dropLast_eq_take, hlen, ← hcut.take, hlen,
                List.take_take, Nat.min_eq_left (by omega)]
              rfl
            rw [if_neg hne, ← hfront]
            exact substrAt_zero _ _

/-- `get_os` yields its part: its second search skips the parenthesis it
starts on. -/
theorem getOs_cuts (agent : Bytes) :
    Cuts (OsPart agent) (bytes " on ") (getOs agent) := by
  unfold getOs
  cases hfind : find (bytes "(") agent with
  | none =>
      refine Or.inr ⟨?_, rfl⟩
      rintro piece ⟨before, behind, rest, hcut, -⟩
      exact not_firstAt_of_find hfind before behind hcut
  | some osStart =>
      obtain ⟨before, behind, hcut, rfl⟩ := exists_firstAt_of_find hfind
      -- The `)` is looked for from the `(` on, which is none.
      have hskip : findFrom (bytes ")") agent before.length
          = (find (bytes ")") behind).map (before.length + 1 + ·) := by
        rw [findFrom, hcut.drop]
        have hopen : find (bytes ")") (bytes "(" ++ behind)
            = (find (bytes ")") behind).map (1 + ·) :=
          Scan.find_skip_of_head behind (by decide)
        rw [hopen, Option.map_map]
        congr 1
        funext n
        simp only [Function.comp_apply]
        omega
      dsimp only
      rw [hskip]
      cases hclose : find (bytes ")") behind with
      | none =>
          refine Or.inr ⟨?_, rfl⟩
          rintro piece ⟨before', behind', rest, hcut', hend⟩
          rw [(hcut'.unique hcut).2] at hend
          exact not_firstAt_of_find hclose piece rest hend
      | some inside =>
          obtain ⟨piece, rest, hend, rfl⟩ := exists_firstAt_of_find hclose
          refine Or.inl ⟨piece, ⟨before, behind, rest, hcut, hend⟩, ?_, ?_⟩
          · rintro other ⟨before', behind', rest', hcut', hend'⟩
            rw [(hcut'.unique hcut).2] at hend'
            exact (hend'.unique hend).1
          · have hle : before.length + 1 ≤ agent.length :=
              Scan.length_of_find hfind
            have hcount : before.length + 1 + piece.length - before.length
                - 1 = piece.length := by
              omega
            have hpiece : substr agent (before.length + 1) piece.length
                = piece := by
              rw [substr]
              exact (congrArg _ hcut.drop_behind).trans hend.take
            dsimp only [Option.map_some]
            rw [substrAt_of_le hle, hcount, Option.elim_some, hpiece]
            rfl

/-- The first browser of the list that a user agent holds. -/
theorem browser_unique {agent : Bytes}
    {others others' later later' : List Bytes} {browser browser' : Bytes}
    (hlist : browsers = others ++ browser :: later)
    (hothers : ∀ other ∈ others, ¬ other <:+: agent)
    (hhere : browser <:+: agent)
    (hlist' : browsers = others' ++ browser' :: later')
    (hothers' : ∀ other ∈ others', ¬ other <:+: agent)
    (hhere' : browser' <:+: agent) : browser = browser' := by
  have hfirst : browsers.find? (fun b => decide (b <:+: agent))
      = some browser :=
    List.find?_eq_some_iff_append.mpr ⟨decide_eq_true hhere, others, later,
      hlist, fun other hother => by simp [hothers other hother]⟩
  have hfirst' : browsers.find? (fun b => decide (b <:+: agent))
      = some browser' :=
    List.find?_eq_some_iff_append.mpr ⟨decide_eq_true hhere', others',
      later', hlist', fun other hother => by simp [hothers' other hother]⟩
  exact Option.some.inj (hfirst.symm.trans hfirst')

/-- A browser's text starts with its name, so it is not empty. -/
theorem browser_text_ne {browser : Bytes} (h : browser ∈ browsers)
    (after : Bytes) : (browser ++ after).takeWhile (· ≠ 32) ≠ [] := by
  have hname : ∀ name ∈ browsers,
      name.head?.all fun b => b ≠ 32 := by decide
  have hne : ∀ name ∈ browsers, name ≠ [] := by decide
  obtain ⟨b, rest, rfl⟩ := List.exists_cons_of_ne_nil (hne browser h)
  have hb : (b : Byte) ≠ 32 := by
    simpa using hname (b :: rest) h
  rw [List.cons_append, List.takeWhile_cons, if_pos (decide_eq_true hb)]
  exact List.cons_ne_nil _ _

/-- What stands at a position of a string, up to a space. -/
theorem substrAt_to_space {agent before tail : Bytes}
    (h : agent.drop before.length = tail)
    (hle : before.length ≤ agent.length) :
    substrAt agent before.length
        ((findFrom sp agent before.length).map (· - before.length))
      = .ok (tail.takeWhile (· ≠ 32)) := by
  rw [substrAt_of_le hle, findFrom, h, Option.map_map,
    Scan.takeWhile_ne_eq 32 tail]
  have hcount : (fun n => n - before.length) ∘ (before.length + ·)
      = (id : Nat → Nat) := by
    funext n
    simp
  rw [hcount, Option.map_id, ← sp_eq]
  cases find sp tail with
  | none => rfl
  | some n =>
      rw [id, Option.elim_some, Option.elim_some, substr, h]

/-- `get_browser` yields its part. -/
theorem getBrowser_cuts (agent : Bytes) :
    Cuts (BrowserPart agent) sp (getBrowser agent) := by
  unfold getBrowser
  cases hfind : browsers.findSome? fun browser => find browser agent with
  | none =>
      refine Or.inr ⟨?_, rfl⟩
      rintro piece ⟨others, browser, later, before, after, hlist, -, hcut, -⟩
      have hmem : browser ∈ browsers := by
        rw [hlist]
        exact List.mem_append_right _ List.mem_cons_self
      exact not_firstAt_of_find (List.findSome?_eq_none_iff.mp hfind browser
        hmem) before after hcut
  | some browserStart =>
      obtain ⟨others, browser, later, hlist, hbrowser, hnone⟩ :=
        List.findSome?_eq_some_iff.mp hfind
      obtain ⟨before, after, hcut, rfl⟩ := exists_firstAt_of_find hbrowser
      have hothers : ∀ other ∈ others, ¬ other <:+: agent :=
        fun other hother => Scan.find_eq_none_iff.mp (hnone other hother)
      have hmem : browser ∈ browsers := by
        rw [hlist]
        exact List.mem_append_right _ List.mem_cons_self
      refine Or.inl ⟨_, ⟨others, browser, later, before, after, hlist,
        hothers, hcut, rfl⟩, ?_, ?_⟩
      -- The cut is the only one: the first browser of the list that the
      -- agent names, at its first place.
      · rintro other ⟨others', browser', later', before', after', hlist',
          hothers', hcut', rfl⟩
        obtain rfl := browser_unique hlist hothers
          (Scan.infix_of_find hbrowser) hlist' hothers'
          (Scan.infix_of_find hcut'.find)
        rw [(hcut'.unique hcut).2]
      · have hle := (Scan.find_eq_some_iff.mp hbrowser).1
        dsimp only
        rw [substrAt_to_space hcut.drop hle]
        show Except.ok _ = _
        rw [if_neg fun hempty => browser_text_ne hmem after
          (List.isEmpty_iff.mp hempty)]

/-- The three parts of a user agent. -/
theorem agentParts_unbroken (agent : Bytes) :
    ∃ identifier os browser, getIdentifier agent = .ok identifier
      ∧ getOs agent = .ok os ∧ getBrowser agent = .ok browser
      ∧ (Unbroken (identifier ++ os ++ browser)
          ↔ ∀ piece, Shown agent piece → Unbroken piece) := by
  obtain ⟨identifier, hidentifier, hunbroken₁⟩ :=
    (getIdentifier_cuts agent).unbroken unbroken_nil
  obtain ⟨os, hos, hunbroken₂⟩ :=
    (getOs_cuts agent).unbroken ⟨by decide, by decide⟩
  obtain ⟨browser, hbrowser, hunbroken₃⟩ :=
    (getBrowser_cuts agent).unbroken ⟨by decide, by decide⟩
  refine ⟨identifier, os, browser, hidentifier, hos, hbrowser, ?_⟩
  rw [unbroken_append, unbroken_append, hunbroken₁, hunbroken₂, hunbroken₃]
  constructor
  · rintro ⟨⟨h₁, h₂⟩, h₃⟩ piece (hpart | hpart | hpart)
    · exact h₁ piece hpart
    · exact h₂ piece hpart
    · exact h₃ piece hpart
  · intro hall
    exact ⟨⟨fun piece hpart => hall piece (Or.inl hpart),
      fun piece hpart => hall piece (Or.inr (Or.inl hpart))⟩,
      fun piece hpart => hall piece (Or.inr (Or.inr hpart))⟩

/-- `trim_user_agent` takes the label off. -/
theorem trimUserAgent_eq (line : Bytes) :
    trimUserAgent line
      = .ok (if userAgentLabel <+: line
          then line.drop userAgentLabel.length else line) := by
  have hzero : find userAgentLabel line = some 0
      ↔ userAgentLabel <+: line := by
    rw [Scan.find_eq_some_iff, List.drop_zero]
    exact ⟨fun h => h.2.1, fun h =>
      ⟨Nat.zero_le _, h, fun j hj => absurd hj (Nat.not_lt_zero j)⟩⟩
  unfold trimUserAgent
  by_cases hlabel : userAgentLabel <+: line
  · rw [if_pos (hzero.mpr hlabel), if_pos hlabel,
      substrAt_of_le hlabel.length_le]
    rfl
  · rw [if_neg fun h => hlabel (hzero.mp h), if_neg hlabel]

/-- A buffer has one user agent, whose parts `get_user_agent` puts together,
or none. -/
theorem getUserAgent_cases (buffer : Bytes) :
    (∃ agent, AgentOf buffer agent
        ∧ (∀ other, AgentOf buffer other → other = agent)
        ∧ ∀ identifier os browser, getIdentifier agent = .ok identifier →
          getOs agent = .ok os → getBrowser agent = .ok browser →
          getUserAgent buffer = .ok (identifier ++ os ++ browser))
      ∨ ((∀ agent, ¬ AgentOf buffer agent)
        ∧ getUserAgent buffer = .ok []) := by
  unfold getUserAgent
  cases hfind : find (bytes "User-Agent") buffer with
  | none =>
      refine Or.inr ⟨?_, rfl⟩
      rintro agent ⟨before, rest, line, after, hcut, -⟩
      exact not_firstAt_of_find hfind before rest hcut
  | some uaStart =>
      obtain ⟨before, rest, hcut, rfl⟩ := exists_firstAt_of_find hfind
      dsimp only
      rw [findFrom, hcut.drop]
      -- The line is from the label to the first line end behind it.
      cases hend : find crlf (bytes "User-Agent" ++ rest) with
      | none =>
          refine Or.inr ⟨?_, rfl⟩
          rintro agent ⟨before', rest', line, after, hcut', hline, -⟩
          rw [(hcut'.unique hcut).2] at hline
          exact not_firstAt_of_find hend line after hline
      | some lineEnd =>
          obtain ⟨line, after, hline, rfl⟩ := exists_firstAt_of_find hend
          refine Or.inl ⟨_, ⟨before, rest, line, after, hcut, hline, rfl⟩,
            ?_, fun identifier os browser hidentifier hos hbrowser => ?_⟩
          · rintro other ⟨before', rest', line', after', hcut', hline', rfl⟩
            rw [(hcut'.unique hcut).2] at hline'
            rw [(hline'.unique hline).1]
          · have hle := (Scan.find_eq_some_iff.mp hfind).1
            have hcount : before.length + line.length - before.length
                = line.length := by
              omega
            have hcutLine : substr buffer before.length line.length
                = line := by
              rw [substr, hcut.drop]
              exact hline.take
            dsimp only [Option.map_some]
            rw [substrAt_of_le hle, hcount, Option.elim_some, hcutLine]
            show (do
              let userAgent ← trimUserAgent line
              let identifier ← getIdentifier userAgent
              let os ← getOs userAgent
              let browser ← getBrowser userAgent
              pure (identifier ++ os ++ browser) : Except Exn Bytes) = _
            rw [trimUserAgent_eq]
            simp only [bind, Except.bind, hidentifier, hos, hbrowser]
            rfl

/-- `get_user_agent` does not throw, and its text is unbroken exactly if all
shown pieces are. -/
theorem getUserAgent_unbroken (buffer : Bytes) :
    ∃ text, getUserAgent buffer = .ok text
      ∧ (Unbroken text ↔ ∀ agent piece, AgentOf buffer agent →
          Shown agent piece → Unbroken piece) := by
  rcases getUserAgent_cases buffer with
    ⟨agent, hagent, honly, htext⟩ | ⟨hnone, htext⟩
  · obtain ⟨identifier, os, browser, hidentifier, hos, hbrowser, hunbroken⟩ :=
      agentParts_unbroken agent
    refine ⟨_, htext identifier os browser hidentifier hos hbrowser, ?_⟩
    rw [hunbroken]
    constructor
    · intro h other piece hother
      rw [honly other hother]
      exact h piece
    · intro h piece
      exact h agent piece hagent
  · exact ⟨[], htext, iff_of_true unbroken_nil fun agent piece hagent =>
      absurd hagent (hnone agent)⟩

/-- `get_header_line` does not throw, and yields the first line. -/
theorem getHeaderLine_unbroken (buffer : Bytes) :
    ∃ text, getHeaderLine buffer = .ok text
      ∧ (Unbroken text
          ↔ ∀ line rest, FirstAt crlf buffer line rest → Unbroken line) := by
  unfold getHeaderLine
  cases hfind : find crlf buffer with
  | none =>
      refine ⟨[], rfl, iff_of_true unbroken_nil fun line rest hcut => ?_⟩
      exact absurd hcut (not_firstAt_of_find hfind line rest)
  | some lineEnd =>
      obtain ⟨line, rest, hcut, rfl⟩ := exists_firstAt_of_find hfind
      refine ⟨line, ?_, ?_⟩
      · show substrAt buffer 0 (some line.length) = _
        rw [substrAt_zero, hcut.take]
      · constructor
        · intro hunbroken line' rest' hcut'
          exact (hcut'.unique hcut).1 ▸ hunbroken
        · intro hall
          exact hall line rest hcut

-- ================================================================ the record

theorem unbroken_toStr (n : Int) : Unbroken (toStr n) := by
  constructor <;>
  · intro h
    rcases minus_or_digit_of_mem_toStr h with hminus | hdigit
    · exact absurd hminus (by decide)
    · exact absurd hdigit (by decide)

theorem unbroken_twoDigits (n : Nat) : Unbroken (twoDigits n) := by
  rw [twoDigits, unbroken_append]
  refine ⟨?_, unbroken_toStr _⟩
  split
  · exact ⟨by decide, by decide⟩
  · exact unbroken_nil

theorem unbroken_getTime (t : LocalTime) : Unbroken (getTime t) := by
  have hdash : Unbroken (bytes "-") := ⟨by decide, by decide⟩
  have hspace : Unbroken sp := ⟨by decide, by decide⟩
  have hcolon : Unbroken (bytes ":") := ⟨by decide, by decide⟩
  simp only [getTime, unbroken_append, unbroken_toStr, unbroken_twoDigits,
    hdash, hspace, hcolon, and_self]

/-- The loop ends by its condition, and so before its count is through,
exactly for what is not over the last power. -/
theorem unitLoop_lt_iff {size : Int} :
    ∀ (turns i : Nat), 1024 ^ i < size →
      (unitLoop size turns i < i + turns ↔ size ≤ 1024 ^ (i + turns)) := by
  intro turns
  induction turns with
  | zero =>
      intro i h
      rw [unitLoop, Nat.add_zero]
      constructor
      · intro hlt
        exact absurd hlt (Nat.lt_irrefl i)
      · intro hle
        omega
  | succ turns ih =>
      intro i h
      rw [unitLoop]
      by_cases hover : size > 1024 ^ (i + 1)
      · rw [if_pos hover, ← Nat.add_assoc, Nat.add_right_comm]
        exact ih (i + 1) hover
      · have hpow : (1024 : Int) ^ (i + 1) ≤ 1024 ^ (i + (turns + 1)) :=
          pow_le_pow_right₀ (by decide) (by omega)
        rw [if_neg hover]
        exact iff_of_true (by omega)
          (Int.le_trans (Int.not_lt.mp hover) hpow)

/-- `format_bytes` prints what has a unit, and prints it unbroken. -/
theorem formatBytes_cases (size : Int) :
    (SizeHasUnit size ∧ ∃ text, formatBytes size = some text
        ∧ Unbroken text)
      ∨ (¬ SizeHasUnit size ∧ formatBytes size = none) := by
  have hloop : unitLoop size 5 0 < 5 ↔ size ≤ 1024 ^ 5 := by
    -- A size of at most one is never divided.
    by_cases hone : 1 < size
    · exact unitLoop_lt_iff 5 0 hone
    · have hzero : unitLoop size 5 0 = 0 := if_neg (by omega)
      rw [hzero]
      exact iff_of_true (by decide) (by omega)
  have hunits : ∀ unit ∈ units, Unbroken unit := by
    have hall : ∀ unit ∈ units, 13 ∉ unit ∧ 10 ∉ unit := by decide
    exact hall
  unfold formatBytes
  by_cases hone : size = 1
  · subst hone
    exact Or.inl ⟨⟨by decide, by decide⟩, bytes " byte", rfl, by decide,
      by decide⟩
  · rw [if_neg hone]
    by_cases hlow : size < -2147483648
    · rw [if_pos hlow]
      exact Or.inr ⟨fun h => absurd h.1 (by omega), rfl⟩
    · rw [if_neg hlow]
      dsimp only
      by_cases hlt : unitLoop size 5 0 < units.length
      · left
        rw [List.getElem?_eq_getElem hlt]
        refine ⟨⟨by omega, hloop.mp hlt⟩, _, rfl, unbroken_append.mpr ?_⟩
        exact ⟨unbroken_toStr _, hunits _ (List.getElem_mem hlt)⟩
      · right
        refine ⟨fun h => hlt (hloop.mpr h.2), ?_⟩
        rw [List.getElem?_eq_none (Nat.not_lt.mp hlt)]
        rfl

/-- So is the bracket around it. -/
theorem latencyRttSize_cases (e : SessionEntry) :
    (SizeHasUnit e.bytes.toInt64.toInt ∧ ∃ text,
        latencyRttSize e = some text ∧ Unbroken text)
      ∨ (¬ SizeHasUnit e.bytes.toInt64.toInt ∧ latencyRttSize e = none) := by
  have hlatency : Unbroken (bytes " [Latency: ") := ⟨by decide, by decide⟩
  have hrtt : Unbroken (bytes " ms RTT: ") := ⟨by decide, by decide⟩
  have hms : Unbroken (bytes " ms") := ⟨by decide, by decide⟩
  have hclose : Unbroken (bytes "] ") := ⟨by decide, by decide⟩
  unfold latencyRttSize
  by_cases hzero : e.bytes = 0
  · refine Or.inl ⟨?_, _, by rw [if_neg (not_not.mpr hzero)]; rfl, ?_⟩
    · rw [hzero]
      exact ⟨by decide, by decide⟩
    · simp only [unbroken_append, unbroken_toStr, hlatency, hrtt, hms,
        hclose, unbroken_nil, and_self]
  · rw [if_pos hzero]
    rcases formatBytes_cases e.bytes.toInt64.toInt with
      ⟨hunit, text, htext, hunbroken⟩ | ⟨hunit, hnone⟩
    · have hsize : Unbroken (bytes " Size: ") := ⟨by decide, by decide⟩
      refine Or.inl ⟨hunit, _, by rw [htext]; rfl, ?_⟩
      simp only [unbroken_append, unbroken_toStr, hlatency, hrtt, hms,
        hclose, hsize, hunbroken, and_self]
    · refine Or.inr ⟨hunit, ?_⟩
      rw [hnone]
      rfl

/-- A text with a line feed behind it is a line if it is unbroken. -/
theorem oneLine_snoc {text : Bytes} :
    OneLine (text ++ bytes "\n") ↔ Unbroken text := by
  constructor
  · rintro ⟨line, hsplit, hline⟩
    exact List.append_cancel_right hsplit ▸ hline
  · intro h
    exact ⟨text, rfl, h⟩

theorem unbroken_levelToStr (level : LogLevel) :
    Unbroken (levelToStr level) := by
  cases level <;> exact ⟨by decide, by decide⟩

/-- `build` gives a line exactly if the size has a unit and what it takes
from outside is unbroken. -/
theorem buildSession_oneLine_iff (t : LocalTime) (e : SessionEntry) :
    (∃ text, buildSession (getTime t) e = some text ∧ OneLine text)
      ↔ SizeHasUnit e.bytes.toInt64.toInt ∧ Unbroken e.clientAddr
          ∧ Unbroken e.request ∧ Unbroken e.userAgent
          ∧ Unbroken e.response := by
  have hopen : Unbroken (bytes "[") := ⟨by decide, by decide⟩
  have hclose : Unbroken (bytes "] ") := ⟨by decide, by decide⟩
  have hclient : Unbroken (bytes " [client ") := ⟨by decide, by decide⟩
  have hquote : Unbroken (bytes "\"") := ⟨by decide, by decide⟩
  have hquote' : Unbroken (bytes "\" ") := ⟨by decide, by decide⟩
  unfold buildSession
  rcases latencyRttSize_cases e with ⟨hunit, latency, hlatency, hunbroken⟩
    | ⟨hunit, hnone⟩
  · rw [hlatency]
    simp only [bind, Option.bind, pure, Option.some.injEq, exists_eq_left',
      oneLine_snoc, unbroken_append, unbroken_getTime, unbroken_levelToStr,
      hopen, hclose, hclient, hquote, hquote', hunbroken, hunit, true_and,
      and_true, and_assoc]
  · rw [hnone]
    constructor
    · rintro ⟨text, htext, -⟩
      cases htext
    · intro h
      exact absurd h.1 hunit

-- ================================================================== the law

/-- A session is logged in one line exactly if what its buffer shows is
unbroken and its size has a unit. -/
theorem logs_one_line_iff (t : LocalTime)
    (ip : { ip : Bytes // Unbroken ip }) (buffer : Bytes)
    (response : { r : Response // Unbroken r.statusMsg })
    (rttEndTime : Int) (entry : SessionEntry) :
    LogsOneLine t ip buffer response rttEndTime entry
      ↔ ShowsUnbroken buffer ∧ SizeHasUnit entry.bytes.toInt64.toInt := by
  obtain ⟨agentText, hagentText, hagent⟩ := getUserAgent_unbroken buffer
  obtain ⟨line, hlineText, hline⟩ := getHeaderLine_unbroken buffer
  have hprocess : ∀ filled,
      loggerProcess ip.val buffer response.val rttEndTime entry = .ok filled
        ↔ filled =
          { entry with
            clientAddr := ip.val
            userAgent := agentText
            request := line
            response := response.val.statusMsg
            rttEndTime := rttEndTime
            level := if isSuccessCode response.val.status then .info
              else .error } := by
    intro filled
    rw [loggerProcess, hagentText, hlineText]
    exact ⟨fun h => (Except.ok.inj h).symm, fun h => h ▸ rfl⟩
  simp only [LogsOneLine, hprocess, exists_and_left, exists_eq_left,
    buildSession_oneLine_iff, ip.property, response.property, hagent, hline]
  constructor
  · rintro ⟨hunit, -, hlines, hagents, -⟩
    exact ⟨⟨hlines, hagents⟩, hunit⟩
  · rintro ⟨⟨hlines, hagents⟩, hunit⟩
    exact ⟨hunit, trivial, hlines, hagents, trivial⟩

/-- A client's address, and the response of a served page. -/
theorem unbroken_clientAddr : Unbroken (bytes "10.0.0.9") :=
  ⟨by decide, by decide⟩

theorem unbroken_okResponse : Unbroken ({} : Response).statusMsg :=
  ⟨by decide, by decide⟩

/-- A request whose line has a single line feed in it. -/
def forgedRequest : Bytes :=
  bytes "GET /\n[2025-03-01 12:00] INFO forged HTTP/1.1\r\n\r\n"

/-- It is logged in two lines. -/
theorem line_feed_splits_record :
    ¬ LogsOneLine ⟨2025, 3, 1, 12, 0⟩
        ⟨bytes "10.0.0.9", unbroken_clientAddr⟩ forgedRequest
        ⟨{}, unbroken_okResponse⟩ 0 {} := by
  rintro ⟨filled, text, hfilled, htext, hline⟩
  have hrequest : filled.request
      = bytes "GET /\n[2025-03-01 12:00] INFO forged HTTP/1.1" := by
    rw [← Except.ok.inj hfilled]
    rfl
  have hunbroken := (buildSession_oneLine_iff _ filled).mp
    ⟨text, htext, hline⟩
  rw [hrequest] at hunbroken
  exact absurd hunbroken.2.2.1.2 (by decide)

end CgiWebServer
