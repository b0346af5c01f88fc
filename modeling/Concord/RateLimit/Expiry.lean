import Mathlib.Data.List.Dedup
import Concord.Codegen.RateLimit
import Concord.RateLimit.Window

/-!
# Concord.RateLimit.Expiry

Expiry of idle windows, seen from the calls: the limiter that removes windows
against one that keeps them all, on the same steps of the same calls.

A window that is removed comes back full.  The calls see no difference as long
as a window that is removed was full, and no call waited for it.
-/

namespace Concord

/-! ## quotas -/

/-- The quota of a window: its cells, spread over it, with all of them at once as burst. -/
def quotaOf (window : RateLimitWindow) : Gcra.Quota := ⟨window.per / window.max, window.max⟩

/-- A use that its window has room for. -/
def WindowUse.Fits (use : WindowUse) : Prop :=
  use.cost ≤ use.spec.window.max ∧ use.spec.window.max ≤ use.spec.window.per

/-- A window with no more cells than nanoseconds has its quota. -/
theorem quotaForWindow_eq (ctx : RateLimitContext) {window : RateLimitWindow}
    (h : window.max ≤ window.per) : quotaForWindow ctx window = .ok (quotaOf window) := by
  have hpos := window.max_pos
  have hper : window.per ≠ 0 := by omega
  have hcell : window.per / window.max ≠ 0 := by
    have := Nat.div_pos h hpos
    omega
  unfold quotaForWindow
  rw [if_neg hper, if_neg hcell]
  rfl

/-! ## pruning -/

variable {limiter : GovernorRateLimiter} {ctx : RateLimitContext} {now : Nat}

/-- What pruning leaves of a map that is not too large: entries are as they
were, and the ones that are gone had been idle. -/
structure Pruned (limiter : GovernorRateLimiter) (now : Nat) (state pruned : GovernorWindowState) :
    Prop where
  limiters : pruned.limiters = state.limiters
  kept : ∀ spec entry, pruned.windows.lookup spec = some entry →
    state.windows.lookup spec = some entry
  idle : ∀ spec entry, state.windows.lookup spec = some entry →
    pruned.windows.lookup spec = none → entry.lastUsed + limiter.windowIdleTtl < now

/-- Nothing has to go. -/
theorem Pruned.refl (limiter : GovernorRateLimiter) (now : Nat) (state : GovernorWindowState) :
    Pruned limiter now state state where
  limiters := rfl
  kept _ _ h := h
  idle _ _ h hnone := by
    rw [h] at hnone
    cases hnone

/-- The windows of a map are among those of a run. -/
def WithinSpecs (specs : List GovernorWindowSpec) (state : GovernorWindowState) : Prop :=
  ∀ spec ∈ state.windows, spec ∈ specs

/-- A window of the plan is put into the map. -/
theorem WithinSpecs.insert {specs : List GovernorWindowSpec} {state : GovernorWindowState}
    (h : WithinSpecs specs state) {spec : GovernorWindowSpec} (hspec : spec ∈ specs)
    {entry : GovernorWindowEntry} {nextPruneAt : Option Nat} {limiters : List Gcra.Limiter} :
    WithinSpecs specs ⟨state.windows.insert spec entry, nextPruneAt, limiters⟩ := by
  intro other hmem
  cases (AList.mem_insert _).mp hmem with
  | inl heq => exact heq ▸ hspec
  | inr hmem => exact h other hmem

/-- A map with room for all windows in use is pruned of idle ones only. -/
theorem pruneWindows_pruned {specs : List GovernorWindowSpec} {state : GovernorWindowState}
    (hwithin : WithinSpecs specs state) (hroom : specs.length ≤ limiter.maxWindowEntries) :
    Pruned limiter now state (pruneWindows limiter state now) := by
  have hsize := Table.size_le_of_subset hwithin
  by_cases httl : limiter.windowIdleTtl = 0
  · have hsmall : ¬ state.windows.size > limiter.maxWindowEntries := by omega
    have hwindows : (pruneWindows limiter state now).windows = state.windows := by
      simp only [pruneWindows, if_pos httl, if_neg hsmall]
    refine ⟨rfl, ?_, ?_⟩
    · intro spec entry h
      rw [hwindows] at h
      exact h
    · intro spec entry h hnone
      rw [hwindows, h] at hnone
      cases hnone
  · have hretained : (state.windows.retain
        (fun _ entry => now - entry.lastUsed ≤ limiter.windowIdleTtl)).size ≤
          state.windows.size := List.length_filter_le _ _
    have hsmall : ¬ (state.windows.retain
        (fun _ entry => now - entry.lastUsed ≤ limiter.windowIdleTtl)).size >
          limiter.maxWindowEntries := by omega
    have hwindows : (pruneWindows limiter state now).windows = state.windows.retain
        (fun _ entry => now - entry.lastUsed ≤ limiter.windowIdleTtl) := by
      simp only [pruneWindows, if_neg httl, if_neg hsmall]
    refine ⟨rfl, ?_, ?_⟩
    · intro spec entry h
      rw [hwindows, Table.lookup_retain_eq_some] at h
      exact h.1
    · intro spec entry h hnone
      rw [hwindows, Table.lookup_retain, h] at hnone
      simp only [Option.filter_some, decide_eq_true_eq, ite_eq_right_iff, reduceCtorEq,
        imp_false, Nat.not_le] at hnone
      omega

/-- The same of pruning that is done when it is due. -/
theorem pruneWindowsIfNeeded_pruned {specs : List GovernorWindowSpec} {state : GovernorWindowState}
    (hwithin : WithinSpecs specs state) (hroom : specs.length ≤ limiter.maxWindowEntries) :
    Pruned limiter now state (pruneWindowsIfNeeded limiter state now) := by
  unfold pruneWindowsIfNeeded
  split
  · exact .refl limiter now state
  · split
    · exact .refl limiter now state
    · exact pruneWindows_pruned hwithin hroom

/-- Pruning brings no window into the map. -/
theorem Pruned.within {specs : List GovernorWindowSpec} {state pruned : GovernorWindowState}
    (h : Pruned limiter now state pruned) (hwithin : WithinSpecs specs state) :
    WithinSpecs specs pruned := by
  intro spec hmem
  obtain ⟨entry, hentry⟩ := Option.isSome_iff_exists.mp (AList.lookup_isSome.mpr hmem)
  have hstate := h.kept spec entry hentry
  apply hwithin
  rw [← AList.lookup_isSome, hstate]
  rfl

/-! ## what a map says of a window -/

/-- The limiter of a window. -/
def GovernorWindowState.limiterAt (state : GovernorWindowState) (spec : GovernorWindowSpec) :
    Option Nat :=
  (state.windows.lookup spec).map (·.limiter)

/-- Every window of a map has a limiter of its own, of its quota. -/
structure GovernorWindowState.Sound (state : GovernorWindowState) : Prop where
  made : ∀ spec id, state.limiterAt spec = some id →
    ∃ tat, state.limiters[id]? = some ⟨quotaOf spec.window, tat⟩
  apart : ∀ spec spec' id, state.limiterAt spec = some id → state.limiterAt spec' = some id →
    spec = spec'

/-- The limiter of a window is that of its entry. -/
theorem limiterAt_eq_some_iff {state : GovernorWindowState} {spec : GovernorWindowSpec} {id : Nat} :
    state.limiterAt spec = some id ↔
      ∃ entry, state.windows.lookup spec = some entry ∧ entry.limiter = id :=
  Option.map_eq_some_iff

/-- A window without an entry has no limiter. -/
theorem limiterAt_eq_none_iff {state : GovernorWindowState} {spec : GovernorWindowSpec} :
    state.limiterAt spec = none ↔ state.windows.lookup spec = none :=
  Option.map_eq_none_iff

/-- A window that is left after pruning has the limiter it had. -/
theorem Pruned.limiterAt {state pruned : GovernorWindowState}
    (h : Pruned limiter now state pruned) {spec : GovernorWindowSpec} {id : Nat}
    (hid : pruned.limiterAt spec = some id) : state.limiterAt spec = some id := by
  obtain ⟨entry, hentry, rfl⟩ := limiterAt_eq_some_iff.mp hid
  exact limiterAt_eq_some_iff.mpr ⟨entry, h.kept spec entry hentry, rfl⟩

/-- Pruning keeps the limiters sound. -/
theorem Pruned.sound {state pruned : GovernorWindowState} (h : Pruned limiter now state pruned)
    (hsound : state.Sound) : pruned.Sound where
  made spec id hid := by
    rw [h.limiters]
    exact hsound.made spec id (h.limiterAt hid)
  apart spec spec' id hid hid' := hsound.apart spec spec' id (h.limiterAt hid) (h.limiterAt hid')

/-! ## finding a limiter -/

/-- A limiter is found in a map, or made and put there. -/
structure Found (spec : GovernorWindowSpec) (now : Nat) (before after : GovernorWindowState)
    (id : Nat) : Prop where
  limiterAt : after.limiterAt = Function.update before.limiterAt spec (some id)
  limiters : (before.limiterAt spec = some id ∧ after.limiters = before.limiters) ∨
    (before.limiterAt spec = none ∧ id = before.limiters.length ∧
      after.limiters = before.limiters ++ [Gcra.direct (quotaOf spec.window) now])

/-- A new entry changes the limiter of its window alone. -/
theorem limiterAt_insert (state : GovernorWindowState) (spec : GovernorWindowSpec)
    (entry : GovernorWindowEntry) (nextPruneAt : Option Nat) (limiters : List Gcra.Limiter) :
    GovernorWindowState.limiterAt ⟨state.windows.insert spec entry, nextPruneAt, limiters⟩ =
      Function.update state.limiterAt spec (some entry.limiter) := by
  funext spec'
  unfold GovernorWindowState.limiterAt
  by_cases h : spec' = spec
  · subst h
    rw [AList.lookup_insert, Function.update_self]
    rfl
  · rw [AList.lookup_insert_ne h, Function.update_of_ne h]

/-- `limiter_for` prunes and then finds the limiter. -/
theorem limiterFor_found (ctx : RateLimitContext) (now : Nat) {specs : List GovernorWindowSpec}
    {state : GovernorWindowState} {spec : GovernorWindowSpec} (hwithin : WithinSpecs specs state)
    (hroom : specs.length ≤ limiter.maxWindowEntries) (hspec : spec ∈ specs)
    (hfits : spec.window.max ≤ spec.window.per) :
    ∃ pruned after id, Pruned limiter now state pruned ∧
      limiterFor limiter ctx spec now state = (after, .ok id) ∧ Found spec now pruned after id ∧
      WithinSpecs specs after := by
  have hpruned : Pruned limiter now state (pruneWindowsIfNeeded limiter state now) :=
    pruneWindowsIfNeeded_pruned hwithin hroom
  have hprunedWithin := hpruned.within hwithin
  unfold limiterFor
  simp only
  generalize pruneWindowsIfNeeded limiter state now = pruned at hpruned hprunedWithin ⊢
  cases hlookup : pruned.windows.lookup spec with
  | some entry =>
      refine ⟨pruned, _, entry.limiter, hpruned, rfl, ⟨limiterAt_insert _ _ _ _ _, ?_⟩,
        hprunedWithin.insert hspec⟩
      exact .inl ⟨limiterAt_eq_some_iff.mpr ⟨entry, hlookup, rfl⟩, rfl⟩
  | none =>
      have hnew : spec ∉ pruned.windows := by
        rw [← AList.lookup_eq_none]
        exact hlookup
      have hsize := Table.size_lt_of_subset hprunedWithin hspec hnew
      have hroomLeft : ¬ pruned.windows.size ≥ limiter.maxWindowEntries := by omega
      simp only [if_neg hroomLeft, quotaForWindow_eq ctx hfits]
      refine ⟨pruned, _, pruned.limiters.length, hpruned, rfl, ⟨limiterAt_insert _ _ _ _ _, ?_⟩,
        hprunedWithin.insert hspec⟩
      exact .inr ⟨limiterAt_eq_none_iff.mpr hlookup, rfl, rfl⟩

/-- A map that is never pruned finds or makes the limiter of a window. -/
theorem keptLimiterFor_found (ctx : RateLimitContext) (now : Nat) (state : GovernorWindowState)
    {spec : GovernorWindowSpec} (hfits : spec.window.max ≤ spec.window.per) :
    ∃ after id, keptLimiterFor ctx spec now state = (after, .ok id) ∧ Found spec now state after id := by
  unfold keptLimiterFor
  cases hlookup : state.windows.lookup spec with
  | some entry =>
      have hid : state.limiterAt spec = some entry.limiter :=
        limiterAt_eq_some_iff.mpr ⟨entry, hlookup, rfl⟩
      refine ⟨state, entry.limiter, rfl, ?_, .inl ⟨hid, rfl⟩⟩
      rw [← hid, Function.update_eq_self]
  | none =>
      rw [quotaForWindow_eq ctx hfits]
      exact ⟨_, _, rfl, limiterAt_insert _ _ _ _ _,
        .inr ⟨limiterAt_eq_none_iff.mpr hlookup, rfl, rfl⟩⟩

/-- To find a limiter leaves those of the other windows in place. -/
theorem Found.extends {spec : GovernorWindowSpec} {before after : GovernorWindowState} {id : Nat}
    (h : Found spec now before after id) {other : GovernorWindowSpec} {otherId : Nat}
    (hother : before.limiterAt other = some otherId) : after.limiterAt other = some otherId := by
  rw [h.limiterAt]
  by_cases heq : other = spec
  · subst heq
    rw [Function.update_self]
    cases h.limiters with
    | inl h => rw [← h.1, hother]
    | inr h =>
        rw [h.1] at hother
        cases hother
  · rw [Function.update_of_ne heq, hother]

/-- A limiter that was there is there with its state. -/
theorem Found.getElem? {spec : GovernorWindowSpec} {before after : GovernorWindowState} {id : Nat}
    (h : Found spec now before after id) {otherId : Nat} {gcra : Gcra.Limiter}
    (hgcra : before.limiters[otherId]? = some gcra) : after.limiters[otherId]? = some gcra := by
  cases h.limiters with
  | inl h => rw [h.2, hgcra]
  | inr h =>
      obtain ⟨hlt, _⟩ := List.getElem?_eq_some_iff.mp hgcra
      rw [h.2.2, List.getElem?_append_left hlt, hgcra]

/-- A limiter that is made starts full. -/
theorem Found.getElem?_new {spec : GovernorWindowSpec} {before after : GovernorWindowState}
    {id : Nat} (h : Found spec now before after id) (hnew : before.limiterAt spec = none) :
    after.limiters[id]? = some (Gcra.direct (quotaOf spec.window) now) := by
  cases h.limiters with
  | inl h =>
      rw [h.1] at hnew
      cases hnew
  | inr h => rw [h.2.2, h.2.1, List.getElem?_concat_length]

/-- To find or make a limiter keeps the limiters sound. -/
theorem Found.sound {spec : GovernorWindowSpec} {before after : GovernorWindowState} {id : Nat}
    (h : Found spec now before after id) (hsound : before.Sound) : after.Sound := by
  have hother : ∀ {other otherId}, other ≠ spec → after.limiterAt other = some otherId →
      before.limiterAt other = some otherId := by
    intro other otherId hne hid
    rw [h.limiterAt, Function.update_of_ne hne] at hid
    exact hid
  have hself : ∀ {otherId}, after.limiterAt spec = some otherId → otherId = id := by
    intro otherId hid
    rw [h.limiterAt, Function.update_self] at hid
    exact (Option.some.inj hid).symm
  -- the limiter that is found belongs to no other window
  have hown : ∀ {other}, other ≠ spec → before.limiterAt other ≠ some id := by
    intro other hne hid
    cases h.limiters with
    | inl h => exact hne (hsound.apart other spec id hid h.1)
    | inr h =>
        obtain ⟨tat, htat⟩ := hsound.made other id hid
        obtain ⟨hlt, _⟩ := List.getElem?_eq_some_iff.mp htat
        rw [h.2.1] at hlt
        exact Nat.lt_irrefl _ hlt
  constructor
  · intro other otherId hid
    by_cases hne : other = spec
    · subst hne
      rw [hself hid]
      cases hbefore : before.limiterAt other with
      | none => exact ⟨now, h.getElem?_new hbefore⟩
      | some beforeId =>
          obtain ⟨tat, htat⟩ := hsound.made other beforeId hbefore
          rw [← hself (h.extends hbefore)]
          exact ⟨tat, h.getElem? htat⟩
    · obtain ⟨tat, htat⟩ := hsound.made other otherId (hother hne hid)
      exact ⟨tat, h.getElem? htat⟩
  · intro one other otherId hone hid
    by_cases hneOne : one = spec
    · by_cases hneOther : other = spec
      · rw [hneOne, hneOther]
      · subst hneOne
        rw [hself hone] at hid
        exact absurd (hother hneOther hid) (hown hneOther)
    · by_cases hneOther : other = spec
      · subst hneOther
        rw [hself hid] at hone
        exact absurd (hother hneOne hone) (hown hneOne)
      · exact hsound.apart one other otherId (hother hneOne hone) (hother hneOther hid)

/-! ## the two maps -/

/-- The maps agree from now on: what the first one has is as good as in the
second, and what it has not is full there. -/
structure Matching (now : Nat) (state kept : GovernorWindowState) : Prop where
  alike : ∀ spec id, state.limiterAt spec = some id →
    ∃ keptId gcra keptGcra, kept.limiterAt spec = some keptId ∧
      state.limiters[id]? = some gcra ∧ kept.limiters[keptId]? = some keptGcra ∧
      gcra.Alike now keptGcra
  full : ∀ spec keptId, kept.limiterAt spec = some keptId → state.limiterAt spec = none →
    ∃ keptGcra, kept.limiters[keptId]? = some keptGcra ∧ keptGcra.tat ≤ now

/-- Two maps that match go on matching as time passes. -/
theorem Matching.later {clock : Nat} {state kept : GovernorWindowState}
    (h : Matching clock state kept) (hle : clock ≤ now) : Matching now state kept where
  alike spec id hid := by
    obtain ⟨keptId, gcra, keptGcra, hkept, hgcra, hkeptGcra, halike⟩ := h.alike spec id hid
    exact ⟨keptId, gcra, keptGcra, hkept, hgcra, hkeptGcra, halike.later hle⟩
  full spec keptId hkept hnone := by
    obtain ⟨keptGcra, hkeptGcra, hfull⟩ := h.full spec keptId hkept hnone
    exact ⟨keptGcra, hkeptGcra, hfull.trans hle⟩

/-- The windows that pruning takes out of a map are full. -/
def OnlyFullGo (limiter : GovernorRateLimiter) (now : Nat) (state : GovernorWindowState) : Prop :=
  ∀ spec entry, state.windows.lookup spec = some entry →
    entry.lastUsed + limiter.windowIdleTtl < now →
      ∀ gcra, state.limiters[entry.limiter]? = some gcra → gcra.tat ≤ now

/-- Two maps match after one has lost windows that are full. -/
theorem Matching.pruned {state pruned kept : GovernorWindowState} (h : Matching now state kept)
    (hpruned : Pruned limiter now state pruned) (hfull : OnlyFullGo limiter now state) :
    Matching now pruned kept where
  alike spec id hid := by
    rw [hpruned.limiters]
    exact h.alike spec id (hpruned.limiterAt hid)
  full spec keptId hkept hnone := by
    cases hid : state.limiterAt spec with
    | none => exact h.full spec keptId hkept hid
    | some id =>
        obtain ⟨keptId', gcra, keptGcra, hkept', hgcra, hkeptGcra, halike⟩ := h.alike spec id hid
        rw [hkept] at hkept'
        cases hkept'
        obtain ⟨entry, hentry, rfl⟩ := limiterAt_eq_some_iff.mp hid
        have hidle := hpruned.idle spec entry hentry (limiterAt_eq_none_iff.mp hnone)
        have htat := hfull spec entry hentry hidle gcra hgcra
        have hsame := halike.2
        exact ⟨keptGcra, hkeptGcra, by omega⟩

/-- Two maps match after the limiter of a window has been found in both. -/
theorem Matching.found {state after kept keptAfter : GovernorWindowState}
    {spec : GovernorWindowSpec} {id keptId : Nat} (h : Matching now state kept)
    (hkeptSound : kept.Sound) (hfound : Found spec now state after id)
    (hkeptFound : Found spec now kept keptAfter keptId) : Matching now after keptAfter := by
  have hself : after.limiterAt spec = some id := by rw [hfound.limiterAt, Function.update_self]
  have hkeptSelf : keptAfter.limiterAt spec = some keptId := by
    rw [hkeptFound.limiterAt, Function.update_self]
  constructor
  · intro other otherId hid
    cases hstate : state.limiterAt other with
    | some stateId =>
        obtain ⟨keptId', gcra, keptGcra, hkept, hgcra, hkeptGcra, halike⟩ :=
          h.alike other stateId hstate
        have hsame := hfound.extends hstate
        rw [hid] at hsame
        cases hsame
        exact ⟨keptId', gcra, keptGcra, hkeptFound.extends hkept, hfound.getElem? hgcra,
          hkeptFound.getElem? hkeptGcra, halike⟩
    | none =>
        have heq : other = spec := by
          by_contra hne
          rw [hfound.limiterAt, Function.update_of_ne hne, hstate] at hid
          cases hid
        subst heq
        rw [hself] at hid
        cases hid
        refine ⟨keptId, Gcra.direct (quotaOf other.window) now, ?_⟩
        cases hkept : kept.limiterAt other with
        | none =>
            exact ⟨_, hkeptSelf, hfound.getElem?_new hstate, hkeptFound.getElem?_new hkept,
              .refl _ _⟩
        | some keptId' =>
            obtain ⟨keptGcra, hkeptGcra, hfull⟩ := h.full other keptId' hkept hstate
            obtain ⟨tat, htat⟩ := hkeptSound.made other keptId' hkept
            rw [hkeptGcra] at htat
            cases htat
            have hsame := hkeptFound.extends hkept
            rw [hkeptSelf] at hsame
            cases hsame
            exact ⟨_, hkeptSelf, hfound.getElem?_new hstate, hkeptFound.getElem? hkeptGcra,
              Gcra.alike_of_full rfl (Nat.le_refl now) hfull⟩
  · intro other otherId hkept hnone
    have hne : other ≠ spec := by
      intro heq
      rw [heq, hself] at hnone
      cases hnone
    rw [hkeptFound.limiterAt, Function.update_of_ne hne] at hkept
    rw [hfound.limiterAt, Function.update_of_ne hne] at hnone
    obtain ⟨keptGcra, hkeptGcra, hfull⟩ := h.full other otherId hkept hnone
    exact ⟨keptGcra, hkeptFound.getElem? hkeptGcra, hfull⟩

/-- A limiter is changed where it is. -/
theorem GovernorWindowState.setLimiter_limiterAt (state : GovernorWindowState) (id : Nat)
    (gcra : Gcra.Limiter) : (state.setLimiter id gcra).limiterAt = state.limiterAt := rfl

/-- The limiter of a window is the one it was set to. -/
theorem GovernorWindowState.Sound.getElem?_set {state : GovernorWindowState} (hsound : state.Sound)
    {spec : GovernorWindowSpec} {id : Nat} (hid : state.limiterAt spec = some id)
    (gcra : Gcra.Limiter) : (state.setLimiter id gcra).limiters[id]? = some gcra := by
  obtain ⟨tat, htat⟩ := hsound.made spec id hid
  obtain ⟨hlt, _⟩ := List.getElem?_eq_some_iff.mp htat
  exact List.getElem?_set_self hlt

/-- The other limiters stay. -/
theorem GovernorWindowState.getElem?_setLimiter_of_ne (state : GovernorWindowState) {id other : Nat}
    (hne : id ≠ other) (gcra : Gcra.Limiter) :
    (state.setLimiter id gcra).limiters[other]? = state.limiters[other]? :=
  List.getElem?_set_ne hne

/-- A limiter of the same quota keeps the limiters sound. -/
theorem GovernorWindowState.Sound.setLimiter {state : GovernorWindowState} (hsound : state.Sound)
    {spec : GovernorWindowSpec} {id : Nat} (hid : state.limiterAt spec = some id)
    {gcra : Gcra.Limiter} (hquota : gcra.quota = quotaOf spec.window) :
    (state.setLimiter id gcra).Sound where
  made other otherId hother := by
    rw [state.setLimiter_limiterAt] at hother
    by_cases heq : id = otherId
    · subst heq
      rw [hsound.apart other spec id hother hid, hsound.getElem?_set hid, ← hquota]
      exact ⟨gcra.tat, rfl⟩
    · rw [state.getElem?_setLimiter_of_ne heq]
      exact hsound.made other otherId hother
  apart := hsound.apart

/-- Cells granted by both limiters of a window. -/
theorem Matching.granted {state kept : GovernorWindowState} {spec : GovernorWindowSpec}
    {id keptId : Nat} {gcra keptGcra : Gcra.Limiter} (h : Matching now state kept)
    (hsound : state.Sound) (hkeptSound : kept.Sound) (hid : state.limiterAt spec = some id)
    (hkeptId : kept.limiterAt spec = some keptId) (halike : gcra.Alike now keptGcra) :
    Matching now (state.setLimiter id gcra) (kept.setLimiter keptId keptGcra) where
  alike other otherId hother := by
    rw [state.setLimiter_limiterAt] at hother
    by_cases heq : id = otherId
    · subst heq
      rw [hsound.apart other spec id hother hid]
      exact ⟨keptId, gcra, keptGcra, hkeptId, hsound.getElem?_set hid _,
        hkeptSound.getElem?_set hkeptId _, halike⟩
    · obtain ⟨otherKept, otherGcra, otherKeptGcra, hkept, hgcra, hkeptGcra, hother'⟩ :=
        h.alike other otherId hother
      have hne : keptId ≠ otherKept := by
        intro hsame
        rw [hkeptSound.apart other spec keptId (hsame ▸ hkept) hkeptId, hid] at hother
        exact heq (Option.some.inj hother)
      refine ⟨otherKept, otherGcra, otherKeptGcra, hkept, ?_, ?_, hother'⟩
      · rw [state.getElem?_setLimiter_of_ne heq, hgcra]
      · rw [kept.getElem?_setLimiter_of_ne hne, hkeptGcra]
  full other otherKept hkept hnone := by
    rw [kept.setLimiter_limiterAt] at hkept
    rw [state.setLimiter_limiterAt] at hnone
    have hne : keptId ≠ otherKept := by
      intro hsame
      rw [hkeptSound.apart other spec keptId (hsame ▸ hkept) hkeptId, hid] at hnone
      cases hnone
    obtain ⟨otherGcra, hgcra, hfull⟩ := h.full other otherKept hkept hnone
    refine ⟨otherGcra, ?_, hfull⟩
    rw [kept.getElem?_setLimiter_of_ne hne, hgcra]

/-! ## the two worlds -/

/-- A call is at the same place in both worlds, and waits for the limiters
that the maps have for its window. -/
inductive CallsAgree (state kept : GovernorWindowState) :
    Option AcquireCall → Option AcquireCall → Prop
  | gone : CallsAgree state kept none none
  | free (ctx : RateLimitContext) (left : List (Except RateLimitError WindowUse)) :
      CallsAgree state kept (some ⟨ctx, left, none⟩) (some ⟨ctx, left, none⟩)
  | waits (ctx : RateLimitContext) (use : WindowUse) (left : List (Except RateLimitError WindowUse))
      {id keptId : Nat} (hid : state.limiterAt use.spec = some id)
      (hkeptId : kept.limiterAt use.spec = some keptId) :
      CallsAgree state kept (some ⟨ctx, .ok use :: left, some id⟩)
        (some ⟨ctx, .ok use :: left, some keptId⟩)

/-- Calls that agree do so where the limiters they hold are still there. -/
theorem CallsAgree.mono {state after kept keptAfter : GovernorWindowState}
    {call keptCall : Option AcquireCall} (h : CallsAgree state kept call keptCall)
    (hstate : ∀ spec id, state.limiterAt spec = some id →
      (∃ waiting, call = some waiting ∧ waiting.held = some id) → after.limiterAt spec = some id)
    (hkept : ∀ spec id, kept.limiterAt spec = some id → keptAfter.limiterAt spec = some id) :
    CallsAgree after keptAfter call keptCall := by
  cases h with
  | gone => exact .gone
  | free ctx left => exact .free ctx left
  | waits ctx use left hid hkeptId =>
      exact .waits ctx use left (hstate _ _ hid ⟨_, rfl, rfl⟩) (hkept _ _ hkeptId)

/-- What is left of a call goes through windows of the run that have room. -/
def LeftFits (specs : List GovernorWindowSpec) (left : List (Except RateLimitError WindowUse)) :
    Prop :=
  ∀ use, .ok use ∈ left → use.Fits ∧ use.spec ∈ specs

/-- The world that prunes beside the one that does not. -/
structure Related (specs : List GovernorWindowSpec) (clock : Nat) (world kept : AcquireWorld) :
    Prop where
  within : WithinSpecs specs world.state
  sound : world.state.Sound
  keptSound : kept.state.Sound
  matching : Matching clock world.state kept.state
  calls : ∀ call, CallsAgree world.state kept.state (world.calls call) (kept.calls call)
  fits : ∀ call waiting, world.calls call = some waiting → LeftFits specs waiting.left

/-- The condition of a step: `limiter_for` does not take a window out of the
map that still owes cells or that a call waits for. -/
def DropsOnlyIdle (limiter : GovernorRateLimiter) (world : AcquireWorld) : AcquireEvent → Prop
  | .limiterFor _ now =>
    OnlyFullGo limiter now world.state ∧
      ∀ spec entry, world.state.windows.lookup spec = some entry →
        entry.lastUsed + limiter.windowIdleTtl < now →
          ∀ call waiting, world.calls call = some waiting → waiting.held ≠ some entry.limiter
  | _ => True

/-- The reading of the clock of a step. -/
def AcquireEvent.reading : AcquireEvent → Option Nat
  | .start _ _ => none
  | .limiterFor _ now => some now
  | .checkN _ now => some now

/-- The windows a step brings into a run. -/
def AcquireEvent.uses : AcquireEvent → List (Except RateLimitError WindowUse)
  | .start _ ctx => windowUses ctx
  | _ => []

/-- A step is refused in both worlds, or does the same in both. -/
def SameStep (specs : List GovernorWindowSpec) (clock : Nat) :
    Option (AcquireWorld × AcquireOutcome) → Option (AcquireWorld × AcquireOutcome) → Prop
  | none, none => True
  | some (world, outcome), some (kept, outcome') => outcome = outcome' ∧ Related specs clock world kept
  | _, _ => False

section

variable {specs : List GovernorWindowSpec} {clock : Nat} {world kept : AcquireWorld}

/-- Worlds that are related stay so as time passes. -/
theorem Related.later (h : Related specs clock world kept) (hle : clock ≤ now) :
    Related specs now world kept :=
  { h with matching := h.matching.later hle }

/-- A call that is in the same place in both worlds. -/
theorem Related.setCall (h : Related specs clock world kept) (call : Nat)
    {value keptValue : Option AcquireCall}
    (hvalue : CallsAgree world.state kept.state value keptValue)
    (hfits : ∀ waiting, value = some waiting → LeftFits specs waiting.left) :
    Related specs clock (world.setCall call value) (kept.setCall call keptValue) := by
  refine ⟨h.within, h.sound, h.keptSound, h.matching, ?_, ?_⟩
  · intro other
    unfold AcquireWorld.setCall
    by_cases heq : other = call
    · subst heq
      simp only [Function.update_self]
      exact hvalue
    · simp only [Function.update_of_ne heq]
      exact h.calls other
  · intro other waiting hwaiting
    unfold AcquireWorld.setCall at hwaiting
    by_cases heq : other = call
    · subst heq
      simp only [Function.update_self] at hwaiting
      exact hfits waiting hwaiting
    · simp only [Function.update_of_ne heq] at hwaiting
      exact h.fits other waiting hwaiting

/-- Both worlds go on with the windows that are left. -/
theorem Related.goOn (h : Related specs clock world kept) (call : Nat) (ctx : RateLimitContext)
    {left : List (Except RateLimitError WindowUse)} (hfits : LeftFits specs left) :
    SameStep specs clock (some (world.goOn call ctx left)) (some (kept.goOn call ctx left)) := by
  unfold AcquireWorld.goOn
  by_cases hempty : left.isEmpty = true
  · rw [if_pos hempty, if_pos hempty]
    exact ⟨rfl, h.setCall call .gone (fun _ h => by cases h)⟩
  · rw [if_neg hempty, if_neg hempty]
    refine ⟨rfl, h.setCall call (.free ctx left) ?_⟩
    intro waiting hwaiting
    cases hwaiting
    exact hfits

/-- Finding the limiter of a window keeps the worlds related. -/
theorem Related.found (h : Related specs now world kept) {call : Nat}
    (hdrops : DropsOnlyIdle limiter world (.limiterFor call now))
    {spec : GovernorWindowSpec} {pruned after keptAfter : GovernorWindowState} {id keptId : Nat}
    (hpruned : Pruned limiter now world.state pruned) (hfound : Found spec now pruned after id)
    (hwithin : WithinSpecs specs after) (hkeptFound : Found spec now kept.state keptAfter keptId) :
    Related specs now { world with state := after } { kept with state := keptAfter } where
  within := hwithin
  sound := hfound.sound (hpruned.sound h.sound)
  keptSound := hkeptFound.sound h.keptSound
  matching := (h.matching.pruned hpruned hdrops.1).found h.keptSound hfound hkeptFound
  fits := h.fits
  calls other := by
    refine (h.calls other).mono ?_ (fun _ _ hid => hkeptFound.extends hid)
    intro otherSpec otherId hother hheld
    apply hfound.extends
    obtain ⟨entry, hentry, rfl⟩ := limiterAt_eq_some_iff.mp hother
    cases hlookup : pruned.windows.lookup otherSpec with
    | some entry' =>
        have hsame := hpruned.kept otherSpec entry' hlookup
        rw [hentry] at hsame
        cases hsame
        exact limiterAt_eq_some_iff.mpr ⟨entry, hlookup, rfl⟩
    | none =>
        obtain ⟨waiting, hwaiting, hheld⟩ := hheld
        have hidle := hpruned.idle otherSpec entry hentry hlookup
        exact absurd hheld (hdrops.2 otherSpec entry hentry hidle other waiting hwaiting)

/-- Both worlds look a window up, provided that the one that prunes drops idle windows only. -/
theorem sameStep_limiterFor (h : Related specs now world kept)
    (hroom : specs.length ≤ limiter.maxWindowEntries) {call : Nat}
    (hdrops : DropsOnlyIdle limiter world (.limiterFor call now)) :
    SameStep specs now (limiterForStep (limiterFor limiter) world call now (world.calls call))
      (limiterForStep keptLimiterFor kept call now (kept.calls call)) := by
  have hagree := h.calls call
  have hfits := h.fits call
  generalize world.calls call = waiting at hagree hfits ⊢
  generalize kept.calls call = keptWaiting at hagree ⊢
  cases hagree with
  | gone => trivial
  | waits ctx use left hid hkeptId => trivial
  | free ctx left =>
      cases left with
      | nil => trivial
      | cons first left =>
          cases first with
          | error error => exact ⟨rfl, h.setCall call .gone (fun _ h => by cases h)⟩
          | ok use =>
              have hleft := hfits _ rfl
              obtain ⟨⟨_, hfit⟩, hspec⟩ := hleft use List.mem_cons_self
              obtain ⟨pruned, after, id, hpruned, heq, hfound, hwithin⟩ :=
                limiterFor_found ctx now h.within hroom hspec hfit
              obtain ⟨keptAfter, keptId, hkeptEq, hkeptFound⟩ :=
                keptLimiterFor_found ctx now kept.state hfit
              simp only [limiterForStep, heq, hkeptEq]
              have hrelated := h.found hdrops hpruned hfound hwithin hkeptFound
              refine ⟨rfl, hrelated.setCall call (.waits ctx use left ?_ ?_) ?_⟩
              · rw [hfound.limiterAt, Function.update_self]
              · rw [hkeptFound.limiterAt, Function.update_self]
              · intro waiting hwaiting
                cases hwaiting
                exact hleft

/-- Both worlds ask the limiter they hold, and are answered alike. -/
theorem sameStep_checkN (h : Related specs now world kept) {call : Nat} :
    SameStep specs now (checkNStep world call now (world.calls call))
      (checkNStep kept call now (kept.calls call)) := by
  have hagree := h.calls call
  have hfits := h.fits call
  generalize world.calls call = waiting at hagree hfits ⊢
  generalize kept.calls call = keptWaiting at hagree ⊢
  cases hagree with
  | gone => trivial
  | free ctx left =>
      cases left with
      | nil => trivial
      | cons first left => cases first <;> trivial
  | @waits ctx use left id keptId hid hkeptId =>
      have hleft := hfits _ rfl
      obtain ⟨⟨hcost, _⟩, _⟩ := hleft use List.mem_cons_self
      obtain ⟨keptId', gcra, keptGcra, hkeptId', hgcra, hkeptGcra, halike⟩ :=
        h.matching.alike use.spec id hid
      rw [hkeptId] at hkeptId'
      cases hkeptId'
      obtain ⟨tat, htat⟩ := h.sound.made use.spec id hid
      rw [hgcra] at htat
      have hquota : gcra.quota = quotaOf use.spec.window := by
        rw [Option.some.inj htat]
      have hburst : use.cost ≤ gcra.quota.burst := by
        rw [hquota]
        exact hcost
      have hkeptBurst : use.cost ≤ keptGcra.quota.burst := by
        rw [← halike.1]
        exact hburst
      simp only [checkNStep, hgcra, hkeptGcra, AcquireWorld.checkN,
        if_neg (Nat.not_lt_of_le hburst), if_neg (Nat.not_lt_of_le hkeptBurst)]
      cases Gcra.checkN_alike halike hburst with
      | inl hdenied =>
          obtain ⟨delay, hcheck, hkeptCheck⟩ := hdenied
          rw [hcheck, hkeptCheck]
          exact ⟨rfl, h⟩
      | inr hgranted =>
          obtain ⟨granted, keptGranted, hcheck, hkeptCheck, hgrantedAlike⟩ := hgranted
          have hgrantedQuota := (Gcra.Limiter.checkN_quota hcheck).trans hquota
          rw [hcheck, hkeptCheck]
          refine Related.goOn ?_ call ctx (fun use hmem => hleft use (List.mem_cons_of_mem _ hmem))
          exact
            { within := h.within
              sound := h.sound.setLimiter hid hgrantedQuota
              keptSound := h.keptSound.setLimiter hkeptId (hgrantedAlike.1 ▸ hgrantedQuota)
              matching := h.matching.granted h.sound h.keptSound hid hkeptId hgrantedAlike
              calls := fun other => (h.calls other).mono (fun _ _ hid _ => hid) (fun _ _ hid => hid)
              fits := h.fits }

/-- Both worlds start a call. -/
theorem sameStep_start (h : Related specs clock world kept) {call : Nat} {ctx : RateLimitContext}
    (hfits : LeftFits specs (windowUses ctx)) :
    SameStep specs clock (acquireStep (limiterFor limiter) world (.start call ctx))
      (acquireStep keptLimiterFor kept (.start call ctx)) := by
  have hagree := h.calls call
  unfold acquireStep
  simp only
  generalize world.calls call = waiting at hagree ⊢
  generalize kept.calls call = keptWaiting at hagree ⊢
  cases hagree with
  | gone => exact h.goOn call ctx hfits
  | free ctx left => trivial
  | waits ctx use left hid hkeptId => trivial

/-- A step whose condition holds does the same in both worlds. -/
theorem sameStep_of_dropsOnlyIdle {event : AcquireEvent} (h : Related specs clock world kept)
    (hroom : specs.length ≤ limiter.maxWindowEntries)
    (hclock : ∀ now, event.reading = some now → clock ≤ now) (hfits : LeftFits specs event.uses)
    (hdrops : DropsOnlyIdle limiter world event) :
    SameStep specs (event.reading.getD clock) (acquireStep (limiterFor limiter) world event)
      (acquireStep keptLimiterFor kept event) := by
  cases event with
  | start call ctx => exact sameStep_start h hfits
  | limiterFor call now => exact sameStep_limiterFor (h.later (hclock now rfl)) hroom hdrops
  | checkN call now => exact sameStep_checkN (h.later (hclock now rfl))

end

/-! ## plans of declarations -/

/-- A plan that generated code makes of buckets the resolver accepts. -/
def DslPlan (plan : RateLimitPlan) : Prop :=
  ∃ ctx fields buckets, Sema.AllAccepted buckets ∧
    Sema.emitRateLimitPlan ctx (some fields) buckets = .ok plan

/-- The windows of an accepted bucket fit its cost and their own time. -/
theorem emitRateLimitBucket_fits {errorCtx : ErrorContext} {ep : Sema.EmitEp}
    {bucket : Sema.RateLimitBucketResolved} {use : RateLimitBucketUse}
    (haccepted : Sema.BucketAccepted bucket.cost bucket.windows)
    (h : Sema.emitRateLimitBucket errorCtx ep bucket = .ok use) :
    ∀ window ∈ use.windows, use.cost ≤ window.max ∧ window.max ≤ window.per := by
  unfold Sema.emitRateLimitBucket Sema.emitRateLimitCost at h
  rw [dif_pos haccepted.cost_pos] at h
  simp only [Results.bind_eq_ok_iff, Except.ok.injEq] at h
  obtain ⟨key, _, cost, hcost, windows, hwindows, rfl⟩ := h
  subst hcost
  intro window hmem
  obtain ⟨resolved, hresolved, hwindow⟩ := Results.exists_of_mem_mapM hwindows hmem
  have hok := haccepted.windows resolved hresolved
  unfold Sema.emitRateLimitWindow at hwindow
  rw [dif_pos hok.max_pos] at hwindow
  cases hwindow
  exact ⟨hok.cost_le, hok.max_le_per⟩

/-- The windows of a plan from the macro fit. -/
theorem DslPlan.fits (h : DslPlan ctx.plan) {use : WindowUse} (huse : .ok use ∈ windowUses ctx) :
    use.Fits := by
  obtain ⟨errorCtx, fields, buckets, haccepted, hemit⟩ := h
  obtain ⟨bucket, hbucket, huse⟩ := List.mem_flatMap.mp huse
  split at huse
  · simp at huse
  · obtain ⟨window, hwindow, heq⟩ := List.mem_map.mp huse
    cases heq
    have hforall := Sema.emitRateLimitPlan_eq_ok_iff.mp hemit
    rw [← Results.mapM_eq_ok_iff] at hforall
    obtain ⟨resolved, hresolved, hbucketEmit⟩ := Results.exists_of_mem_mapM hforall hbucket
    exact emitRateLimitBucket_fits (haccepted resolved hresolved) hbucketEmit window hwindow

/-! ## runs -/

/-- The windows that the calls of a run go through. -/
def runSpecs (events : List AcquireEvent) : List GovernorWindowSpec :=
  (events.flatMap AcquireEvent.uses).filterMap (fun use => use.toOption.map WindowUse.spec)

/-- The worlds are related and the rest of the run goes on from there. -/
structure RunRelated (specs : List GovernorWindowSpec) (limiter : GovernorRateLimiter)
    (events : List AcquireEvent) (world kept : AcquireWorld) : Prop where
  related : ∃ clock, Related specs clock world kept ∧
    (clock :: events.filterMap AcquireEvent.reading).Pairwise (· ≤ ·)
  fits : ∀ event ∈ events, LeftFits specs event.uses
  drops : Transition.Along (acquireStep (limiterFor limiter)) (DropsOnlyIdle limiter) world events

/-- One event of a run: it is impossible in both worlds, or both take it. -/
theorem RunRelated.step {specs : List GovernorWindowSpec} {event : AcquireEvent}
    {events : List AcquireEvent} {world kept : AcquireWorld}
    (hroom : specs.length ≤ limiter.maxWindowEntries)
    (h : RunRelated specs limiter (event :: events) world kept) :
    (acquireStep (limiterFor limiter) world event = none ∧
        acquireStep keptLimiterFor kept event = none) ∨
      ∃ world' kept' outcome, acquireStep (limiterFor limiter) world event = some (world', outcome) ∧
        acquireStep keptLimiterFor kept event = some (kept', outcome) ∧
        RunRelated specs limiter events world' kept' := by
  obtain ⟨⟨clock, hrelated, hclock⟩, hfits, hdrops, hrest⟩ := h
  rw [List.forall_mem_cons] at hfits
  have hreading : ∀ now, event.reading = some now → clock ≤ now := by
    intro now hnow
    rw [List.filterMap_cons, hnow] at hclock
    exact (List.pairwise_cons.mp hclock).1 now List.mem_cons_self
  have hclock' : (event.reading.getD clock :: events.filterMap AcquireEvent.reading).Pairwise
      (· ≤ ·) := by
    rw [List.filterMap_cons] at hclock
    cases hevent : event.reading with
    | none =>
        rw [hevent] at hclock
        exact hclock
    | some now =>
        rw [hevent] at hclock
        exact (List.pairwise_cons.mp hclock).2
  have hsame := sameStep_of_dropsOnlyIdle hrelated hroom hreading hfits.1 hdrops
  cases hstep : acquireStep (limiterFor limiter) world event with
  | none =>
      rw [hstep] at hsame
      cases hkeptStep : acquireStep keptLimiterFor kept event with
      | none => exact .inl ⟨rfl, rfl⟩
      | some answer =>
          rw [hkeptStep] at hsame
          cases hsame
  | some answer =>
      obtain ⟨world', outcome⟩ := answer
      rw [hstep] at hsame
      cases hkeptStep : acquireStep keptLimiterFor kept event with
      | none =>
          rw [hkeptStep] at hsame
          cases hsame
      | some keptAnswer =>
          obtain ⟨kept', keptOutcome⟩ := keptAnswer
          rw [hkeptStep] at hsame
          obtain ⟨rfl, hrelated'⟩ := hsame
          exact .inr ⟨world', kept', outcome, rfl, rfl, ⟨_, hrelated', hclock'⟩, hfits.2,
            hrest world' outcome hstep⟩

/-- Both worlds begin with nothing. -/
theorem related_init (specs : List GovernorWindowSpec) : Related specs 0 .init .init where
  within _ hmem := absurd hmem (AList.notMem_empty _)
  sound := ⟨fun _ _ h => (by cases h), fun _ _ _ h => (by cases h)⟩
  keptSound := ⟨fun _ _ h => (by cases h), fun _ _ _ h => (by cases h)⟩
  matching := ⟨fun _ _ h => (by cases h), fun _ _ h => (by cases h)⟩
  calls _ := .gone
  fits _ _ h := by cases h

/-- Expiry of idle windows cannot be observed in a run in which `limiter_for`
takes no window out of the map that still owes cells or that a call waits
for: every call sleeps as long, passes and fails at the same steps as with a
map from which nothing is removed. -/
theorem idle_expiry_unobservable {events : List AcquireEvent}
    (hplans : ∀ call ctx, .start call ctx ∈ events → DslPlan ctx.plan)
    (hclock : (events.filterMap AcquireEvent.reading).Pairwise (· ≤ ·))
    (hwindows : (runSpecs events).dedup.length ≤ GovernorRateLimiter.new.maxWindowEntries)
    (hdrops : Transition.Along (acquireStep (limiterFor .new)) (DropsOnlyIdle .new) .init events) :
    (Transition.exec (acquireStep (limiterFor .new)) .init events).map Prod.snd =
      (Transition.exec (acquireStep keptLimiterFor) .init events).map Prod.snd := by
  refine Transition.exec_lockstep (R := RunRelated (runSpecs events).dedup .new) ?_ ?_
  · intro event rest world kept h
    exact h.step hwindows
  · refine ⟨⟨0, related_init _, ?_⟩, ?_, hdrops⟩
    · exact List.pairwise_cons.mpr ⟨fun _ _ => Nat.zero_le _, hclock⟩
    · intro event hevent use huse
      cases event with
      | limiterFor call now => cases huse
      | checkN call now => cases huse
      | start call ctx =>
          refine ⟨(hplans call ctx hevent).fits huse, ?_⟩
          rw [List.mem_dedup]
          exact List.mem_filterMap.mpr
            ⟨.ok use, List.mem_flatMap.mpr ⟨_, hevent, huse⟩, rfl⟩

/-! ## an hour's limit -/

/-- One request in the given number of seconds. -/
def oneEvery (secs : Nat) : RateLimitContext where
  endpoint := "Get"
  method := .get
  url := "https://example.com/"
  urlHost := some "example.com"
  maxCooldown := 0
  plan := ⟨[⟨⟨"app", "app_0"⟩, ⟨[]⟩, [⟨1, secs * 1000000000, Nat.one_pos⟩], 1, Nat.one_pos⟩]⟩

/-- A window of one cell is one the macro emits. -/
theorem oneEvery_dslPlan {secs : Nat} (hpos : 0 < secs) (hle : secs ≤ 3600) :
    DslPlan (oneEvery secs).plan := by
  refine ⟨⟨"Get", .get⟩, fun _ => "", [⟨"app", "app_0", [], 1, [⟨1, secs⟩]⟩], ?_, rfl⟩
  intro bucket hmem
  rw [List.mem_singleton.mp hmem]
  refine ⟨Nat.one_pos, ?_⟩
  intro window hmem
  rw [List.mem_singleton.mp hmem]
  have hsmall : 1 ≤ Checked.u32Max := by decide
  have hlong : 3600 ≤ Checked.u64Max := by decide
  have hnanos : 1 ≤ secs * Sema.nanosPerSecond := Nat.mul_pos hpos (by decide)
  exact ⟨Nat.one_pos, hsmall, Nat.le_refl 1, hpos, hle.trans hlong, hnanos⟩

/-- Two calls one after the other, the second one at the given time. -/
def twoCalls (ctx : RateLimitContext) (later : Nat) : List AcquireEvent :=
  [.start 0 ctx, .limiterFor 0 0, .checkN 0 0, .start 1 ctx, .limiterFor 1 later, .checkN 1 later]

/-- Both calls have the same context. -/
theorem eq_of_start_mem_twoCalls {later call : Nat} {ctx other : RateLimitContext}
    (h : .start call other ∈ twoCalls ctx later) : other = ctx := by
  simp only [twoCalls, List.mem_cons, AcquireEvent.start.injEq, reduceCtorEq, false_or,
    List.not_mem_nil, or_false] at h
  cases h with
  | inl h => exact h.2
  | inr h => exact h.2

/-- Nothing is dropped before the idle time is over. -/
theorem dropsOnlyIdle_of_early {world : AcquireWorld} {event : AcquireEvent}
    (h : ∀ now, event.reading = some now → now ≤ limiter.windowIdleTtl) :
    DropsOnlyIdle limiter world event := by
  cases event with
  | start call ctx => trivial
  | checkN call now => trivial
  | limiterFor call now =>
      have hnow := h now rfl
      exact ⟨fun _ _ _ hidle => by omega, fun _ _ _ hidle => by omega⟩

/-- The same of a whole run. -/
theorem along_of_early {events : List AcquireEvent} {world : AcquireWorld}
    (h : ∀ now ∈ events.filterMap AcquireEvent.reading, now ≤ limiter.windowIdleTtl) :
    Transition.Along (acquireStep (limiterFor limiter)) (DropsOnlyIdle limiter) world events := by
  induction events generalizing world with
  | nil => trivial
  | cons event events ih =>
      refine ⟨dropsOnlyIdle_of_early ?_, ?_⟩
      · intro now hnow
        apply h now
        rw [List.filterMap_cons, hnow]
        exact List.mem_cons_self
      · intro world' outcome _
        apply ih
        intro now hmem
        apply h now
        rw [List.filterMap_cons]
        split
        · exact hmem
        · exact List.mem_cons_of_mem _ hmem

/-- A second call after half a second sleeps for the other half. -/
theorem idle_expiry_unobservable_second :
    (Transition.exec (acquireStep (limiterFor .new)) .init (twoCalls (oneEvery 1) 500000000)).map
        Prod.snd =
      (Transition.exec (acquireStep keptLimiterFor) .init (twoCalls (oneEvery 1) 500000000)).map
        Prod.snd ∧
      (Transition.exec (acquireStep keptLimiterFor) .init (twoCalls (oneEvery 1) 500000000)).map
        Prod.snd = some [.goesOn, .goesOn, .permit, .goesOn, .goesOn, .sleeps 500000000] := by
  refine ⟨idle_expiry_unobservable ?_ (by decide) (by decide +kernel) (along_of_early ?_),
    by decide +kernel⟩
  · intro call ctx hmem
    rw [eq_of_start_mem_twoCalls hmem]
    exact oneEvery_dslPlan (by decide) (by decide)
  · decide +kernel

/-- A quarter of an hour and a minute after the one request of an hour, the
next one is let through at once; with a map that keeps its windows it waits
for the other 44 minutes. -/
theorem idle_expiry_loses_debt :
    DslPlan (oneEvery 3600).plan ∧
      ((twoCalls (oneEvery 3600) (16 * 60 * 1000000000)).filterMap
        AcquireEvent.reading).Pairwise (· ≤ ·) ∧
      (runSpecs (twoCalls (oneEvery 3600) (16 * 60 * 1000000000))).dedup.length ≤
        GovernorRateLimiter.new.maxWindowEntries ∧
      (Transition.exec (acquireStep (limiterFor .new)) .init
        (twoCalls (oneEvery 3600) (16 * 60 * 1000000000))).map Prod.snd =
          some [.goesOn, .goesOn, .permit, .goesOn, .goesOn, .permit] ∧
      (Transition.exec (acquireStep keptLimiterFor) .init
        (twoCalls (oneEvery 3600) (16 * 60 * 1000000000))).map Prod.snd =
          some [.goesOn, .goesOn, .permit, .goesOn, .goesOn, .sleeps (44 * 60 * 1000000000)] := by
  exact ⟨oneEvery_dslPlan (by decide) (by decide), by decide +kernel, by decide +kernel,
    by decide +kernel, by decide +kernel⟩

end Concord
