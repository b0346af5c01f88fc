import Mathlib.Data.List.Induction
import Concord.RateLimit.Window

/-!
# Concord.RateLimit.Pruning

Pruning of the window map over whole histories of `limiter_for`
(`concord_core/src/rate_limit/governor_runtime.rs`).

The map is not swept at every call: `next_prune_at` caches a time before which
no window can have expired.  Here the map is compared with one that is swept
at every call.
-/

namespace Concord

open Checked

/-! ## settings -/

namespace GovernorRateLimiter

/-- The bound on the windows, at least one. -/
def withMaxWindowEntries (limiter : GovernorRateLimiter) (maxWindowEntries : Nat) :
    GovernorRateLimiter :=
  { limiter with maxWindowEntries := max maxWindowEntries 1 }

/-- The bound on the cooldowns, at least one. -/
def withMaxCooldownEntries (limiter : GovernorRateLimiter) (maxCooldownEntries : Nat) :
    GovernorRateLimiter :=
  { limiter with maxCooldownEntries := max maxCooldownEntries 1 }

/-- How long a window is kept idle. -/
def withWindowIdleTtl (limiter : GovernorRateLimiter) (windowIdleTtl : Nat) :
    GovernorRateLimiter :=
  { limiter with windowIdleTtl := windowIdleTtl }

/-- A limiter made with `new` and the `with_` methods. -/
inductive Configured : GovernorRateLimiter → Prop
  | new : Configured .new
  | maxWindowEntries {limiter : GovernorRateLimiter} (h : Configured limiter) (n : Nat) :
      Configured (limiter.withMaxWindowEntries n)
  | maxCooldownEntries {limiter : GovernorRateLimiter} (h : Configured limiter) (n : Nat) :
      Configured (limiter.withMaxCooldownEntries n)
  | windowIdleTtl {limiter : GovernorRateLimiter} (h : Configured limiter) (ttl : Nat) :
      Configured (limiter.withWindowIdleTtl ttl)

/-- There is always room for a window. -/
theorem Configured.maxWindowEntries_pos {limiter : GovernorRateLimiter} (h : Configured limiter) :
    0 < limiter.maxWindowEntries := by
  induction h with
  | new => decide
  | maxWindowEntries _ n _ =>
      simp only [withMaxWindowEntries]
      omega
  | maxCooldownEntries _ n ih => exact ih
  | windowIdleTtl _ ttl ih => exact ih

end GovernorRateLimiter

/-! ## sweeping at every call -/

/-- A window that has been idle for longer than the TTL; a TTL of zero turns
expiry off. -/
def GovernorRateLimiter.expired (limiter : GovernorRateLimiter) (now : Nat)
    (entry : GovernorWindowEntry) : Bool :=
  decide (limiter.windowIdleTtl ≠ 0 ∧ limiter.windowIdleTtl < now - entry.lastUsed)

/-- The windows that have not expired. -/
def GovernorRateLimiter.swept (limiter : GovernorRateLimiter) (now : Nat)
    (windows : Table GovernorWindowSpec GovernorWindowEntry) :
    Table GovernorWindowSpec GovernorWindowEntry :=
  windows.retain (fun _ entry => !limiter.expired now entry)

/-- `limiter_for` on a map that is swept at every call and has no cached
time. -/
def eagerLimiterFor (limiter : GovernorRateLimiter) (ctx : RateLimitContext)
    (spec : GovernorWindowSpec) (now : Nat) (state : GovernorWindowState) :
    GovernorWindowState × Except RateLimitError Nat :=
  let state := { state with windows := limiter.swept now state.windows }
  match state.windows.lookup spec with
  | some existing =>
    ({ state with windows := state.windows.insert spec { existing with lastUsed := now } },
      .ok existing.limiter)
  | none =>
    let currentLen := state.windows.size
    let state :=
      if currentLen ≥ limiter.maxWindowEntries then
        { state with windows :=
            evictOldestWindows state.windows (currentLen + 1 - limiter.maxWindowEntries) }
      else state
    match quotaForWindow ctx spec.window with
    | .error error => (state, .error error)
    | .ok quota => (state.insertNew spec quota now, .ok state.limiters.length)

/-! ## eviction -/

section evict

variable {windows : Table GovernorWindowSpec GovernorWindowEntry} {count : Nat}

/-- The windows that are evicted. -/
def evicted (windows : Table GovernorWindowSpec GovernorWindowEntry) (count : Nat) :
    List GovernorWindowSpec :=
  ((windows.entries.insertionSort (fun a b => a.2.lastUsed ≤ b.2.lastUsed)).take count).map (·.1)

/-- Evicting the oldest windows is erasing those that are evicted. -/
theorem evictOldestWindows_eq (windows : Table GovernorWindowSpec GovernorWindowEntry)
    (count : Nat) : evictOldestWindows windows count = Table.eraseAll windows (evicted windows count) := by
  unfold evictOldestWindows evicted Table.eraseAll
  rw [List.foldl_map]

/-- What is not evicted is left. -/
theorem lookup_evictOldestWindows {spec : GovernorWindowSpec} {entry : GovernorWindowEntry} :
    (evictOldestWindows windows count).lookup spec = some entry ↔
      spec ∉ evicted windows count ∧ windows.lookup spec = some entry := by
  rw [evictOldestWindows_eq, Table.lookup_eraseAll_eq_some]

/-- The entries of a map are those that go and those that stay. -/
theorem evicted_or_kept (windows : Table GovernorWindowSpec GovernorWindowEntry) (count : Nat) :
    ∃ gone kept : List (Sigma (fun _ : GovernorWindowSpec => GovernorWindowEntry)),
      (gone ++ kept).Perm windows.entries ∧ gone.map (·.1) = evicted windows count ∧
      gone.length = min count windows.size ∧
      ∀ a ∈ gone, ∀ b ∈ kept, a.2.lastUsed ≤ b.2.lastUsed := by
  refine ⟨(windows.entries.insertionSort (fun a b => a.2.lastUsed ≤ b.2.lastUsed)).take count,
    (windows.entries.insertionSort (fun a b => a.2.lastUsed ≤ b.2.lastUsed)).drop count,
    ?_, rfl, ?_, ?_⟩
  · rw [List.take_append_drop]
    exact List.perm_insertionSort _ _
  · rw [List.length_take, List.length_insertionSort, Table.size]
  · have hsorted := List.pairwise_insertionSort
      (fun a b : Sigma (fun _ : GovernorWindowSpec => GovernorWindowEntry) =>
        a.2.lastUsed ≤ b.2.lastUsed) windows.entries
    rw [← List.take_append_drop count (windows.entries.insertionSort _)] at hsorted
    exact (List.pairwise_append.mp hsorted).2.2

/-- Nothing that stays was used before something that goes. -/
theorem lastUsed_le_of_evicted {spec kept : GovernorWindowSpec}
    {entry keptEntry : GovernorWindowEntry} (hentry : windows.lookup spec = some entry)
    (hgone : spec ∈ evicted windows count) (hkept : windows.lookup kept = some keptEntry)
    (hstays : kept ∉ evicted windows count) : entry.lastUsed ≤ keptEntry.lastUsed := by
  obtain ⟨gone, stay, hperm, heq, _, hle⟩ := evicted_or_kept windows count
  have hmem : (⟨spec, entry⟩ : Sigma _) ∈ gone := by
    rw [← heq, List.mem_map] at hgone
    obtain ⟨⟨spec', entry'⟩, hmem, rfl⟩ := hgone
    have hlookup : windows.lookup spec' = some entry' :=
      AList.mem_lookup_iff.mpr (hperm.subset (List.mem_append_left _ hmem))
    rw [hentry, Option.some.injEq] at hlookup
    rwa [hlookup]
  have hmem' : (⟨kept, keptEntry⟩ : Sigma _) ∈ stay := by
    have hall : (⟨kept, keptEntry⟩ : Sigma _) ∈ gone ++ stay :=
      hperm.symm.subset (AList.mem_lookup_iff.mp hkept)
    refine (List.mem_append.mp hall).resolve_left (fun hin => hstays ?_)
    rw [← heq]
    exact List.mem_map_of_mem hin
  exact hle _ hmem _ hmem'

/-- Eviction makes room. -/
theorem size_evictOldestWindows_le (windows : Table GovernorWindowSpec GovernorWindowEntry)
    (count : Nat) : Table.size (evictOldestWindows windows count) ≤ windows.size - count := by
  obtain ⟨gone, stay, hperm, heq, hlength, _⟩ := evicted_or_kept windows count
  have hsubset : ∀ spec ∈ evictOldestWindows windows count, spec ∈ stay.map (·.1) := by
    intro spec hmem
    obtain ⟨entry, hlookup⟩ := Table.mem_iff_exists_lookup.mp hmem
    obtain ⟨hstays, hentry⟩ := lookup_evictOldestWindows.mp hlookup
    have hall : (⟨spec, entry⟩ : Sigma _) ∈ gone ++ stay :=
      hperm.symm.subset (AList.mem_lookup_iff.mp hentry)
    refine List.mem_map_of_mem (f := (·.1)) ((List.mem_append.mp hall).resolve_left ?_)
    intro hin
    apply hstays
    rw [← heq]
    exact List.mem_map_of_mem hin
  have hsize := Table.size_le_of_subset hsubset
  have htotal := hperm.length_eq
  rw [List.length_append] at htotal
  rw [List.length_map] at hsize
  unfold Table.size at *
  omega

end evict

/-! ## the cached time -/

section prune

variable {limiter : GovernorRateLimiter} {ctx : RateLimitContext} {spec : GovernorWindowSpec}
  {now : Nat} {state : GovernorWindowState}

/-- The map is not too large, and the cached time is no later than the time at
which a window of it reaches the TTL. -/
structure Noted (limiter : GovernorRateLimiter) (state : GovernorWindowState) : Prop where
  size : state.windows.size ≤ limiter.maxWindowEntries
  cached : limiter.windowIdleTtl ≠ 0 → ∀ spec entry deadline,
    state.windows.lookup spec = some entry →
    checkedAdd instantMax entry.lastUsed limiter.windowIdleTtl = some deadline →
    ∃ next, state.nextPruneAt = some next ∧ next ≤ deadline

/-- Of an empty map nothing has to be noted. -/
theorem noted_default (limiter : GovernorRateLimiter) : Noted limiter .default where
  size := Nat.zero_le _
  cached _ spec _ _ hlookup _ := by
    rw [GovernorWindowState.default, AList.lookup_empty] at hlookup
    cases hlookup

/-- A sweep leaves what has not expired. -/
theorem lookup_swept {windows : Table GovernorWindowSpec GovernorWindowEntry}
    {entry : GovernorWindowEntry} :
    (limiter.swept now windows).lookup spec = some entry ↔
      windows.lookup spec = some entry ∧ limiter.expired now entry = false := by
  rw [GovernorRateLimiter.swept, Table.lookup_retain_eq_some, Bool.not_eq_true']

/-- A sweep adds nothing. -/
theorem size_swept_le (limiter : GovernorRateLimiter) (now : Nat)
    (windows : Table GovernorWindowSpec GovernorWindowEntry) :
    (limiter.swept now windows).size ≤ windows.size :=
  List.length_filter_le _ _

/-- With no time to live nothing expires. -/
theorem swept_of_ttl_zero (h : limiter.windowIdleTtl = 0)
    (windows : Table GovernorWindowSpec GovernorWindowEntry) :
    limiter.swept now windows = windows := by
  refine Table.retain_eq_self (fun spec entry _ => ?_)
  simp [GovernorRateLimiter.expired, h]

/-- Before the cached time no window has expired. -/
theorem Noted.swept_eq_self (h : Noted limiter state) (hnow : now ≤ instantMax)
    (hbefore : ∀ next, state.nextPruneAt = some next → now < next) :
    limiter.swept now state.windows = state.windows := by
  refine Table.retain_eq_self (fun spec entry hlookup => ?_)
  rw [Bool.not_eq_true', GovernorRateLimiter.expired, decide_eq_false_iff_not]
  intro hexpired
  obtain ⟨httl, hidle⟩ := hexpired
  cases hadd : checkedAdd instantMax entry.lastUsed limiter.windowIdleTtl with
  | none =>
      -- The window would expire only after the last instant there is.
      rw [checkedAdd_eq_none_iff] at hadd
      omega
  | some deadline =>
      obtain ⟨next, hnext, hle⟩ := h.cached httl spec entry deadline hlookup hadd
      have hlt := hbefore next hnext
      rw [checkedAdd_eq_some_iff] at hadd
      omega

/-- The next pruning is no later than the first window expires. -/
theorem nextWindowPruneAt_le {windows : Table GovernorWindowSpec GovernorWindowEntry}
    {entry : GovernorWindowEntry} {deadline : Nat} (httl : limiter.windowIdleTtl ≠ 0)
    (hlookup : windows.lookup spec = some entry)
    (hadd : checkedAdd instantMax entry.lastUsed limiter.windowIdleTtl = some deadline) :
    ∃ next, nextWindowPruneAt limiter windows = some next ∧ next ≤ deadline := by
  unfold nextWindowPruneAt
  rw [if_neg httl]
  have hmem : deadline ∈ windows.entries.filterMap
      (fun entry => checkedAdd instantMax entry.2.lastUsed limiter.windowIdleTtl) :=
    List.mem_filterMap.mpr ⟨⟨spec, entry⟩, AList.mem_lookup_iff.mp hlookup, hadd⟩
  cases hmin : (windows.entries.filterMap
      (fun entry => checkedAdd instantMax entry.2.lastUsed limiter.windowIdleTtl)).min? with
  | none =>
      rw [List.min?_eq_none_iff] at hmin
      rw [hmin] at hmem
      cases hmem
  | some next => exact ⟨next, rfl, (List.min?_eq_some_iff.mp hmin).2 _ hmem⟩

/-- Below the bound, pruning is the sweep. -/
theorem windows_pruneWindows (h : state.windows.size ≤ limiter.maxWindowEntries) :
    (pruneWindows limiter state now).windows = limiter.swept now state.windows := by
  by_cases httl : limiter.windowIdleTtl = 0
  · have hsmall : ¬ state.windows.size > limiter.maxWindowEntries := by omega
    simp only [pruneWindows, if_pos httl, if_neg hsmall]
    rw [swept_of_ttl_zero httl]
  · have hkeep : (fun (_ : GovernorWindowSpec) (entry : GovernorWindowEntry) =>
          decide (now - entry.lastUsed ≤ limiter.windowIdleTtl)) =
        fun _ entry => !limiter.expired now entry := by
      funext _ entry
      rw [GovernorRateLimiter.expired, ← decide_not, decide_eq_decide]
      simp [httl]
    have hretain : state.windows.retain
        (fun _ entry => now - entry.lastUsed ≤ limiter.windowIdleTtl) =
          limiter.swept now state.windows := by
      rw [hkeep]
      rfl
    have hle := size_swept_le limiter now state.windows
    have hsmall : ¬ (limiter.swept now state.windows).size > limiter.maxWindowEntries := by omega
    simp only [pruneWindows, if_neg httl, hretain, if_neg hsmall]

/-- Pruning when needed sweeps the map. -/
theorem Noted.pruneWindowsIfNeeded_eq (h : Noted limiter state) (hnow : now ≤ instantMax) :
    (pruneWindowsIfNeeded limiter state now).windows = limiter.swept now state.windows ∧
      (pruneWindowsIfNeeded limiter state now).limiters = state.limiters ∧
      Noted limiter (pruneWindowsIfNeeded limiter state now) := by
  have hswept := size_swept_le limiter now state.windows
  have hsize := h.size
  unfold pruneWindowsIfNeeded
  split
  · next hnone =>
      have hsame := h.swept_eq_self hnow (fun next hnext => by rw [hnone] at hnext; cases hnext)
      exact ⟨hsame.symm, rfl, h⟩
  · next deadline hdeadline =>
      split
      · next hlt =>
          have hsame := h.swept_eq_self hnow (fun next hnext => by
            rw [hdeadline, Option.some.injEq] at hnext
            exact hnext ▸ hlt)
          exact ⟨hsame.symm, rfl, h⟩
      · have hwindows : (pruneWindows limiter state now).windows =
            limiter.swept now state.windows := windows_pruneWindows hsize
        refine ⟨hwindows, rfl, ?_, ?_⟩
        · rw [hwindows]
          omega
        · intro httl spec entry deadline' hlookup hadd
          exact nextWindowPruneAt_le httl hlookup hadd

/-! ## one call -/

/-- The noted time only comes nearer, and no later than the window expires. -/
theorem noteWindowPruneAt_le (httl : limiter.windowIdleTtl ≠ 0) (now : Nat)
    (current : Option Nat) :
    (∀ next, current = some next →
      ∃ noted, noteWindowPruneAt limiter now current = some noted ∧ noted ≤ next) ∧
    ∀ deadline, checkedAdd instantMax now limiter.windowIdleTtl = some deadline →
      ∃ noted, noteWindowPruneAt limiter now current = some noted ∧ noted ≤ deadline := by
  unfold noteWindowPruneAt
  rw [if_neg httl]
  cases hadd : checkedAdd instantMax now limiter.windowIdleTtl with
  | none =>
      refine ⟨fun next hnext => ⟨next, hnext, Nat.le_refl _⟩, ?_⟩
      intro deadline hdeadline
      cases hdeadline
  | some deadline =>
      cases current with
      | none =>
          refine ⟨?_, ?_⟩
          · intro next hnext
            cases hnext
          · intro deadline' hdeadline
            exact ⟨deadline, rfl, Nat.le_of_eq (Option.some.inj hdeadline)⟩
      | some current =>
          refine ⟨?_, ?_⟩
          · intro next hnext
            rw [Option.some.injEq] at hnext
            exact ⟨_, rfl, hnext ▸ Nat.min_le_left _ _⟩
          · intro deadline' hdeadline
            rw [Option.some.injEq] at hdeadline
            exact ⟨_, rfl, hdeadline ▸ Nat.min_le_right _ _⟩

/-- A window that is used now, in a map that has room for it. -/
theorem Noted.use (h : Noted limiter state) {entry : GovernorWindowEntry}
    (hentry : entry.lastUsed = now) (limiters : List Gcra.Limiter)
    (hsize : Table.size (state.windows.insert spec entry) ≤ limiter.maxWindowEntries) :
    Noted limiter ⟨state.windows.insert spec entry,
      noteWindowPruneAt limiter now state.nextPruneAt, limiters⟩ where
  size := hsize
  cached httl other found deadline hlookup hadd := by
    obtain ⟨hkept, hnew⟩ := noteWindowPruneAt_le httl now state.nextPruneAt
    by_cases heq : other = spec
    · subst heq
      simp only [AList.lookup_insert, Option.some.injEq] at hlookup
      rw [← hlookup, hentry] at hadd
      exact hnew deadline hadd
    · simp only [AList.lookup_insert_ne heq] at hlookup
      obtain ⟨next, hnext, hle⟩ := h.cached httl other found deadline hlookup hadd
      obtain ⟨noted, hnoted, hle'⟩ := hkept next hnext
      exact ⟨noted, hnoted, Nat.le_trans hle' hle⟩

/-- Evicting windows leaves the noted time early enough. -/
theorem Noted.evict (h : Noted limiter state) (count : Nat) :
    Noted limiter { state with windows := evictOldestWindows state.windows count } where
  size := by
    have hsize := size_evictOldestWindows_le state.windows count
    have hle := h.size
    simp only
    omega
  cached httl spec entry deadline hlookup hadd :=
    h.cached httl spec entry deadline (lookup_evictOldestWindows.mp hlookup).2 hadd

/-- The map with room for one more window. -/
def GovernorRateLimiter.roomed (limiter : GovernorRateLimiter)
    (windows : Table GovernorWindowSpec GovernorWindowEntry) :
    Table GovernorWindowSpec GovernorWindowEntry :=
  if windows.size ≥ limiter.maxWindowEntries then
    evictOldestWindows windows (windows.size + 1 - limiter.maxWindowEntries)
  else windows

/-- Once room is made there is room. -/
theorem size_roomed_lt (hpos : 0 < limiter.maxWindowEntries)
    (windows : Table GovernorWindowSpec GovernorWindowEntry) :
    (limiter.roomed windows).size < limiter.maxWindowEntries := by
  unfold GovernorRateLimiter.roomed
  split
  · have hsize := size_evictOldestWindows_le windows
      (windows.size + 1 - limiter.maxWindowEntries)
    omega
  · omega

/-- What a call makes of a swept map: it finds its window, or makes room for a
new one and fails or puts it there. -/
inductive CallOn (limiter : GovernorRateLimiter) (ctx : RateLimitContext)
    (spec : GovernorWindowSpec) (now : Nat)
    (windows : Table GovernorWindowSpec GovernorWindowEntry) (limiters : List Gcra.Limiter) :
    Table GovernorWindowSpec GovernorWindowEntry → List Gcra.Limiter →
      Except RateLimitError Nat → Prop
  | found {existing : GovernorWindowEntry} (hlookup : windows.lookup spec = some existing) :
      CallOn limiter ctx spec now windows limiters
        (windows.insert spec { existing with lastUsed := now }) limiters (.ok existing.limiter)
  | failed {error : RateLimitError} (hlookup : windows.lookup spec = none)
      (hquota : quotaForWindow ctx spec.window = .error error) :
      CallOn limiter ctx spec now windows limiters (limiter.roomed windows) limiters (.error error)
  | made {quota : Gcra.Quota} (hlookup : windows.lookup spec = none)
      (hquota : quotaForWindow ctx spec.window = .ok quota) :
      CallOn limiter ctx spec now windows limiters
        ((limiter.roomed windows).insert spec ⟨limiters.length, now⟩)
        (limiters ++ [Gcra.direct quota now]) (.ok limiters.length)

/-- A swept map and a call leave one outcome. -/
theorem CallOn.unique {windows : Table GovernorWindowSpec GovernorWindowEntry}
    {limiters : List Gcra.Limiter}
    {after after' : Table GovernorWindowSpec GovernorWindowEntry}
    {limiters' limiters'' : List Gcra.Limiter} {result result' : Except RateLimitError Nat}
    (h : CallOn limiter ctx spec now windows limiters after limiters' result)
    (h' : CallOn limiter ctx spec now windows limiters after' limiters'' result') :
    after = after' ∧ limiters' = limiters'' ∧ result = result' := by
  cases h with
  | found hlookup =>
      cases h' with
      | found hlookup' =>
          rw [hlookup, Option.some.injEq] at hlookup'
          subst hlookup'
          exact ⟨rfl, rfl, rfl⟩
      | failed hlookup' _ | made hlookup' _ =>
          rw [hlookup] at hlookup'
          cases hlookup'
  | failed hlookup hquota =>
      cases h' with
      | found hlookup' =>
          rw [hlookup] at hlookup'
          cases hlookup'
      | failed _ hquota' =>
          rw [hquota, Except.error.injEq] at hquota'
          subst hquota'
          exact ⟨rfl, rfl, rfl⟩
      | made _ hquota' =>
          rw [hquota] at hquota'
          cases hquota'
  | made hlookup hquota =>
      cases h' with
      | found hlookup' =>
          rw [hlookup] at hlookup'
          cases hlookup'
      | failed _ hquota' =>
          rw [hquota] at hquota'
          cases hquota'
      | made _ hquota' =>
          rw [hquota, Except.ok.injEq] at hquota'
          subst hquota'
          exact ⟨rfl, rfl, rfl⟩

/-- The sweeping map answers a call on its swept windows. -/
theorem eagerLimiterFor_callOn (limiter : GovernorRateLimiter) (ctx : RateLimitContext)
    (spec : GovernorWindowSpec) (now : Nat) (state : GovernorWindowState) :
    CallOn limiter ctx spec now (limiter.swept now state.windows) state.limiters
      (eagerLimiterFor limiter ctx spec now state).1.windows
      (eagerLimiterFor limiter ctx spec now state).1.limiters
      (eagerLimiterFor limiter ctx spec now state).2 := by
  unfold eagerLimiterFor
  cases hlookup : (limiter.swept now state.windows).lookup spec with
  | some existing =>
      simp only [hlookup]
      exact .found hlookup
  | none =>
      have hfailed := @CallOn.failed limiter ctx spec now (limiter.swept now state.windows)
        state.limiters
      have hmade := @CallOn.made limiter ctx spec now (limiter.swept now state.windows)
        state.limiters
      by_cases hfull : (limiter.swept now state.windows).size ≥ limiter.maxWindowEntries
      · cases hquota : quotaForWindow ctx spec.window with
        | error error =>
            simpa only [hlookup, hfull, if_true, GovernorRateLimiter.roomed] using
              hfailed hlookup hquota
        | ok quota =>
            simpa only [hlookup, hfull, if_true, GovernorRateLimiter.roomed,
              GovernorWindowState.insertNew] using hmade hlookup hquota
      · cases hquota : quotaForWindow ctx spec.window with
        | error error =>
            simpa only [hlookup, hfull, if_false, GovernorRateLimiter.roomed] using
              hfailed hlookup hquota
        | ok quota =>
            simpa only [hlookup, hfull, if_false, GovernorRateLimiter.roomed,
              GovernorWindowState.insertNew] using hmade hlookup hquota

/-- So does the map that prunes when its time has come. -/
theorem Noted.limiterFor_callOn (h : Noted limiter state) (hnow : now ≤ instantMax)
    (hpos : 0 < limiter.maxWindowEntries) (ctx : RateLimitContext) (spec : GovernorWindowSpec) :
    CallOn limiter ctx spec now (limiter.swept now state.windows) state.limiters
        (limiterFor limiter ctx spec now state).1.windows
        (limiterFor limiter ctx spec now state).1.limiters
        (limiterFor limiter ctx spec now state).2 ∧
      Noted limiter (limiterFor limiter ctx spec now state).1 := by
  obtain ⟨hwindows, hlimiters, hnoted⟩ := h.pruneWindowsIfNeeded_eq hnow
  generalize hpruned : pruneWindowsIfNeeded limiter state now = pruned at *
  unfold limiterFor
  rw [hpruned, ← hwindows, ← hlimiters]
  cases hlookup : pruned.windows.lookup spec with
  | some existing =>
      simp only [hlookup]
      refine ⟨.found hlookup, hnoted.use rfl pruned.limiters ?_⟩
      exact Nat.le_trans (Table.size_insert_of_mem
        (Table.mem_iff_exists_lookup.mpr ⟨existing, hlookup⟩) _) hnoted.size
  | none =>
      have hfailed := @CallOn.failed limiter ctx spec now pruned.windows pruned.limiters
      have hmade := @CallOn.made limiter ctx spec now pruned.windows pruned.limiters
      have hroom := size_roomed_lt hpos pruned.windows
      by_cases hfull : pruned.windows.size ≥ limiter.maxWindowEntries
      · have hevicted := hnoted.evict (pruned.windows.size + 1 - limiter.maxWindowEntries)
        simp only [GovernorRateLimiter.roomed, hfull, if_true] at hfailed hmade hroom
        cases hquota : quotaForWindow ctx spec.window with
        | error error =>
            simp only [hlookup, hfull, if_true]
            exact ⟨hfailed hlookup hquota, hevicted⟩
        | ok quota =>
            simp only [hlookup, hfull, if_true, GovernorWindowState.insertNew]
            exact ⟨hmade hlookup hquota,
              hevicted.use rfl _ (Nat.le_trans (Table.size_insert_le _ _ _) hroom)⟩
      · simp only [GovernorRateLimiter.roomed, hfull, if_false] at hfailed hmade hroom
        cases hquota : quotaForWindow ctx spec.window with
        | error error =>
            simp only [hlookup, hfull, if_false]
            exact ⟨hfailed hlookup hquota, hnoted⟩
        | ok quota =>
            simp only [hlookup, hfull, if_false, GovernorWindowState.insertNew]
            exact ⟨hmade hlookup hquota,
              hnoted.use rfl _ (Nat.le_trans (Table.size_insert_le _ _ _) hroom)⟩

/-- A window of a swept map is lost only to make room in a full map, and then
no window that was last used before it stays. -/
theorem CallOn.lost {windows after : Table GovernorWindowSpec GovernorWindowEntry}
    {limiters limiters' : List Gcra.Limiter} {result : Except RateLimitError Nat}
    (h : CallOn limiter ctx spec now windows limiters after limiters' result)
    {other : GovernorWindowSpec} {entry : GovernorWindowEntry}
    (hentry : windows.lookup other = some entry) (hlost : other ∉ after) :
    windows.lookup spec = none ∧ limiter.maxWindowEntries ≤ windows.size ∧
      ∀ kept keptEntry, windows.lookup kept = some keptEntry → kept ∈ after →
        entry.lastUsed ≤ keptEntry.lastUsed := by
  have hroomed : windows.lookup spec = none → other ∉ limiter.roomed windows →
      limiter.maxWindowEntries ≤ windows.size ∧
        ∀ kept keptEntry, windows.lookup kept = some keptEntry → kept ∈ limiter.roomed windows →
          entry.lastUsed ≤ keptEntry.lastUsed := by
    intro _ hgone
    unfold GovernorRateLimiter.roomed at hgone ⊢
    by_cases hfull : windows.size ≥ limiter.maxWindowEntries
    · rw [if_pos hfull] at hgone ⊢
      refine ⟨hfull, ?_⟩
      intro kept keptEntry hkept hin
      have hout : other ∈ evicted windows (windows.size + 1 - limiter.maxWindowEntries) := by
        by_contra hnot
        exact hgone (Table.mem_iff_exists_lookup.mpr
          ⟨entry, lookup_evictOldestWindows.mpr ⟨hnot, hentry⟩⟩)
      obtain ⟨_, hlookup⟩ := Table.mem_iff_exists_lookup.mp hin
      exact lastUsed_le_of_evicted hentry hout hkept (lookup_evictOldestWindows.mp hlookup).1
    · rw [if_neg hfull] at hgone
      exact absurd (Table.mem_iff_exists_lookup.mpr ⟨entry, hentry⟩) hgone
  cases h with
  | found hlookup =>
      refine absurd ?_ hlost
      rw [AList.mem_insert]
      exact .inr (Table.mem_iff_exists_lookup.mpr ⟨entry, hentry⟩)
  | failed hlookup _ => exact ⟨hlookup, hroomed hlookup hlost⟩
  | made hlookup _ =>
      rw [AList.mem_insert, not_or] at hlost
      obtain ⟨hfull, hle⟩ := hroomed hlookup hlost.2
      refine ⟨hlookup, hfull, ?_⟩
      intro kept keptEntry hkept hin
      rw [AList.mem_insert] at hin
      refine hle kept keptEntry hkept (hin.resolve_left ?_)
      intro heq
      rw [heq, hlookup] at hkept
      cases hkept

/-- The window that a call returns is in the map. -/
theorem CallOn.returned {windows after : Table GovernorWindowSpec GovernorWindowEntry}
    {limiters limiters' : List Gcra.Limiter} {result : Except RateLimitError Nat} {id : Nat}
    (h : CallOn limiter ctx spec now windows limiters after limiters' result)
    (hok : result = .ok id) : after.lookup spec = some ⟨id, now⟩ := by
  cases h with
  | found _ =>
      cases hok
      exact AList.lookup_insert _
  | failed _ _ => cases hok
  | made _ _ =>
      cases hok
      exact AList.lookup_insert _

end prune

/-! ## histories -/

/-- A call of `limiter_for` with its reading of the clock, an `Instant`. -/
structure LimiterCall where
  ctx : RateLimitContext
  spec : GovernorWindowSpec
  now : Nat
  now_le : now ≤ instantMax

/-- The state after a list of calls. -/
def stateAfter (limiterFor : LimiterSource) (calls : List LimiterCall) : GovernorWindowState :=
  calls.foldl (fun state call => (limiterFor call.ctx call.spec call.now state).1) .default

/-- The map after one more call. -/
theorem stateAfter_snoc (limiterFor : LimiterSource) (calls : List LimiterCall)
    (call : LimiterCall) :
    stateAfter limiterFor (calls ++ [call]) =
      (limiterFor call.ctx call.spec call.now (stateAfter limiterFor calls)).1 := by
  unfold stateAfter
  rw [List.foldl_append]
  rfl

/-- The two maps go together. -/
theorem stateAfter_eager {limiter : GovernorRateLimiter} (hpos : 0 < limiter.maxWindowEntries)
    (calls : List LimiterCall) :
    Noted limiter (stateAfter (limiterFor limiter) calls) ∧
      (stateAfter (limiterFor limiter) calls).windows =
        (stateAfter (eagerLimiterFor limiter) calls).windows ∧
      (stateAfter (limiterFor limiter) calls).limiters =
        (stateAfter (eagerLimiterFor limiter) calls).limiters := by
  induction calls using List.reverseRecOn with
  | nil => exact ⟨noted_default limiter, rfl, rfl⟩
  | append_singleton calls call ih =>
      obtain ⟨hnoted, hwindows, hlimiters⟩ := ih
      obtain ⟨hcall, hnoted'⟩ := hnoted.limiterFor_callOn call.now_le hpos call.ctx call.spec
      have heager := eagerLimiterFor_callOn limiter call.ctx call.spec call.now
        (stateAfter (eagerLimiterFor limiter) calls)
      rw [← hwindows, ← hlimiters] at heager
      obtain ⟨hsame, hsame', _⟩ := hcall.unique heager
      rw [stateAfter_snoc, stateAfter_snoc]
      exact ⟨hnoted', hsame, hsame'⟩

/-- **Pruning late is pruning at every call.**  Whatever calls went before, with
whatever readings of the clock, a call leaves the map that is swept at every
call, with the same result; the map never has more windows than it may; a
window that has not expired is lost only when a new one needs room in a full
map, and then none that stays was last used before it; and the window of a
call that succeeds is in the map. -/
theorem lazy_pruning_is_eager {limiter : GovernorRateLimiter} (hconfigured : limiter.Configured)
    (before : List LimiterCall) (call : LimiterCall) :
    let state := stateAfter (limiterFor limiter) before
    let eager := stateAfter (eagerLimiterFor limiter) before
    let after := (limiterFor limiter call.ctx call.spec call.now state).1
    let result := (limiterFor limiter call.ctx call.spec call.now state).2
    after.windows = (eagerLimiterFor limiter call.ctx call.spec call.now eager).1.windows ∧
    result = (eagerLimiterFor limiter call.ctx call.spec call.now eager).2 ∧
    after.windows.size ≤ limiter.maxWindowEntries ∧
    (∀ spec entry, state.windows.lookup spec = some entry →
      limiter.expired call.now entry = false → spec ∉ after.windows →
      call.spec ∉ limiter.swept call.now state.windows ∧
      limiter.maxWindowEntries ≤ (limiter.swept call.now state.windows).size ∧
      ∀ kept keptEntry, state.windows.lookup kept = some keptEntry →
        limiter.expired call.now keptEntry = false → kept ∈ after.windows →
        entry.lastUsed ≤ keptEntry.lastUsed) ∧
    ∀ id, result = .ok id → after.windows.lookup call.spec = some ⟨id, call.now⟩ := by
  intro state eager after result
  have hpos := hconfigured.maxWindowEntries_pos
  obtain ⟨hnoted, hwindows, hlimiters⟩ := stateAfter_eager hpos before
  obtain ⟨hcall, hnoted'⟩ := hnoted.limiterFor_callOn call.now_le hpos call.ctx call.spec
  have heager := eagerLimiterFor_callOn limiter call.ctx call.spec call.now eager
  rw [← hwindows, ← hlimiters] at heager
  obtain ⟨hsame, _, hresult⟩ := hcall.unique heager
  refine ⟨hsame, hresult, hnoted'.size, ?_, ?_⟩
  · intro spec entry hlookup hfresh hlost
    obtain ⟨hnew, hfull, hle⟩ := hcall.lost (lookup_swept.mpr ⟨hlookup, hfresh⟩) hlost
    refine ⟨?_, hfull, ?_⟩
    · rwa [← AList.lookup_eq_none]
    · intro kept keptEntry hkept hkeptFresh hin
      exact hle kept keptEntry (lookup_swept.mpr ⟨hkept, hkeptFresh⟩) hin
  · intro id hok
    exact hcall.returned hok

/-- A limiter with room for one window. -/
def oneWindow : GovernorRateLimiter := GovernorRateLimiter.new.withMaxWindowEntries 0

/-- Ten cells. -/
theorem ten_pos : 0 < 10 := Nat.succ_pos 9

/-- A call for a window of ten requests, at this reading. -/
def tenPer (name : String) (now : Nat) (hnow : now ≤ instantMax) : LimiterCall where
  ctx := bucketRequest
  spec := ⟨⟨name, name⟩, ⟨[]⟩, ⟨10, 10, ten_pos⟩⟩
  now := now
  now_le := hnow

/-- The second window takes the room of the first. -/
theorem lazy_pruning_is_eager_full :
    oneWindow.Configured ∧
      (tenPer "app" 0 (Nat.zero_le _)).spec ∈
        (stateAfter (limiterFor oneWindow) [tenPer "app" 0 (Nat.zero_le _)]).windows ∧
      (limiterFor oneWindow bucketRequest (tenPer "user" 1 (by decide)).spec 1
        (stateAfter (limiterFor oneWindow) [tenPer "app" 0 (Nat.zero_le _)])).1.windows.size ≤
          1 := by
  have hconfigured : oneWindow.Configured := .maxWindowEntries .new 0
  refine ⟨hconfigured, by decide, ?_⟩
  exact (lazy_pruning_is_eager hconfigured [tenPer "app" 0 (Nat.zero_le _)]
    (tenPer "user" 1 (by decide))).2.2.1

end Concord
