import Mathlib.Data.List.Dedup
import Mathlib.Data.List.Induction
import Concord.RateLimit.Cooldown

/-!
# Concord.RateLimit.Deadlines

The cooldown map over whole histories
(`concord_core/src/rate_limit/governor_runtime.rs`): how large it gets, which
deadlines change, and what a wait can find in it.

A history is a list of stores and of turns of waits, each with its reading of
the clock.
-/

namespace Concord

open Checked

/-! ## the size of the map -/

/-- Raising the deadline of a key adds no other key. -/
theorem mem_raiseCooldown {deadline : Nat} {cooldowns : Cooldowns}
    {key other : RateLimitCooldownKey} (h : other ∈ raiseCooldown deadline cooldowns key) :
    other ∈ cooldowns ∨ other = key := by
  unfold raiseCooldown at h
  split at h
  · exact (AList.mem_insert _).mp h |>.symm
  · split at h
    · exact (AList.mem_insert _).mp h |>.symm
    · exact .inl h

/-- Nor does raising those of several. -/
theorem mem_raiseAll {deadline : Nat} {cooldowns : Cooldowns} {keys : List RateLimitCooldownKey}
    {other : RateLimitCooldownKey}
    (h : other ∈ keys.foldl (raiseCooldown deadline) cooldowns) :
    other ∈ cooldowns ∨ other ∈ keys := by
  induction keys generalizing cooldowns with
  | nil => exact .inl h
  | cons key keys ih =>
      cases ih h with
      | inl hraised =>
          cases mem_raiseCooldown hraised with
          | inl hmem => exact .inl hmem
          | inr heq => exact .inr (heq ▸ List.mem_cons_self)
      | inr hmem => exact .inr (List.mem_cons_of_mem _ hmem)

/-- The keys of a store that the map does not have, each counted once. -/
def newEntries (keys : List RateLimitCooldownKey) (cooldowns : Cooldowns) : Nat :=
  (keys.filter (fun key => key ∉ cooldowns)).dedup.length

/-- Raising deadlines adds an entry for each new key. -/
theorem size_raiseAll (deadline : Nat) (cooldowns : Cooldowns)
    (keys : List RateLimitCooldownKey) :
    Table.size (keys.foldl (raiseCooldown deadline) cooldowns) ≤
      cooldowns.size + newEntries keys cooldowns := by
  have hsubset : ∀ key ∈ keys.foldl (raiseCooldown deadline) cooldowns,
      key ∈ cooldowns.keys ++ (keys.filter (fun key => key ∉ cooldowns)).dedup := by
    intro key hmem
    rw [List.mem_append]
    by_cases hold : key ∈ cooldowns
    · exact .inl (AList.mem_keys.mp hold)
    · refine .inr (List.mem_dedup.mpr (List.mem_filter.mpr ⟨?_, decide_eq_true hold⟩))
      exact (mem_raiseAll hmem).resolve_left hold
  have hlength := Table.size_le_of_subset hsubset
  rwa [List.length_append, Table.length_keys] at hlength

/-- Pruning adds nothing. -/
theorem size_pruneCooldowns_le (cooldowns : Cooldowns) (now : Nat) :
    (pruneCooldowns cooldowns now).size ≤ cooldowns.size :=
  List.length_filter_le _ _

/-! ## one step -/

/-- The longest cooldown an event is made with. -/
def CooldownEvent.maxCooldown : CooldownEvent → Nat
  | .store _ _ _ maxCooldown _ => maxCooldown
  | .turn ctx _ => ctx.maxCooldown

section step

variable {limiter : GovernorRateLimiter} {ctx : RateLimitContext} {target : RateLimitTarget}
  {delay maxCooldown now : Nat} {cooldowns : Cooldowns}

/-- What a store does: it fails, or has nothing to store, with a map that is
as it was or pruned, or it raises its keys in the pruned map, for which there
is room. -/
theorem storeCooldown_cases (limiter : GovernorRateLimiter) (ctx : RateLimitContext)
    (target : RateLimitTarget) (delay maxCooldown now : Nat) (cooldowns : Cooldowns) :
    ((storeCooldown limiter ctx target delay maxCooldown now cooldowns).1 = cooldowns ∨
      (storeCooldown limiter ctx target delay maxCooldown now cooldowns).1 =
        pruneCooldowns cooldowns now) ∨
    ∃ keys, delay ≤ maxCooldown ∧
      (pruneCooldowns cooldowns now).size + newEntries keys (pruneCooldowns cooldowns now) ≤
        limiter.maxCooldownEntries ∧
      storeCooldown limiter ctx target delay maxCooldown now cooldowns =
        (keys.foldl (raiseCooldown (now + delay)) (pruneCooldowns cooldowns now), .ok true) := by
  unfold storeCooldown
  split
  · exact .inl (.inl rfl)
  · next keys _ =>
      split
      · exact .inl (.inl rfl)
      · split
        · exact .inl (.inl rfl)
        · next hdelay =>
            split
            · exact .inl (.inl rfl)
            · next deadline hadd =>
                simp only
                split
                · exact .inl (.inr rfl)
                · next hroom =>
                    rw [← (checkedAdd_eq_some_iff.mp hadd).2]
                    exact .inr ⟨keys, Nat.le_of_not_lt hdelay, Nat.le_of_not_lt hroom, rfl⟩

/-- A step leaves the map as it was, prunes it, or is a store that raises keys
in the pruned map. -/
theorem apply_cases (limiter : GovernorRateLimiter) (cooldowns : Cooldowns)
    (event : CooldownEvent) :
    event.apply limiter cooldowns = cooldowns ∨
    event.apply limiter cooldowns = pruneCooldowns cooldowns event.reading ∨
    ∃ ctx target delay maxCooldown keys,
      event = .store ctx target delay maxCooldown event.reading ∧ delay ≤ maxCooldown ∧
      (pruneCooldowns cooldowns event.reading).size +
        newEntries keys (pruneCooldowns cooldowns event.reading) ≤ limiter.maxCooldownEntries ∧
      event.apply limiter cooldowns = keys.foldl (raiseCooldown (event.reading + delay))
        (pruneCooldowns cooldowns event.reading) := by
  cases event with
  | store ctx target delay maxCooldown now =>
      simp only [CooldownEvent.apply, CooldownEvent.reading]
      obtain (heq | heq) | ⟨keys, hdelay, hroom, hstore⟩ :=
        storeCooldown_cases limiter ctx target delay maxCooldown now cooldowns
      · exact .inl heq
      · exact .inr (.inl heq)
      · exact .inr (.inr ⟨ctx, target, delay, maxCooldown, keys, rfl, hdelay, hroom,
          by rw [hstore]⟩)
  | turn ctx now =>
      simp only [CooldownEvent.apply, CooldownEvent.reading]
      cases waitCooldownTurn_map ctx now cooldowns with
      | inl heq => exact .inl heq
      | inr heq => exact .inr (.inl heq)

/-- No event brings the store above its bound. -/
theorem size_apply_le (event : CooldownEvent)
    (h : cooldowns.size ≤ limiter.maxCooldownEntries) :
    Table.size (event.apply limiter cooldowns) ≤ limiter.maxCooldownEntries := by
  obtain heq | heq | ⟨_, _, _, _, keys, _, _, hroom, heq⟩ := apply_cases limiter cooldowns event
  · rwa [heq]
  · rw [heq]
    exact Nat.le_trans (size_pruneCooldowns_le cooldowns _) h
  · rw [heq]
    exact Nat.le_trans (size_raiseAll _ _ keys) hroom

/-- A store that fails removes expired entries at most. -/
theorem lookup_of_store_error {error : RateLimitError}
    (h : (storeCooldown limiter ctx target delay maxCooldown now cooldowns).2 = .error error)
    {key : RateLimitCooldownKey} {deadline : Nat} :
    let stored := (storeCooldown limiter ctx target delay maxCooldown now cooldowns).1
    (stored.lookup key = some deadline → cooldowns.lookup key = some deadline) ∧
      (cooldowns.lookup key = some deadline → now < deadline →
        stored.lookup key = some deadline) := by
  obtain (heq | heq) | ⟨_, _, _, hstore⟩ :=
    storeCooldown_cases limiter ctx target delay maxCooldown now cooldowns
  · simp only [heq]
    exact ⟨fun hlookup => hlookup, fun hlookup _ => hlookup⟩
  · simp only [heq]
    exact ⟨fun hlookup => (lookup_pruneCooldowns.mp hlookup).1,
      fun hlookup hlt => lookup_pruneCooldowns.mpr ⟨hlookup, hlt⟩⟩
  · rw [hstore] at h
    cases h

/-! ## no deadline is too far off -/

/-- Every deadline is within the longest cooldown of this time. -/
def WithinMax (maxCooldown time : Nat) (cooldowns : Cooldowns) : Prop :=
  ∀ key deadline, cooldowns.lookup key = some deadline → deadline ≤ time + maxCooldown

/-- Deadlines that are near stay so as time passes. -/
theorem WithinMax.later {time : Nat} (h : WithinMax maxCooldown time cooldowns)
    (hle : time ≤ now) : WithinMax maxCooldown now cooldowns := by
  intro key deadline hlookup
  have hwithin := h key deadline hlookup
  omega

/-- And when some are pruned. -/
theorem WithinMax.prune {time : Nat} (h : WithinMax maxCooldown time cooldowns) (now : Nat) :
    WithinMax maxCooldown time (pruneCooldowns cooldowns now) :=
  fun key deadline hlookup => h key deadline (lookup_pruneCooldowns.mp hlookup).1

/-- And when one is raised by no more than the maximum. -/
theorem WithinMax.raise {time deadline : Nat} (h : WithinMax maxCooldown time cooldowns)
    (hle : deadline ≤ time + maxCooldown) (key : RateLimitCooldownKey) :
    WithinMax maxCooldown time (raiseCooldown deadline cooldowns key) := by
  have hinsert : WithinMax maxCooldown time (cooldowns.insert key deadline) := by
    intro other deadline' hlookup
    by_cases heq : other = key
    · rw [heq, AList.lookup_insert, Option.some.injEq] at hlookup
      rwa [← hlookup]
    · rw [AList.lookup_insert_ne heq] at hlookup
      exact h other deadline' hlookup
  unfold raiseCooldown
  split
  · exact hinsert
  · split
    · exact hinsert
    · exact h

/-- And when several are. -/
theorem WithinMax.raiseAll {time deadline : Nat} (h : WithinMax maxCooldown time cooldowns)
    (hle : deadline ≤ time + maxCooldown) (keys : List RateLimitCooldownKey) :
    WithinMax maxCooldown time (keys.foldl (raiseCooldown deadline) cooldowns) := by
  induction keys generalizing cooldowns with
  | nil => exact h
  | cons key keys ih => exact ih (h.raise hle key)

/-- So they stay near after every event. -/
theorem WithinMax.apply {time : Nat} (h : WithinMax maxCooldown time cooldowns)
    (event : CooldownEvent) (hmax : event.maxCooldown = maxCooldown)
    (hle : time ≤ event.reading) :
    WithinMax maxCooldown event.reading (event.apply limiter cooldowns) := by
  have hlater := h.later hle
  obtain heq | heq | ⟨_, _, delay, _, keys, hevent, hdelay, _, heq⟩ :=
    apply_cases limiter cooldowns event
  · rwa [heq]
  · rw [heq]
    exact hlater.prune _
  · rw [heq]
    rw [hevent] at hmax
    simp only [CooldownEvent.maxCooldown] at hmax
    exact (hlater.prune _).raiseAll (by omega) keys

/-! ## errors of a turn -/

/-- A part of a key fails only for a missing host. -/
theorem resolveKeyPartValue_error {part : RateLimitKeyPart} {error : RateLimitError}
    (h : resolveKeyPartValue ctx part = .error error) : error = missingHostKeyError ctx := by
  unfold resolveKeyPartValue at h
  split at h
  · cases h
  · cases h
  · cases h
  · split at h
    · cases h
    · exact (Except.error.inj h).symm

/-- A key fails to resolve only for want of a host. -/
theorem resolveKey_error {key : RateLimitKey} {error : RateLimitError}
    (h : resolveKey ctx key = .error error) : error = missingHostKeyError ctx := by
  have hparts : ∀ {parts}, resolveKeyParts ctx parts = .error error →
      error = missingHostKeyError ctx := by
    intro parts hresolve
    induction parts with
    | nil => cases hresolve
    | cons part parts ih =>
        rw [resolveKeyParts] at hresolve
        split at hresolve
        · next hvalue =>
            rw [Except.error.injEq] at hresolve
            subst hresolve
            exact resolveKeyPartValue_error hvalue
        · split at hresolve
          · next hrest =>
              rw [Except.error.injEq] at hresolve
              subst hresolve
              exact ih hrest
          · cases hresolve
  unfold resolveKey at h
  split at h
  · next hresolve =>
      rw [Except.error.injEq] at h
      subst h
      exact hparts hresolve
  · cases h

/-- So do the keys of a plan. -/
theorem planCooldownKeys_error {buckets : List RateLimitBucketUse} {error : RateLimitError}
    (h : planCooldownKeys ctx buckets = .error error) : error = missingHostKeyError ctx := by
  induction buckets with
  | nil => cases h
  | cons bucket buckets ih =>
      rw [planCooldownKeys, bucketKindCooldownKey, bucketCooldownKey] at h
      cases hkey : resolveKey ctx bucket.key with
      | error failure =>
          simp only [hkey, Except.error.injEq] at h
          rw [← h]
          exact resolveKey_error hkey
      | ok key =>
          cases hrest : planCooldownKeys ctx buckets with
          | error failure =>
              simp only [hkey, hrest, Except.error.injEq] at h
              rw [← h]
              rw [h] at hrest
              exact h ▸ ih hrest
          | ok keys =>
              simp only [hkey, hrest] at h
              cases h

/-- And those that are waited for. -/
theorem cooldownKeysForAcquire_error {error : RateLimitError}
    (h : cooldownKeysForAcquire ctx = .error error) : error = missingHostKeyError ctx := by
  unfold cooldownKeysForAcquire at h
  cases hhost : ctx.urlHost with
  | none =>
      cases hplan : planCooldownKeys ctx ctx.plan.buckets with
      | error failure =>
          simp only [hhost, hplan, Option.isSome_none, Bool.false_eq_true, if_false,
            Except.error.injEq] at h
          exact planCooldownKeys_error (h ▸ hplan)
      | ok keys =>
          simp only [hhost, hplan, Option.isSome_none, Bool.false_eq_true, if_false] at h
          cases h
  | some host =>
      cases hplan : planCooldownKeys ctx ctx.plan.buckets with
      | error failure =>
          simp only [hostCooldownKey, hhost, hplan, Option.isSome_some, if_true,
            Except.error.injEq] at h
          exact planCooldownKeys_error (h ▸ hplan)
      | ok keys =>
          simp only [hostCooldownKey, hhost, hplan, Option.isSome_some, if_true] at h
          cases h

/-- A turn finds no cooldown beyond the maximum. -/
theorem turn_not_exceeds {time : Nat} (h : WithinMax ctx.maxCooldown time cooldowns)
    (hle : time ≤ now) :
    (waitCooldownTurn ctx now cooldowns).2 ≠ .error (rateLimitConfigurationError ctx
      "rate-limit cooldown exceeds configured maximum") := by
  intro hexceeds
  unfold waitCooldownTurn at hexceeds
  cases hkeys : cooldownKeysForAcquire ctx with
  | error error =>
      have herror := cooldownKeysForAcquire_error hkeys
      simp only [hkeys, herror, Except.error.injEq] at hexceeds
      cases hexceeds
  | ok keys =>
      cases hlongest : longestDelay keys (pruneCooldowns cooldowns now) now with
      | none =>
          simp only [hkeys, hlongest] at hexceeds
          cases hexceeds
      | some longest =>
          obtain ⟨key, _, deadline, hlookup, _, hdelay⟩ := longestDelay_eq_some hlongest
          have hwithin := h key deadline (lookup_pruneCooldowns.mp hlookup).1
          have hnot : ¬ longest > ctx.maxCooldown := by omega
          simp only [hkeys, hlongest, if_neg hnot] at hexceeds
          split at hexceeds
          · cases hexceeds
          · cases hexceeds

end step

/-! ## histories -/

/-- The map after a history. -/
def cooldownsAfter (limiter : GovernorRateLimiter) (events : List CooldownEvent) : Cooldowns :=
  events.foldl (CooldownEvent.apply limiter) ∅

/-- The store after one history and then another. -/
theorem cooldownsAfter_append (limiter : GovernorRateLimiter) (before events : List CooldownEvent) :
    cooldownsAfter limiter (before ++ events) =
      events.foldl (CooldownEvent.apply limiter) (cooldownsAfter limiter before) :=
  List.foldl_append

/-- The store after one more event. -/
theorem cooldownsAfter_snoc (limiter : GovernorRateLimiter) (before : List CooldownEvent)
    (event : CooldownEvent) :
    cooldownsAfter limiter (before ++ [event]) =
      event.apply limiter (cooldownsAfter limiter before) :=
  cooldownsAfter_append limiter before [event]

/-- The store is never above its bound. -/
theorem size_cooldownsAfter_le (limiter : GovernorRateLimiter) (events : List CooldownEvent) :
    (cooldownsAfter limiter events).size ≤ limiter.maxCooldownEntries := by
  induction events using List.reverseRecOn with
  | nil => exact Nat.zero_le _
  | append_singleton events event ih =>
      rw [cooldownsAfter_snoc]
      exact size_apply_le event ih

/-- A deadline that is there stays, or grows, until it has passed. -/
theorem holds_cooldownsAfter {limiter : GovernorRateLimiter} {before events : List CooldownEvent}
    {key : RateLimitCooldownKey} {deadline : Nat}
    (h : (cooldownsAfter limiter before).lookup key = some deadline)
    (hunexpired : ∀ event ∈ events, event.reading < deadline) :
    Holds key deadline (cooldownsAfter limiter (before ++ events)) := by
  have hholds : Holds key deadline (cooldownsAfter limiter before) :=
    ⟨deadline, h, Nat.le_refl _⟩
  rw [cooldownsAfter_append]
  cases hholds.applyAll limiter events with
  | inl hkept => exact hkept
  | inr hlate =>
      obtain ⟨event, hmem, hle⟩ := hlate
      exact absurd (hunexpired event hmem) (Nat.not_lt.mpr hle)

/-- After a history with a fixed maximum, every deadline is within it of any
reading to come. -/
theorem withinMax_cooldownsAfter {limiter : GovernorRateLimiter} {events : List CooldownEvent}
    {maxCooldown now : Nat} (hmax : ∀ event ∈ events, event.maxCooldown = maxCooldown)
    (hclock : ((events.map CooldownEvent.reading) ++ [now]).Pairwise (· ≤ ·)) :
    WithinMax maxCooldown now (cooldownsAfter limiter events) := by
  induction events using List.reverseRecOn generalizing now with
  | nil =>
      intro key deadline hlookup
      rw [cooldownsAfter, List.foldl_nil, AList.lookup_empty] at hlookup
      cases hlookup
  | append_singleton events event ih =>
      rw [List.map_append, List.pairwise_append] at hclock
      obtain ⟨hbefore, _, hnow⟩ := hclock
      have hwithin := ih (fun other hmem => hmax other (List.mem_append_left _ hmem)) hbefore
      have hlast : event.reading ≤ now := hnow _ (by simp) _ (List.mem_singleton.mpr rfl)
      rw [cooldownsAfter_snoc]
      exact (hwithin.apply event (hmax event (by simp)) (Nat.le_refl _)).later hlast

/-- **The cooldown map over a history** of stores and turns of waits whose
readings of the clock do not go back.  It never has more entries than it may;
a deadline stays or grows until it has passed; a store that fails adds and
changes nothing and drops only what has expired; and as long as all calls are
made with one maximum, no wait finds a cooldown beyond it. -/
theorem cooldown_store_invariant (limiter : GovernorRateLimiter) (events : List CooldownEvent)
    (hclock : (events.map CooldownEvent.reading).Pairwise (· ≤ ·)) :
    (∀ before, before <+: events →
      (cooldownsAfter limiter before).size ≤ limiter.maxCooldownEntries) ∧
    (∀ before between, before ++ between <+: events → ∀ key deadline,
      (cooldownsAfter limiter before).lookup key = some deadline →
      (∀ event ∈ between, event.reading < deadline) →
      ∃ later, (cooldownsAfter limiter (before ++ between)).lookup key = some later ∧
        deadline ≤ later) ∧
    (∀ before ctx target delay maxCooldown now error,
      before ++ [.store ctx target delay maxCooldown now] <+: events →
      (storeCooldown limiter ctx target delay maxCooldown now
        (cooldownsAfter limiter before)).2 = .error error →
      ∀ key deadline,
        ((cooldownsAfter limiter (before ++ [.store ctx target delay maxCooldown now])).lookup key =
            some deadline →
          (cooldownsAfter limiter before).lookup key = some deadline) ∧
        ((cooldownsAfter limiter before).lookup key = some deadline → now < deadline →
          (cooldownsAfter limiter (before ++ [.store ctx target delay maxCooldown now])).lookup
            key = some deadline)) ∧
    (∀ maxCooldown, (∀ event ∈ events, event.maxCooldown = maxCooldown) →
      ∀ before ctx now, before ++ [.turn ctx now] <+: events →
        (waitCooldownTurn ctx now (cooldownsAfter limiter before)).2 ≠
          .error (rateLimitConfigurationError ctx
            "rate-limit cooldown exceeds configured maximum")) := by
  refine ⟨?_, ?_, ?_, ?_⟩
  · intro before _
    exact size_cooldownsAfter_le limiter before
  · intro before between _ key deadline hlookup hunexpired
    exact holds_cooldownsAfter hlookup hunexpired
  · intro before ctx target delay maxCooldown now error _ herror key deadline
    rw [cooldownsAfter_snoc]
    exact lookup_of_store_error herror
  · intro maxCooldown hmax before ctx now hprefixed
    have hsublist := hprefixed.sublist
    have hturn : ctx.maxCooldown = maxCooldown := hmax (.turn ctx now) (hsublist.subset (by simp))
    have hbefore : ∀ event ∈ before, event.maxCooldown = maxCooldown :=
      fun event hmem => hmax event (hsublist.subset (List.mem_append_left _ hmem))
    have hreadings := hclock.sublist (hsublist.map CooldownEvent.reading)
    rw [List.map_append] at hreadings
    have hwithin : WithinMax ctx.maxCooldown now (cooldownsAfter limiter before) :=
      withinMax_cooldownsAfter (fun event hmem => (hbefore event hmem).trans hturn.symm) hreadings
    exact turn_not_exceeds hwithin (Nat.le_refl _)

/-- A store for a bucket and a turn of a wait for it before its deadline: the
turn does not give up. -/
def storeThenTurn : List CooldownEvent :=
  [.store bucketRequest .currentPlanOrEndpoint 5 60 100, .turn bucketRequest 103]

/-- A deadline that is stored and then waited for. -/
theorem cooldown_store_invariant_turn :
    (storeThenTurn.map CooldownEvent.reading).Pairwise (· ≤ ·) ∧
      (cooldownsAfter .new storeThenTurn).size ≤ 4096 ∧
      (waitCooldownTurn bucketRequest 103 (cooldownsAfter .new
        [.store bucketRequest .currentPlanOrEndpoint 5 60 100])).2 ≠
          .error (rateLimitConfigurationError bucketRequest
            "rate-limit cooldown exceeds configured maximum") := by
  have hclock : (storeThenTurn.map CooldownEvent.reading).Pairwise (· ≤ ·) := by decide
  obtain ⟨hsize, _, _, hturn⟩ := cooldown_store_invariant .new storeThenTurn hclock
  refine ⟨hclock, hsize storeThenTurn List.prefix_rfl, ?_⟩
  refine hturn 60 ?_ [.store bucketRequest .currentPlanOrEndpoint 5 60 100] bucketRequest 103
    List.prefix_rfl
  intro event hmem
  cases hmem with
  | head => rfl
  | tail _ hmem =>
      cases hmem with
      | head => rfl
      | tail _ hmem => cases hmem

end Concord
