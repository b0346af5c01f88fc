import Mathlib.Data.List.Sort
import Concord.Lib.Gcra
import Concord.Lib.Transition
import Concord.RateLimit.Cooldown

/-!
# Concord.RateLimit.Window

Windows of the default limiter
(`concord_core/src/rate_limit/governor_runtime.rs`): one limiter for each
window in use, kept in a map from which idle ones are removed.

`limiter_for` holds the lock of the map for its whole length and
`until_n_ready` asks the limiter again after each sleep, so these are the
steps in which calls interleave.  A limiter is shared between the map and the
calls that wait for it, so it outlives its entry; here limiters are numbered
as they are made.
-/

namespace Concord

open Checked

/-! ## the map of windows -/

structure GovernorWindowSpec where
  id : RateLimitBucketId
  key : ResolvedRateLimitKey
  window : RateLimitWindow
  deriving DecidableEq, Repr

structure GovernorWindowEntry where
  limiter : Nat
  lastUsed : Nat
  deriving DecidableEq, Repr

/-- `GovernorWindowState`, and every limiter made so far. -/
structure GovernorWindowState where
  windows : Table GovernorWindowSpec GovernorWindowEntry
  nextPruneAt : Option Nat
  limiters : List Gcra.Limiter

def GovernorWindowState.default : GovernorWindowState := ⟨∅, none, []⟩

/-- `quota_for_window`. -/
def quotaForWindow (ctx : RateLimitContext) (window : RateLimitWindow) :
    Except RateLimitError Gcra.Quota :=
  if window.per = 0 then
    .error (rateLimitConfigurationError ctx "rate-limit window duration must not be zero")
  else if window.per / window.max = 0 then
    .error (rateLimitConfigurationError ctx "rate-limit window duration is too small for max")
  else .ok ⟨window.per / window.max, window.max⟩

/-- `evict_oldest_windows`.  Among entries used at the same time, which go is
up to the hash map. -/
def evictOldestWindows (windows : Table GovernorWindowSpec GovernorWindowEntry) (count : Nat) :
    Table GovernorWindowSpec GovernorWindowEntry :=
  let oldest := windows.entries.insertionSort (fun a b => a.2.lastUsed ≤ b.2.lastUsed)
  (oldest.take count).foldl (fun windows entry => windows.erase entry.1) windows

/-- `next_window_prune_at`. -/
def nextWindowPruneAt (limiter : GovernorRateLimiter)
    (windows : Table GovernorWindowSpec GovernorWindowEntry) : Option Nat :=
  if limiter.windowIdleTtl = 0 then (windows.entries.map (·.2.lastUsed)).min?
  else (windows.entries.filterMap
    (fun entry => checkedAdd instantMax entry.2.lastUsed limiter.windowIdleTtl)).min?

/-- `prune_windows`. -/
def pruneWindows (limiter : GovernorRateLimiter) (state : GovernorWindowState) (now : Nat) :
    GovernorWindowState :=
  let windows :=
    if limiter.windowIdleTtl = 0 then state.windows
    else state.windows.retain (fun _ entry => now - entry.lastUsed ≤ limiter.windowIdleTtl)
  let windows :=
    if windows.size > limiter.maxWindowEntries then
      evictOldestWindows windows (windows.size - limiter.maxWindowEntries)
    else windows
  { state with windows := windows, nextPruneAt := nextWindowPruneAt limiter windows }

def pruneWindowsIfNeeded (limiter : GovernorRateLimiter) (state : GovernorWindowState)
    (now : Nat) : GovernorWindowState :=
  match state.nextPruneAt with
  | none => state
  | some deadline => if now < deadline then state else pruneWindows limiter state now

/-- `note_window_prune_at`. -/
def noteWindowPruneAt (limiter : GovernorRateLimiter) (now : Nat) (current : Option Nat) :
    Option Nat :=
  if limiter.windowIdleTtl = 0 then some now
  else
    match checkedAdd instantMax now limiter.windowIdleTtl with
    | none => current
    | some deadline =>
      match current with
      | none => some deadline
      | some current => some (min current deadline)

/-- Put a new limiter into the map. -/
def GovernorWindowState.insertNew (state : GovernorWindowState) (spec : GovernorWindowSpec)
    (quota : Gcra.Quota) (now : Nat) : GovernorWindowState :=
  { state with
    windows := state.windows.insert spec ⟨state.limiters.length, now⟩
    limiters := state.limiters ++ [Gcra.direct quota now] }

/-- `limiter_for`, with its reading of the clock: the map it leaves and the
limiter. -/
def limiterFor (limiter : GovernorRateLimiter) (ctx : RateLimitContext) (spec : GovernorWindowSpec)
    (now : Nat) (state : GovernorWindowState) :
    GovernorWindowState × Except RateLimitError Nat :=
  let state := pruneWindowsIfNeeded limiter state now
  match state.windows.lookup spec with
  | some existing =>
    ({ state with
        windows := state.windows.insert spec { existing with lastUsed := now }
        nextPruneAt := noteWindowPruneAt limiter now state.nextPruneAt }, .ok existing.limiter)
  | none =>
    let currentLen := state.windows.size
    let state :=
      if currentLen ≥ limiter.maxWindowEntries then
        { state with windows :=
            evictOldestWindows state.windows (currentLen + 1 - limiter.maxWindowEntries) }
      else state
    match quotaForWindow ctx spec.window with
    | .error error => (state, .error error)
    | .ok quota =>
      ({ state.insertNew spec quota now with
          nextPruneAt := noteWindowPruneAt limiter now state.nextPruneAt },
        .ok state.limiters.length)

/-- The map without expiry: a window stays once it is there. -/
def keptLimiterFor (ctx : RateLimitContext) (spec : GovernorWindowSpec) (now : Nat)
    (state : GovernorWindowState) : GovernorWindowState × Except RateLimitError Nat :=
  match state.windows.lookup spec with
  | some existing => (state, .ok existing.limiter)
  | none =>
    match quotaForWindow ctx spec.window with
    | .error error => (state, .error error)
    | .ok quota => (state.insertNew spec quota now, .ok state.limiters.length)

/-! ## calls -/

/-- A window that a call goes through, and what it takes there. -/
structure WindowUse where
  spec : GovernorWindowSpec
  cost : Nat
  deriving DecidableEq, Repr

/-- The loops of `acquire`: the windows of the buckets in order.  A bucket
whose key does not resolve ends the call there. -/
def windowUses (ctx : RateLimitContext) : List (Except RateLimitError WindowUse) :=
  ctx.plan.buckets.flatMap (fun bucket =>
    match resolveKey ctx bucket.key with
    | .error error => [.error error]
    | .ok key => bucket.windows.map (fun window => .ok ⟨⟨bucket.id, key, window⟩, bucket.cost⟩))

/-- A call of `acquire` under way: what is left of its loops, and the limiter
it waits for. -/
structure AcquireCall where
  ctx : RateLimitContext
  left : List (Except RateLimitError WindowUse)
  held : Option Nat

structure AcquireWorld where
  state : GovernorWindowState
  calls : Nat → Option AcquireCall

def AcquireWorld.init : AcquireWorld := ⟨.default, fun _ => none⟩

/-- The steps of calls: a call that is through with `wait_cooldown`, its
`limiter_for`, and a turn of its `until_n_ready`. -/
inductive AcquireEvent where
  | start (call : Nat) (ctx : RateLimitContext)
  | limiterFor (call now : Nat)
  | checkN (call now : Nat)

/-- What a step tells: the call goes on, sleeps for a while and asks again, or
returns. -/
inductive AcquireOutcome where
  | goesOn
  | sleeps (delay : Nat)
  | permit
  | failed (error : RateLimitError)
  deriving DecidableEq, Repr

def AcquireWorld.setCall (world : AcquireWorld) (call : Nat) (value : Option AcquireCall) :
    AcquireWorld :=
  { world with calls := Function.update world.calls call value }

/-- A call that is through with a window. -/
def AcquireWorld.goOn (world : AcquireWorld) (call : Nat) (ctx : RateLimitContext)
    (left : List (Except RateLimitError WindowUse)) : AcquireWorld × AcquireOutcome :=
  if left.isEmpty then (world.setCall call none, .permit)
  else (world.setCall call (some ⟨ctx, left, none⟩), .goesOn)

/-- A limiter after it granted cells. -/
def GovernorWindowState.setLimiter (state : GovernorWindowState) (id : Nat) (gcra : Gcra.Limiter) :
    GovernorWindowState :=
  { state with limiters := state.limiters.set id gcra }

/-- A turn of `until_n_ready`. -/
def AcquireWorld.checkN (world : AcquireWorld) (call : Nat) (ctx : RateLimitContext)
    (use : WindowUse) (left : List (Except RateLimitError WindowUse)) (held now : Nat)
    (gcra : Gcra.Limiter) : AcquireWorld × AcquireOutcome :=
  if use.cost > gcra.quota.burst then
    (world.setCall call none,
      .failed (rateLimitAcquireError ctx "rate-limit cost exceeds bucket capacity"))
  else
    match gcra.checkN use.cost now with
    | .error delay => (world, .sleeps delay)
    | .ok granted =>
      AcquireWorld.goOn { world with state := world.state.setLimiter held granted } call ctx left

abbrev LimiterSource :=
  RateLimitContext → GovernorWindowSpec → Nat → GovernorWindowState →
    GovernorWindowState × Except RateLimitError Nat

/-- A call that is about to go through a window finds its limiter. -/
def limiterForStep (source : LimiterSource) (world : AcquireWorld) (call now : Nat) :
    Option AcquireCall → Option (AcquireWorld × AcquireOutcome)
  | some ⟨_, .error error :: _, none⟩ => some (world.setCall call none, .failed error)
  | some ⟨ctx, .ok use :: left, none⟩ =>
    match source ctx use.spec now world.state with
    | (state, .error error) => some ({ world with state := state }.setCall call none, .failed error)
    | (state, .ok held) =>
      some ({ world with state := state }.setCall call (some ⟨ctx, .ok use :: left, some held⟩),
        .goesOn)
  | _ => none

/-- A call that waits for a limiter asks it. -/
def checkNStep (world : AcquireWorld) (call now : Nat) :
    Option AcquireCall → Option (AcquireWorld × AcquireOutcome)
  | some ⟨ctx, .ok use :: left, some held⟩ =>
    match world.state.limiters[held]? with
    | none => none
    | some gcra => some (world.checkN call ctx use left held now gcra)
  | _ => none

/-- A step of a call, with a map of windows to find limiters in. -/
def acquireStep (source : LimiterSource) (world : AcquireWorld) :
    AcquireEvent → Option (AcquireWorld × AcquireOutcome)
  | .start call ctx =>
    match world.calls call with
    | some _ => none
    | none => some (world.goOn call ctx (windowUses ctx))
  | .limiterFor call now => limiterForStep source world call now (world.calls call)
  | .checkN call now => checkNStep world call now (world.calls call)

/-! ## panics -/

/-- The times that `Governor::direct` turns into nanoseconds fit them: that of
a cell and that of a burst. -/
def FitsNanos (quota : Gcra.Quota) : Prop :=
  quota.cell ≤ u64Max ∧ quota.cell * quota.burst ≤ u64Max

instance (quota : Gcra.Quota) : Decidable (FitsNanos quota) :=
  inferInstanceAs (Decidable (_ ∧ _))

/-- A step panics: `limiter_for` makes a limiter of a quota that does not fit. -/
def AcquireWorld.Panics (limiter : GovernorRateLimiter) (world : AcquireWorld) :
    AcquireEvent → Prop
  | .limiterFor call now => ∃ ctx use left quota,
      world.calls call = some ⟨ctx, .ok use :: left, none⟩ ∧
      (pruneWindowsIfNeeded limiter world.state now).windows.lookup use.spec = none ∧
      quotaForWindow ctx use.spec.window = .ok quota ∧ ¬ FitsNanos quota
  | .start _ _ | .checkN _ _ => False

/-- The quota that a step makes a limiter of, if it makes one. -/
def AcquireWorld.made (limiter : GovernorRateLimiter) (world : AcquireWorld) :
    AcquireEvent → Option Gcra.Quota
  | .limiterFor call now =>
    match world.calls call with
    | some ⟨ctx, .ok use :: _, none⟩ =>
      if (pruneWindowsIfNeeded limiter world.state now).windows.lookup use.spec = none then
        (quotaForWindow ctx use.spec.window).toOption
      else none
    | _ => none
  | .start _ _ | .checkN _ _ => none

theorem AcquireWorld.panics_iff {limiter : GovernorRateLimiter} {world : AcquireWorld}
    {event : AcquireEvent} :
    world.Panics limiter event ↔ ∃ quota ∈ world.made limiter event, ¬ FitsNanos quota := by
  cases event with
  | start call ctx => simp [Panics, made]
  | checkN call now => simp [Panics, made]
  | limiterFor call now =>
      simp only [Panics, made]
      constructor
      · rintro ⟨ctx, use, left, quota, hcall, hlookup, hquota, hfits⟩
        refine ⟨quota, ?_, hfits⟩
        rw [hcall]
        simp [hlookup, hquota, Except.toOption]
      · rintro ⟨quota, hmade, hfits⟩
        split at hmade
        · next ctx use left hcall =>
            rw [Option.mem_def, Option.ite_none_right_eq_some] at hmade
            cases hquota : quotaForWindow ctx use.spec.window with
            | error error => simp [hquota, Except.toOption] at hmade
            | ok other =>
                obtain ⟨hlookup, hother⟩ := hmade
                rw [hquota] at hother
                cases hother
                exact ⟨ctx, use, left, quota, hcall, hlookup, hquota, hfits⟩
        · cases hmade

instance (limiter : GovernorRateLimiter) (world : AcquireWorld) (event : AcquireEvent) :
    Decidable (world.Panics limiter event) :=
  decidable_of_iff _ AcquireWorld.panics_iff.symm

/-- The steps of runs without a panic.  A panic is under the lock of the map, which it leaves
poisoned, so that nothing else is worth saying of a run that has one. -/
def calmStep (limiter : GovernorRateLimiter) (world : AcquireWorld) (event : AcquireEvent) :
    Option (AcquireWorld × AcquireOutcome) :=
  if world.Panics limiter event then none else acquireStep (limiterFor limiter) world event

theorem acquireStep_of_calm {limiter : GovernorRateLimiter} {world : AcquireWorld}
    {event : AcquireEvent} {result : AcquireWorld × AcquireOutcome}
    (h : calmStep limiter world event = some result) :
    acquireStep (limiterFor limiter) world event = some result :=
  (Option.ite_none_left_eq_some.mp h).2

end Concord
