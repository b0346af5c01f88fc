import Concord.RateLimit.Deadlines
import Concord.RateLimit.Expiry
import Concord.RateLimit.Pruning

/-!
# Concord.RateLimit.Misconfigured

Calls of `acquire` that fail because of their plan
(`concord_core/src/rate_limit/governor_runtime.rs`).

Keys are resolved before the first window, in `wait_cooldown`.  Windows are
checked one at a time, each when the ones before it have been charged, so a
plan with a window that cannot work is found out only there.  The runs are
those in which nothing panics (`calmStep`).
-/

namespace Concord

open Transition Checked

/-! ## steps -/

/-- The call that a step belongs to. -/
def AcquireEvent.call : AcquireEvent → Nat
  | .start call _ => call
  | .limiterFor call _ => call
  | .checkN call _ => call

/-- A step is one of a call for the request. -/
def AcquireWorld.StepOf (world : AcquireWorld) (event : AcquireEvent) (ctx : RateLimitContext) :
    Prop :=
  event = .start event.call ctx ∨ ∃ left held, world.calls event.call = some ⟨ctx, left, held⟩

/-- What a step can do. -/
inductive AcquireMove (source : LimiterSource) (world : AcquireWorld) :
    AcquireEvent → AcquireWorld → AcquireOutcome → Prop
  | started {call : Nat} {ctx : RateLimitContext} (hidle : world.calls call = none) :
      AcquireMove source world (.start call ctx) (world.goOn call ctx (windowUses ctx)).1
        (world.goOn call ctx (windowUses ctx)).2
  | unresolved {call now : Nat} {ctx : RateLimitContext} {error : RateLimitError}
      {left : List (Except RateLimitError WindowUse)}
      (hcall : world.calls call = some ⟨ctx, .error error :: left, none⟩) :
      AcquireMove source world (.limiterFor call now) (world.setCall call none) (.failed error)
  | refused {call now : Nat} {ctx : RateLimitContext} {use : WindowUse}
      {left : List (Except RateLimitError WindowUse)} {state : GovernorWindowState}
      {error : RateLimitError} (hcall : world.calls call = some ⟨ctx, .ok use :: left, none⟩)
      (hsource : source ctx use.spec now world.state = (state, .error error)) :
      AcquireMove source world (.limiterFor call now)
        (AcquireWorld.setCall { world with state := state } call none) (.failed error)
  | looked {call now : Nat} {ctx : RateLimitContext} {use : WindowUse}
      {left : List (Except RateLimitError WindowUse)} {state : GovernorWindowState} {held : Nat}
      (hcall : world.calls call = some ⟨ctx, .ok use :: left, none⟩)
      (hsource : source ctx use.spec now world.state = (state, .ok held)) :
      AcquireMove source world (.limiterFor call now)
        (AcquireWorld.setCall { world with state := state } call
          (some ⟨ctx, .ok use :: left, some held⟩)) .goesOn
  | exceeds {call now : Nat} {ctx : RateLimitContext} {use : WindowUse}
      {left : List (Except RateLimitError WindowUse)} {held : Nat} {gcra : Gcra.Limiter}
      (hcall : world.calls call = some ⟨ctx, .ok use :: left, some held⟩)
      (hgcra : world.state.limiters[held]? = some gcra) (hcost : gcra.quota.burst < use.cost) :
      AcquireMove source world (.checkN call now) (world.setCall call none)
        (.failed (rateLimitAcquireError ctx "rate-limit cost exceeds bucket capacity"))
  | sleeps {call now : Nat} {ctx : RateLimitContext} {use : WindowUse}
      {left : List (Except RateLimitError WindowUse)} {held : Nat} {gcra : Gcra.Limiter}
      {delay : Nat} (hcall : world.calls call = some ⟨ctx, .ok use :: left, some held⟩)
      (hgcra : world.state.limiters[held]? = some gcra)
      (hcheck : gcra.checkN use.cost now = .error delay) :
      AcquireMove source world (.checkN call now) world (.sleeps delay)
  | grants {call now : Nat} {ctx : RateLimitContext} {use : WindowUse}
      {left : List (Except RateLimitError WindowUse)} {held : Nat} {gcra granted : Gcra.Limiter}
      (hcall : world.calls call = some ⟨ctx, .ok use :: left, some held⟩)
      (hgcra : world.state.limiters[held]? = some gcra) (hcost : use.cost ≤ gcra.quota.burst)
      (hcheck : gcra.checkN use.cost now = .ok granted) :
      AcquireMove source world (.checkN call now)
        (AcquireWorld.goOn { world with state := world.state.setLimiter held granted } call ctx
          left).1
        (AcquireWorld.goOn { world with state := world.state.setLimiter held granted } call ctx
          left).2

section move

variable {source : LimiterSource} {world next : AcquireWorld} {event : AcquireEvent}
  {outcome : AcquireOutcome}

/-- The moves of a lookup. -/
theorem limiterForStep_move {call now : Nat}
    (h : limiterForStep source world call now (world.calls call) = some (next, outcome)) :
    AcquireMove source world (.limiterFor call now) next outcome := by
  cases hcall : world.calls call with
  | none =>
      rw [hcall] at h
      cases h
  | some waiting =>
      rw [hcall] at h
      obtain ⟨ctx, left, held⟩ := waiting
      cases held with
      | some held => cases left with
        | nil => cases h
        | cons first left => cases first <;> cases h
      | none =>
          cases left with
          | nil => cases h
          | cons first left =>
              cases first with
              | error error =>
                  cases h
                  exact .unresolved hcall
              | ok use =>
                  rw [limiterForStep] at h
                  cases hsource : source ctx use.spec now world.state with
                  | mk state result =>
                      rw [hsource] at h
                      cases result with
                      | error error =>
                          cases h
                          exact .refused hcall hsource
                      | ok held =>
                          cases h
                          exact .looked hcall hsource

/-- The moves of a request to a limiter. -/
theorem checkNStep_move {call now : Nat}
    (h : checkNStep world call now (world.calls call) = some (next, outcome)) :
    AcquireMove source world (.checkN call now) next outcome := by
  cases hcall : world.calls call with
  | none =>
      rw [hcall] at h
      cases h
  | some waiting =>
      rw [hcall] at h
      obtain ⟨ctx, left, held⟩ := waiting
      cases left with
      | nil => cases h
      | cons first left =>
          cases first with
          | error error => cases h
          | ok use =>
              cases held with
              | none => cases h
              | some held =>
                  rw [checkNStep] at h
                  cases hgcra : world.state.limiters[held]? with
                  | none =>
                      rw [hgcra] at h
                      cases h
                  | some gcra =>
                      simp only [hgcra, AcquireWorld.checkN] at h
                      by_cases hcost : use.cost > gcra.quota.burst
                      · rw [if_pos hcost] at h
                        cases h
                        exact .exceeds hcall hgcra hcost
                      · rw [if_neg hcost] at h
                        cases hcheck : gcra.checkN use.cost now with
                        | error delay =>
                            rw [hcheck] at h
                            cases h
                            exact .sleeps hcall hgcra hcheck
                        | ok granted =>
                            have hmove : AcquireMove source world (.checkN call now) _ _ :=
                              .grants hcall hgcra (Nat.le_of_not_lt hcost) hcheck
                            simp only [hcheck, Option.some.injEq] at h
                            rw [h] at hmove
                            exact hmove

/-- Every step is one of the moves. -/
theorem acquireStep_move (h : acquireStep source world event = some (next, outcome)) :
    AcquireMove source world event next outcome := by
  cases event with
  | start call ctx =>
      rw [acquireStep] at h
      cases hcall : world.calls call with
      | some waiting =>
          rw [hcall] at h
          cases h
      | none =>
          have hmove : AcquireMove source world (.start call ctx) _ _ := .started hcall
          simp only [hcall, Option.some.injEq] at h
          rw [h] at hmove
          exact hmove
  | limiterFor call now => exact limiterForStep_move h
  | checkN call now => exact checkNStep_move h

/-- The call that is set. -/
theorem calls_setCall_self (world : AcquireWorld) (call : Nat) (value : Option AcquireCall) :
    (world.setCall call value).calls call = value :=
  Function.update_self _ _ _

/-- The other calls stay as they are. -/
theorem calls_setCall_of_ne {call other : Nat} (hne : other ≠ call) (value : Option AcquireCall) :
    (world.setCall call value).calls other = world.calls other :=
  Function.update_of_ne hne _ _

/-- The other calls stay when a call goes on. -/
theorem calls_goOn_of_ne {call other : Nat} (hne : other ≠ call) (ctx : RateLimitContext)
    (left : List (Except RateLimitError WindowUse)) :
    (world.goOn call ctx left).1.calls other = world.calls other := by
  unfold AcquireWorld.goOn
  split
  · exact calls_setCall_of_ne hne _
  · exact calls_setCall_of_ne hne _

/-- A call that goes on leaves the map and the limiters alone. -/
theorem state_goOn (call : Nat) (ctx : RateLimitContext)
    (left : List (Except RateLimitError WindowUse)) :
    (world.goOn call ctx left).1.state = world.state := by
  unfold AcquireWorld.goOn
  split
  · rfl
  · rfl

/-- A step moves no other call. -/
theorem AcquireMove.calls_other (h : AcquireMove source world event next outcome) {other : Nat}
    (hne : other ≠ event.call) : next.calls other = world.calls other := by
  cases h with
  | started _ => exact calls_goOn_of_ne hne _ _
  | unresolved _ | refused _ _ | looked _ _ | exceeds _ _ _ => exact calls_setCall_of_ne hne _
  | sleeps _ _ _ => rfl
  | grants _ _ _ _ => exact calls_goOn_of_ne hne _ _

end move

/-! ## limiters and their windows -/

section serves

variable {limiter : GovernorRateLimiter} {ctx : RateLimitContext} {spec : GovernorWindowSpec}
  {now : Nat} {limiters limiters' : List Gcra.Limiter}

/-- A window with a quota has no more cells than nanoseconds. -/
theorem quotaForWindow_ok {window : RateLimitWindow} {quota : Gcra.Quota}
    (h : quotaForWindow ctx window = .ok quota) :
    window.max ≤ window.per ∧ quota = quotaOf window := by
  unfold quotaForWindow at h
  by_cases hper : window.per = 0
  · rw [if_pos hper] at h
    cases h
  · rw [if_neg hper] at h
    by_cases hcell : window.per / window.max = 0
    · rw [if_pos hcell] at h
      cases h
    · rw [if_neg hcell] at h
      cases h
      rw [Nat.div_eq_zero_iff, not_or, Nat.not_lt] at hcell
      exact ⟨hcell.2, rfl⟩

/-- A limiter of the quota of a window that can work. -/
def Serves (limiters : List Gcra.Limiter) (id : Nat) (window : RateLimitWindow) : Prop :=
  window.max ≤ window.per ∧ ∃ gcra, limiters[id]? = some gcra ∧ gcra.quota = quotaOf window

/-- Limiters stay, with their quotas. -/
def KeepsQuotas (limiters limiters' : List Gcra.Limiter) : Prop :=
  ∀ (id : Nat) (gcra : Gcra.Limiter), limiters[id]? = some gcra →
    ∃ gcra', limiters'[id]? = some gcra' ∧ gcra'.quota = gcra.quota

/-- A limiter serves its window as long as limiters keep their quotas. -/
theorem Serves.kept {id : Nat} {window : RateLimitWindow} (h : Serves limiters id window)
    (hkeeps : KeepsQuotas limiters limiters') : Serves limiters' id window := by
  obtain ⟨hwindow, gcra, hgcra, hquota⟩ := h
  obtain ⟨gcra', hgcra', hquota'⟩ := hkeeps id gcra hgcra
  exact ⟨hwindow, gcra', hgcra', hquota'.trans hquota⟩

/-- Limiters that stay the same keep their quotas. -/
theorem keepsQuotas_refl (limiters : List Gcra.Limiter) : KeepsQuotas limiters limiters :=
  fun _ gcra hgcra => ⟨gcra, hgcra, rfl⟩

/-- Limiters that are made leave the others their quotas. -/
theorem keepsQuotas_append (limiters made : List Gcra.Limiter) :
    KeepsQuotas limiters (limiters ++ made) := by
  intro id gcra hgcra
  obtain ⟨hlt, _⟩ := List.getElem?_eq_some_iff.mp hgcra
  exact ⟨gcra, by rw [List.getElem?_append_left hlt, hgcra], rfl⟩

/-- A limiter that has granted cells keeps its quota. -/
theorem keepsQuotas_set {held : Nat} {gcra granted : Gcra.Limiter}
    (hgcra : limiters[held]? = some gcra) (hquota : granted.quota = gcra.quota) :
    KeepsQuotas limiters (limiters.set held granted) := by
  intro id other hother
  by_cases heq : held = id
  · subst heq
    rw [hgcra, Option.some.injEq] at hother
    subst hother
    obtain ⟨hlt, _⟩ := List.getElem?_eq_some_iff.mp hgcra
    exact ⟨granted, List.getElem?_set_self hlt, hquota⟩
  · exact ⟨other, by rw [List.getElem?_set_ne heq, hother], rfl⟩

/-- Every window of a map has a limiter of its quota. -/
def AllServe (windows : Table GovernorWindowSpec GovernorWindowEntry)
    (limiters : List Gcra.Limiter) : Prop :=
  ∀ spec entry, windows.lookup spec = some entry → Serves limiters entry.limiter spec.window

/-- A window is put into the map with a limiter that serves it. -/
theorem AllServe.insert {windows : Table GovernorWindowSpec GovernorWindowEntry}
    (h : AllServe windows limiters) {entry : GovernorWindowEntry}
    (hentry : Serves limiters entry.limiter spec.window) :
    AllServe (windows.insert spec entry) limiters := by
  intro other otherEntry hlookup
  by_cases heq : other = spec
  · subst heq
    rw [AList.lookup_insert, Option.some.injEq] at hlookup
    exact hlookup ▸ hentry
  · rw [AList.lookup_insert_ne heq] at hlookup
    exact h other otherEntry hlookup

/-- What is left after room is made is served as before. -/
theorem AllServe.roomed {windows : Table GovernorWindowSpec GovernorWindowEntry}
    (h : AllServe windows limiters) (limiter : GovernorRateLimiter) :
    AllServe (limiter.roomed windows) limiters := by
  unfold GovernorRateLimiter.roomed
  split
  · intro other entry hlookup
    exact h other entry (lookup_evictOldestWindows.mp hlookup).2
  · exact h

/-- A call on a map whose windows have their limiters. -/
theorem CallOn.serves {windows after : Table GovernorWindowSpec GovernorWindowEntry}
    {result : Except RateLimitError Nat}
    (h : CallOn limiter ctx spec now windows limiters after limiters' result)
    (hall : AllServe windows limiters) :
    KeepsQuotas limiters limiters' ∧ AllServe after limiters' ∧
      ∀ id, result = .ok id → Serves limiters' id spec.window := by
  cases h with
  | @found existing hlookup =>
      have hexisting := hall spec existing hlookup
      refine ⟨keepsQuotas_refl limiters, hall.insert hexisting, ?_⟩
      intro id hok
      cases hok
      exact hexisting
  | failed _ _ =>
      refine ⟨keepsQuotas_refl limiters, hall.roomed limiter, ?_⟩
      intro id hok
      cases hok
  | @made quota _ hquota =>
      have hkeeps := keepsQuotas_append limiters [Gcra.direct quota now]
      obtain ⟨hwindow, hquotaOf⟩ := quotaForWindow_ok hquota
      have hnew : Serves (limiters ++ [Gcra.direct quota now]) limiters.length spec.window :=
        ⟨hwindow, Gcra.direct quota now, List.getElem?_concat_length, hquotaOf⟩
      have hold : AllServe (limiter.roomed windows) (limiters ++ [Gcra.direct quota now]) :=
        fun other entry hlookup => (hall.roomed limiter other entry hlookup).kept hkeeps
      refine ⟨hkeeps, hold.insert hnew, ?_⟩
      intro id hok
      cases hok
      exact hnew

/-- A call makes at most a limiter and leaves the others alone. -/
theorem CallOn.limiters_append {windows after : Table GovernorWindowSpec GovernorWindowEntry}
    {result : Except RateLimitError Nat}
    (h : CallOn limiter ctx spec now windows limiters after limiters' result) :
    ∃ made, limiters' = limiters ++ made := by
  cases h with
  | found _ => exact ⟨[], (List.append_nil _).symm⟩
  | failed _ _ => exact ⟨[], (List.append_nil _).symm⟩
  | made _ _ => exact ⟨_, rfl⟩

/-- A lookup that fails does so with the error of the quota. -/
theorem CallOn.quota_error {windows after : Table GovernorWindowSpec GovernorWindowEntry}
    {result : Except RateLimitError Nat} {error : RateLimitError}
    (h : CallOn limiter ctx spec now windows limiters after limiters' result)
    (herror : result = .error error) : quotaForWindow ctx spec.window = .error error := by
  cases h with
  | found _ | made _ _ => cases herror
  | failed _ hquota =>
      cases herror
      exact hquota

end serves

/-! ## the invariant -/

/-- The windows of the map and those that calls wait for have limiters of
their quotas. -/
structure AcquireWorld.Serving (limiter : GovernorRateLimiter) (world : AcquireWorld) : Prop where
  noted : Noted limiter world.state
  windows : AllServe world.state.windows world.state.limiters
  held : ∀ call ctx use left id, world.calls call = some ⟨ctx, .ok use :: left, some id⟩ →
    Serves world.state.limiters id use.spec.window

section invariant

variable {limiter : GovernorRateLimiter} {world next : AcquireWorld} {event : AcquireEvent}
  {outcome : AcquireOutcome}

/-- At the start there is nothing to serve. -/
theorem serving_init (limiter : GovernorRateLimiter) : AcquireWorld.init.Serving limiter where
  noted := noted_default limiter
  windows spec entry hlookup := by
    rw [AcquireWorld.init, GovernorWindowState.default, AList.lookup_empty] at hlookup
    cases hlookup
  held _ _ _ _ _ hcall := by cases hcall

/-- A world in which only a call has changed, and what it waits for is served. -/
theorem AcquireWorld.Serving.setCall (h : world.Serving limiter) (call : Nat)
    {value : Option AcquireCall}
    (hvalue : ∀ ctx use left id, value = some ⟨ctx, .ok use :: left, some id⟩ →
      Serves world.state.limiters id use.spec.window) :
    (world.setCall call value).Serving limiter where
  noted := h.noted
  windows := h.windows
  held other ctx use left id hother := by
    by_cases heq : other = call
    · subst heq
      rw [calls_setCall_self] at hother
      exact hvalue ctx use left id hother
    · rw [calls_setCall_of_ne heq] at hother
      exact h.held other ctx use left id hother

/-- A call that goes on changes no limiter. -/
theorem AcquireWorld.Serving.goOn (h : world.Serving limiter) (call : Nat)
    (ctx : RateLimitContext) (left : List (Except RateLimitError WindowUse)) :
    (world.goOn call ctx left).1.Serving limiter := by
  unfold AcquireWorld.goOn
  split
  · exact h.setCall call (fun _ _ _ _ hvalue => by cases hvalue)
  · exact h.setCall call (fun _ _ _ _ hvalue => by cases hvalue)

/-- A limiter that has granted cells still serves its windows. -/
theorem AcquireWorld.Serving.grant (h : world.Serving limiter) {held : Nat}
    {gcra granted : Gcra.Limiter} (hgcra : world.state.limiters[held]? = some gcra)
    (hquota : granted.quota = gcra.quota) :
    AcquireWorld.Serving limiter { world with state := world.state.setLimiter held granted } where
  noted := ⟨h.noted.size, h.noted.cached⟩
  windows spec entry hlookup :=
    (h.windows spec entry hlookup).kept (keepsQuotas_set hgcra hquota)
  held call ctx use left id hcall :=
    (h.held call ctx use left id hcall).kept (keepsQuotas_set hgcra hquota)

/-- `limiter_for` in a world whose windows have their limiters. -/
theorem AcquireWorld.Serving.limiterFor (h : world.Serving limiter)
    (hpos : 0 < limiter.maxWindowEntries) {now : Nat} (hnow : now ≤ instantMax)
    (ctx : RateLimitContext) (spec : GovernorWindowSpec) :
    let after := (limiterFor limiter ctx spec now world.state).1
    AcquireWorld.Serving limiter { world with state := after } ∧
      ∀ id, (Concord.limiterFor limiter ctx spec now world.state).2 = .ok id →
        Serves after.limiters id spec.window := by
  intro after
  obtain ⟨hcall, hnoted⟩ := h.noted.limiterFor_callOn hnow hpos ctx spec
  have hswept : AllServe (limiter.swept now world.state.windows) world.state.limiters :=
    fun other entry hlookup => h.windows other entry (lookup_swept.mp hlookup).1
  obtain ⟨hkeeps, hall, hresult⟩ := hcall.serves hswept
  refine ⟨⟨hnoted, hall, ?_⟩, hresult⟩
  intro call ctx use left id hwaits
  exact (h.held call ctx use left id hwaits).kept hkeeps

/-- A reading of the clock is an `Instant`. -/
def AcquireEvent.ReadingOk (event : AcquireEvent) : Prop :=
  ∀ now, event.reading = some now → now ≤ instantMax

/-- Every move keeps the windows served. -/
theorem AcquireWorld.Serving.step (h : world.Serving limiter)
    (hpos : 0 < limiter.maxWindowEntries) (hreading : event.ReadingOk)
    (hmove : AcquireMove (Concord.limiterFor limiter) world event next outcome) :
    next.Serving limiter := by
  cases hmove with
  | started _ => exact h.goOn _ _ _
  | unresolved _ | exceeds _ _ _ => exact h.setCall _ (fun _ _ _ _ hvalue => by cases hvalue)
  | @refused call now ctx use left state error _ hsource =>
      have hworld := (h.limiterFor hpos (hreading now rfl) ctx use.spec).1
      rw [hsource] at hworld
      exact hworld.setCall _ (fun _ _ _ _ hvalue => by cases hvalue)
  | @looked call now ctx use left state held _ hsource =>
      obtain ⟨hworld, hserves⟩ := h.limiterFor hpos (hreading now rfl) ctx use.spec
      rw [hsource] at hworld hserves
      refine hworld.setCall _ ?_
      intro ctx' use' left' id hvalue
      cases hvalue
      exact hserves held rfl
  | sleeps _ _ _ => exact h
  | grants _ hgcra _ hcheck =>
      exact (h.grant hgcra (Gcra.Limiter.checkN_quota hcheck)).goOn _ _ _

end invariant

/-! ## charges -/

/-- The window that a step charges: a turn of `until_n_ready` that is granted. -/
def AcquireWorld.charge (world : AcquireWorld) : AcquireEvent → Option WindowUse
  | .checkN call now =>
    match world.calls call with
    | some ⟨_, .ok use :: _, some held⟩ =>
      match world.state.limiters[held]? with
      | some gcra =>
        if use.cost ≤ gcra.quota.burst ∧ gcra.earliest use.cost ≤ now then some use else none
      | none => none
    | _ => none
  | _ => none

/-- The windows that a call charges in a run, in order. -/
def charges (source : LimiterSource) (call : Nat) : AcquireWorld → List AcquireEvent → List WindowUse
  | _, [] => []
  | world, event :: events =>
    match acquireStep source world event with
    | none => []
    | some (next, _) =>
      (if event.call = call then (world.charge event).toList else []) ++
        charges source call next events

/-- The error that a window of a plan ends a call with, whatever the state of
the limiter. -/
def WindowUse.misconfiguration (ctx : RateLimitContext) (use : WindowUse) :
    Option RateLimitError :=
  match quotaForWindow ctx use.spec.window with
  | .error error => some error
  | .ok _ =>
    if use.cost > use.spec.window.max then
      some (rateLimitAcquireError ctx "rate-limit cost exceeds bucket capacity")
    else none

section charge

variable {source : LimiterSource} {world next : AcquireWorld} {event : AcquireEvent}
  {outcome : AcquireOutcome}

/-- Cells that are granted are charged to the window of the call. -/
theorem charge_of_grant {call now : Nat} {ctx : RateLimitContext} {use : WindowUse}
    {left : List (Except RateLimitError WindowUse)} {held : Nat} {gcra granted : Gcra.Limiter}
    (hcall : world.calls call = some ⟨ctx, .ok use :: left, some held⟩)
    (hgcra : world.state.limiters[held]? = some gcra) (hcost : use.cost ≤ gcra.quota.burst)
    (hcheck : gcra.checkN use.cost now = .ok granted) :
    world.charge (.checkN call now) = some use := by
  have hearliest : gcra.earliest use.cost ≤ now := by
    by_contra hlate
    rw [Gcra.Limiter.checkN, if_pos (Nat.lt_of_not_le hlate)] at hcheck
    cases hcheck
  simp only [AcquireWorld.charge, hcall, hgcra, hcost, hearliest, and_self, if_true]

/-- What the limiters were before a step that charges no window, they are after
it. -/
theorem AcquireMove.limiters_of_no_charge {limiter : GovernorRateLimiter}
    (hmove : AcquireMove (limiterFor limiter) world event next outcome)
    (hserving : world.Serving limiter) (hpos : 0 < limiter.maxWindowEntries)
    (hreading : event.ReadingOk) (hcharge : world.charge event = none) :
    ∃ made, next.state.limiters = world.state.limiters ++ made := by
  have hsource : ∀ {ctx spec now state result}, now ≤ instantMax →
      limiterFor limiter ctx spec now world.state = (state, result) →
      ∃ made, state.limiters = world.state.limiters ++ made := by
    intro ctx spec now state result hnow heq
    have hcall := (hserving.noted.limiterFor_callOn hnow hpos ctx spec).1
    rw [heq] at hcall
    exact hcall.limiters_append
  cases hmove with
  | started _ =>
      rw [state_goOn]
      exact ⟨[], (List.append_nil _).symm⟩
  | unresolved _ | exceeds _ _ _ | sleeps _ _ _ => exact ⟨[], (List.append_nil _).symm⟩
  | refused _ heq => exact hsource (hreading _ rfl) heq
  | looked _ heq => exact hsource (hreading _ rfl) heq
  | grants hcall hgcra hcost hcheck =>
      rw [charge_of_grant hcall hgcra hcost hcheck] at hcharge
      cases hcharge

/-- A call that is over takes no more steps until it starts again. -/
theorem exec_over {call : Nat} (hidle : world.calls call = none) {events : List AcquireEvent}
    {last : AcquireEvent} (hstarts : ∀ ctx, AcquireEvent.start call ctx ∉ events ++ [last])
    (hlast : last.call = call) {after : AcquireWorld} {outcomes : List AcquireOutcome} :
    exec (acquireStep source) world (events ++ [last]) ≠ some (after, outcomes) := by
  intro hrun
  induction events generalizing world outcomes with
  | nil =>
      obtain ⟨next, outcome, _, hstep, _, _⟩ := exec_cons_eq_some.mp hrun
      cases acquireStep_move hstep with
      | started _ =>
          subst hlast
          exact hstarts _ (List.mem_singleton_self _)
      | unresolved hcall | refused hcall _ | looked hcall _ | exceeds hcall _ _
      | sleeps hcall _ _ | grants hcall _ _ _ =>
          subst hlast
          rw [AcquireEvent.call, hcall] at hidle
          cases hidle
  | cons event events ih =>
      obtain ⟨next, outcome, outcomes', hstep, hrest, _⟩ := exec_cons_eq_some.mp hrun
      have hmove := acquireStep_move hstep
      have hstarts' : ∀ ctx, AcquireEvent.start call ctx ∉ events ++ [last] :=
        fun ctx hmem => hstarts ctx (List.mem_cons_of_mem _ hmem)
      by_cases hown : event.call = call
      · cases hmove with
        | started _ =>
            subst hown
            exact hstarts _ List.mem_cons_self
        | unresolved hcall | refused hcall _ | looked hcall _ | exceeds hcall _ _
        | sleeps hcall _ _ | grants hcall _ _ _ =>
            subst hown
            rw [AcquireEvent.call, hcall] at hidle
            cases hidle
      · have hother : next.calls call = none := by
          rw [hmove.calls_other (Ne.symm hown), hidle]
        exact ih hother hstarts' hrest

end charge

/-! ## calls that fail -/

/-- What ends a call: a key that does not resolve, or a window that cannot
work. -/
def EndsWith (ctx : RateLimitContext) (error : RateLimitError) :
    Except RateLimitError WindowUse → Prop
  | .error failure => failure = error
  | .ok use => use.misconfiguration ctx = some error

section failed

variable {limiter : GovernorRateLimiter} {ctx : RateLimitContext}

/-- A window without a quota is misconfigured, with the error of the quota. -/
theorem misconfiguration_of_quota {use : WindowUse} {error : RateLimitError}
    (h : quotaForWindow ctx use.spec.window = .error error) :
    use.misconfiguration ctx = some error := by
  rw [WindowUse.misconfiguration, h]

/-- A window whose cells are fewer than the cost is misconfigured. -/
theorem misconfiguration_of_cost {use : WindowUse}
    (hwindow : use.spec.window.max ≤ use.spec.window.per)
    (hcost : use.spec.window.max < use.cost) :
    use.misconfiguration ctx =
      some (rateLimitAcquireError ctx "rate-limit cost exceeds bucket capacity") := by
  simp only [WindowUse.misconfiguration, quotaForWindow_eq ctx hwindow, gt_iff_lt, if_pos hcost]

/-- A window that has a quota and enough cells is well configured. -/
theorem misconfiguration_eq_none {use : WindowUse}
    (hwindow : use.spec.window.max ≤ use.spec.window.per)
    (hcost : use.cost ≤ use.spec.window.max) : use.misconfiguration ctx = none := by
  simp only [WindowUse.misconfiguration, quotaForWindow_eq ctx hwindow, gt_iff_lt,
    if_neg (Nat.not_lt_of_le hcost)]

/-- The step with which a call fails charges no window. -/
theorem AcquireMove.failed {world next : AcquireWorld} {event : AcquireEvent}
    {left : List (Except RateLimitError WindowUse)} {held : Option Nat} {error : RateLimitError}
    (hmove : AcquireMove (limiterFor limiter) world event next (.failed error))
    (hserving : world.Serving limiter) (hpos : 0 < limiter.maxWindowEntries)
    (hreading : event.ReadingOk) (hcall : world.calls event.call = some ⟨ctx, left, held⟩) :
    world.charge event = none ∧ ∃ failing rest, left = failing :: rest ∧ EndsWith ctx error failing := by
  generalize houtcome : AcquireOutcome.failed error = outcome at hmove
  cases hmove with
  | started hidle =>
      rw [AcquireEvent.call, hidle] at hcall
      cases hcall
  | unresolved hwaits =>
      rw [AcquireEvent.call, hwaits] at hcall
      cases hcall
      cases houtcome
      exact ⟨rfl, _, _, rfl, rfl⟩
  | @refused call now ctx' use left' state failure hwaits hsource =>
      rw [AcquireEvent.call, hwaits] at hcall
      cases hcall
      cases houtcome
      have hlooked := (hserving.noted.limiterFor_callOn (hreading now rfl) hpos ctx use.spec).1
      rw [hsource] at hlooked
      exact ⟨rfl, _, _, rfl, misconfiguration_of_quota (hlooked.quota_error rfl)⟩
  | looked _ _ => cases houtcome
  | @exceeds call now ctx' use left' id gcra hwaits hgcra hcost =>
      rw [AcquireEvent.call, hwaits] at hcall
      cases hcall
      cases houtcome
      obtain ⟨hwindow, gcra', hgcra', hquota⟩ := hserving.held _ _ _ _ _ hwaits
      rw [hgcra, Option.some.injEq] at hgcra'
      subst hgcra'
      have hless : use.spec.window.max < use.cost := by
        rw [hquota] at hcost
        exact hcost
      refine ⟨?_, _, _, rfl, misconfiguration_of_cost hwindow hless⟩
      simp only [AcquireWorld.charge, hwaits, hgcra, Nat.not_le_of_lt hcost, false_and, if_false]
  | sleeps _ _ _ => cases houtcome
  | grants _ _ _ _ =>
      unfold AcquireWorld.goOn at houtcome
      split at houtcome
      · cases houtcome
      · cases houtcome

/-- A window whose limiter grants its cost could work. -/
theorem AcquireWorld.Serving.works_of_granted {world : AcquireWorld} (h : world.Serving limiter)
    {call : Nat} {use : WindowUse} {left : List (Except RateLimitError WindowUse)} {held : Nat}
    {gcra : Gcra.Limiter} (hcall : world.calls call = some ⟨ctx, .ok use :: left, some held⟩)
    (hgcra : world.state.limiters[held]? = some gcra) (hcost : use.cost ≤ gcra.quota.burst) :
    use.misconfiguration ctx = none := by
  obtain ⟨hwindow, gcra', hgcra', hquota⟩ := h.held _ _ _ _ _ hcall
  rw [hgcra, Option.some.injEq] at hgcra'
  subst hgcra'
  rw [hquota] at hcost
  exact misconfiguration_eq_none hwindow hcost

/-- A step of a call after which it goes on: it charges the window it is at and
moves on, or stays where it is. -/
theorem AcquireMove.own {world next : AcquireWorld} {event : AcquireEvent}
    {outcome : AcquireOutcome} {left : List (Except RateLimitError WindowUse)} {held : Option Nat}
    (hmove : AcquireMove (limiterFor limiter) world event next outcome)
    (hserving : world.Serving limiter) (hcall : world.calls event.call = some ⟨ctx, left, held⟩)
    (hgoes : next.calls event.call ≠ none) :
    (∃ use rest, left = .ok use :: rest ∧ use.misconfiguration ctx = none ∧
      world.charge event = some use ∧ next.calls event.call = some ⟨ctx, rest, none⟩) ∨
    (world.charge event = none ∧ ∃ held', next.calls event.call = some ⟨ctx, left, held'⟩) := by
  cases hmove with
  | started hidle =>
      rw [AcquireEvent.call, hidle] at hcall
      cases hcall
  | unresolved _ | refused _ _ | exceeds _ _ _ => exact absurd (calls_setCall_self _ _ _) hgoes
  | looked hwaits _ =>
      rw [AcquireEvent.call, hwaits] at hcall
      cases hcall
      exact .inr ⟨rfl, _, calls_setCall_self _ _ _⟩
  | @sleeps call now ctx' use rest id gcra delay hwaits hgcra hcheck =>
      rw [AcquireEvent.call, hwaits] at hcall
      cases hcall
      refine .inr ⟨?_, _, hwaits⟩
      have hlate : ¬ gcra.earliest use.cost ≤ now := by
        intro hle
        rw [Gcra.Limiter.checkN, if_neg (Nat.not_lt_of_le hle)] at hcheck
        cases hcheck
      simp only [AcquireWorld.charge, hwaits, hgcra, hlate, and_false, if_false]
  | @grants call now ctx' use rest id gcra granted hwaits hgcra hcost hcheck =>
      rw [AcquireEvent.call, hwaits] at hcall
      cases hcall
      refine .inl ⟨use, rest, rfl, hserving.works_of_granted hwaits hgcra hcost,
        charge_of_grant hwaits hgcra hcost hcheck, ?_⟩
      unfold AcquireWorld.goOn at hgoes ⊢
      by_cases hempty : rest.isEmpty = true
      · rw [if_pos hempty] at hgoes
        exact absurd (calls_setCall_self _ _ _) hgoes
      · rw [if_neg hempty]
        exact calls_setCall_self _ _ _

/-- A call that fails has charged the windows before the one it failed at, and
those could work. -/
theorem charges_of_failed {call : Nat} {events : List AcquireEvent} {last : AcquireEvent}
    {world mid after : AcquireWorld} {outcomes : List AcquireOutcome} {error : RateLimitError}
    {left : List (Except RateLimitError WindowUse)} {held : Option Nat}
    (hserving : world.Serving limiter) (hpos : 0 < limiter.maxWindowEntries)
    (hreading : ∀ event ∈ events ++ [last], event.ReadingOk)
    (hstarts : ∀ ctx, AcquireEvent.start call ctx ∉ events ++ [last]) (hlast : last.call = call)
    (hcall : world.calls call = some ⟨ctx, left, held⟩)
    (hrun : exec (acquireStep (limiterFor limiter)) world events = some (mid, outcomes))
    (hfails : acquireStep (limiterFor limiter) mid last = some (after, .failed error)) :
    ∃ charged failing rest, left = charged.map .ok ++ failing :: rest ∧
      charges (limiterFor limiter) call world (events ++ [last]) = charged ∧
      (∀ use ∈ charged, use.misconfiguration ctx = none) ∧ EndsWith ctx error failing := by
  induction events generalizing world outcomes left held with
  | nil =>
      rw [exec_nil, Option.some.injEq, Prod.mk.injEq] at hrun
      obtain ⟨rfl, _⟩ := hrun
      subst hlast
      obtain ⟨hcharge, failing, rest, hleft, hends⟩ := (acquireStep_move hfails).failed hserving
        hpos (hreading last (List.mem_singleton_self _)) hcall
      refine ⟨[], failing, rest, hleft, ?_, ?_, hends⟩
      · simp only [List.nil_append, charges, hfails, hcharge, if_true, Option.toList_none]
      · intro use hmem
        cases hmem
  | cons event events ih =>
      obtain ⟨next, outcome, outcomes', hstep, hrest, _⟩ := exec_cons_eq_some.mp hrun
      have hmove := acquireStep_move hstep
      have hnext := hserving.step hpos (hreading event List.mem_cons_self) hmove
      have hreading' : ∀ event ∈ events ++ [last], event.ReadingOk :=
        fun event hmem => hreading event (List.mem_cons_of_mem _ hmem)
      have hstarts' : ∀ ctx, AcquireEvent.start call ctx ∉ events ++ [last] :=
        fun ctx hmem => hstarts ctx (List.mem_cons_of_mem _ hmem)
      have hcharges : charges (limiterFor limiter) call world (event :: events ++ [last]) =
          (if event.call = call then (world.charge event).toList else []) ++
            charges (limiterFor limiter) call next (events ++ [last]) := by
        simp only [List.cons_append, charges, hstep]
      -- the call cannot be over: it still takes its last step
      have hover : next.calls call ≠ none := by
        intro hidle
        apply exec_over hidle hstarts' hlast
        rw [exec_append_eq_some]
        exact ⟨mid, outcomes', [.failed error], hrest,
          exec_cons_eq_some.mpr ⟨after, .failed error, [], hfails, rfl, rfl⟩, rfl⟩
      rw [hcharges]
      by_cases hown : event.call = call
      · rw [if_pos hown]
        subst hown
        cases hmove.own hserving hcall hover with
        | inl hcharged =>
            obtain ⟨use, rest, rfl, hworks, hcharge, hcall'⟩ := hcharged
            obtain ⟨charged, failing, rest', hleft, hrestCharges, hall, hends⟩ :=
              ih hnext hreading' hstarts' hcall' hrest
            refine ⟨use :: charged, failing, rest', ?_, ?_, ?_, hends⟩
            · rw [hleft, List.map_cons, List.cons_append]
            · rw [hcharge, hrestCharges, Option.toList_some, List.singleton_append]
            · exact List.forall_mem_cons.mpr ⟨hworks, hall⟩
        | inr hstays =>
            obtain ⟨hcharge, held', hcall'⟩ := hstays
            rw [hcharge, Option.toList_none, List.nil_append]
            exact ih hnext hreading' hstarts' hcall' hrest
      · have hcall' : next.calls call = some ⟨ctx, left, held⟩ := by
          rw [hmove.calls_other (Ne.symm hown), hcall]
        rw [if_neg hown, List.nil_append]
        exact ih hnext hreading' hstarts' hcall' hrest

end failed

/-! ## calls that return -/

/-- What a call has left is the end of its plan, and the windows before it could
work. -/
def AcquireWorld.OnCourse (world : AcquireWorld) : Prop :=
  ∀ call ctx left held, world.calls call = some ⟨ctx, left, held⟩ →
    ∃ done : List WindowUse, windowUses ctx = done.map .ok ++ left ∧
      ∀ use ∈ done, use.misconfiguration ctx = none

section course

variable {limiter : GovernorRateLimiter} {world next : AcquireWorld} {event : AcquireEvent}
  {outcome : AcquireOutcome} {ctx : RateLimitContext}

/-- What a call has left is of its plan. -/
theorem AcquireWorld.OnCourse.mem (h : world.OnCourse) {call : Nat}
    {left : List (Except RateLimitError WindowUse)} {held : Option Nat}
    (hcall : world.calls call = some ⟨ctx, left, held⟩) {item : Except RateLimitError WindowUse}
    (hitem : item ∈ left) : item ∈ windowUses ctx := by
  obtain ⟨done, hdone, _⟩ := h call ctx left held hcall
  rw [hdone]
  exact List.mem_append_right _ hitem

/-- A call that is set is on course if what it has done works. -/
theorem AcquireWorld.OnCourse.setCall (h : world.OnCourse) (call : Nat)
    {value : Option AcquireCall}
    (hvalue : ∀ ctx left held, value = some ⟨ctx, left, held⟩ → ∃ done : List WindowUse,
      windowUses ctx = done.map .ok ++ left ∧ ∀ use ∈ done, use.misconfiguration ctx = none) :
    (world.setCall call value).OnCourse := by
  intro other ctx left held hother
  by_cases heq : other = call
  · subst heq
    rw [calls_setCall_self] at hother
    exact hvalue ctx left held hother
  · rw [calls_setCall_of_ne heq] at hother
    exact h other ctx left held hother

/-- A call goes on with what is left of its plan. -/
theorem AcquireWorld.OnCourse.goOn (h : world.OnCourse) (call : Nat)
    {left : List (Except RateLimitError WindowUse)} (done : List WindowUse)
    (hdone : windowUses ctx = done.map .ok ++ left)
    (hworks : ∀ use ∈ done, use.misconfiguration ctx = none) :
    (world.goOn call ctx left).1.OnCourse := by
  unfold AcquireWorld.goOn
  split
  · exact h.setCall call (fun _ _ _ hvalue => by cases hvalue)
  · refine h.setCall call ?_
    intro ctx' left' held hvalue
    cases hvalue
    exact ⟨done, hdone, hworks⟩

/-- Every move keeps the calls on course. -/
theorem AcquireWorld.OnCourse.step (h : world.OnCourse) (hserving : world.Serving limiter)
    (hmove : AcquireMove (limiterFor limiter) world event next outcome) : next.OnCourse := by
  have hstate (state : GovernorWindowState) :
      AcquireWorld.OnCourse { world with state := state } := h
  cases hmove with
  | started _ => exact h.goOn _ [] rfl (by simp)
  | unresolved _ | exceeds _ _ _ => exact h.setCall _ (fun _ _ _ hvalue => by cases hvalue)
  | refused _ _ => exact (hstate _).setCall _ (fun _ _ _ hvalue => by cases hvalue)
  | looked hcall _ =>
      refine (hstate _).setCall _ ?_
      intro ctx left held hvalue
      cases hvalue
      exact h _ _ _ _ hcall
  | sleeps _ _ _ => exact h
  | @grants call now ctx use left held gcra granted hcall hgcra hcost _ =>
      obtain ⟨done, hdone, hworks⟩ := h _ _ _ _ hcall
      refine (hstate _).goOn _ (done ++ [use]) ?_ ?_
      · rw [hdone, List.map_append, List.append_assoc]
        rfl
      · rw [List.forall_mem_append, List.forall_mem_singleton]
        exact ⟨hworks, hserving.works_of_granted hcall hgcra hcost⟩

/-- A permit comes at the end of a plan whose windows could all work. -/
theorem AcquireMove.permitted (hcourse : world.OnCourse) (hserving : world.Serving limiter)
    (hmove : AcquireMove (limiterFor limiter) world event next .permit)
    (hof : world.StepOf event ctx) : ∀ use, .ok use ∈ windowUses ctx →
      use.misconfiguration ctx = none := by
  generalize houtcome : AcquireOutcome.permit = outcome at hmove
  cases hmove with
  | @started call other hidle =>
      rcases hof with hstart | ⟨left, held, hcall⟩
      · cases hstart
        unfold AcquireWorld.goOn at houtcome
        split at houtcome
        · next hempty =>
            rw [List.isEmpty_iff] at hempty
            simp [hempty]
        · cases houtcome
      · rw [AcquireEvent.call, hidle] at hcall
        cases hcall
  | unresolved _ | refused _ _ | looked _ _ | exceeds _ _ _ | sleeps _ _ _ => cases houtcome
  | @grants call now other use left held gcra granted hcall hgcra hcost _ =>
      rcases hof with hstart | ⟨left', held', hcall'⟩
      · cases hstart
      · rw [AcquireEvent.call, hcall] at hcall'
        cases hcall'
        unfold AcquireWorld.goOn at houtcome
        split at houtcome
        · next hempty =>
            rw [List.isEmpty_iff] at hempty
            obtain ⟨done, hdone, hworks⟩ := hcourse _ _ _ _ hcall
            rw [hempty] at hdone
            have hlast := hserving.works_of_granted hcall hgcra hcost
            intro other hother
            rw [hdone, List.mem_append, List.mem_singleton, Except.ok.injEq] at hother
            rcases hother with hother | rfl
            · obtain ⟨same, hsame, heq⟩ := List.mem_map.mp hother
              cases heq
              exact hworks _ hsame
            · exact hlast
        · cases houtcome

end course

/-! ## keys -/

section keys

variable {limiter : GovernorRateLimiter} {ctx : RateLimitContext} {bucket : RateLimitBucketUse}
  {error : RateLimitError}

/-- One key that does not resolve is enough for the keys of a plan to fail. -/
theorem planCooldownKeys_of_unresolved {buckets : List RateLimitBucketUse}
    (hbucket : bucket ∈ buckets) (hkey : resolveKey ctx bucket.key = .error error) :
    ∃ failure, planCooldownKeys ctx buckets = .error failure := by
  induction buckets with
  | nil => cases hbucket
  | cons first buckets ih =>
      rw [planCooldownKeys, bucketKindCooldownKey, bucketCooldownKey]
      cases hfirst : resolveKey ctx first.key with
      | error failure => exact ⟨failure, rfl⟩
      | ok key =>
          cases List.mem_cons.mp hbucket with
          | inl heq =>
              subst heq
              rw [hkey] at hfirst
              cases hfirst
          | inr hmem =>
              obtain ⟨failure, hfailure⟩ := ih hmem
              simp only [hfailure]
              exact ⟨failure, rfl⟩

/-- A bucket whose key does not resolve ends the call in the first turn of its
`wait_cooldown`. -/
theorem waitCooldown_of_unresolved (hbucket : bucket ∈ ctx.plan.buckets)
    (hkey : resolveKey ctx bucket.key = .error error) (round : CooldownRound)
    (rounds : List CooldownRound) (cooldowns : Cooldowns) :
    waitCooldown limiter ctx (round :: rounds) cooldowns = some (.error error, rounds) := by
  obtain ⟨failure, hplan⟩ := planCooldownKeys_of_unresolved hbucket hkey
  have hkeys : cooldownKeysForAcquire ctx = .error error := by
    cases hacquire : cooldownKeysForAcquire ctx with
    | error acquireFailure =>
        rw [cooldownKeysForAcquire_error hacquire, resolveKey_error hkey]
    | ok keys =>
        unfold cooldownKeysForAcquire at hacquire
        rw [hplan] at hacquire
        simp only at hacquire
        split at hacquire
        · cases hacquire
        · cases hacquire
  simp only [waitCooldown, waitCooldownTurn, hkeys]

/-- A call that is through with its wait has resolved all its keys. -/
theorem windowUses_of_waited {rounds rest : List CooldownRound} {cooldowns : Cooldowns}
    (hwaited : waitCooldown limiter ctx rounds cooldowns = some (.ok (), rest)) :
    ∀ use ∈ windowUses ctx, ∃ window, use = .ok window := by
  intro use huse
  obtain ⟨bucket, hbucket, hmem⟩ := List.mem_flatMap.mp huse
  cases hkey : resolveKey ctx bucket.key with
  | error error =>
      cases rounds with
      | nil => cases hwaited
      | cons round rounds =>
          rw [waitCooldown_of_unresolved hbucket hkey] at hwaited
          cases hwaited
  | ok key =>
      simp only [hkey, List.mem_map] at hmem
      obtain ⟨window, _, rfl⟩ := hmem
      exact ⟨_, rfl⟩

end keys

/-! ## what a failed call leaves -/

/-- A call of `acquire` that gets through its wait and then fails: the run
before it, its own steps with those of other calls between them, and the step
with which it fails. -/
structure FailedCall (limiter : GovernorRateLimiter) (ctx : RateLimitContext)
    (error : RateLimitError) where
  rounds : List CooldownRound
  cooldowns : Cooldowns
  rest : List CooldownRound
  waited : waitCooldown limiter ctx rounds cooldowns = some (.ok (), rest)
  before : List AcquireEvent
  world : AcquireWorld
  answers : List AcquireOutcome
  reached : exec (calmStep limiter) .init before = some (world, answers)
  call : Nat
  events : List AcquireEvent
  last : AcquireEvent
  once : ∀ ctx, AcquireEvent.start call ctx ∉ events ++ [last]
  last_call : last.call = call
  readings : ∀ event ∈ before ++ .start call ctx :: events ++ [last], event.ReadingOk
  mid : AcquireWorld
  outcomes : List AcquireOutcome
  ran : exec (calmStep limiter) world (.start call ctx :: events) = some (mid, outcomes)
  after : AcquireWorld
  fails : calmStep limiter mid last = some (after, .failed error)

namespace FailedCall

variable {limiter : GovernorRateLimiter} {ctx : RateLimitContext} {error : RateLimitError}

/-- The steps from the start of the call to its failure. -/
def steps (run : FailedCall limiter ctx error) : List AcquireEvent :=
  .start run.call ctx :: run.events ++ [run.last]

/-- The windows it has charged. -/
def charged (run : FailedCall limiter ctx error) : List WindowUse :=
  charges (limiterFor limiter) run.call run.world run.steps

end FailedCall

/-- Windows are served in every state that calls reach. -/
theorem serving_of_exec {limiter : GovernorRateLimiter} (hpos : 0 < limiter.maxWindowEntries)
    {events : List AcquireEvent} {world after : AcquireWorld} {outcomes : List AcquireOutcome}
    (hserving : world.Serving limiter) (hreading : ∀ event ∈ events, event.ReadingOk)
    (hrun : exec (acquireStep (limiterFor limiter)) world events = some (after, outcomes)) :
    after.Serving limiter := by
  induction events generalizing world outcomes with
  | nil =>
      rw [exec_nil, Option.some.injEq, Prod.mk.injEq] at hrun
      exact hrun.1 ▸ hserving
  | cons event events ih =>
      obtain ⟨next, outcome, outcomes', hstep, hrest, _⟩ := exec_cons_eq_some.mp hrun
      obtain ⟨hfirst, hothers⟩ := List.forall_mem_cons.mp hreading
      exact ih (hserving.step hpos hfirst (acquireStep_move hstep)) hothers hrest

/-- Calls are on course in every state that they reach. -/
theorem onCourse_of_exec {limiter : GovernorRateLimiter} (hpos : 0 < limiter.maxWindowEntries)
    {events : List AcquireEvent} {after : AcquireWorld} {outcomes : List AcquireOutcome}
    (hreading : ∀ event ∈ events, event.ReadingOk)
    (hrun : exec (acquireStep (limiterFor limiter)) .init events = some (after, outcomes)) :
    after.OnCourse := by
  have hboth : after.OnCourse ∧ after.Serving limiter := by
    refine exec_invariant_of_labels (I := fun world => world.OnCourse ∧ world.Serving limiter)
      ?_ hrun hreading ⟨fun _ _ _ _ hcall => (by cases hcall), serving_init limiter⟩
    intro world event next outcome hreading hworld hstep
    have hmove := acquireStep_move hstep
    exact ⟨hworld.1.step hworld.2 hmove, hworld.2.step hpos hreading hmove⟩
  exact hboth.1

/-- A call that fails has charged the windows before the one that fails. -/
theorem charges_of_run {limiter : GovernorRateLimiter} {ctx : RateLimitContext}
    {error : RateLimitError} (hpos : 0 < limiter.maxWindowEntries)
    (run : FailedCall limiter ctx error) (hworld : run.world.Serving limiter)
    (hreading : ∀ event ∈ run.steps, event.ReadingOk) :
    ∃ failing left, windowUses ctx = run.charged.map .ok ++ failing :: left ∧
      (∀ use ∈ run.charged, use.misconfiguration ctx = none) ∧ EndsWith ctx error failing := by
  have hran := exec_of_restricted acquireStep_of_calm run.ran
  have hfails := acquireStep_of_calm run.fails
  obtain ⟨started, outcome, outcomes, hstart, hrest, _⟩ := exec_cons_eq_some.mp hran
  obtain ⟨hstartReading, hothers⟩ := List.forall_mem_cons.mp hreading
  have hmove := acquireStep_move hstart
  have hserving := hworld.step hpos hstartReading hmove
  have hcharged : run.charged =
      charges (limiterFor limiter) run.call started (run.events ++ [run.last]) := by
    simp only [FailedCall.charged, FailedCall.steps, List.cons_append, charges, hstart,
      AcquireWorld.charge, Option.toList_none, ite_self, List.nil_append]
  have hover : started.calls run.call ≠ none := by
    intro hidle
    apply exec_over hidle run.once run.last_call
    rw [exec_append_eq_some]
    exact ⟨run.mid, outcomes, [.failed error], hrest,
      exec_cons_eq_some.mpr ⟨run.after, .failed error, [], hfails, rfl, rfl⟩, rfl⟩
  have hcall : started.calls run.call = some ⟨ctx, windowUses ctx, none⟩ := by
    cases hmove with
    | started _ =>
        unfold AcquireWorld.goOn at hover ⊢
        by_cases hempty : (windowUses ctx).isEmpty = true
        · rw [if_pos hempty] at hover
          exact absurd (calls_setCall_self _ _ _) hover
        · rw [if_neg hempty]
          exact calls_setCall_self _ _ _
  obtain ⟨charged, failing, left, hleft, hcharges, hall, hends⟩ := charges_of_failed hserving hpos
    hothers run.once run.last_call hcall hrest hfails
  rw [hcharged, hcharges]
  exact ⟨failing, left, hleft, hall, hends⟩

/-- A step loses a window only if the window has expired or a window that is not
in the map needs its room. -/
theorem AcquireMove.lost {limiter : GovernorRateLimiter} {world next : AcquireWorld}
    {event : AcquireEvent} {outcome : AcquireOutcome}
    (hmove : AcquireMove (limiterFor limiter) world event next outcome)
    (hserving : world.Serving limiter) (hpos : 0 < limiter.maxWindowEntries)
    (hreading : event.ReadingOk) {spec : GovernorWindowSpec} {entry : GovernorWindowEntry}
    (hentry : world.state.windows.lookup spec = some entry) (hlost : spec ∉ next.state.windows) :
    ∃ now, event.reading = some now ∧
      (limiter.expired now entry = true ∨
        ∃ ctx use left, world.calls event.call = some ⟨ctx, .ok use :: left, none⟩ ∧
          use.spec ∉ limiter.swept now world.state.windows ∧
          limiter.maxWindowEntries ≤ (limiter.swept now world.state.windows).size) := by
  have hstays : spec ∈ world.state.windows := Table.mem_iff_exists_lookup.mpr ⟨entry, hentry⟩
  have hsource : ∀ {ctx use left now state result}, now ≤ instantMax →
      world.calls event.call = some ⟨ctx, .ok use :: left, none⟩ →
      limiterFor limiter ctx use.spec now world.state = (state, result) →
      spec ∉ state.windows → limiter.expired now entry = true ∨
        ∃ ctx use left, world.calls event.call = some ⟨ctx, .ok use :: left, none⟩ ∧
          use.spec ∉ limiter.swept now world.state.windows ∧
          limiter.maxWindowEntries ≤ (limiter.swept now world.state.windows).size := by
    intro ctx use left now state result hnow hcall heq hgone
    cases hexpired : limiter.expired now entry with
    | true => exact .inl rfl
    | false =>
        have hlooked := (hserving.noted.limiterFor_callOn hnow hpos ctx use.spec).1
        rw [heq] at hlooked
        obtain ⟨hnew, hfull, _⟩ := hlooked.lost (lookup_swept.mpr ⟨hentry, hexpired⟩) hgone
        exact .inr ⟨ctx, use, left, hcall, AList.lookup_eq_none.mp hnew, hfull⟩
  cases hmove with
  | started _ =>
      rw [state_goOn] at hlost
      exact absurd hstays hlost
  | unresolved _ | exceeds _ _ _ | sleeps _ _ _ => exact absurd hstays hlost
  | refused hcall heq => exact ⟨_, rfl, hsource (hreading _ rfl) hcall heq hlost⟩
  | looked hcall heq => exact ⟨_, rfl, hsource (hreading _ rfl) hcall heq hlost⟩
  | grants _ _ _ _ =>
      rw [state_goOn] at hlost
      exact absurd hstays hlost

/-- **What a misconfigured call does.**  With a key that does not resolve it
ends before its first window.  With a window that cannot work it never returns a
permit: it ends at the first such window of its plan, with the error of that
window, and has charged exactly the windows before it; a step of it that charges
no window leaves every limiter as it was; and it loses a window that has not
expired only where a window of the plan that is not in the map needs its room. -/
theorem misconfigured_acquire_effects {limiter : GovernorRateLimiter}
    (hconfigured : limiter.Configured) (ctx : RateLimitContext) :
    (∀ bucket ∈ ctx.plan.buckets, ∀ error, resolveKey ctx bucket.key = .error error →
      ∀ round rounds cooldowns,
        waitCooldown limiter ctx (round :: rounds) cooldowns = some (.error error, rounds)) ∧
    (∀ use, .ok use ∈ windowUses ctx → use.misconfiguration ctx ≠ none →
      ∀ before world answers event next, (∀ other ∈ before ++ [event], other.ReadingOk) →
        exec (calmStep limiter) .init before = some (world, answers) →
        world.StepOf event ctx → calmStep limiter world event ≠ some (next, .permit)) ∧
    ∀ error, ∀ run : FailedCall limiter ctx error,
      (∃ failing left, windowUses ctx = run.charged.map .ok ++ .ok failing :: left ∧
        (∀ use ∈ run.charged, use.misconfiguration ctx = none) ∧
        failing.misconfiguration ctx = some error) ∧
      ∀ earlier event later, run.steps = earlier ++ event :: later → event.call = run.call →
        ∀ world answers next outcome,
          exec (calmStep limiter) run.world earlier = some (world, answers) →
          calmStep limiter world event = some (next, outcome) →
          (world.charge event = none →
            ∃ made, next.state.limiters = world.state.limiters ++ made) ∧
          ∀ spec entry, world.state.windows.lookup spec = some entry →
            spec ∉ next.state.windows →
            ∃ now, event.reading = some now ∧
              (limiter.expired now entry = true ∨
                ∃ ctx use left, world.calls run.call = some ⟨ctx, .ok use :: left, none⟩ ∧
                  use.spec ∉ limiter.swept now world.state.windows ∧
                  limiter.maxWindowEntries ≤
                    (limiter.swept now world.state.windows).size) := by
  have hpos := hconfigured.maxWindowEntries_pos
  refine ⟨fun bucket hbucket error hkey round rounds cooldowns =>
    waitCooldown_of_unresolved hbucket hkey round rounds cooldowns, ?_, ?_⟩
  · intro use huse hmisconfigured before world answers event next hreading hrun hof hpermit
    have hexec := exec_of_restricted acquireStep_of_calm hrun
    have hearlier : ∀ other ∈ before, other.ReadingOk :=
      fun other hmem => hreading other (List.mem_append_left _ hmem)
    have hserving := serving_of_exec hpos (serving_init limiter) hearlier hexec
    have hcourse := onCourse_of_exec hpos hearlier hexec
    have hmove := acquireStep_move (acquireStep_of_calm hpermit)
    exact hmisconfigured (hmove.permitted hcourse hserving hof use huse)
  · intro error run
    have hbefore : ∀ event ∈ run.before, event.ReadingOk :=
      fun event hmem => run.readings event (by simp [hmem])
    have hsteps : ∀ event ∈ run.steps, event.ReadingOk := by
      intro event hmem
      apply run.readings
      rw [List.append_assoc]
      exact List.mem_append_right _ hmem
    have hreached := exec_of_restricted acquireStep_of_calm run.reached
    have hworld := serving_of_exec hpos (serving_init limiter) hbefore hreached
    constructor
    · obtain ⟨failing, left, hleft, hall, hends⟩ := charges_of_run hpos run hworld hsteps
      have hfailing : failing ∈ windowUses ctx := by
        rw [hleft]
        exact List.mem_append_right _ List.mem_cons_self
      obtain ⟨use, rfl⟩ := windowUses_of_waited run.waited failing hfailing
      exact ⟨use, left, hleft, hall, hends⟩
    · intro earlier event later hsplit hcall world answers next outcome hearlier hstep
      rw [hsplit] at hsteps
      have hexec := exec_of_restricted acquireStep_of_calm hearlier
      have hserving := serving_of_exec hpos hworld
        (fun event hmem => hsteps event (List.mem_append_left _ hmem)) hexec
      have hreading := hsteps event (List.mem_append_right _ List.mem_cons_self)
      have hmove := acquireStep_move (acquireStep_of_calm hstep)
      rw [← hcall]
      exact ⟨hmove.limiters_of_no_charge hserving hpos hreading,
        fun spec entry hentry hlost => hmove.lost hserving hpos hreading hentry hlost⟩

/-- A plan whose second window has no duration. -/
def brokenSecondWindow : RateLimitContext where
  endpoint := "GetUser"
  method := .get
  url := "https://api.example.com/user"
  urlHost := some "api.example.com"
  maxCooldown := 60
  plan := ⟨[⟨⟨"app", "requests"⟩, ⟨[⟨"route.host", .urlHost⟩]⟩,
    [⟨10, 10, ten_pos⟩, ⟨10, 0, ten_pos⟩], 1, Nat.one_pos⟩]⟩

/-- Clock readings of zero are in range. -/
theorem readingOk_zero :
    ∀ event ∈ [AcquireEvent.start 0 brokenSecondWindow, .limiterFor 0 0, .checkN 0 0,
      .limiterFor 0 0], event.ReadingOk := by
  intro event hmem now hnow
  simp only [List.mem_cons, List.not_mem_nil, or_false] at hmem
  obtain rfl | rfl | rfl | rfl := hmem
  · cases hnow
  · cases hnow
    exact Nat.zero_le _
  · cases hnow
    exact Nat.zero_le _
  · cases hnow
    exact Nat.zero_le _

/-- The call is started once. -/
theorem not_started_again :
    ∀ ctx, AcquireEvent.start 0 ctx ∉ [AcquireEvent.limiterFor 0 0, .checkN 0 0] ++
      [.limiterFor 0 0] := by
  intro ctx hmem
  simp at hmem

/-- The first window is charged, then the second one is found not to work. -/
def brokenSecondWindowRun : FailedCall .new brokenSecondWindow
    (rateLimitConfigurationError brokenSecondWindow
      "rate-limit window duration must not be zero") where
  rounds := [⟨[], 0⟩]
  cooldowns := ∅
  rest := []
  waited := rfl
  before := []
  world := .init
  answers := []
  reached := rfl
  call := 0
  events := [.limiterFor 0 0, .checkN 0 0]
  last := .limiterFor 0 0
  once := not_started_again
  last_call := rfl
  readings := readingOk_zero
  mid := _
  outcomes := _
  ran := rfl
  after := _
  fails := rfl

/-- A call whose second window is broken has charged its first. -/
theorem misconfigured_acquire_charges :
    ¬ ∀ (ctx : RateLimitContext) (error : RateLimitError) (run : FailedCall .new ctx error),
      run.charged = [] := by
  intro h
  have hcharged := h _ _ brokenSecondWindowRun
  have hone : brokenSecondWindowRun.charged.length = 1 := by decide
  rw [hcharged] at hone
  cases hone

/-- Neither this call nor any other of the plan returns a permit. -/
theorem misconfigured_acquire_effects_broken :
    GovernorRateLimiter.new.Configured ∧
      (∃ failing left, windowUses brokenSecondWindow =
        brokenSecondWindowRun.charged.map .ok ++ .ok failing :: left) ∧
      calmStep .new brokenSecondWindowRun.mid brokenSecondWindowRun.last ≠
        some (brokenSecondWindowRun.after, .permit) := by
  obtain ⟨_, hpermits, hfails⟩ := misconfigured_acquire_effects .new brokenSecondWindow
  obtain ⟨failing, left, hleft, _, hfailing⟩ := (hfails _ brokenSecondWindowRun).1
  refine ⟨.new, ⟨failing, left, hleft⟩, ?_⟩
  have huse : .ok failing ∈ windowUses brokenSecondWindow := by
    rw [hleft]
    exact List.mem_append_right _ List.mem_cons_self
  refine hpermits failing huse (by simp [hfailing])
    (.start 0 brokenSecondWindow :: brokenSecondWindowRun.events) brokenSecondWindowRun.mid
    brokenSecondWindowRun.outcomes _ _ readingOk_zero brokenSecondWindowRun.ran ?_
  exact .inr ⟨_, _, rfl⟩

end Concord
