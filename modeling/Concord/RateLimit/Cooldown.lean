import Concord.Lib.Checked
import Concord.Lib.Table
import Concord.RateLimit.Plan

/-!
# Concord.RateLimit.Cooldown

Cooldowns of the default limiter
(`concord_core/src/rate_limit/governor_runtime.rs`): what a response stores
and what the next request of the same kind waits for.

The cooldown map sits behind a lock that is held for the length of
`storeCooldown` and of one turn of `wait_cooldown`, so these are the steps in
which tasks interleave.  Each reads the clock before it takes the lock.  A
poisoned lock, which takes a panic of another task, is left out.
-/

namespace Concord

open Checked

/-- The settings of `GovernorRateLimiter`. -/
structure GovernorRateLimiter where
  maxWindowEntries : Nat
  maxCooldownEntries : Nat
  windowIdleTtl : Nat
  deriving DecidableEq, Repr

/-- `GovernorRateLimiter::new`: 4096 entries of either kind, windows idle for
15 minutes. -/
def GovernorRateLimiter.new : GovernorRateLimiter := ⟨4096, 4096, 15 * 60 * 1000000000⟩

/-! ## keys -/

/-- What a deadline is for. -/
inductive RateLimitCooldownKey where
  | client
  | request (method : Method) (endpoint url : String)
  | endpoint (method : Method) (endpoint : String)
  | host (host : String)
  | bucketKind (kind : String) (key : ResolvedRateLimitKey)
  | bucket (id : RateLimitBucketId) (key : ResolvedRateLimitKey)
  deriving DecidableEq, Repr

/-- The request itself. -/
def requestCooldownKey (ctx : RateLimitContext) : RateLimitCooldownKey :=
  .request ctx.method ctx.endpoint ctx.url

/-- The whole client. -/
def clientCooldownKey : RateLimitCooldownKey := .client

/-- The host, if there is one. -/
def hostCooldownKey (ctx : RateLimitContext) : Except RateLimitError RateLimitCooldownKey :=
  match ctx.urlHost with
  | none => .error (missingHostKeyError ctx)
  | some host => .ok (.host host)

/-- The endpoint. -/
def endpointCooldownKey (ctx : RateLimitContext) : RateLimitCooldownKey :=
  .endpoint ctx.method ctx.endpoint

/-- All buckets of a kind with this key. -/
def bucketKindCooldownKey (ctx : RateLimitContext) (bucket : RateLimitBucketUse) :
    Except RateLimitError RateLimitCooldownKey :=
  match resolveKey ctx bucket.key with
  | .error error => .error error
  | .ok key => .ok (.bucketKind bucket.id.kind key)

/-- The bucket with this key. -/
def bucketCooldownKey (ctx : RateLimitContext) (bucket : RateLimitBucketUse) :
    Except RateLimitError RateLimitCooldownKey :=
  match resolveKey ctx bucket.key with
  | .error error => .error error
  | .ok key => .ok (.bucket bucket.id key)

/-- The keys of the buckets of a plan, as `cooldown_keys_for_acquire` pushes
them. -/
def planCooldownKeys (ctx : RateLimitContext) :
    List RateLimitBucketUse → Except RateLimitError (List RateLimitCooldownKey)
  | [] => .ok []
  | bucket :: buckets =>
    match bucketKindCooldownKey ctx bucket with
    | .error error => .error error
    | .ok kindKey =>
      match bucketCooldownKey ctx bucket with
      | .error error => .error error
      | .ok key =>
        match planCooldownKeys ctx buckets with
        | .error error => .error error
        | .ok keys => .ok (kindKey :: key :: keys)

/-- All deadlines a request waits for. -/
def cooldownKeysForAcquire (ctx : RateLimitContext) :
    Except RateLimitError (List RateLimitCooldownKey) :=
  let keys := [clientCooldownKey, endpointCooldownKey ctx, requestCooldownKey ctx]
  let hostKeys : Except RateLimitError (List RateLimitCooldownKey) :=
    if ctx.urlHost.isSome then
      match hostCooldownKey ctx with
      | .error error => .error error
      | .ok key => .ok [key]
    else .ok []
  match hostKeys with
  | .error error => .error error
  | .ok hostKeys =>
    match planCooldownKeys ctx ctx.plan.buckets with
    | .error error => .error error
    | .ok planKeys => .ok (keys ++ hostKeys ++ planKeys)

/-- `iter().map(key).collect::<Result<Vec<_>, _>>()`. -/
def collectKeys (key : RateLimitBucketUse → Except RateLimitError RateLimitCooldownKey) :
    List RateLimitBucketUse → Except RateLimitError (List RateLimitCooldownKey)
  | [] => .ok []
  | bucket :: buckets =>
    match key bucket with
    | .error error => .error error
    | .ok k =>
      match collectKeys key buckets with
      | .error error => .error error
      | .ok keys => .ok (k :: keys)

/-- The deadlines a target raises. -/
def cooldownKeysForTarget (ctx : RateLimitContext) :
    RateLimitTarget → Except RateLimitError (List RateLimitCooldownKey)
  | .none => .ok []
  | .request => .ok [requestCooldownKey ctx]
  | .endpoint => .ok [endpointCooldownKey ctx]
  | .host =>
    if ctx.urlHost.isNone then .error (missingHostKeyError ctx)
    else
      match hostCooldownKey ctx with
      | .error error => .error error
      | .ok key => .ok [key]
  | .client => .ok [clientCooldownKey]
  | .currentPlan fallback =>
    if ctx.plan.isEmpty then cooldownKeysForTarget ctx fallback
    else collectKeys (bucketCooldownKey ctx) ctx.plan.buckets
  | .bucketKind kind fallback =>
    match collectKeys (bucketKindCooldownKey ctx)
        (ctx.plan.buckets.filter (fun bucket => bucket.id.kind = kind)) with
    | .error error => .error error
    | .ok keys => if keys.isEmpty then cooldownKeysForTarget ctx fallback else .ok keys
  | .bucket id fallback =>
    match collectKeys (bucketCooldownKey ctx)
        (ctx.plan.buckets.filter (fun bucket => bucket.id = id)) with
    | .error error => .error error
    | .ok keys => if keys.isEmpty then cooldownKeysForTarget ctx fallback else .ok keys

/-! ## the cooldown map -/

/-- Deadlines by key. -/
abbrev Cooldowns := Table RateLimitCooldownKey Nat

/-- Deadlines that are over are dropped. -/
def pruneCooldowns (cooldowns : Cooldowns) (now : Nat) : Cooldowns :=
  cooldowns.retain (fun _ deadline => deadline > now)

/-- `entry(key).or_insert(until)`, raised to `until` if it is earlier. -/
def raiseCooldown (deadline : Nat) (cooldowns : Cooldowns) (key : RateLimitCooldownKey) :
    Cooldowns :=
  match cooldowns.lookup key with
  | none => cooldowns.insert key deadline
  | some current => if current < deadline then cooldowns.insert key deadline else cooldowns

/-- `store_cooldown`, with its reading of the clock: the map it leaves and
whether a cooldown was stored. -/
def storeCooldown (limiter : GovernorRateLimiter) (ctx : RateLimitContext)
    (target : RateLimitTarget) (delay maxCooldown now : Nat) (cooldowns : Cooldowns) :
    Cooldowns × Except RateLimitError Bool :=
  match cooldownKeysForTarget ctx target with
  | .error error => (cooldowns, .error error)
  | .ok keys =>
    if keys.isEmpty then (cooldowns, .ok false)
    else if delay > maxCooldown then
      (cooldowns, .error (rateLimitConfigurationError ctx
        "rate-limit cooldown exceeds configured maximum"))
    else
      match checkedAdd instantMax now delay with
      | none => (cooldowns, .error (rateLimitConfigurationError ctx
          "rate-limit cooldown duration overflowed"))
      | some deadline =>
        let cooldowns := pruneCooldowns cooldowns now
        let newEntries := (keys.filter (fun key => key ∉ cooldowns)).dedup.length
        if cooldowns.size + newEntries > limiter.maxCooldownEntries then
          (cooldowns, .error (rateLimitConfigurationError ctx
            "rate-limit cooldown entry cap exceeded"))
        else (keys.foldl (raiseCooldown deadline) cooldowns, .ok true)

/-- `store_observation`. -/
def storeObservation (limiter : GovernorRateLimiter) (ctx : RateLimitContext)
    (observation : RateLimitObservation) (maxCooldown now : Nat) (cooldowns : Cooldowns) :
    Cooldowns × Except RateLimitError RateLimitResponseAction :=
  if ¬ observation.limited then (cooldowns, .ok .continue)
  else
    match observation.delay.map (min · maxCooldown) with
    | none => (cooldowns, .ok (.limited none observation.target false))
    | some delay =>
      if delay = 0 ∨ observation.target = .none then
        (cooldowns, .ok (.limited (some delay) observation.target false))
      else
        match storeCooldown limiter ctx observation.target delay maxCooldown now cooldowns with
        | (cooldowns, .error error) => (cooldowns, .error error)
        | (cooldowns, .ok stored) =>
          (cooldowns, .ok (.limited (some delay) observation.target stored))

/-! ## waiting -/

/-- The longest time left of the cooldowns under the given keys. -/
def longestDelay (keys : List RateLimitCooldownKey) (cooldowns : Cooldowns) (now : Nat) :
    Option Nat :=
  ((keys.filterMap cooldowns.lookup).filterMap
    (fun deadline => if now ≤ deadline then some (deadline - now) else none)).max?

/-- A turn of the loop of `wait_cooldown`: `some` is how long it sleeps before
the next one, `none` that it is done. -/
def waitCooldownTurn (ctx : RateLimitContext) (now : Nat) (cooldowns : Cooldowns) :
    Cooldowns × Except RateLimitError (Option Nat) :=
  match cooldownKeysForAcquire ctx with
  | .error error => (cooldowns, .error error)
  | .ok keys =>
    let cooldowns := pruneCooldowns cooldowns now
    match longestDelay keys cooldowns now with
    | none => (cooldowns, .ok none)
    | some delay =>
      if delay = 0 then (cooldowns, .ok none)
      else if delay > ctx.maxCooldown then
        (cooldowns, .error (rateLimitConfigurationError ctx
          "rate-limit cooldown exceeds configured maximum"))
      else (cooldowns, .ok (some delay))

/-- What another task does to the cooldown map: store a cooldown, or take a
turn of its own wait. -/
inductive CooldownEvent where
  | store (ctx : RateLimitContext) (target : RateLimitTarget) (delay maxCooldown now : Nat)
  | turn (ctx : RateLimitContext) (now : Nat)

/-- The reading of the clock an event is made with. -/
def CooldownEvent.reading : CooldownEvent → Nat
  | .store _ _ _ _ now => now
  | .turn _ now => now

/-- What an event does to the deadlines. -/
def CooldownEvent.apply (limiter : GovernorRateLimiter) (cooldowns : Cooldowns) :
    CooldownEvent → Cooldowns
  | .store ctx target delay maxCooldown now =>
    (storeCooldown limiter ctx target delay maxCooldown now cooldowns).1
  | .turn ctx now => (waitCooldownTurn ctx now cooldowns).1

/-- A turn of a wait, with the clock reading it is made with and what other
tasks did since the turn before it. -/
structure CooldownRound where
  others : List CooldownEvent
  now : Nat

/-- The readings of the clock up to the end of a round. -/
def CooldownRound.readings (round : CooldownRound) : List Nat :=
  round.others.map CooldownEvent.reading ++ [round.now]

/-- `wait_cooldown` over a list of rounds: its result and the rounds it did not
need, `none` while it still sleeps. -/
def waitCooldown (limiter : GovernorRateLimiter) (ctx : RateLimitContext) :
    List CooldownRound → Cooldowns → Option (Except RateLimitError Unit × List CooldownRound)
  | [], _ => none
  | round :: rounds, cooldowns =>
    match waitCooldownTurn ctx round.now
        (round.others.foldl (CooldownEvent.apply limiter) cooldowns) with
    | (_, .error error) => some (.error error, rounds)
    | (_, .ok none) => some (.ok (), rounds)
    | (cooldowns, .ok (some _)) => waitCooldown limiter ctx rounds cooldowns

/-! ## every stored key is checked -/

/-- Every key collected is a bucket's. -/
theorem mem_collectKeys {key : RateLimitBucketUse → Except RateLimitError RateLimitCooldownKey}
    {buckets : List RateLimitBucketUse} {keys : List RateLimitCooldownKey}
    (h : collectKeys key buckets = .ok keys) {k : RateLimitCooldownKey} (hk : k ∈ keys) :
    ∃ bucket ∈ buckets, key bucket = .ok k := by
  induction buckets generalizing keys with
  | nil =>
      rw [← Except.ok.inj h] at hk
      contradiction
  | cons bucket buckets ih =>
      rw [collectKeys] at h
      cases hb : key bucket with
      | error error => simp [hb] at h
      | ok first =>
          simp only [hb] at h
          cases hrest : collectKeys key buckets with
          | error error => simp [hrest] at h
          | ok rest =>
              simp only [hrest, Except.ok.injEq] at h
              rw [← h] at hk
              cases List.mem_cons.mp hk with
              | inl heq => exact ⟨bucket, List.mem_cons_self, heq ▸ hb⟩
              | inr hmem =>
                  obtain ⟨bucket', hmem', hkey⟩ := ih hrest hmem
                  exact ⟨bucket', List.mem_cons_of_mem _ hmem', hkey⟩

/-- Acquire checks both keys of every bucket of the plan. -/
theorem mem_planCooldownKeys {ctx : RateLimitContext} {buckets : List RateLimitBucketUse}
    {keys : List RateLimitCooldownKey} (h : planCooldownKeys ctx buckets = .ok keys)
    {bucket : RateLimitBucketUse} (hb : bucket ∈ buckets) {k : RateLimitCooldownKey}
    (hk : bucketKindCooldownKey ctx bucket = .ok k ∨ bucketCooldownKey ctx bucket = .ok k) :
    k ∈ keys := by
  induction buckets generalizing keys with
  | nil => contradiction
  | cons first buckets ih =>
      rw [planCooldownKeys] at h
      cases hkind : bucketKindCooldownKey ctx first with
      | error error => simp [hkind] at h
      | ok kindKey =>
          cases hbucket : bucketCooldownKey ctx first with
          | error error => simp [hkind, hbucket] at h
          | ok key =>
              cases hrest : planCooldownKeys ctx buckets with
              | error error => simp [hkind, hbucket, hrest] at h
              | ok rest =>
                  simp only [hkind, hbucket, hrest, Except.ok.injEq] at h
                  rw [← h]
                  cases List.mem_cons.mp hb with
                  | inl heq =>
                      subst heq
                      rw [hkind, hbucket, Except.ok.injEq, Except.ok.injEq] at hk
                      cases hk with
                      | inl hk => simp [hk]
                      | inr hk => simp [hk]
                  | inr hmem => simp [ih hrest hmem]

/-- What acquire checks. -/
theorem mem_cooldownKeysForAcquire {ctx : RateLimitContext} {keys : List RateLimitCooldownKey}
    (h : cooldownKeysForAcquire ctx = .ok keys) :
    clientCooldownKey ∈ keys ∧ endpointCooldownKey ctx ∈ keys ∧ requestCooldownKey ctx ∈ keys ∧
      (∀ k, hostCooldownKey ctx = .ok k → k ∈ keys) ∧
      ∀ bucket ∈ ctx.plan.buckets, ∀ k,
        bucketKindCooldownKey ctx bucket = .ok k ∨ bucketCooldownKey ctx bucket = .ok k →
          k ∈ keys := by
  unfold cooldownKeysForAcquire at h
  simp only at h
  split at h
  · contradiction
  · next hostKeys hhost =>
      cases hplan : planCooldownKeys ctx ctx.plan.buckets with
      | error error => simp [hplan] at h
      | ok planKeys =>
          simp only [hplan, Except.ok.injEq] at h
          subst h
          refine ⟨by simp, by simp, by simp, fun k hk => ?_, fun bucket hb k hk => ?_⟩
          · have hsome : ctx.urlHost.isSome := by
              unfold hostCooldownKey at hk
              split at hk
              · contradiction
              · next host heq => rw [heq]; rfl
            simp only [hsome, if_true, hk, Except.ok.injEq] at hhost
            simp [← hhost]
          · exact List.mem_append_right _ (mem_planCooldownKeys hplan hb hk)

/-- **A target stores only keys that acquire checks.** -/
theorem cooldownKeysForTarget_subset {ctx : RateLimitContext} {target : RateLimitTarget}
    {keys checked : List RateLimitCooldownKey} (hkeys : cooldownKeysForTarget ctx target = .ok keys)
    (hchecked : cooldownKeysForAcquire ctx = .ok checked) : keys ⊆ checked := by
  obtain ⟨hclient, hendpoint, hrequest, hhost, hbuckets⟩ := mem_cooldownKeysForAcquire hchecked
  induction target generalizing keys with
  | none =>
      rw [← Except.ok.inj hkeys]
      exact List.nil_subset _
  | request =>
      rw [← Except.ok.inj hkeys]
      exact List.cons_subset.mpr ⟨hrequest, List.nil_subset _⟩
  | endpoint =>
      rw [← Except.ok.inj hkeys]
      exact List.cons_subset.mpr ⟨hendpoint, List.nil_subset _⟩
  | client =>
      rw [← Except.ok.inj hkeys]
      exact List.cons_subset.mpr ⟨hclient, List.nil_subset _⟩
  | host =>
      rw [cooldownKeysForTarget] at hkeys
      split at hkeys
      · contradiction
      · split at hkeys
        · contradiction
        · next key hkey =>
            rw [← Except.ok.inj hkeys]
            exact List.cons_subset.mpr ⟨hhost key hkey, List.nil_subset _⟩
  | currentPlan fallback ih =>
      rw [cooldownKeysForTarget] at hkeys
      split at hkeys
      · exact ih hkeys
      · intro k hk
        obtain ⟨bucket, hb, hkey⟩ := mem_collectKeys hkeys hk
        exact hbuckets bucket hb k (.inr hkey)
  | bucketKind kind fallback ih =>
      rw [cooldownKeysForTarget] at hkeys
      split at hkeys
      · contradiction
      · next keys' hcollect =>
          split at hkeys
          · exact ih hkeys
          · rw [← Except.ok.inj hkeys]
            intro k hk
            obtain ⟨bucket, hb, hkey⟩ := mem_collectKeys hcollect hk
            exact hbuckets bucket (List.mem_of_mem_filter hb) k (.inl hkey)
  | bucket id fallback ih =>
      rw [cooldownKeysForTarget] at hkeys
      split at hkeys
      · contradiction
      · next keys' hcollect =>
          split at hkeys
          · exact ih hkeys
          · rw [← Except.ok.inj hkeys]
            intro k hk
            obtain ⟨bucket, hb, hkey⟩ := mem_collectKeys hcollect hk
            exact hbuckets bucket (List.mem_of_mem_filter hb) k (.inr hkey)

/-! ## deadlines are kept -/

/-- The map holds back requests with this key until the deadline at least. -/
def Holds (key : RateLimitCooldownKey) (deadline : Nat) (cooldowns : Cooldowns) : Prop :=
  ∃ current, cooldowns.lookup key = some current ∧ deadline ≤ current

/-- What is left after pruning lies ahead. -/
theorem lookup_pruneCooldowns {cooldowns : Cooldowns} {now : Nat} {key : RateLimitCooldownKey}
    {deadline : Nat} : (pruneCooldowns cooldowns now).lookup key = some deadline ↔
      cooldowns.lookup key = some deadline ∧ now < deadline := by
  rw [pruneCooldowns, Table.lookup_retain_eq_some, decide_eq_true_iff]

/-- Pruning lets go of a deadline only after it. -/
theorem Holds.prune {key : RateLimitCooldownKey} {deadline : Nat} {cooldowns : Cooldowns}
    (h : Holds key deadline cooldowns) (now : Nat) :
    Holds key deadline (pruneCooldowns cooldowns now) ∨ deadline ≤ now := by
  obtain ⟨current, hlookup, hle⟩ := h
  by_cases hlt : now < current
  · exact .inl ⟨current, lookup_pruneCooldowns.mpr ⟨hlookup, hlt⟩, hle⟩
  · exact .inr (by omega)

/-- A deadline that is raised is held. -/
theorem holds_raiseCooldown (deadline : Nat) (cooldowns : Cooldowns)
    (key : RateLimitCooldownKey) : Holds key deadline (raiseCooldown deadline cooldowns key) := by
  unfold raiseCooldown
  split
  · exact ⟨deadline, AList.lookup_insert _, Nat.le_refl _⟩
  · next current hlookup =>
      split
      · exact ⟨deadline, AList.lookup_insert _, Nat.le_refl _⟩
      · exact ⟨current, hlookup, by omega⟩

/-- Raising a deadline lowers none. -/
theorem Holds.raise {key : RateLimitCooldownKey} {deadline : Nat} {cooldowns : Cooldowns}
    (h : Holds key deadline cooldowns) (deadline' : Nat) (key' : RateLimitCooldownKey) :
    Holds key deadline (raiseCooldown deadline' cooldowns key') := by
  obtain ⟨current, hlookup, hle⟩ := h
  by_cases heq : key = key'
  · subst heq
    unfold raiseCooldown
    simp only [hlookup]
    split
    · exact ⟨deadline', AList.lookup_insert _, by omega⟩
    · exact ⟨current, hlookup, hle⟩
  · unfold raiseCooldown
    split
    · exact ⟨current, by rw [AList.lookup_insert_ne heq, hlookup], hle⟩
    · split
      · exact ⟨current, by rw [AList.lookup_insert_ne heq, hlookup], hle⟩
      · exact ⟨current, hlookup, hle⟩

/-- Raising others never lowers it. -/
theorem Holds.raiseAll {key : RateLimitCooldownKey} {deadline : Nat} {cooldowns : Cooldowns}
    (h : Holds key deadline cooldowns) (deadline' : Nat) (keys : List RateLimitCooldownKey) :
    Holds key deadline (keys.foldl (raiseCooldown deadline') cooldowns) := by
  induction keys generalizing cooldowns with
  | nil => exact h
  | cons key' keys ih => exact ih (h.raise deadline' key')

/-- All deadlines that are raised are held. -/
theorem holds_raiseAll {deadline : Nat} {keys : List RateLimitCooldownKey}
    {key : RateLimitCooldownKey} (hkey : key ∈ keys) (cooldowns : Cooldowns) :
    Holds key deadline (keys.foldl (raiseCooldown deadline) cooldowns) := by
  induction keys generalizing cooldowns with
  | nil => contradiction
  | cons first keys ih =>
      cases List.mem_cons.mp hkey with
      | inl heq =>
          rw [List.foldl_cons, heq]
          exact (holds_raiseCooldown deadline cooldowns first).raiseAll deadline keys
      | inr hmem => exact ih hmem _

section steps

variable {limiter : GovernorRateLimiter} {ctx : RateLimitContext} {target : RateLimitTarget}
  {delay maxCooldown now : Nat} {cooldowns stored : Cooldowns}

/-- What a store does to the map: nothing, pruning, or pruning and raising. -/
theorem storeCooldown_map (limiter : GovernorRateLimiter) (ctx : RateLimitContext)
    (target : RateLimitTarget) (delay maxCooldown now : Nat) (cooldowns : Cooldowns) :
    (storeCooldown limiter ctx target delay maxCooldown now cooldowns).1 = cooldowns ∨
      ∃ (keys : List RateLimitCooldownKey) (deadline : Nat),
        (storeCooldown limiter ctx target delay maxCooldown now cooldowns).1 =
          keys.foldl (raiseCooldown deadline) (pruneCooldowns cooldowns now) := by
  unfold storeCooldown
  split
  · exact .inl rfl
  · next keys _ =>
      split
      · exact .inl rfl
      · split
        · exact .inl rfl
        · split
          · exact .inl rfl
          · next deadline _ =>
              simp only
              split
              · exact .inr ⟨[], deadline, rfl⟩
              · exact .inr ⟨keys, deadline, rfl⟩

/-- A store that succeeds raises every key of its target to the deadline. -/
theorem storeCooldown_stored
    (h : storeCooldown limiter ctx target delay maxCooldown now cooldowns = (stored, .ok true)) :
    ∃ keys, cooldownKeysForTarget ctx target = .ok keys ∧ keys ≠ [] ∧ delay ≤ maxCooldown ∧
      stored = keys.foldl (raiseCooldown (now + delay)) (pruneCooldowns cooldowns now) := by
  unfold storeCooldown at h
  split at h
  · simp at h
  · next keys hkeys =>
      split at h
      · simp at h
      · next hne =>
          split at h
          · simp at h
          · next hdelay =>
              split at h
              · simp at h
              · next deadline hadd =>
                  simp only at h
                  split at h
                  · simp at h
                  · rw [Prod.mk.injEq] at h
                    rw [← (checkedAdd_eq_some_iff.mp hadd).2] at h
                    exact ⟨keys, hkeys, by simpa using hne, by omega, h.1.symm⟩

/-- A turn of waiting prunes at most. -/
theorem waitCooldownTurn_map (ctx : RateLimitContext) (now : Nat) (cooldowns : Cooldowns) :
    (waitCooldownTurn ctx now cooldowns).1 = cooldowns ∨
      (waitCooldownTurn ctx now cooldowns).1 = pruneCooldowns cooldowns now := by
  unfold waitCooldownTurn
  split
  · exact .inl rfl
  · simp only
    split
    · exact .inr rfl
    · split
      · exact .inr rfl
      · split
        · exact .inr rfl
        · exact .inr rfl

/-- A step of another task lets go of a deadline only after it. -/
theorem Holds.apply {key : RateLimitCooldownKey} {deadline : Nat}
    (h : Holds key deadline cooldowns) (limiter : GovernorRateLimiter) (event : CooldownEvent) :
    Holds key deadline (event.apply limiter cooldowns) ∨ deadline ≤ event.reading := by
  cases event with
  | store ctx target delay maxCooldown now =>
      simp only [CooldownEvent.apply, CooldownEvent.reading]
      obtain heq | ⟨keys, deadline', heq⟩ :=
        storeCooldown_map limiter ctx target delay maxCooldown now cooldowns
      · rw [heq]
        exact .inl h
      · rw [heq]
        exact (h.prune now).imp (fun hpruned => hpruned.raiseAll deadline' keys) id
  | turn ctx now =>
      simp only [CooldownEvent.apply, CooldownEvent.reading]
      cases waitCooldownTurn_map ctx now cooldowns with
      | inl heq =>
          rw [heq]
          exact .inl h
      | inr heq =>
          rw [heq]
          exact h.prune now

/-- A deadline is held through any events until it is over. -/
theorem Holds.applyAll {key : RateLimitCooldownKey} {deadline : Nat}
    (h : Holds key deadline cooldowns) (limiter : GovernorRateLimiter)
    (events : List CooldownEvent) :
    Holds key deadline (events.foldl (CooldownEvent.apply limiter) cooldowns) ∨
      ∃ event ∈ events, deadline ≤ event.reading := by
  induction events generalizing cooldowns with
  | nil => exact .inl h
  | cons event events ih =>
      cases h.apply limiter event with
      | inl hnext =>
          refine (ih hnext).imp id (fun hlate => ?_)
          obtain ⟨late, hmem, hle⟩ := hlate
          exact ⟨late, List.mem_cons_of_mem _ hmem, hle⟩
      | inr hle => exact .inr ⟨event, List.mem_cons_self, hle⟩

/-! ## waiting -/

/-- No key is left with more time than the longest delay. -/
theorem le_longestDelay {keys : List RateLimitCooldownKey} {key : RateLimitCooldownKey}
    (hkey : key ∈ keys) {deadline : Nat} (hlookup : cooldowns.lookup key = some deadline)
    (hle : now ≤ deadline) :
    ∃ longest, longestDelay keys cooldowns now = some longest ∧ deadline - now ≤ longest := by
  have hmem : deadline - now ∈ (keys.filterMap cooldowns.lookup).filterMap
      (fun deadline => if now ≤ deadline then some (deadline - now) else none) := by
    rw [List.mem_filterMap]
    exact ⟨deadline, List.mem_filterMap.mpr ⟨key, hkey, hlookup⟩, by rw [if_pos hle]⟩
  unfold longestDelay
  cases hmax : ((keys.filterMap cooldowns.lookup).filterMap
      (fun deadline => if now ≤ deadline then some (deadline - now) else none)).max? with
  | none =>
      rw [List.max?_eq_none_iff] at hmax
      rw [hmax] at hmem
      contradiction
  | some longest => exact ⟨longest, rfl, (List.max?_eq_some_iff.mp hmax).2 _ hmem⟩

/-- The longest delay is that of some key. -/
theorem longestDelay_eq_some {keys : List RateLimitCooldownKey} {longest : Nat}
    (h : longestDelay keys cooldowns now = some longest) :
    ∃ key ∈ keys, ∃ deadline, cooldowns.lookup key = some deadline ∧ now ≤ deadline ∧
      longest = deadline - now := by
  obtain ⟨deadline, hmem, heq⟩ := List.mem_filterMap.mp (List.max?_eq_some_iff.mp h).1
  obtain ⟨key, hkey, hlookup⟩ := List.mem_filterMap.mp hmem
  split at heq
  · next hle => exact ⟨key, hkey, deadline, hlookup, hle, (Option.some.inj heq).symm⟩
  · contradiction

/-- A turn that ends the wait comes after every deadline that acquire checks. -/
theorem le_of_turn_done {checked : List RateLimitCooldownKey}
    (hchecked : cooldownKeysForAcquire ctx = .ok checked)
    (h : waitCooldownTurn ctx now cooldowns = (stored, .ok none))
    {key : RateLimitCooldownKey} (hkey : key ∈ checked) {deadline : Nat}
    (hlookup : cooldowns.lookup key = some deadline) : deadline ≤ now := by
  by_contra hlt
  have hpruned : (pruneCooldowns cooldowns now).lookup key = some deadline :=
    lookup_pruneCooldowns.mpr ⟨hlookup, by omega⟩
  have hnow : now ≤ deadline := by omega
  obtain ⟨longest, hlongest, hle⟩ := le_longestDelay hkey hpruned hnow
  have hpos : longest ≠ 0 := by omega
  simp only [waitCooldownTurn, hchecked, hlongest, if_neg hpos] at h
  split at h
  · simp at h
  · simp at h

/-- A turn that comes after every deadline ends the wait. -/
theorem turn_done_of_le {checked : List RateLimitCooldownKey}
    (hchecked : cooldownKeysForAcquire ctx = .ok checked)
    (hle : ∀ key ∈ checked, ∀ deadline, cooldowns.lookup key = some deadline → deadline ≤ now) :
    waitCooldownTurn ctx now cooldowns = (pruneCooldowns cooldowns now, .ok none) := by
  have hnone : longestDelay checked (pruneCooldowns cooldowns now) now = none := by
    cases hlongest : longestDelay checked (pruneCooldowns cooldowns now) now with
    | none => rfl
    | some longest =>
        obtain ⟨key, hkey, deadline, hlookup, _, _⟩ := longestDelay_eq_some hlongest
        obtain ⟨hlookup', hlt⟩ := lookup_pruneCooldowns.mp hlookup
        have hdone := hle key hkey deadline hlookup'
        omega
  simp only [waitCooldownTurn, hchecked, hnone]

/-- A turn before the last deadline sleeps until it. -/
theorem turn_sleeps {checked : List RateLimitCooldownKey} {deadline : Nat}
    (hchecked : cooldownKeysForAcquire ctx = .ok checked)
    (hlast : ∀ key ∈ checked, ∀ other, cooldowns.lookup key = some other → other ≤ deadline)
    {key : RateLimitCooldownKey} (hkey : key ∈ checked) (hholds : Holds key deadline cooldowns)
    (hlt : now < deadline) (hmax : deadline - now ≤ ctx.maxCooldown) :
    waitCooldownTurn ctx now cooldowns =
      (pruneCooldowns cooldowns now, .ok (some (deadline - now))) := by
  obtain ⟨current, hlookup, hle⟩ := hholds
  have heq : current = deadline := Nat.le_antisymm (hlast key hkey current hlookup) hle
  subst heq
  have hpruned : (pruneCooldowns cooldowns now).lookup key = some current :=
    lookup_pruneCooldowns.mpr ⟨hlookup, hlt⟩
  obtain ⟨longest, hlongest, hge⟩ := le_longestDelay hkey hpruned (Nat.le_of_lt hlt)
  have hsame : longest = current - now := by
    obtain ⟨key', hkey', other, hlookup', _, heq⟩ := longestDelay_eq_some hlongest
    have hother := hlast key' hkey' other (lookup_pruneCooldowns.mp hlookup').1
    omega
  have hpos : ¬ current - now = 0 := by omega
  have hnot : ¬ current - now > ctx.maxCooldown := by omega
  simp only [waitCooldownTurn, hchecked, hlongest, hsame, if_neg hpos, if_neg hnot]

/-- A wait that is over has seen the clock at the deadline, its own reading or
that of another task. -/
theorem late_of_waitCooldown {checked : List RateLimitCooldownKey}
    (hchecked : cooldownKeysForAcquire ctx = .ok checked) {key : RateLimitCooldownKey}
    (hkey : key ∈ checked) {deadline : Nat} {rounds : List CooldownRound}
    (hholds : Holds key deadline cooldowns)
    (h : waitCooldown limiter ctx rounds cooldowns = some (.ok (), [])) :
    ∃ round ∈ rounds, ∃ reading ∈ round.readings, deadline ≤ reading := by
  induction rounds generalizing cooldowns with
  | nil => contradiction
  | cons round rounds ih =>
      have hlate : ∀ {reading}, reading ∈ round.readings → deadline ≤ reading →
          ∃ round' ∈ round :: rounds, ∃ reading ∈ round'.readings, deadline ≤ reading :=
        fun hmem hle => ⟨round, List.mem_cons_self, _, hmem, hle⟩
      cases hholds.applyAll limiter round.others with
      | inr hothers =>
          obtain ⟨event, hmem, hle⟩ := hothers
          exact hlate (List.mem_append_left _ (List.mem_map_of_mem hmem)) hle
      | inl hheld =>
          rw [waitCooldown] at h
          split at h
          · simp at h
          · next hturn =>
              obtain ⟨current, hlookup, hle⟩ := hheld
              have hdone := le_of_turn_done hchecked hturn hkey hlookup
              exact hlate (List.mem_append_right _ (List.mem_singleton.mpr rfl)) (by omega)
          · next cooldowns' _ hturn =>
              -- The turn is a step like those of the other tasks.
              have hkept := hheld.apply limiter (.turn ctx round.now)
              simp only [CooldownEvent.apply, CooldownEvent.reading, hturn] at hkept
              cases hkept with
              | inl hkept =>
                  obtain ⟨late, hmem, hrest⟩ := ih hkept h
                  exact ⟨late, List.mem_cons_of_mem _ hmem, hrest⟩
              | inr hle => exact hlate (List.mem_append_right _ (List.mem_singleton.mpr rfl)) hle

end steps

/-- **Cooldowns reach the requests they were stored for**: every key that a
target stores is among those acquire checks, whatever the plan and however
deep the fallbacks go.  After a cooldown has been stored, a wait of the same
request is over only when the clock has passed the deadline, whatever other
tasks do to the map meanwhile; and if no later cooldown concerns the request,
an undisturbed wait sleeps for exactly the time that is left. -/
theorem cooldown_reaches_acquire (limiter : GovernorRateLimiter) (ctx : RateLimitContext)
    (target : RateLimitTarget) {checked : List RateLimitCooldownKey}
    (hchecked : cooldownKeysForAcquire ctx = .ok checked) :
    (∀ keys, cooldownKeysForTarget ctx target = .ok keys → keys ⊆ checked) ∧
    ∀ delay maxCooldown now cooldowns stored,
      storeCooldown limiter ctx target delay maxCooldown now cooldowns = (stored, .ok true) →
      (∀ rounds time, waitCooldown limiter ctx rounds stored = some (.ok (), []) →
        (∀ round ∈ rounds, ∀ reading ∈ round.readings, reading ≤ time) → now + delay ≤ time) ∧
      (maxCooldown ≤ ctx.maxCooldown →
        (∀ key ∈ checked, ∀ other, stored.lookup key = some other → other ≤ now + delay) →
        ∀ start ≥ now,
          (now + delay ≤ start → ∀ rounds,
            waitCooldown limiter ctx (⟨[], start⟩ :: rounds) stored = some (.ok (), rounds)) ∧
          (start < now + delay →
            (waitCooldownTurn ctx start stored).2 = .ok (some (now + delay - start)) ∧
            ∀ woken ≥ now + delay, ∀ rounds,
              waitCooldown limiter ctx (⟨[], start⟩ :: ⟨[], woken⟩ :: rounds) stored =
                some (.ok (), rounds))) := by
  refine ⟨fun keys hkeys => cooldownKeysForTarget_subset hkeys hchecked, ?_⟩
  intro delay maxCooldown now cooldowns stored hstore
  obtain ⟨keys, hkeys, hne, hdelay, rfl⟩ := storeCooldown_stored hstore
  obtain ⟨key, hkey⟩ := List.exists_mem_of_ne_nil keys hne
  have hholds : Holds key (now + delay) _ := holds_raiseAll hkey (pruneCooldowns cooldowns now)
  have hmem := cooldownKeysForTarget_subset hkeys hchecked hkey
  refine ⟨fun rounds time hwait htime => ?_, fun hmax hlast start hstart => ⟨?_, ?_⟩⟩
  · obtain ⟨round, hround, reading, hreading, hle⟩ :=
      late_of_waitCooldown hchecked hmem hholds hwait
    exact Nat.le_trans hle (htime round hround reading hreading)
  · intro hlate rounds
    have hdone : waitCooldownTurn ctx start _ = _ :=
      turn_done_of_le hchecked (fun key hkey other hlookup =>
        Nat.le_trans (hlast key hkey other hlookup) hlate)
    simp only [waitCooldown, List.foldl_nil, hdone]
  · intro hearly
    have hsleeps := turn_sleeps hchecked hlast hmem hholds hearly (by omega)
    refine ⟨by rw [hsleeps], fun woken hwoken rounds => ?_⟩
    have hdone : waitCooldownTurn ctx woken (pruneCooldowns _ start) = _ :=
      turn_done_of_le hchecked (fun key hkey other hlookup =>
        Nat.le_trans (hlast key hkey other (lookup_pruneCooldowns.mp hlookup).1) hwoken)
    simp only [waitCooldown, List.foldl_nil, hsleeps, hdone]

/-- A request whose plan has one bucket, keyed by the host. -/
def bucketRequest : RateLimitContext where
  endpoint := "GetUser"
  method := .get
  url := "https://api.example.com/user"
  urlHost := some "api.example.com"
  maxCooldown := 60
  plan := ⟨[⟨⟨"app", "requests"⟩, ⟨[⟨"route.host", .urlHost⟩]⟩, [⟨10, 10, by decide⟩], 1,
    by decide⟩]⟩

/-- A cooldown for a kind of bucket that the plan does not have falls back to
the buckets of the plan. -/
theorem cooldown_reaches_acquire_fallback :
    ∃ stored, storeCooldown .new bucketRequest (.bucketKind "method" .currentPlanOrEndpoint)
        5 60 100 ∅ = (stored, .ok true) ∧
      ∀ rounds time, waitCooldown .new bucketRequest rounds stored = some (.ok (), []) →
        (∀ round ∈ rounds, ∀ reading ∈ round.readings, reading ≤ time) → 105 ≤ time :=
  ⟨_, rfl, ((cooldown_reaches_acquire .new bucketRequest
    (.bucketKind "method" .currentPlanOrEndpoint) rfl).2 5 60 100 ∅ _ rfl).1⟩

end Concord
