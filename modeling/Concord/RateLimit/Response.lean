import Concord.Http
import Concord.Redaction
import Concord.RateLimit.Deadlines
import Concord.Sema.Items

/-!
# Concord.RateLimit.Response

What the limiter makes of a response (`concord_core/src/rate_limit/response.rs`,
`on_response` in `governor_runtime.rs`): the policy reads the status and the
headers as debug output shows them, and a `429` with a `Retry-After` becomes a
cooldown.

The clock that a date in `Retry-After` is compared to is that of the system, and
the format of dates is that of another crate: `parseHttpDate` gives the time of
a date in nanoseconds.
-/

namespace Concord

open Checked

/-! ## headers -/

/-- `HeaderValue::to_str`: visible ASCII, spaces and tabs. -/
def HeaderValue.toStr (value : HeaderValue) : Option String :=
  if value.all (fun byte => (0x20 ≤ byte && byte < 0x7f) || byte == 0x09) then
    some (String.ofList (value.map fun byte => Char.ofNat byte.toNat))
  else none

/-- `SanitizedHeaders::get`. -/
def sanitizedHeader (headers : HeaderMap) (name : String) : Option String :=
  match HeaderName.fromBytes name with
  | none => none
  | some key =>
    (headers.get key).map fun value =>
      if isSensitiveName name then "<redacted>" else value.toStr.getD "<non-utf8>"

/-- The header that asks for a pause. -/
def HeaderName.retryAfter : HeaderName := "retry-after"

/-! ## Retry-After -/

/-- `str::parse::<u64>`: digits, after a plus sign if there is one. -/
def parseU64 (text : List Char) : Option Nat :=
  let digits := if text.head? = some '+' then text.tail else text
  if digits ≠ [] ∧ digits.all Char.isDigit then
    let value := digits.foldl (fun value c => 10 * value + (c.toNat - '0'.toNat)) 0
    if value ≤ u64Max then some value else none
  else none

/-- `parse_retry_after_value`. -/
def parseRetryAfterValue (parseHttpDate : String → Option Nat) (wall : Nat) (raw : String) :
    Option Nat :=
  let raw := Sema.trim raw.toList
  match parseU64 raw with
  | some seconds => some (seconds * 1000000000)
  | none => (parseHttpDate (String.ofList raw)).map (· - wall)

/-- `parse_retry_after_headers`. -/
def parseRetryAfterHeaders (parseHttpDate : String → Option Nat) (wall : Nat)
    (headers : HeaderMap) : Option Nat :=
  (sanitizedHeader headers HeaderName.retryAfter).bind fun raw =>
    parseRetryAfterValue parseHttpDate wall (String.ofList (Sema.trim raw.toList))

/-! ## policies -/

/-- What the limiter is told of a response. -/
structure RateLimitResponseContext where
  metadata : RateLimitContext
  status : Nat
  headers : HeaderMap
  maxCooldown : Nat

namespace RateLimitObservation

/-- `continue_`. -/
def continued : RateLimitObservation := ⟨false, none, .none⟩

/-- A limit on the request's own plan, or else its endpoint. -/
def limitedHere : RateLimitObservation := ⟨true, none, .currentPlanOrEndpoint⟩

/-- The observation with another target. -/
def withTarget (observation : RateLimitObservation) (target : RateLimitTarget) :
    RateLimitObservation :=
  { observation with target := target }

/-- A header that says what is limited. -/
def scopeHeader (ctx : RateLimitResponseContext) (observation : RateLimitObservation)
    (name : String) : RateLimitObservation :=
  match sanitizedHeader ctx.headers name with
  | none => observation
  | some value =>
    let kind := Sema.trim value.toList
    if kind.isEmpty then observation
    else observation.withTarget (.bucketKind (String.ofList kind) .currentPlanOrEndpoint)

/-- The delay the response asks for, if none was found before. -/
def retryAfterHeader (parseHttpDate : String → Option Nat) (wall : Nat)
    (ctx : RateLimitResponseContext) (observation : RateLimitObservation) :
    RateLimitObservation :=
  match parseRetryAfterHeaders parseHttpDate wall ctx.headers with
  | none => observation
  | some delay => { observation with delay := some delay }

end RateLimitObservation

open RateLimitObservation

/-- `on_429`. -/
def RateLimitResponseContext.on429 (ctx : RateLimitResponseContext) : RateLimitObservation :=
  if ctx.status = 429 then limitedHere else continued

/-- `DefaultRateLimitResponsePolicy`, and the policies that are written
`ctx.on_429().scope_header(name)…retry_after()`. -/
inductive ResponsePolicy where
  | default
  | on429 (scopeHeaders : List String)

/-- What a policy makes of a response. -/
def ResponsePolicy.observe (parseHttpDate : String → Option Nat) (wall : Nat)
    (ctx : RateLimitResponseContext) : ResponsePolicy → RateLimitObservation
  | .default =>
    if ctx.status ≠ 429 then continued
    else (limitedHere.withTarget .currentPlanOrEndpoint).retryAfterHeader parseHttpDate wall ctx
  | .on429 scopeHeaders =>
    (scopeHeaders.foldl (scopeHeader ctx) ctx.on429).retryAfterHeader parseHttpDate wall ctx

/-! ## the limiter -/

/-- `on_response`, with its readings of the two clocks. -/
def onResponse (parseHttpDate : String → Option Nat) (limiter : GovernorRateLimiter)
    (policy : ResponsePolicy) (ctx : RateLimitResponseContext) (wall now : Nat)
    (cooldowns : Cooldowns) : Cooldowns × Except RateLimitError RateLimitResponseAction :=
  storeObservation limiter ctx.metadata (policy.observe parseHttpDate wall ctx) ctx.maxCooldown now
    cooldowns

/-- What callers do to the cooldowns of a limiter: report a response, or take a
turn of a wait. -/
inductive GovernorEvent where
  | response (ctx : RateLimitResponseContext) (wall now : Nat)
  | turn (ctx : RateLimitContext) (now : Nat)

/-- What an event does to the cooldowns. -/
def GovernorEvent.apply (parseHttpDate : String → Option Nat) (limiter : GovernorRateLimiter)
    (policy : ResponsePolicy) (cooldowns : Cooldowns) : GovernorEvent → Cooldowns
  | .response ctx wall now => (onResponse parseHttpDate limiter policy ctx wall now cooldowns).1
  | .turn ctx now => (waitCooldownTurn ctx now cooldowns).1

/-- The cooldowns after some events on a new limiter. -/
def governed (parseHttpDate : String → Option Nat) (limiter : GovernorRateLimiter)
    (policy : ResponsePolicy) (events : List GovernorEvent) : Cooldowns :=
  events.foldl (GovernorEvent.apply parseHttpDate limiter policy) ∅

/-! ## what a policy reads -/

/-- The targets of the policies: the plan or the endpoint, or a kind of bucket
of the plan. -/
def RateLimitTarget.OfPolicy (target : RateLimitTarget) : Prop :=
  target = .currentPlanOrEndpoint ∨ ∃ kind, target = .bucketKind kind .currentPlanOrEndpoint

section observe

variable {parseHttpDate : String → Option Nat} {wall : Nat} {ctx : RateLimitResponseContext}

/-- A scope changes the target alone, to one of a policy. -/
theorem scopeHeader_eq (ctx : RateLimitResponseContext) (observation : RateLimitObservation)
    (name : String) :
    ∃ target, observation.scopeHeader ctx name = observation.withTarget target ∧
      (observation.target.OfPolicy → target.OfPolicy) := by
  unfold scopeHeader
  split
  · exact ⟨observation.target, rfl, id⟩
  · simp only
    split
    · exact ⟨observation.target, rfl, id⟩
    · exact ⟨_, rfl, fun _ => .inr ⟨_, rfl⟩⟩

/-- The scope headers change the target alone. -/
theorem foldl_scopeHeader_eq (ctx : RateLimitResponseContext) (scopeHeaders : List String)
    (observation : RateLimitObservation) :
    ∃ target, scopeHeaders.foldl (scopeHeader ctx) observation =
      observation.withTarget target ∧ (observation.target.OfPolicy → target.OfPolicy) := by
  induction scopeHeaders generalizing observation with
  | nil => exact ⟨observation.target, rfl, id⟩
  | cons name scopeHeaders ih =>
      obtain ⟨scope, hscope, hofScope⟩ := scopeHeader_eq ctx observation name
      obtain ⟨target, htarget, hof⟩ := ih (observation.withTarget scope)
      refine ⟨target, ?_, fun h => hof (hofScope h)⟩
      rw [List.foldl_cons, hscope, htarget]
      rfl

/-- Without a delay the header gives it. -/
theorem retryAfterHeader_eq (observation : RateLimitObservation) (h : observation.delay = none) :
    observation.retryAfterHeader parseHttpDate wall ctx =
      { observation with delay := parseRetryAfterHeaders parseHttpDate wall ctx.headers } := by
  unfold retryAfterHeader
  cases parseRetryAfterHeaders parseHttpDate wall ctx.headers with
  | none => simp [← h]
  | some delay => rfl

/-- A response with another status than 429 does not limit. -/
theorem observe_of_ne (parseHttpDate : String → Option Nat) (wall : Nat)
    (policy : ResponsePolicy) (hstatus : ctx.status ≠ 429) :
    (policy.observe parseHttpDate wall ctx).limited = false := by
  cases policy with
  | default => simp [ResponsePolicy.observe, hstatus, continued]
  | on429 scopeHeaders =>
      obtain ⟨target, htarget, _⟩ := foldl_scopeHeader_eq ctx scopeHeaders continued
      have hnone : (continued.withTarget target).delay = none := rfl
      simp only [ResponsePolicy.observe, RateLimitResponseContext.on429, if_neg hstatus, htarget,
        retryAfterHeader_eq _ hnone]
      rfl

/-- A 429 limits for as long as its `Retry-After` says. -/
theorem observe_of_429 (parseHttpDate : String → Option Nat) (wall : Nat)
    (policy : ResponsePolicy) (hstatus : ctx.status = 429) :
    ∃ target, target.OfPolicy ∧ policy.observe parseHttpDate wall ctx =
      ⟨true, parseRetryAfterHeaders parseHttpDate wall ctx.headers, target⟩ := by
  cases policy with
  | default =>
      have hnone : (limitedHere.withTarget .currentPlanOrEndpoint).delay = none := rfl
      refine ⟨.currentPlanOrEndpoint, .inl rfl, ?_⟩
      simp only [ResponsePolicy.observe, hstatus, ne_eq, not_true_eq_false, if_false,
        retryAfterHeader_eq _ hnone]
      rfl
  | on429 scopeHeaders =>
      obtain ⟨target, htarget, hof⟩ := foldl_scopeHeader_eq ctx scopeHeaders limitedHere
      have hnone : (limitedHere.withTarget target).delay = none := rfl
      refine ⟨target, hof (.inl rfl), ?_⟩
      simp only [ResponsePolicy.observe, RateLimitResponseContext.on429, if_pos hstatus, htarget,
        retryAfterHeader_eq _ hnone]
      rfl

end observe

/-! ## where deadlines come from -/

section provenance

/-- A deadline after raising one is an old one or the one raised. -/
theorem lookup_raiseCooldown {deadline : Nat} {cooldowns : Cooldowns}
    {key other : RateLimitCooldownKey} {found : Nat}
    (h : (raiseCooldown deadline cooldowns key).lookup other = some found) :
    cooldowns.lookup other = some found ∨ other = key ∧ found = deadline := by
  have hinsert : (cooldowns.insert key deadline).lookup other = some found →
      cooldowns.lookup other = some found ∨ other = key ∧ found = deadline := by
    intro hlookup
    by_cases heq : other = key
    · subst heq
      rw [AList.lookup_insert, Option.some.injEq] at hlookup
      exact .inr ⟨rfl, hlookup.symm⟩
    · rw [AList.lookup_insert_ne heq] at hlookup
      exact .inl hlookup
  unfold raiseCooldown at h
  split at h
  · exact hinsert h
  · split at h
    · exact hinsert h
    · exact .inl h

/-- The same after raising several. -/
theorem lookup_raiseAll {deadline : Nat} {cooldowns : Cooldowns}
    {keys : List RateLimitCooldownKey} {key : RateLimitCooldownKey} {found : Nat}
    (h : (keys.foldl (raiseCooldown deadline) cooldowns).lookup key = some found) :
    cooldowns.lookup key = some found ∨ key ∈ keys ∧ found = deadline := by
  induction keys generalizing cooldowns with
  | nil => exact .inl h
  | cons first keys ih =>
      rcases ih h with hraised | ⟨hmem, hfound⟩
      · rcases lookup_raiseCooldown hraised with hold | ⟨heq, hfound⟩
        · exact .inl hold
        · exact .inr ⟨heq ▸ List.mem_cons_self, hfound⟩
      · exact .inr ⟨List.mem_cons_of_mem _ hmem, hfound⟩

/-- A store leaves deadlines that were there, and its own for the keys of its
target. -/
theorem storeCooldown_lookup {limiter : GovernorRateLimiter} {ctx : RateLimitContext}
    {target : RateLimitTarget} {delay maxCooldown now : Nat} {cooldowns : Cooldowns}
    {key : RateLimitCooldownKey} {found : Nat}
    (h : (storeCooldown limiter ctx target delay maxCooldown now cooldowns).1.lookup key =
      some found) :
    cooldowns.lookup key = some found ∨
      found = now + delay ∧ ∃ keys, cooldownKeysForTarget ctx target = .ok keys ∧ key ∈ keys := by
  obtain (heq | heq) | ⟨_, _, _, hstore⟩ :=
    storeCooldown_cases limiter ctx target delay maxCooldown now cooldowns
  · rw [heq] at h
    exact .inl h
  · rw [heq] at h
    exact .inl (lookup_pruneCooldowns.mp h).1
  · obtain ⟨keys, hkeys, _, _, hstored⟩ := storeCooldown_stored hstore
    rw [hstore, hstored] at h
    rcases lookup_raiseAll h with hpruned | ⟨hmem, hfound⟩
    · exact .inl (lookup_pruneCooldowns.mp hpruned).1
    · exact .inr ⟨hfound, keys, hkeys, hmem⟩

/-- A deadline left after a turn of waiting was there before. -/
theorem lookup_of_turn {ctx : RateLimitContext} {now : Nat} {cooldowns : Cooldowns}
    {key : RateLimitCooldownKey} {found : Nat}
    (h : (waitCooldownTurn ctx now cooldowns).1.lookup key = some found) :
    cooldowns.lookup key = some found := by
  rcases waitCooldownTurn_map ctx now cooldowns with heq | heq
  · rwa [heq] at h
  · rw [heq] at h
    exact (lookup_pruneCooldowns.mp h).1

end provenance

/-! ## what a 429 comes to -/

section on429

variable {ctx : RateLimitContext}

/-- Every bucket has its key. -/
theorem length_collectKeys {key : RateLimitBucketUse → Except RateLimitError RateLimitCooldownKey}
    {buckets : List RateLimitBucketUse} {keys : List RateLimitCooldownKey}
    (h : collectKeys key buckets = .ok keys) : keys.length = buckets.length := by
  induction buckets generalizing keys with
  | nil =>
      rw [← Except.ok.inj h]
      rfl
  | cons bucket buckets ih =>
      rw [collectKeys] at h
      cases hb : key bucket with
      | error error => simp [hb] at h
      | ok first =>
          cases hrest : collectKeys key buckets with
          | error error => simp [hb, hrest] at h
          | ok rest =>
              simp only [hb, hrest, Except.ok.injEq] at h
              simp [← h, ih hrest]

/-- There is always a key for the plan or the endpoint. -/
theorem currentPlanOrEndpoint_ne_nil {keys : List RateLimitCooldownKey}
    (h : cooldownKeysForTarget ctx .currentPlanOrEndpoint = .ok keys) : keys ≠ [] := by
  rw [RateLimitTarget.currentPlanOrEndpoint, cooldownKeysForTarget] at h
  split at h
  · simp [cooldownKeysForTarget] at h
    simp [← h]
  · next hplan =>
      have hlength := length_collectKeys h
      intro hnil
      rw [hnil, List.length_nil, eq_comm, List.length_eq_zero_iff] at hlength
      simp [RateLimitPlan.isEmpty, hlength] at hplan

/-- A policy's target has keys. -/
theorem RateLimitTarget.OfPolicy.ne_nil {target : RateLimitTarget} (hof : target.OfPolicy)
    {keys : List RateLimitCooldownKey} (h : cooldownKeysForTarget ctx target = .ok keys) :
    keys ≠ [] := by
  rcases hof with rfl | ⟨kind, rfl⟩
  · exact currentPlanOrEndpoint_ne_nil h
  · rw [cooldownKeysForTarget] at h
    split at h
    · contradiction
    · split at h
      · exact currentPlanOrEndpoint_ne_nil h
      · next hne =>
          rw [Except.ok.injEq] at h
          simpa [← h] using hne

/-- And is some target. -/
theorem RateLimitTarget.OfPolicy.ne_none {target : RateLimitTarget} (hof : target.OfPolicy) :
    target ≠ .none := by
  rcases hof with rfl | ⟨kind, rfl⟩
  · simp [RateLimitTarget.currentPlanOrEndpoint]
  · simp

/-- Collecting keys fails as one of them does. -/
theorem collectKeys_error {key : RateLimitBucketUse → Except RateLimitError RateLimitCooldownKey}
    {failure : RateLimitError} (hkey : ∀ bucket error, key bucket = .error error → error = failure)
    {buckets : List RateLimitBucketUse} {error : RateLimitError}
    (h : collectKeys key buckets = .error error) : error = failure := by
  induction buckets with
  | nil => cases h
  | cons bucket buckets ih =>
      rw [collectKeys] at h
      cases hb : key bucket with
      | error other =>
          simp only [hb, Except.error.injEq] at h
          rw [← h]
          exact hkey bucket other hb
      | ok first =>
          cases hrest : collectKeys key buckets with
          | error other =>
              simp only [hb, hrest, Except.error.injEq] at h
              exact ih (h ▸ hrest)
          | ok rest =>
              simp only [hb, hrest] at h
              cases h

/-- A bucket's kind fails only for a missing host. -/
theorem bucketKindCooldownKey_error (bucket : RateLimitBucketUse) (error : RateLimitError)
    (h : bucketKindCooldownKey ctx bucket = .error error) : error = missingHostKeyError ctx := by
  unfold bucketKindCooldownKey at h
  split at h
  · next hkey =>
      rw [Except.error.injEq] at h
      subst h
      exact resolveKey_error hkey
  · cases h

/-- So does the bucket. -/
theorem bucketCooldownKey_error (bucket : RateLimitBucketUse) (error : RateLimitError)
    (h : bucketCooldownKey ctx bucket = .error error) : error = missingHostKeyError ctx := by
  unfold bucketCooldownKey at h
  split at h
  · next hkey =>
      rw [Except.error.injEq] at h
      subst h
      exact resolveKey_error hkey
  · cases h

/-- The keys of a policy's target resolve unless one is by a host that the URL
does not have. -/
theorem RateLimitTarget.OfPolicy.keys_error {target : RateLimitTarget} (hof : target.OfPolicy)
    {error : RateLimitError} (h : cooldownKeysForTarget ctx target = .error error) :
    error = missingHostKeyError ctx := by
  have hplan : cooldownKeysForTarget ctx .currentPlanOrEndpoint = .error error →
      error = missingHostKeyError ctx := by
    intro hkeys
    rw [RateLimitTarget.currentPlanOrEndpoint, cooldownKeysForTarget] at hkeys
    split at hkeys
    · cases hkeys
    · exact collectKeys_error bucketCooldownKey_error hkeys
  rcases hof with rfl | ⟨kind, rfl⟩
  · exact hplan h
  · rw [cooldownKeysForTarget] at h
    split at h
    · next hkeys =>
        rw [Except.error.injEq] at h
        subst h
        exact collectKeys_error bucketKindCooldownKey_error hkeys
    · split at h
      · exact hplan h
      · cases h

/-- Why a cooldown is not stored: a key by a host that the URL does not have, a
time that the clock does not reach, or no room. -/
def StoreRefusal (ctx : RateLimitContext) (error : RateLimitError) : Prop :=
  error = missingHostKeyError ctx ∨
    error = rateLimitConfigurationError ctx "rate-limit cooldown duration overflowed" ∨
    error = rateLimitConfigurationError ctx "rate-limit cooldown entry cap exceeded"

/-- A policy's cooldown is stored or refused. -/
theorem storeCooldown_of_policy (limiter : GovernorRateLimiter) {target : RateLimitTarget}
    (hof : target.OfPolicy) {delay maxCooldown : Nat} (hle : delay ≤ maxCooldown) (now : Nat)
    (cooldowns : Cooldowns) :
    (∃ error, (storeCooldown limiter ctx target delay maxCooldown now cooldowns).2 =
      .error error ∧ StoreRefusal ctx error) ∨
    (storeCooldown limiter ctx target delay maxCooldown now cooldowns).2 = .ok true := by
  unfold storeCooldown
  split
  · next error hkeys => exact .inl ⟨error, rfl, .inl (hof.keys_error hkeys)⟩
  · next keys hkeys =>
      have hne : ¬ keys.isEmpty = true := by simpa using hof.ne_nil hkeys
      have hdelay : ¬ delay > maxCooldown := by omega
      simp only [if_neg hne, if_neg hdelay]
      split
      · exact .inl ⟨_, rfl, .inr (.inl rfl)⟩
      · split
        · exact .inl ⟨_, rfl, .inr (.inr rfl)⟩
        · exact .inr rfl

/-- A wait that is over had keys to check. -/
theorem checked_of_waitCooldown {limiter : GovernorRateLimiter} {rounds : List CooldownRound}
    {cooldowns : Cooldowns} (h : waitCooldown limiter ctx rounds cooldowns = some (.ok (), [])) :
    ∃ checked, cooldownKeysForAcquire ctx = .ok checked := by
  cases hkeys : cooldownKeysForAcquire ctx with
  | ok checked => exact ⟨checked, rfl⟩
  | error error =>
      cases rounds with
      | nil => cases h
      | cons round rounds => simp [waitCooldown, waitCooldownTurn, hkeys] at h

end on429

/-! ## from the header to the wait -/

/-- How long a response asks its requests to wait: the `Retry-After` of a 429,
up to the longest cooldown. -/
def RateLimitResponseContext.asks (parseHttpDate : String → Option Nat) (wall : Nat)
    (ctx : RateLimitResponseContext) : Option Nat :=
  if ctx.status = 429 then
    ((parseRetryAfterHeaders parseHttpDate wall ctx.headers).map (min · ctx.maxCooldown)).filter
      (0 < ·)
  else none

section onResponse

variable {parseHttpDate : String → Option Nat} {limiter : GovernorRateLimiter}
  {policy : ResponsePolicy} {ctx : RateLimitResponseContext} {wall now : Nat}
  {cooldowns : Cooldowns}

/-- When a response asks for a pause. -/
theorem asks_eq_some {delay : Nat} (h : ctx.asks parseHttpDate wall = some delay) :
    ctx.status = 429 ∧ 0 < delay ∧ delay ≤ ctx.maxCooldown ∧
      (parseRetryAfterHeaders parseHttpDate wall ctx.headers).map (min · ctx.maxCooldown) =
        some delay := by
  unfold RateLimitResponseContext.asks at h
  split at h
  · next hstatus =>
      rw [Option.filter_eq_some_iff] at h
      obtain ⟨hmin, hpos⟩ := h
      have hle : delay ≤ ctx.maxCooldown := by
        obtain ⟨raw, _, hraw⟩ := Option.map_eq_some_iff.mp hmin
        omega
      exact ⟨hstatus, by simpa using hpos, hle, hmin⟩
  · cases h

/-- A response that asks for nothing leaves the cooldowns alone. -/
theorem onResponse_of_asks_none (h : ctx.asks parseHttpDate wall = none) :
    (onResponse parseHttpDate limiter policy ctx wall now cooldowns).1 = cooldowns ∧
      (ctx.status ≠ 429 →
        (onResponse parseHttpDate limiter policy ctx wall now cooldowns).2 = .ok .continue) ∧
      (ctx.status = 429 → ∃ retryAfter target,
        (onResponse parseHttpDate limiter policy ctx wall now cooldowns).2 =
          .ok (.limited retryAfter target false)) := by
  by_cases hstatus : ctx.status = 429
  · obtain ⟨target, _, hobserve⟩ := observe_of_429 parseHttpDate wall policy hstatus
    simp only [RateLimitResponseContext.asks, if_pos hstatus] at h
    simp only [onResponse, storeObservation, hobserve, not_true_eq_false, if_false]
    cases hdelay : (parseRetryAfterHeaders parseHttpDate wall ctx.headers).map
        (min · ctx.maxCooldown) with
    | none => exact ⟨rfl, fun hne => absurd hstatus hne, fun _ => ⟨none, target, rfl⟩⟩
    | some delay =>
        have hzero : delay = 0 := by
          rw [hdelay, Option.filter_eq_none_iff] at h
          have hnot := h delay rfl
          simpa using hnot
        simp only [hzero, true_or, if_true, true_and]
        exact ⟨fun hne => absurd hstatus hne, fun _ => ⟨some 0, target, rfl⟩⟩
  · have hnot := observe_of_ne parseHttpDate wall policy hstatus
    simp only [onResponse, storeObservation, hnot, Bool.false_eq_true, not_false_eq_true, if_true,
      true_and]
    exact ⟨fun _ => trivial, fun h429 => absurd h429 hstatus⟩

/-- A response that asks for something has it stored, under the keys of a
policy's target. -/
theorem onResponse_of_asks {delay : Nat} (h : ctx.asks parseHttpDate wall = some delay) :
    ∃ target, target.OfPolicy ∧ (policy.observe parseHttpDate wall ctx).target = target ∧
      (onResponse parseHttpDate limiter policy ctx wall now cooldowns).1 =
        (storeCooldown limiter ctx.metadata target delay ctx.maxCooldown now cooldowns).1 ∧
      (∀ error, (storeCooldown limiter ctx.metadata target delay ctx.maxCooldown now
          cooldowns).2 = .error error →
        (onResponse parseHttpDate limiter policy ctx wall now cooldowns).2 = .error error) ∧
      ∀ stored, (storeCooldown limiter ctx.metadata target delay ctx.maxCooldown now
          cooldowns).2 = .ok stored →
        (onResponse parseHttpDate limiter policy ctx wall now cooldowns).2 =
          .ok (.limited (some delay) target stored) := by
  obtain ⟨hstatus, hpos, _, hdelay⟩ := asks_eq_some h
  obtain ⟨target, hof, hobserve⟩ := observe_of_429 parseHttpDate wall policy hstatus
  have hnot : ¬ (delay = 0 ∨ target = .none) := by
    intro hor
    rcases hor with hzero | hnone
    · omega
    · exact hof.ne_none hnone
  refine ⟨target, hof, by rw [hobserve], ?_⟩
  simp only [onResponse, storeObservation, hobserve, not_true_eq_false, if_false, hdelay,
    if_neg hnot]
  cases hstore : storeCooldown limiter ctx.metadata target delay ctx.maxCooldown now cooldowns with
  | mk after result =>
      cases result with
      | error error => simp
      | ok stored => simp

/-- A deadline that a response adds is the one it asks for. -/
theorem onResponse_lookup {key : RateLimitCooldownKey} {deadline : Nat}
    (h : (onResponse parseHttpDate limiter policy ctx wall now cooldowns).1.lookup key =
      some deadline) :
    cooldowns.lookup key = some deadline ∨
      ∃ delay keys, ctx.asks parseHttpDate wall = some delay ∧ deadline = now + delay ∧
        cooldownKeysForTarget ctx.metadata (policy.observe parseHttpDate wall ctx).target =
          .ok keys ∧ key ∈ keys := by
  cases hasks : ctx.asks parseHttpDate wall with
  | none =>
      rw [(onResponse_of_asks_none hasks).1] at h
      exact .inl h
  | some delay =>
      obtain ⟨target, _, htarget, hstored, _, _⟩ :=
        @onResponse_of_asks parseHttpDate limiter policy ctx wall now cooldowns delay hasks
      rw [hstored] at h
      rcases storeCooldown_lookup h with hold | ⟨hdeadline, keys, hkeys, hmem⟩
      · exact .inl hold
      · exact .inr ⟨delay, keys, rfl, hdeadline, htarget ▸ hkeys, hmem⟩

/-- The cooldowns after one more event. -/
theorem governed_snoc (parseHttpDate : String → Option Nat) (limiter : GovernorRateLimiter)
    (policy : ResponsePolicy) (events : List GovernorEvent) (event : GovernorEvent) :
    governed parseHttpDate limiter policy (events ++ [event]) =
      event.apply parseHttpDate limiter policy (governed parseHttpDate limiter policy events) := by
  simp [governed]

/-- A deadline of the map is of one of the responses. -/
theorem governed_lookup {events : List GovernorEvent} {key : RateLimitCooldownKey} {deadline : Nat}
    (h : (governed parseHttpDate limiter policy events).lookup key = some deadline) :
    ∃ ctx wall now, .response ctx wall now ∈ events ∧
      ∃ delay keys, ctx.asks parseHttpDate wall = some delay ∧ deadline = now + delay ∧
        cooldownKeysForTarget ctx.metadata (policy.observe parseHttpDate wall ctx).target =
          .ok keys ∧ key ∈ keys := by
  induction events using List.reverseRecOn with
  | nil =>
      rw [governed, List.foldl_nil, AList.lookup_empty] at h
      contradiction
  | append_singleton events event ih =>
      have hearlier : (governed parseHttpDate limiter policy events).lookup key = some deadline →
          ∃ ctx wall now, .response ctx wall now ∈ events ++ [event] ∧
            ∃ delay keys, ctx.asks parseHttpDate wall = some delay ∧ deadline = now + delay ∧
              cooldownKeysForTarget ctx.metadata (policy.observe parseHttpDate wall ctx).target =
                .ok keys ∧ key ∈ keys := by
        intro hold
        obtain ⟨ctx, wall, now, hmem, hasks⟩ := ih hold
        exact ⟨ctx, wall, now, List.mem_append_left _ hmem, hasks⟩
      rw [governed_snoc] at h
      cases event with
      | turn ctx now => exact hearlier (lookup_of_turn h)
      | response ctx wall now =>
          rcases onResponse_lookup h with hold | hnew
          · exact hearlier hold
          · exact ⟨ctx, wall, now, by simp, hnew⟩

end onResponse

/-- **Cooldowns are what responses ask for.**  However responses and waits
interleave, every deadline of the map is the time of a `429` plus its
`Retry-After`, up to the longest cooldown, under a key of the target that the
policy reads off that response.  A response that asks for nothing changes no
deadline.  One that asks for something has it stored, unless a key is by a
missing host, the clock does not reach the time or there is no room, and then
no wait of its request is over before that time, whatever else is done to the
map. -/
theorem cooldowns_are_retry_afters (parseHttpDate : String → Option Nat)
    (limiter : GovernorRateLimiter) (policy : ResponsePolicy) :
    (∀ events key deadline,
      (governed parseHttpDate limiter policy events).lookup key = some deadline →
      ∃ ctx wall now, .response ctx wall now ∈ events ∧
        ∃ delay keys, ctx.asks parseHttpDate wall = some delay ∧ deadline = now + delay ∧
          cooldownKeysForTarget ctx.metadata (policy.observe parseHttpDate wall ctx).target =
            .ok keys ∧ key ∈ keys) ∧
    ∀ ctx wall now cooldowns,
      (ctx.asks parseHttpDate wall = none →
        (onResponse parseHttpDate limiter policy ctx wall now cooldowns).1 = cooldowns ∧
        (ctx.status ≠ 429 →
          (onResponse parseHttpDate limiter policy ctx wall now cooldowns).2 = .ok .continue) ∧
        (ctx.status = 429 → ∃ retryAfter target,
          (onResponse parseHttpDate limiter policy ctx wall now cooldowns).2 =
            .ok (.limited retryAfter target false))) ∧
      ∀ delay, ctx.asks parseHttpDate wall = some delay →
        (∃ error, (onResponse parseHttpDate limiter policy ctx wall now cooldowns).2 =
            .error error ∧ StoreRefusal ctx.metadata error) ∨
        (∃ target, (onResponse parseHttpDate limiter policy ctx wall now cooldowns).2 =
            .ok (.limited (some delay) target true)) ∧
          ∀ rounds time,
            waitCooldown limiter ctx.metadata rounds
              (onResponse parseHttpDate limiter policy ctx wall now cooldowns).1 =
                some (.ok (), []) →
            (∀ round ∈ rounds, ∀ reading ∈ round.readings, reading ≤ time) →
            now + delay ≤ time := by
  refine ⟨fun events key deadline h => governed_lookup h, ?_⟩
  intro ctx wall now cooldowns
  refine ⟨fun hasks => onResponse_of_asks_none hasks, ?_⟩
  intro delay hasks
  obtain ⟨target, hof, _, hafter, herror, hok⟩ :=
    @onResponse_of_asks parseHttpDate limiter policy ctx wall now cooldowns delay hasks
  obtain ⟨_, _, hle, _⟩ := asks_eq_some hasks
  rcases @storeCooldown_of_policy ctx.metadata limiter target hof delay ctx.maxCooldown hle now
      cooldowns with
    ⟨error, hstore, hrefusal⟩ | hstore
  · exact .inl ⟨error, herror error hstore, hrefusal⟩
  · refine .inr ⟨⟨target, hok true hstore⟩, ?_⟩
    intro rounds time hwait htime
    obtain ⟨stored, hpair⟩ : ∃ stored, storeCooldown limiter ctx.metadata target delay
        ctx.maxCooldown now cooldowns = (stored, .ok true) := ⟨_, Prod.ext rfl hstore⟩
    obtain ⟨keys, hkeys, hne, _, rfl⟩ := storeCooldown_stored hpair
    obtain ⟨key, hkey⟩ := List.exists_mem_of_ne_nil keys hne
    rw [hafter, hpair] at hwait
    obtain ⟨checked, hchecked⟩ := checked_of_waitCooldown hwait
    have hholds : Holds key (now + delay)
        (keys.foldl (raiseCooldown (now + delay)) (pruneCooldowns cooldowns now)) :=
      holds_raiseAll hkey (pruneCooldowns cooldowns now)
    obtain ⟨round, hround, reading, hreading, hlate⟩ := late_of_waitCooldown hchecked
      (cooldownKeysForTarget_subset hkeys hchecked hkey) hholds hwait
    exact hlate.trans (htime round hround reading hreading)

end Concord
