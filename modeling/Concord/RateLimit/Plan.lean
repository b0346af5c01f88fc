import Concord.Error

/-!
# Concord.RateLimit.Plan

Rate-limit plans and what a limiter is told about a request
(`concord_core/src/rate_limit/{plan,context,error,response}.rs`).

Durations and instants are numbers of nanoseconds.
-/

namespace Concord

/-! ## plans -/

structure RateLimitBucketId where
  kind : String
  name : String
  deriving DecidableEq, Repr

inductive RateLimitKeyValue where
  | static (value : String)
  | endpoint
  | method
  | urlHost
  deriving DecidableEq, Repr

structure RateLimitKeyPart where
  name : String
  value : RateLimitKeyValue
  deriving DecidableEq, Repr

structure RateLimitKey where
  parts : List RateLimitKeyPart
  deriving DecidableEq, Repr

/-- `RateLimitWindow`; `max` is a `NonZeroU32`. -/
structure RateLimitWindow where
  max : Nat
  per : Nat
  max_pos : 0 < max
  deriving DecidableEq, Repr

/-- `RateLimitBucketUse`; `cost` is a `NonZeroU32`. -/
structure RateLimitBucketUse where
  id : RateLimitBucketId
  key : RateLimitKey
  windows : List RateLimitWindow
  cost : Nat
  cost_pos : 0 < cost
  deriving DecidableEq, Repr

structure RateLimitPlan where
  buckets : List RateLimitBucketUse
  deriving DecidableEq, Repr

namespace RateLimitPlan

def new : RateLimitPlan := ⟨[]⟩

def isEmpty (plan : RateLimitPlan) : Bool := plan.buckets.isEmpty

def extend (plan other : RateLimitPlan) : RateLimitPlan := ⟨plan.buckets ++ other.buckets⟩

/-- `canonicalize`: the first of equal buckets stays. -/
def canonicalize (plan : RateLimitPlan) : RateLimitPlan := ⟨plan.buckets.eraseDups⟩

end RateLimitPlan

/-! ## requests -/

/-- `RateLimitContext`, less the page index and the idempotency flag, which
the default limiter does not read. -/
structure RateLimitContext where
  endpoint : String
  method : Method
  url : String
  urlHost : Option String
  maxCooldown : Nat
  plan : RateLimitPlan
  deriving DecidableEq, Repr

/-! ## errors -/

inductive RateLimitErrorKind where
  | invalidConfiguration
  | invalidKey
  | acquireFailed
  | responseActionFailed
  | internal
  deriving DecidableEq, Repr

/-- `ApiClientError::RateLimit`. -/
structure RateLimitError where
  ctx : ErrorContext
  kind : RateLimitErrorKind
  message : String
  deriving DecidableEq, Repr

def rateLimitError (ctx : RateLimitContext) (kind : RateLimitErrorKind) (msg : String) :
    RateLimitError :=
  ⟨⟨ctx.endpoint, ctx.method⟩, kind, msg⟩

def rateLimitConfigurationError (ctx : RateLimitContext) (msg : String) : RateLimitError :=
  rateLimitError ctx .invalidConfiguration msg

def rateLimitInvalidKeyError (ctx : RateLimitContext) (msg : String) : RateLimitError :=
  rateLimitError ctx .invalidKey msg

def rateLimitAcquireError (ctx : RateLimitContext) (msg : String) : RateLimitError :=
  rateLimitError ctx .acquireFailed msg

def missingHostKeyError (ctx : RateLimitContext) : RateLimitError :=
  rateLimitInvalidKeyError ctx "rate_limit key `[host]` requires request URL to have a host"

/-! ## responses -/

/-- `RateLimitTarget`: what a cooldown is about. -/
inductive RateLimitTarget where
  | none
  | request
  | endpoint
  | host
  | client
  | currentPlan (fallback : RateLimitTarget)
  | bucketKind (kind : String) (fallback : RateLimitTarget)
  | bucket (id : RateLimitBucketId) (fallback : RateLimitTarget)
  deriving DecidableEq, Repr

def RateLimitTarget.currentPlanOrEndpoint : RateLimitTarget := .currentPlan .endpoint

/-- `RateLimitObservation`; its scope hint is never read. -/
structure RateLimitObservation where
  limited : Bool
  delay : Option Nat
  target : RateLimitTarget
  deriving DecidableEq, Repr

inductive RateLimitResponseAction where
  | continue
  | limited (retryAfter : Option Nat) (target : RateLimitTarget) (cooldownStored : Bool)
  deriving DecidableEq, Repr

/-! ## keys -/

structure ResolvedRateLimitKey where
  parts : List (String × String)
  deriving DecidableEq, Repr

def resolveKeyPartValue (ctx : RateLimitContext) (part : RateLimitKeyPart) :
    Except RateLimitError String :=
  match part.value with
  | .static value => .ok value
  | .endpoint => .ok ctx.endpoint
  | .method => .ok ctx.method.asStr
  | .urlHost =>
    match ctx.urlHost with
    | some host => .ok host
    | Option.none => .error (missingHostKeyError ctx)

def resolveKeyParts (ctx : RateLimitContext) :
    List RateLimitKeyPart → Except RateLimitError (List (String × String))
  | [] => .ok []
  | part :: parts =>
    match resolveKeyPartValue ctx part with
    | .error error => .error error
    | .ok value =>
      match resolveKeyParts ctx parts with
      | .error error => .error error
      | .ok resolved => .ok ((part.name, value) :: resolved)

def resolveKey (ctx : RateLimitContext) (key : RateLimitKey) :
    Except RateLimitError ResolvedRateLimitKey :=
  match resolveKeyParts ctx key.parts with
  | .error error => .error error
  | .ok parts => .ok ⟨parts⟩

end Concord
