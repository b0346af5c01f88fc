import Concord.Host

/-!
# Concord.RetryMode

The retry policy of a client (`concord_core/src/retry_mode.rs`).

`RetryMode::Status` is accepted for an API with one fixed origin.  The policy
that is installed is scoped to the host of that origin, which `reqwest`
compares with the host of the URL of a request, as texts.
-/

namespace Concord

variable {υ : Type*}

/-! ## origins -/

inductive OriginScheme where
  | http
  | https
  deriving DecidableEq, Repr

structure FixedOriginDescriptor where
  scheme : OriginScheme
  authority : String
  deriving DecidableEq, Repr

inductive ApiOriginDescriptor where
  | fixedSingleOrigin (origin : FixedOriginDescriptor)
  | dynamicOrigin
  | multiOrigin
  deriving DecidableEq, Repr

/-! ## configuration -/

/-- `RetryModeError`, less the error of building the client. -/
inductive RetryModeError where
  | invalidMaxRetries (value : Nat)
  | emptyStatusSet
  | unsupportedStatus (status : Nat)
  | notFixedOrigin
  | invalidFixedOriginMetadata
  deriving DecidableEq, Repr

def approvedStatuses : List Nat := [502, 503, 504]

/-- `StatusRetryConfig`: its fields are written by `new` only. -/
structure StatusRetryConfig where
  maxRetries : Nat
  statuses : List Nat
  maxRetries_range : 1 ≤ maxRetries ∧ maxRetries ≤ 2
  statuses_ne_nil : statuses ≠ []
  statuses_approved : ∀ status ∈ statuses, status ∈ approvedStatuses

/-- `reqwest::retry::Builder`: the host the policy is for, how often a request
is sent again, and after which status. -/
structure ReqwestRetryPolicy where
  host : String
  maxRetriesPerRequest : Nat
  retryable : Method → Option Nat → Bool

namespace StatusRetryConfig

theorem approved_of_find? {statuses : List Nat}
    (h : statuses.find? (fun status => !approvedStatuses.contains status) = none) :
    ∀ status ∈ Keyed.keepFirst id statuses, status ∈ approvedStatuses := by
  intro status hmem
  have hkept := List.mem_map_of_mem (f := id) hmem
  have hstatus : status ∈ statuses := by
    simpa using Keyed.mem_map_keepFirst_iff.mp hkept
  simpa using List.find?_eq_none.mp h status hstatus

def new (maxRetries : Nat) (statuses : List Nat) : Except RetryModeError StatusRetryConfig :=
  if hrange : 1 ≤ maxRetries ∧ maxRetries ≤ 2 then
    match hbad : statuses.find? (fun status => !approvedStatuses.contains status) with
    | some status => .error (.unsupportedStatus status)
    | none =>
      if hne : Keyed.keepFirst id statuses ≠ [] then
        .ok ⟨maxRetries, Keyed.keepFirst id statuses, hrange, hne, approved_of_find? hbad⟩
      else .error .emptyStatusSet
  else .error (.invalidMaxRetries maxRetries)

def methodIsEligible (method : Method) : Bool :=
  method = .get || method = .head || method = .options

def buildReqwestPolicy (config : StatusRetryConfig) (host : String) : ReqwestRetryPolicy where
  host := host
  maxRetriesPerRequest := config.maxRetries
  retryable method status :=
    match status with
    | some status => methodIsEligible method && config.statuses.contains status
    | none => false

end StatusRetryConfig

inductive RetryMode where
  | protocolRecovery
  | disabled
  | status (config : StatusRetryConfig)

inductive ReqwestRetryInstall where
  | protocolRecovery
  | never
  | custom (policy : ReqwestRetryPolicy)

/-! ## the host of the policy -/

/-- `fixed_origin_host`.  The `http` crate's `Authority` is a parameter: the
host of a text that it takes. -/
def fixedOriginHost (urls : UrlReader υ) (authorityHost : String → Option String)
    (authority : String) : Except RetryModeError String :=
  if authority.toList.isEmpty || authority.toList.contains '@' ||
      authority.toList.any (fun c => Sema.isWhitespace c || isControl c) then
    .error .invalidFixedOriginMetadata
  else
    match urls.parse ("http://" ++ authority ++ "/") with
    | .error _ => .error .invalidFixedOriginMetadata
    | .ok url =>
      if urls.username url ≠ "" || (urls.password url).isSome || (urls.host url).isNone ||
          urls.path url ≠ "/" || url.query.isSome || (urls.fragment url).isSome then
        .error .invalidFixedOriginMetadata
      else
        match authorityHost authority with
        | none => .error .invalidFixedOriginMetadata
        | some host =>
          if host.toList.isEmpty then .error .invalidFixedOriginMetadata else .ok host

def RetryMode.resolve (urls : UrlReader υ) (authorityHost : String → Option String)
    (origin : Option ApiOriginDescriptor) : RetryMode → Except RetryModeError ReqwestRetryInstall
  | .protocolRecovery => .ok .protocolRecovery
  | .disabled => .ok .never
  | .status config =>
    match origin with
    | some (.fixedSingleOrigin fixed) =>
      (fixedOriginHost urls authorityHost fixed.authority).map fun host =>
        .custom (config.buildReqwestPolicy host)
    | some .dynamicOrigin | some .multiOrigin | none => .error .notFixedOrigin

/-- A policy scoped to a host applies to the URLs with that host. -/
def ReqwestRetryPolicy.Applies (urls : UrlReader υ) (policy : ReqwestRetryPolicy) (url : Url) :
    Prop :=
  (urls.host url).map UrlHost.text = some policy.host

theorem authorityHost_of_fixedOriginHost {urls : UrlReader υ}
    {authorityHost : String → Option String} {authority host : String}
    (h : fixedOriginHost urls authorityHost authority = .ok host) :
    authorityHost authority = some host := by
  unfold fixedOriginHost at h
  split at h
  · contradiction
  · split at h
    · contradiction
    · split at h
      · contradiction
      · split at h
        · contradiction
        · next found hfound =>
            split at h
            · contradiction
            · rw [Except.ok.injEq] at h
              rw [hfound, h]

/-- Status retries are accepted for one fixed origin, and their policy is for
the host of its authority. -/
theorem resolve_status_eq_ok {urls : UrlReader υ} {authorityHost : String → Option String}
    {origin : Option ApiOriginDescriptor} {config : StatusRetryConfig}
    {install : ReqwestRetryInstall}
    (h : RetryMode.resolve urls authorityHost origin (.status config) = .ok install) :
    ∃ fixed host, origin = some (.fixedSingleOrigin fixed) ∧
      authorityHost fixed.authority = some host ∧
      install = .custom (config.buildReqwestPolicy host) := by
  simp only [RetryMode.resolve] at h
  split at h
  · next fixed =>
      cases hhost : fixedOriginHost urls authorityHost fixed.authority with
      | error error =>
          rw [hhost] at h
          contradiction
      | ok host =>
          rw [hhost] at h
          simp only [Except.map, Except.ok.injEq] at h
          exact ⟨fixed, host, rfl, authorityHost_of_fixedOriginHost hhost, h.symm⟩
  · contradiction
  · contradiction
  · contradiction

end Concord
