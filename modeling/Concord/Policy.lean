import Concord.Lib.LastWrite
import Concord.Auth.Plan
import Concord.RateLimit.Plan

/-!
# Concord.Policy

The policy of a request (`concord_core/src/policy.rs`): what the client, its
scopes and the endpoint add to it and take from it, layer by layer.

A layer is the list of the calls it makes on the `ClientPolicyBuilder`.  A
generated endpoint makes those of the client, then of each scope and then its
own, and the response codec may still set `Accept`
(`emit_endpoint_plan_route_policy` of
`concord_macros/src/codegen/endpoints/endpoint.rs`).
-/

namespace Concord

/-! ## the builder -/

/-- Which layer is being applied. -/
inductive PolicyLayer where
  | client
  | prefixPath
  | endpoint
  | runtime
  deriving DecidableEq, Repr

/-- A request's policy as it is built. -/
structure Policy where
  headers : HeaderMap
  query : List (String × String)
  timeout : Option Nat
  rateLimit : RateLimitPlan
  layer : PolicyLayer
  acceptExplicitByEndpoint : Bool
  acceptExplicitByRuntime : Bool
  deriving DecidableEq, Repr

namespace Policy

def new : Policy where
  headers := Multimap.empty
  query := []
  timeout := none
  rateLimit := RateLimitPlan.new
  layer := .client
  acceptExplicitByEndpoint := false
  acceptExplicitByRuntime := false

/-- The next layer. -/
def setLayer (policy : Policy) (layer : PolicyLayer) : Policy := { policy with layer := layer }

/-- A timeout. -/
def setTimeout (policy : Policy) (timeout : Nat) : Policy :=
  { policy with timeout := some timeout }

/-- No timeout. -/
def clearTimeout (policy : Policy) : Policy := { policy with timeout := none }

/-- More buckets. -/
def addRateLimit (policy : Policy) (plan : RateLimitPlan) : Policy :=
  { policy with rateLimit := policy.rateLimit.extend plan }

/-- Other buckets. -/
def replaceRateLimit (policy : Policy) (plan : RateLimitPlan) : Policy :=
  { policy with rateLimit := plan }

/-- No buckets. -/
def clearRateLimit (policy : Policy) : Policy :=
  { policy with rateLimit := RateLimitPlan.new }

/-- The endpoint layer has had its say on `Accept`. -/
def noteAccept (policy : Policy) (name : HeaderName) : Policy :=
  if policy.layer = .endpoint ∧ name = HeaderName.accept then
    { policy with acceptExplicitByEndpoint := true }
  else policy

/-- A header in place of those of its name. -/
def insertHeader (policy : Policy) (name : HeaderName) (value : HeaderValue) : Policy :=
  { policy.noteAccept name with headers := policy.headers.insert name value }

/-- No header of this name. -/
def removeHeader (policy : Policy) (name : HeaderName) : Policy :=
  { policy.noteAccept name with headers := policy.headers.remove name }

/-- An `Accept` of the response's, unless one was set explicitly. -/
def ensureAccept (policy : Policy) (value : HeaderValue) : Policy :=
  if policy.acceptExplicitByEndpoint ∨ policy.acceptExplicitByRuntime then policy
  else { policy with headers := policy.headers.insert HeaderName.accept value }

/-- No pair of this key. -/
def removeQuery (policy : Policy) (key : String) : Policy :=
  { policy with query := policy.query.filter (·.1 ≠ key) }

/-- These pairs in place of those of the key. -/
def replaceQueryValues (policy : Policy) (key : String) (values : List String) : Policy :=
  { policy.removeQuery key with
    query := (policy.removeQuery key).query ++ values.map fun value => (key, value) }

/-- One pair in place of those of the key. -/
def setQuery (policy : Policy) (key value : String) : Policy :=
  policy.replaceQueryValues key [value]

end Policy

/-- A call on the `ClientPolicyBuilder`. -/
inductive PolicyOp where
  | setHeader (name : HeaderName) (value : HeaderValue)
  | removeHeader (name : HeaderName)
  | setQuery (key value : String)
  | replaceQueryValues (key : String) (values : List String)
  | removeQuery (key : String)
  | setTimeout (timeout : Nat)
  | clearTimeout
  | addRateLimit (plan : RateLimitPlan)
  | replaceRateLimit (plan : RateLimitPlan)
  | clearRateLimit
  | beginPrefixLayer
  | beginEndpointLayer
  | beginRuntimeLayer
  | ensureAccept (value : HeaderValue)
  deriving DecidableEq, Repr

/-- One call. -/
def Policy.apply (policy : Policy) : PolicyOp → Policy
  | .setHeader name value => policy.insertHeader name value
  | .removeHeader name => policy.removeHeader name
  | .setQuery key value => policy.setQuery key value
  | .replaceQueryValues key values => policy.replaceQueryValues key values
  | .removeQuery key => policy.removeQuery key
  | .setTimeout timeout => policy.setTimeout timeout
  | .clearTimeout => policy.clearTimeout
  | .addRateLimit plan => policy.addRateLimit plan
  | .replaceRateLimit plan => policy.replaceRateLimit plan
  | .clearRateLimit => policy.clearRateLimit
  | .beginPrefixLayer => policy.setLayer .prefixPath
  | .beginEndpointLayer => policy.setLayer .endpoint
  | .beginRuntimeLayer => policy.setLayer .runtime
  | .ensureAccept value => policy.ensureAccept value

/-- The calls in order. -/
def Policy.run (policy : Policy) (ops : List PolicyOp) : Policy := ops.foldl Policy.apply policy

/-- The calls that policy blocks make; the others mark the layers, and the
last is made for the codec. -/
def PolicyOp.isDirective : PolicyOp → Bool
  | .beginPrefixLayer | .beginEndpointLayer | .beginRuntimeLayer | .ensureAccept _ => false
  | _ => true

/-! ## the layers of an endpoint -/

/-- The calls of the client, of the scopes from the outermost in, and of the
endpoint. -/
structure PolicyLayers where
  client : List PolicyOp
  scopes : List (List PolicyOp)
  endpoint : List PolicyOp
  deriving DecidableEq, Repr

/-- The response side of an endpoint, as far as its policy goes. -/
structure ResponsePlan where
  accept : Option HeaderValue
  noContent : Bool
  deriving DecidableEq, Repr

namespace PolicyLayers

/-- The calls the layers make, without what marks where a layer begins. -/
def calls (layers : PolicyLayers) : List PolicyOp :=
  layers.client ++ layers.scopes.flatten ++ layers.endpoint

/-- The `Accept` the response codec asks for. -/
def acceptOps (method : Method) (response : ResponsePlan) : List PolicyOp :=
  if method ≠ .head ∧ ¬ response.noContent then
    response.accept.toList.map .ensureAccept
  else []

/-- All calls that a generated endpoint makes. -/
def emitted (layers : PolicyLayers) (method : Method) (response : ResponsePlan) :
    List PolicyOp :=
  layers.client ++
    layers.scopes.flatMap (fun scope => .beginPrefixLayer :: scope) ++
    (.beginEndpointLayer :: layers.endpoint) ++
    (.beginRuntimeLayer :: acceptOps method response)

section
variable {β : Type*} {write : PolicyOp → Option β}
  (hwrite : ∀ op : PolicyOp, op.isDirective = false → write op = none)
include hwrite

/-- What the scopes write. -/
theorem filterMap_scopes (scopes : List (List PolicyOp)) :
    (scopes.flatMap fun scope => .beginPrefixLayer :: scope).filterMap write =
      scopes.flatten.filterMap write := by
  induction scopes with
  | nil => rfl
  | cons scope scopes ih =>
      have hmark : write .beginPrefixLayer = none := hwrite .beginPrefixLayer rfl
      rw [List.flatMap_cons, List.flatten_cons, List.filterMap_append, List.filterMap_append, ih,
        List.filterMap_cons_none hmark]

/-- The default `Accept` writes nothing of the calls. -/
theorem filterMap_acceptOps (method : Method) (response : ResponsePlan) :
    (acceptOps method response).filterMap write = [] := by
  rw [List.filterMap_eq_nil_iff]
  intro op hop
  unfold acceptOps at hop
  split at hop
  · obtain ⟨value, _, rfl⟩ := List.mem_map.mp hop
    exact hwrite (.ensureAccept value) rfl
  · contradiction

/-- What only directives write is written by the calls of the layers. -/
theorem filterMap_emitted (layers : PolicyLayers) (method : Method) (response : ResponsePlan) :
    (layers.emitted method response).filterMap write = layers.calls.filterMap write := by
  have hendpoint : write .beginEndpointLayer = none := hwrite .beginEndpointLayer rfl
  have hruntime : write .beginRuntimeLayer = none := hwrite .beginRuntimeLayer rfl
  unfold emitted calls
  simp only [List.filterMap_append, filterMap_scopes hwrite, filterMap_acceptOps hwrite,
    List.filterMap_cons_none hendpoint, List.filterMap_cons_none hruntime, List.append_nil]

/-- The last write of what is emitted is that of the calls. -/
theorem last_emitted (layers : PolicyLayers) (method : Method) (response : ResponsePlan) :
    LastWrite.last write (layers.emitted method response) =
      LastWrite.last write layers.calls := by
  unfold LastWrite.last
  rw [layers.filterMap_emitted hwrite]

end

end PolicyLayers

/-- A policy as the request has it. -/
structure ResolvedPolicy where
  headers : HeaderMap
  query : List (String × String)
  timeout : Option Nat
  auth : AuthPlan
  rateLimit : RateLimitPlan
  deriving DecidableEq, Repr

/-- The policy of a generated endpoint. -/
def prepareGeneratedPolicy (policy : Policy) (auth : AuthPlan) : ResolvedPolicy where
  headers := policy.headers
  query := policy.query
  timeout := policy.timeout
  auth := auth
  rateLimit := policy.rateLimit.canonicalize

/-! ## the timeout -/

/-- What a call writes to the timeout, if it does. -/
def PolicyOp.timeout? : PolicyOp → Option (Option Nat)
  | .setTimeout timeout => some (some timeout)
  | .clearTimeout => some none
  | _ => none

/-- Only directives set a timeout. -/
theorem PolicyOp.timeout?_of_not_isDirective {op : PolicyOp} (h : op.isDirective = false) :
    op.timeout? = none := by
  cases op with
  | setTimeout timeout => contradiction
  | clearTimeout => contradiction
  | _ => rfl

/-- Noting an `Accept` leaves the timeout. -/
theorem Policy.noteAccept_timeout (policy : Policy) (name : HeaderName) :
    (policy.noteAccept name).timeout = policy.timeout := by
  unfold noteAccept
  split
  · rfl
  · rfl

/-- So does the default one. -/
theorem Policy.ensureAccept_timeout (policy : Policy) (value : HeaderValue) :
    (policy.ensureAccept value).timeout = policy.timeout := by
  unfold ensureAccept
  split
  · rfl
  · rfl

/-- The timeout after one call. -/
theorem Policy.apply_timeout (policy : Policy) (op : PolicyOp) :
    (policy.apply op).timeout = op.timeout?.getD policy.timeout := by
  cases op with
  | setHeader name value => exact policy.noteAccept_timeout name
  | removeHeader name => exact policy.noteAccept_timeout name
  | ensureAccept value => exact policy.ensureAccept_timeout value
  | _ => rfl

namespace PolicyLayers

/-- The result of the last timeout call of the layers; without one there is
no timeout. -/
def timeoutResult (layers : PolicyLayers) : Option Nat :=
  (LastWrite.last PolicyOp.timeout? layers.calls).getD none

/-- The timeout of the policy is what the last timeout call made it. -/
theorem timeout_of_run (layers : PolicyLayers) (method : Method) (response : ResponsePlan) :
    (Policy.new.run (layers.emitted method response)).timeout = layers.timeoutResult := by
  unfold Policy.run timeoutResult
  rw [LastWrite.read_foldl PolicyOp.timeout? Policy.timeout Policy.apply_timeout,
    layers.last_emitted fun _ => PolicyOp.timeout?_of_not_isDirective]
  rfl

end PolicyLayers

end Concord
