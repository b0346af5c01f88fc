import Concord.Policy
import Concord.Request
import Concord.Client.Build

/-!
# Concord.Client.Head

From a pending request to the message that is sent
(`concord_core/src/request.rs`, `concord_core/src/endpoint/plan.rs`,
`prepare_generated_endpoint` of `concord_core/src/__private/mod.rs`,
`resolve_public_request_head` of `concord_core/src/client/build.rs`).

A generated endpoint computes its route, the calls of its policy layers, its
authentication and its body from its fields; the rest of its plan is fixed.
The options of the pending request are applied to the plan, and the public
head of the request is resolved from it.

The `url` crate is a parameter: how it parses a URL and sets its path.
-/

namespace Concord

variable {ε β υ E : Type*}

/-! ## plans -/

/-- `ResolvedRoute`; the scheme is its text. -/
structure ResolvedRoute where
  scheme : String
  host : String
  path : String
  deriving DecidableEq, Repr

/-- `EndpointPlan`, with the fields of its metadata that a request needs. -/
structure EndpointPlan where
  name : String
  method : Method
  route : ResolvedRoute
  policy : ResolvedPolicy
  response : ResponsePlan
  pagination : Bool
  deriving DecidableEq, Repr

def EndpointPlan.errorContext (plan : EndpointPlan) : ErrorContext := ⟨plan.name, plan.method⟩

/-- `RequestPlan` with all that a request is built from. -/
structure FullRequestPlan (ε β : Type*) where
  endpoint : EndpointPlan
  body : PreparedBody ε β
  overrides : RequestOverrides

namespace FullRequestPlan

/-- The part of the plan that the pagination loop looks at. -/
def view (plan : FullRequestPlan ε β) : RequestPlan where
  name := plan.endpoint.name
  method := plan.endpoint.method
  scheme := plan.endpoint.route.scheme
  host := plan.endpoint.route.host
  path := plan.endpoint.route.path
  query := plan.endpoint.policy.query
  headers := plan.endpoint.policy.headers.entries
  pagination := plan.endpoint.pagination
  overrides := plan.overrides

/-- `RequestOptions::apply_to`: only the overrides are written. -/
def withOptions (plan : FullRequestPlan ε β) (opts : RequestOptions) (pageIndex : Nat) :
    FullRequestPlan ε β :=
  { plan with overrides := (opts.applyTo plan.view pageIndex).overrides }

theorem view_withOptions (plan : FullRequestPlan ε β) (opts : RequestOptions) (pageIndex : Nat) :
    (plan.withOptions opts pageIndex).view = opts.applyTo plan.view pageIndex := rfl

end FullRequestPlan

/-! ## generated endpoints -/

/-- What a generated endpoint computes from its fields. -/
structure GeneratedInputs (ε β : Type*) where
  route : ResolvedRoute
  layers : PolicyLayers
  auth : AuthPlan
  body : PreparedBody ε β

/-- A generated endpoint, whose fields are an `E`. -/
structure GeneratedEndpoint (ε β E : Type*) where
  name : String
  method : Method
  response : ResponsePlan
  pagination : Bool
  inputs : E → Except ApiClientError (GeneratedInputs ε β)

def RequestOverrides.default : RequestOverrides := ⟨none, none, 0⟩

namespace GeneratedEndpoint

def prepareGeneratedEndpoint (generated : GeneratedEndpoint ε β E)
    (inputs : GeneratedInputs ε β) : FullRequestPlan ε β where
  endpoint :=
    { name := generated.name
      method := generated.method
      route := inputs.route
      policy := prepareGeneratedPolicy
        (Policy.new.run (inputs.layers.emitted generated.method generated.response)) inputs.auth
      response := generated.response
      pagination := generated.pagination }
  body := inputs.body
  overrides := RequestOverrides.default

def plan (generated : GeneratedEndpoint ε β E) (ep : E) :
    Except ApiClientError (FullRequestPlan ε β) :=
  (generated.inputs ep).map generated.prepareGeneratedEndpoint

end GeneratedEndpoint

/-! ## pending requests -/

structure PendingRequest (E : Type*) where
  ep : E
  opts : RequestOptions

/-- A call on a pending request. -/
inductive PendingCall (E : Type*) where
  | mapEndpoint (f : E → E)
  | debugLevel (level : DebugLevel)
  | timeout (timeout : Nat)
  | clearTimeout
  | inheritTimeout

namespace PendingRequest

def new (ep : E) : PendingRequest E := ⟨ep, RequestOptions.default⟩

def call (pending : PendingRequest E) : PendingCall E → PendingRequest E
  | .mapEndpoint f => { pending with ep := f pending.ep }
  | .debugLevel level => { pending with opts := { pending.opts with debugLevel := some level } }
  | .timeout timeout =>
    { pending with opts := { pending.opts with timeoutOverride := .set timeout } }
  | .clearTimeout => { pending with opts := { pending.opts with timeoutOverride := .clear } }
  | .inheritTimeout => { pending with opts := { pending.opts with timeoutOverride := .inherit } }

/-- The pending request after the calls made on it. -/
def after (ep : E) (calls : List (PendingCall E)) : PendingRequest E :=
  calls.foldl call (new ep)

def preparedCall (pending : PendingRequest E) (generated : GeneratedEndpoint ε β E) :
    Except ApiClientError (FullRequestPlan ε β) :=
  (generated.plan pending.ep).map fun plan => plan.withOptions pending.opts 0

end PendingRequest

/-! ## the head of a request -/

/-- The `url` crate; `υ` is its `ParseError`. -/
structure UrlCrate (υ : Type*) where
  parse : String → Except υ Url
  setPath : Url → String → Url

inductive HeadError (υ : Type*) where
  | client (error : ApiClientError)
  | buildUrl (ctx : ErrorContext) (source : υ)

inductive PublicHeaderScope where
  | clientWide
  | endpoint
  deriving DecidableEq, Repr

def PublicHeaderScope.text : PublicHeaderScope → String
  | .clientWide => "credential-bearing client-wide header"
  | .endpoint => "credential-bearing endpoint header"

def publicHeaderError (ctx : ErrorContext) (name : HeaderName) (scope : PublicHeaderScope) :
    ApiClientError :=
  if isCredentialBearingHeaderName name then
    .auth ctx (AuthError.new .invalidConfiguration
      (scope.text ++ " collides with authentication ownership"))
  else .policyViolation ctx "public API headers include a transport-reserved header"

def userAgentValue : HeaderValue := FormUrlencoded.utf8Bytes "concord/0.1.0"

def anyMediaType : HeaderValue := FormUrlencoded.utf8Bytes "*/*"

/-- `apply_prepared_body_media_type`, `none` on a conflict. -/
def applyPreparedBodyMediaType (headers : HeaderMap) (body : PreparedBody ε β) :
    Option HeaderMap :=
  match body.mediaType with
  | none => some headers
  | some (.fixed mediaType) =>
    if headers.containsKey HeaderName.contentType then
      if headers.get HeaderName.contentType = some mediaType then some headers else none
    else some (headers.insert HeaderName.contentType mediaType)
  | some .dynamic =>
    if headers.containsKey HeaderName.contentType then none else some headers

/-- The URL of a request. -/
def requestUrl (urls : UrlCrate υ) (plan : EndpointPlan) : Except υ Url :=
  (urls.parse (plan.route.scheme ++ "://" ++ plan.route.host)).map fun url =>
    plan.policy.query.foldl (fun url pair => url.appendPair pair.1 pair.2)
      (urls.setPath url plan.route.path)

/-- The headers of a request before its body: the endpoint's replace the
client's. -/
def requestHeaders (apiHeaders : HeaderMap) (policy : ResolvedPolicy) : HeaderMap :=
  let headers := apiHeaders.override policy.headers
  let headers :=
    if headers.containsKey HeaderName.accept then headers
    else headers.insert HeaderName.accept anyMediaType
  headers.insert HeaderName.userAgent userAgentValue

def resolvePublicRequestHead (urls : UrlCrate υ) (apiHeaders : HeaderMap)
    (endpoint : EndpointPlan) (overrides : RequestOverrides) (body : PreparedBody ε β) :
    Except (HeadError υ) PublicRequestHead :=
  let ctx := endpoint.errorContext
  match requestUrl urls endpoint with
  | .error source => .error (.buildUrl ctx source)
  | .ok url =>
    match validatePublicHeaders apiHeaders with
    | some name => .error (.client (publicHeaderError ctx name .clientWide))
    | none =>
      match validatePublicHeaders endpoint.policy.headers with
      | some name => .error (.client (publicHeaderError ctx name .endpoint))
      | none =>
        match applyPreparedBodyMediaType (requestHeaders apiHeaders endpoint.policy) body with
        | none =>
          .error (.client (.policyViolation ctx
            "request Content-Type conflicts with prepared body media type"))
        | some headers =>
          .ok {
            method := endpoint.method
            url := url
            headers := headers
            timeout := overrides.timeout.or endpoint.policy.timeout
            authPlan := AuthPlacementPlan.default
            reservedHeaders :=
              if body.reservesContentType ∨ body.fixedMediaType.isSome then
                [HeaderName.contentType]
              else [] }

/-- What a resolved head has from its plan. -/
theorem resolved_of_resolvePublicRequestHead {urls : UrlCrate υ} {apiHeaders : HeaderMap}
    {endpoint : EndpointPlan} {overrides : RequestOverrides} {body : PreparedBody ε β}
    {head : PublicRequestHead}
    (h : resolvePublicRequestHead urls apiHeaders endpoint overrides body = .ok head) :
    requestUrl urls endpoint = .ok head.url ∧ head.method = endpoint.method ∧
      head.timeout = overrides.timeout.or endpoint.policy.timeout := by
  simp only [resolvePublicRequestHead] at h
  split at h
  · contradiction
  · next url hurl =>
      split at h
      · contradiction
      · split at h
        · contradiction
        · split at h
          · contradiction
          · rw [Except.ok.injEq] at h
            subst h
            exact ⟨hurl, rfl, rfl⟩

/-! ## one execution -/

/-- The client as far as a request is built with it: its headers, the
libraries below it, and the slot ids that other tasks take. -/
structure RequestBuilder (υ β : Type*) where
  urls : UrlCrate υ
  apiHeaders : HeaderMap
  reqwest : Reqwest β
  slotCounter : Nat
  taken : Nat → Nat

inductive BuildError (υ ε : Type*) where
  | head (error : HeadError υ)
  | client (error : ApiClientError)
  | body (error : BodyProductionError ε)

/-- The request that an execution builds, from the plan and what is left of
its body.  The TLS check and the preparation of credentials, which come
between the preflight and the body, do not touch the request. -/
def buildExecution (builder : RequestBuilder υ β) (endpoint : EndpointPlan)
    (overrides : RequestOverrides) (body : PreparedBody ε β) :
    Except (BuildError υ ε) (BuiltRequest β) :=
  let ctx := endpoint.errorContext
  match resolvePublicRequestHead builder.urls builder.apiHeaders endpoint overrides body with
  | .error error => .error (.head error)
  | .ok head =>
    match AuthPlacementPlan.fromAuthPlan builder.taken builder.slotCounter
        endpoint.policy.auth with
    | .error source => .error (.client (.auth ctx source))
    | .ok authPlan =>
      match head.applyAuthPreflight authPlan ctx with
      | .error error => .error (.client error)
      | .ok head =>
        match body.produceForExecution.2 with
        | .error error => .error (.body error)
        | .ok produced =>
          match head.finish builder.reqwest produced ctx with
          | .error error => .error (.client error)
          | .ok built => .ok built

/-- The URL and the timeout of a built request are those of its plan. -/
theorem message_of_buildExecution {builder : RequestBuilder υ β} {endpoint : EndpointPlan}
    {overrides : RequestOverrides} {body : PreparedBody ε β} {built : BuiltRequest β}
    (h : buildExecution builder endpoint overrides body = .ok built) :
    requestUrl builder.urls endpoint = .ok built.message.url ∧
      built.message.timeout = overrides.timeout.or endpoint.policy.timeout := by
  simp only [buildExecution] at h
  split at h
  · contradiction
  · next head hhead =>
      obtain ⟨hurl, _, htimeout⟩ := resolved_of_resolvePublicRequestHead hhead
      split at h
      · contradiction
      · split at h
        · contradiction
        · next checked hchecked =>
            obtain ⟨_, rfl⟩ := validated_of_preflight hchecked
            split at h
            · contradiction
            · split at h
              · contradiction
              · next hbuilt =>
                  rw [Except.ok.injEq] at h
                  subst h
                  obtain ⟨native, headers, _, _, rfl⟩ := finished_of_finish hbuilt
                  exact ⟨hurl, htimeout⟩

end Concord
