import Concord.RetryMode
import Concord.Client.Timeout
import Concord.Sema.DnsUrl
import Concord.Sema.Resolve

/-!
# Concord.Codegen.Origin

The hosts of requests (`emit_prefix_route_apply` of
`concord_macros/src/codegen/policy/route.rs` and the route of an endpoint in
`concord_macros/src/codegen/endpoints/endpoint.rs`), the origin descriptor of
an API (`emit_origin_descriptor`), and the policy for status retries that is
scoped to the host of that origin.

The URL of a request of an endpoint with a fixed origin has the scheme, host
and port of the origin.  The host of the retry policy is a text taken from the
authority, though, where static labels keep their letter case and an IPv6
address is written as the standard library does.  It is the host of the
request URLs exactly if no label has an upper-case letter and the address is
not an IPv4-mapped one.
-/

namespace Concord.Sema

variable {υ : Type*}

/-! ## generated routes -/

/-- The texts of the values of fields; an optional field may have none. -/
abbrev FieldTexts := Ident → Option String

/-- The variables of the client and the fields of the endpoint. -/
structure RouteValues where
  cx : FieldTexts
  ep : FieldTexts

/-- `ep_optionals`. -/
def epOptionals (ep : ResolvedEndpoint) (field : Ident) : Option Bool :=
  (Keyed.last VarInfo.rust ep.vars field).map VarInfo.optional

/-- The label of a field.  An optional one is pushed if it has a value. -/
def pushField (host : HostParts) (optional : Bool) (value : Option String) (name : String) :
    HostParts :=
  if optional then
    match value with
    | some text => host.pushLabel text (.placeholder name)
    | none => host
  else host.pushLabel (value.getD "") (.placeholder name)

def RouteValues.get (values : RouteValues) (field : Ident) : FmtVarSource → Option String
  | .cx => values.cx field
  | .ep => values.ep field

/-- `emit_fmt_build_string_with_ep_optionals`: an optional field without a
value adds nothing. -/
def fmtBuildString (values : RouteValues) (format : FmtResolved) : String :=
  String.join (format.pieces.map fun
    | .lit text => text
    | .var source field _ => (values.get field source).getD "")

/-- `emit_fmt_require_all_guard_with_ep_optionals`. -/
def fmtRequireAllGuard (optionals : Ident → Option Bool) (values : RouteValues)
    (format : FmtResolved) : Bool :=
  format.pieces.all fun
    | .lit _ => true
    | .var .cx field optional => !optional || (values.cx field).isSome
    | .var .ep field optional =>
      !(optionals field).getD optional || (values.ep field).isSome

def applyPrefixPiece (optionals : Ident → Option Bool) (values : RouteValues)
    (host : HostParts) : PrefixPiece → HostParts
  | .static label => host.pushLabelStatic label
  | .cxVar field optional => pushField host optional (values.cx field) ("cx." ++ field)
  | .epVar field =>
    pushField host ((optionals field).getD false) (values.ep field) ("ep." ++ field)
  | .fmt format =>
    if format.requireAll && !fmtRequireAllGuard optionals values format then host
    else host.pushLabel (fmtBuildString values format) .mixed

/-- `emit_prefix_route_apply`. -/
def applyPrefixRoute (optionals : Ident → Option Bool) (values : RouteValues)
    (pieces : List PrefixPiece) (host : HostParts) : HostParts :=
  pieces.foldl (applyPrefixPiece optionals values) host

/-- The host of a generated route. -/
def routeHost (api : ResolvedApi) (endpoint : ResolvedEndpoint) (values : RouteValues)
    (ctx : ErrorContext) : Except InvalidHostLabel String :=
  let host := applyPrefixRoute (epOptionals endpoint) values endpoint.prefixPieces
    HostParts.default
  (host.validate ctx).map fun _ => host.join api.domain

/-- The code generated for an endpoint builds its routes. -/
structure EmitsRoute {ε β : Type} (api : ResolvedApi) (endpoint : ResolvedEndpoint)
    (cx : FieldTexts) (generated : GeneratedEndpoint ε β FieldTexts) : Prop where
  scheme {ep : FieldTexts} {inputs : GeneratedInputs ε β}
    (h : generated.inputs ep = .ok inputs) : inputs.route.scheme = api.scheme.text
  host {ep : FieldTexts} {inputs : GeneratedInputs ε β} (h : generated.inputs ep = .ok inputs) :
    routeHost api endpoint ⟨cx, ep⟩ ⟨generated.name, generated.method⟩ = .ok inputs.route.host

/-- The URLs of the requests of an endpoint: of a request on its own, and of a
page. -/
inductive RequestUrl (urls : UrlReader υ) (api : ResolvedApi) (endpoint : ResolvedEndpoint) :
    Url → Prop
  | call {ε β : Type} {cx : FieldTexts} {generated : GeneratedEndpoint ε β FieldTexts}
      {pending : PendingRequest FieldTexts} {plan : FullRequestPlan ε β} {url : Url}
      (hgenerated : EmitsRoute api endpoint cx generated)
      (hplan : pending.preparedCall generated = .ok plan)
      (hurl : requestUrl urls.toUrlCrate plan.endpoint = .ok url) :
      RequestUrl urls api endpoint url
  | page {ε β R Page Item : Type} {cx : FieldTexts}
      {generated : GeneratedEndpoint ε β FieldTexts} {paginationRuntime : FieldTexts → Option R}
      {runtime : PaginationRuntime ApiClientError FieldTexts R Page} {opts : RequestOptions}
      {ctx : ErrorContext} {s s' : CollectState ApiClientError FieldTexts R Page Item}
      {page : PageCall} {plan : FullRequestPlan ε β} {url : Url}
      (hgenerated : EmitsRoute api endpoint cx generated)
      (hnext : nextCall (generated.paginated paginationRuntime runtime) opts ctx s =
        .ok (s', page))
      (hplan : generated.pagePlan opts s' = .ok plan)
      (hurl : requestUrl urls.toUrlCrate plan.endpoint = .ok url) :
      RequestUrl urls api endpoint url

/-! ## static labels -/

theorem labelError_of_validDnsLabel {label : String} (h : validDnsLabel label.toList = true) :
    HostParts.labelError label = none := by
  unfold validDnsLabel at h
  simp only [Bool.and_eq_true, Bool.not_eq_true', decide_eq_true_eq] at h
  obtain ⟨⟨⟨⟨hempty, _⟩, hhead⟩, hlast⟩, hchars⟩ := h
  have hnot : ∀ c, (c.isAlphanum || c = '-') = false → c ∉ label.toList := by
    intro c hc hmem
    have htrue := List.all_eq_true.mp hchars c hmem
    rw [hc] at htrue
    contradiction
  have hdot : '.' ∉ label.toList := hnot '.' (by decide)
  have hslash : '/' ∉ label.toList := hnot '/' (by decide)
  have hfind : label.toList.find? (fun c => !HostParts.labelChar c) = none := by
    rw [List.find?_eq_none]
    intro c hmem
    have htrue := List.all_eq_true.mp hchars c hmem
    rw [HostParts.labelChar, htrue]
    simp
  unfold HostParts.labelError
  simp [hempty, hdot, hslash, hhead, hlast, hfind]

theorem applyPrefixRoute_static (optionals : Ident → Option Bool) (values : RouteValues)
    (labels : List String) (host : HostParts) :
    applyPrefixRoute optionals values (labels.map PrefixPiece.static) host =
      labels.foldl HostParts.pushLabelStatic host := by
  rw [applyPrefixRoute, List.foldl_map]
  rfl

/-- Whatever the values, the host of static labels is these labels before the
domain. -/
theorem routeHost_static {api : ResolvedApi} {endpoint : ResolvedEndpoint} {labels : List String}
    (h : staticLabels endpoint.prefixPieces = some labels) (values : RouteValues)
    (ctx : ErrorContext) :
    routeHost api endpoint values ctx = .ok (combinedHost labels api.domain) := by
  obtain ⟨hpieces, hvalid⟩ := staticLabels_eq_some h
  have hhost : applyPrefixRoute (epOptionals endpoint) values endpoint.prefixPieces
      HostParts.default =
        ⟨.suffixDomain (labels.map fun text => ⟨text, .static text⟩), none⟩ := by
    rw [hpieces, applyPrefixRoute_static, HostParts.default, HostParts.foldl_pushLabelStatic,
      List.nil_append]
  have hlabels : ∀ label ∈ labels.map (fun text => (⟨text, .static text⟩ : HostLabel)),
      HostParts.labelError label.value = none := by
    intro label hmem
    obtain ⟨text, htext, rfl⟩ := List.mem_map.mp hmem
    exact labelError_of_validDnsLabel (hvalid text htext)
  unfold routeHost
  dsimp only
  rw [hhost, HostParts.validate_suffixDomain hlabels]
  simp [Except.map, HostParts.join, HostParts.display, combinedHost, Function.comp_def]

/-! ## requests -/

theorem origin_appendPairs {urls : UrlReader υ} (hurls : LawfulUrls urls)
    (pairs : List (String × String)) (url : Url) :
    urls.origin (pairs.foldl (fun url pair => url.appendPair pair.1 pair.2) url) =
      urls.origin url := by
  induction pairs generalizing url with
  | nil => rfl
  | cons pair pairs ih =>
      rw [List.foldl_cons, ih]
      exact hurls.origin_query url _

/-- The path and the query of a request do not change its origin. -/
theorem origin_of_requestUrl {urls : UrlReader υ} (hurls : LawfulUrls urls) {plan : EndpointPlan}
    {url : Url} (h : requestUrl urls.toUrlCrate plan = .ok url) :
    ∃ base, urls.parse (plan.route.scheme ++ "://" ++ plan.route.host) = .ok base ∧
      urls.origin url = urls.origin base := by
  unfold requestUrl at h
  cases hparse : urls.parse (plan.route.scheme ++ "://" ++ plan.route.host) with
  | error error =>
      rw [hparse] at h
      contradiction
  | ok base =>
      rw [hparse] at h
      simp only [Except.map, Except.ok.injEq] at h
      refine ⟨base, rfl, ?_⟩
      rw [← h, origin_appendPairs hurls, hurls.origin_setPath hparse]

/-- The route of a planned request is the one that is generated. -/
theorem route_of_plan {ε β : Type} {api : ResolvedApi} {endpoint : ResolvedEndpoint}
    {cx ep : FieldTexts} {generated : GeneratedEndpoint ε β FieldTexts}
    (hgenerated : EmitsRoute api endpoint cx generated) {opts : RequestOptions} {pageIndex : Nat}
    {plan : FullRequestPlan ε β}
    (h : (generated.plan ep).map (fun plan => plan.withOptions opts pageIndex) = .ok plan) :
    plan.endpoint.route.scheme = api.scheme.text ∧
      routeHost api endpoint ⟨cx, ep⟩ ⟨generated.name, generated.method⟩ =
        .ok plan.endpoint.route.host := by
  unfold GeneratedEndpoint.plan at h
  cases hinputs : generated.inputs ep with
  | error error =>
      rw [hinputs] at h
      contradiction
  | ok inputs =>
      rw [hinputs] at h
      simp only [Except.map, Except.ok.injEq] at h
      subst h
      exact ⟨hgenerated.scheme hinputs, hgenerated.host hinputs⟩

section

variable {urls : UrlReader υ} {api : ResolvedApi} {endpoint : ResolvedEndpoint}
  {labels : List String}

/-- With static labels, the URL of every request has the origin of the URL of
its host. -/
theorem RequestUrl.origin_eq (hurls : LawfulUrls urls)
    (hlabels : staticLabels endpoint.prefixPieces = some labels) {url : Url}
    (h : RequestUrl urls api endpoint url) :
    ∃ base, urls.parse (urlOf api.scheme (combinedHost labels api.domain)) = .ok base ∧
      urls.origin url = urls.origin base := by
  have hroute : ∃ plan : EndpointPlan, plan.route.scheme = api.scheme.text ∧
      plan.route.host = combinedHost labels api.domain ∧
      requestUrl urls.toUrlCrate plan = .ok url := by
    cases h with
    | call hgenerated hplan hurl =>
        obtain ⟨hscheme, hhost⟩ := route_of_plan hgenerated hplan
        rw [routeHost_static hlabels] at hhost
        exact ⟨_, hscheme, (Except.ok.inj hhost).symm, hurl⟩
    | page hgenerated _ hplan hurl =>
        obtain ⟨hscheme, hhost⟩ := route_of_plan hgenerated hplan
        rw [routeHost_static hlabels] at hhost
        exact ⟨_, hscheme, (Except.ok.inj hhost).symm, hurl⟩
  obtain ⟨plan, hscheme, hhost, hurl⟩ := hroute
  obtain ⟨base, hparse, horigin⟩ := origin_of_requestUrl hurls hurl
  rw [hscheme, hhost] at hparse
  exact ⟨base, hparse, horigin⟩

/-- An endpoint that only has a route. -/
def bareEndpoint (route : ResolvedRoute) : GeneratedEndpoint Unit Unit FieldTexts where
  name := "Endpoint"
  method := .get
  response := ⟨none, false⟩
  pagination := false
  inputs _ := .ok ⟨route, ⟨[], [], []⟩, ⟨[]⟩, ⟨.empty, none⟩⟩

/-- A host that makes a URL is that of a request. -/
theorem exists_requestUrl (hlabels : staticLabels endpoint.prefixPieces = some labels)
    {base : Url}
    (hbase : urls.parse (urlOf api.scheme (combinedHost labels api.domain)) = .ok base) :
    ∃ url, RequestUrl urls api endpoint url := by
  let route : ResolvedRoute := ⟨api.scheme.text, combinedHost labels api.domain, "/"⟩
  have hgenerated : EmitsRoute api endpoint (fun _ => none) (bareEndpoint route) := by
    constructor
    · intro ep inputs h
      rw [← Except.ok.inj h]
    · intro ep inputs h
      rw [← Except.ok.inj h, routeHost_static hlabels]
  obtain ⟨plan, hplan, hroute⟩ : ∃ plan,
      (PendingRequest.new fun _ => none).preparedCall (bareEndpoint route) = .ok plan ∧
        plan.endpoint.route = route := ⟨_, rfl, rfl⟩
  have hurl : ∃ url, requestUrl urls.toUrlCrate plan.endpoint = .ok url := by
    unfold urlOf at hbase
    unfold requestUrl
    rw [hroute, hbase]
    exact ⟨_, rfl⟩
  obtain ⟨url, hurl⟩ := hurl
  exact ⟨url, .call hgenerated hplan hurl⟩

/-- The URL of every request has the origin of the authority. -/
theorem RequestUrl.origin_candidate (hurls : LawfulUrls urls)
    (hlabels : staticLabels endpoint.prefixPieces = some labels) {authority : String}
    (check : OriginCheck urls api.scheme api.domain labels authority) {url : Url}
    (h : RequestUrl urls api endpoint url) :
    urls.origin url = urls.origin check.candidate := by
  obtain ⟨base, hbase, horigin⟩ := h.origin_eq hurls hlabels
  obtain ⟨found, hfound, hcandidate⟩ := check.exists_request_url hurls
  have hsame : base = found := Except.ok.inj (hbase.symm.trans hfound)
  rw [horigin, hsame, hcandidate]

end

/-! ## the origin of the API -/

def OriginSchemeIr.text : OriginSchemeIr → String
  | .http => "http"
  | .https => "https"

def emitFixedOrigin (origin : FixedOriginIr) : FixedOriginDescriptor where
  scheme :=
    match origin.scheme with
    | .http => .http
    | .https => .https
  authority := origin.authority

def emitOriginDescriptor : ApiOriginIr → ApiOriginDescriptor
  | .fixedSingle origin => .fixedSingleOrigin (emitFixedOrigin origin)
  | .dynamic => .dynamicOrigin
  | .multi => .multiOrigin

/-- Whether a retry mode is accepted for a generated client. -/
def resolveRetryMode (urls : UrlReader υ) (authorityHost : String → Option String)
    (api : ResolvedApi) (mode : RetryMode) : Except RetryModeError ReqwestRetryInstall :=
  mode.resolve urls authorityHost (some (emitOriginDescriptor (api.origin urls)))

/-- The requests of an endpoint with a fixed origin go there, and status
retries that are accepted apply to all requests. -/
structure FixedOriginsSound (urls : UrlReader υ) (authorityHost : String → Option String)
    (api : ResolvedApi) : Prop where
  fixed {endpoint : ResolvedEndpoint} (hendpoint : endpoint ∈ api.endpoints)
    {origin : FixedOriginIr} (horigin : classifyEndpointOrigin urls api.scheme api.domain
      endpoint.prefixPieces = .fixed origin) :
    ∃ originUrl, urls.parse (origin.scheme.text ++ "://" ++ origin.authority) = .ok originUrl ∧
      ∀ url, RequestUrl urls api endpoint url →
        urls.scheme url = origin.scheme.text ∧ urls.host url = urls.host originUrl ∧
          urls.port url = urls.port originUrl
  status {config : StatusRetryConfig} {install : ReqwestRetryInstall}
    (haccepted : resolveRetryMode urls authorityHost api (.status config) = .ok install) :
    ∃ policy, install = .custom policy ∧ ∀ endpoint ∈ api.endpoints, ∀ url,
      RequestUrl urls api endpoint url → policy.Applies urls url

/-- The texts of the hosts of an API are those of their URLs: no static label
has an upper-case letter, and the domain is not an IPv4-mapped address. -/
def HostsAsUrls (api : ResolvedApi) : Prop :=
  (∀ endpoint ∈ api.endpoints, ∀ label, PrefixPiece.static label ∈ endpoint.prefixPieces →
    label.toLower = label) ∧ isIpv4MappedBase api.domain = false

section

variable {urls : UrlReader υ} {authorityHost : String → Option String} {api : ResolvedApi}

theorem text_toOriginScheme (scheme : Scheme) : scheme.toOriginScheme.text = scheme.text := by
  cases scheme <;> rfl

/-- The requests of an endpoint with a fixed origin go there. -/
theorem requests_of_fixed (hurls : LawfulUrls urls) {endpoint : ResolvedEndpoint}
    {origin : FixedOriginIr} (horigin : classifyEndpointOrigin urls api.scheme api.domain
      endpoint.prefixPieces = .fixed origin) :
    ∃ originUrl, urls.parse (origin.scheme.text ++ "://" ++ origin.authority) = .ok originUrl ∧
      ∀ url, RequestUrl urls api endpoint url →
        urls.scheme url = origin.scheme.text ∧ urls.host url = urls.host originUrl ∧
          urls.port url = urls.port originUrl := by
  obtain ⟨hscheme, labels, hlabels, ⟨check⟩⟩ := check_of_fixed horigin
  have htext : origin.scheme.text = api.scheme.text := by
    rw [hscheme, text_toOriginScheme]
  refine ⟨check.candidate, ?_, fun url hurl => ?_⟩
  · rw [htext]
    exact (congrArg (fun authority => urls.parse (urlOf api.scheme authority))
      check.authority_eq).trans check.candidate_parse
  · have heq := hurl.origin_candidate hurls hlabels check
    rw [htext, ← check.candidate_scheme]
    exact ⟨congrArg UrlOrigin.scheme heq, congrArg UrlOrigin.host heq,
      congrArg UrlOrigin.port heq⟩

/-- Status retries are accepted for an API with one fixed origin. -/
theorem fixedSingle_of_accepted {config : StatusRetryConfig} {install : ReqwestRetryInstall}
    (haccepted : resolveRetryMode urls authorityHost api (.status config) = .ok install) :
    ∃ origin host, api.origin urls = .fixedSingle origin ∧
      authorityHost origin.authority = some host ∧
      install = .custom (config.buildReqwestPolicy host) := by
  obtain ⟨fixed, host, horigin, hhost, hinstall⟩ := resolve_status_eq_ok haccepted
  rw [Option.some.injEq] at horigin
  cases hapi : api.origin urls with
  | fixedSingle origin =>
      rw [hapi, emitOriginDescriptor, ApiOriginDescriptor.fixedSingleOrigin.injEq] at horigin
      rw [← horigin] at hhost
      exact ⟨origin, host, rfl, hhost, hinstall⟩
  | dynamic =>
      rw [hapi] at horigin
      cases horigin
  | multi =>
      rw [hapi] at horigin
      cases horigin

/-- The policy of status retries applies to the requests of an endpoint if
the labels of the endpoint and the domain are as in URLs, and only then. -/
theorem applies_iff (hurls : LawfulUrls urls) (hauthority : LawfulAuthority authorityHost)
    {config : StatusRetryConfig} {install : ReqwestRetryInstall}
    (haccepted : resolveRetryMode urls authorityHost api (.status config) = .ok install) :
    ∃ policy, install = .custom policy ∧ ∀ endpoint ∈ api.endpoints,
      (∃ url, RequestUrl urls api endpoint url) ∧
      ∀ url, RequestUrl urls api endpoint url → (policy.Applies urls url ↔
        (∀ label, PrefixPiece.static label ∈ endpoint.prefixPieces → label.toLower = label) ∧
          isIpv4MappedBase api.domain = false) := by
  obtain ⟨origin, host, hapi, hhost, rfl⟩ := fixedSingle_of_accepted haccepted
  refine ⟨_, rfl, fun endpoint hmem => ?_⟩
  obtain ⟨_, labels, hlabels, ⟨check⟩⟩ := check_of_fixed (fixed_of_fixedSingle hapi hmem)
  -- the host of the policy is that of the authority
  have hpolicy : host = combinedHost labels check.hostText :=
    hauthority.host_eq check.hostText_combinedHost check.port_valid
      ((congrArg authorityHost check.authority_eq).symm.trans hhost)
  constructor
  · obtain ⟨base, hbase, _⟩ := check.exists_request_url hurls
    exact exists_requestUrl hlabels hbase
  · intro url hurl
    have hread : urls.host url = urls.host check.candidate :=
      congrArg UrlOrigin.host (hurl.origin_candidate hurls hlabels check)
    have hstatic : (∀ label, PrefixPiece.static label ∈ endpoint.prefixPieces →
        label.toLower = label) ↔ ∀ label ∈ labels, label.toLower = label := by
      rw [(staticLabels_eq_some hlabels).1]
      simp
    rw [hstatic, ← check.text_eq_iff hurls, ReqwestRetryPolicy.Applies, hread]
    show _ = some host ↔ _
    rw [hpolicy]

/-- **Fixed origins**: for every API, the requests of endpoints with a fixed
origin, later pages included, have its scheme, host and port, and the policy
of status retries that are accepted applies to all requests, if and only if
the hosts of an API with such retries are written as in URLs. -/
theorem fixed_origins_sound_iff (hurls : LawfulUrls urls)
    (hauthority : LawfulAuthority authorityHost) :
    FixedOriginsSound urls authorityHost api ↔
      ((∃ config install,
        resolveRetryMode urls authorityHost api (.status config) = .ok install) →
        HostsAsUrls api) := by
  constructor
  · rintro hsound ⟨config, install, haccepted⟩
    obtain ⟨policy, hpolicy, hiff⟩ := applies_iff hurls hauthority haccepted
    obtain ⟨policy', hpolicy', happlies⟩ := hsound.status haccepted
    have hsame : policy = policy' := by
      rw [hpolicy] at hpolicy'
      exact ReqwestRetryInstall.custom.inj hpolicy'
    subst hsame
    have hendpoint : ∀ endpoint ∈ api.endpoints,
        (∀ label, PrefixPiece.static label ∈ endpoint.prefixPieces → label.toLower = label) ∧
          isIpv4MappedBase api.domain = false := by
      intro endpoint hmem
      obtain ⟨⟨url, hurl⟩, happly⟩ := hiff endpoint hmem
      exact (happly url hurl).mp (happlies endpoint hmem url hurl)
    obtain ⟨origin, _, hapi, _, _⟩ := fixedSingle_of_accepted haccepted
    obtain ⟨endpoint, hmem⟩ := endpoints_of_fixedSingle hapi
    exact ⟨fun endpoint hmem => (hendpoint endpoint hmem).1, (hendpoint endpoint hmem).2⟩
  · intro hhosts
    constructor
    · intro endpoint _ origin horigin
      exact requests_of_fixed hurls horigin
    · intro config install haccepted
      obtain ⟨hlabels, hdomain⟩ := hhosts ⟨config, install, haccepted⟩
      obtain ⟨policy, hpolicy, hiff⟩ := applies_iff hurls hauthority haccepted
      refine ⟨policy, hpolicy, fun endpoint hmem url hurl => ?_⟩
      exact ((hiff endpoint hmem).2 url hurl).mpr ⟨hlabels endpoint hmem, hdomain⟩

end

/-! ## APIs with a host label -/

/-- One endpoint below a scope with a host label. -/
def hostLabelApi (label : String) : RawApi where
  client := RawClient.bare "Api"
  items := .layer { RawScope.bare "tenant" [] with hostRoute := some ⟨[.static label]⟩ }
    (.endpoint (RawEndpoint.bare "List") .nil) .nil

/-- A retry of gateway errors. -/
def gatewayRetries : StatusRetryConfig where
  maxRetries := 1
  statuses := [502]
  maxRetries_range := ⟨Nat.le_refl 1, Nat.le_succ 1⟩
  statuses_ne_nil := List.cons_ne_nil 502 []
  statuses_approved := List.forall_mem_singleton.mpr List.mem_cons_self

/-- The host of the policy of a retry mode that is accepted. -/
def policyHost : Except RetryModeError ReqwestRetryInstall → Option String
  | .ok (.custom policy) => some policy.host
  | .ok .protocolRecovery | .ok .never | .error _ => none

theorem fixed_origins_sound_lower :
    ∃ pipeline, analyzePipeline asciiUppercase (hostLabelApi "api") = .ok pipeline ∧
      policyHost (resolveRetryMode DnsUrl.reader DnsUrl.authorityHost pipeline.api
        (.status gatewayRetries)) = some "api.example.com" ∧
      FixedOriginsSound DnsUrl.reader DnsUrl.authorityHost pipeline.api := by
  obtain ⟨pipeline, hok, hpipeline⟩ := Results.exists_ok_of_any
    (x := analyzePipeline asciiUppercase (hostLabelApi "api"))
    (p := fun pipeline =>
      decide (policyHost (resolveRetryMode DnsUrl.reader DnsUrl.authorityHost pipeline.api
        (.status gatewayRetries)) = some "api.example.com") &&
      pipeline.api.endpoints.all (fun endpoint => endpoint.prefixPieces = [.static "api"]) &&
      !isIpv4MappedBase pipeline.api.domain) (by decide +kernel)
  simp only [Bool.and_eq_true, decide_eq_true_eq, Bool.not_eq_true'] at hpipeline
  obtain ⟨⟨hpolicy, hpieces⟩, hdomain⟩ := hpipeline
  refine ⟨pipeline, hok, hpolicy, (fixed_origins_sound_iff DnsUrl.lawful_reader
    DnsUrl.lawful_authorityHost).mpr fun _ => ⟨fun endpoint hmem label hlabel => ?_, hdomain⟩⟩
  have hpiece := of_decide_eq_true (List.all_eq_true.mp hpieces endpoint hmem)
  rw [hpiece] at hlabel
  have hlower : "api".toLower = "api" := by decide +kernel
  rw [PrefixPiece.static.inj (List.mem_singleton.mp hlabel), hlower]

/-- The label `API` is in the host of the policy as it is written, and in the
host of the requests in lower case: the policy never applies. -/
theorem fixed_origins_upper_label :
    ∃ pipeline, analyzePipeline asciiUppercase (hostLabelApi "API") = .ok pipeline ∧
      policyHost (resolveRetryMode DnsUrl.reader DnsUrl.authorityHost pipeline.api
        (.status gatewayRetries)) = some "API.example.com" ∧
      ¬ FixedOriginsSound DnsUrl.reader DnsUrl.authorityHost pipeline.api := by
  obtain ⟨pipeline, hok, hpipeline⟩ := Results.exists_ok_of_any
    (x := analyzePipeline asciiUppercase (hostLabelApi "API"))
    (p := fun pipeline =>
      decide (policyHost (resolveRetryMode DnsUrl.reader DnsUrl.authorityHost pipeline.api
        (.status gatewayRetries)) = some "API.example.com") &&
      pipeline.api.endpoints.any (fun endpoint => endpoint.prefixPieces = [.static "API"]))
    (by decide +kernel)
  rw [Bool.and_eq_true, decide_eq_true_eq] at hpipeline
  obtain ⟨hpolicy, hpieces⟩ := hpipeline
  refine ⟨pipeline, hok, hpolicy, fun hsound => ?_⟩
  obtain ⟨endpoint, hmem, hpiece⟩ := List.any_eq_true.mp hpieces
  have hpiece := of_decide_eq_true hpiece
  cases haccepted : resolveRetryMode DnsUrl.reader DnsUrl.authorityHost pipeline.api
      (.status gatewayRetries) with
  | error error =>
      rw [haccepted] at hpolicy
      contradiction
  | ok install =>
      obtain ⟨policy, hinstall, hiff⟩ :=
        applies_iff DnsUrl.lawful_reader DnsUrl.lawful_authorityHost haccepted
      obtain ⟨policy', hinstall', happlies⟩ := hsound.status haccepted
      have hsame : policy = policy' :=
        ReqwestRetryInstall.custom.inj (hinstall.symm.trans hinstall')
      obtain ⟨⟨url, hurl⟩, happly⟩ := hiff endpoint hmem
      have hlabels := ((happly url hurl).mp (hsame ▸ happlies endpoint hmem url hurl)).1
      have hlower : "API".toLower = "API" := hlabels "API" (by rw [hpiece]; exact List.mem_cons_self)
      exact absurd hlower (by decide +kernel)

end Concord.Sema
