import Concord.Codegen.PolicyOps

/-!
# Concord.Codegen.Query

The query of a request: what the layers of its policy leave is what can be
read from its URL.

The URL starts without a query.  Its host comes from the base URL of the
client, which is checked when it is parsed (`parse_base_url_literal` of
`concord_macros/src/parse/mod.rs`), and from labels that are checked when the
route is built.
-/

namespace Concord.Sema

variable {υ ε β E : Type*}

/-! ## base URLs -/

/-- `str::trim_end_matches`. -/
def trimEndMatches (c : Char) (text : List Char) : List Char :=
  (text.reverse.dropWhile (· = c)).reverse

/-- The scheme of a base URL and what follows it. -/
def splitBaseUrl (raw : List Char) : Option (Scheme × List Char) :=
  if "https://".toList.isPrefixOf raw then some (.https, raw.drop 8)
  else if "http://".toList.isPrefixOf raw then some (.http, raw.drop 7)
  else none

/-- A base URL is a scheme and a domain. -/
def parseBaseUrlLiteral (raw : String) : Result (Scheme × String) :=
  match splitBaseUrl raw.toList with
  | none => fail "base URL must start with `https://` or `http://`"
  | some (scheme, rest) =>
    let host := trimEndMatches '/' rest
    if host.isEmpty || ['/', '\\', '@', '?', '#'].any (host.contains ·) ||
        host.any (fun c => isWhitespace c || isControl c) then
      fail "base URL must contain only scheme and host"
    else .ok (scheme, String.ofList host)

/-- The domain has no question mark. -/
theorem parseBaseUrlLiteral_query {raw domain : String} {scheme : Scheme}
    (h : parseBaseUrlLiteral raw = .ok (scheme, domain)) : '?' ∉ domain.toList := by
  unfold parseBaseUrlLiteral at h
  split at h
  · contradiction
  · next found rest _ =>
      dsimp only at h
      split at h
      · contradiction
      · next hchecks =>
          simp only [Except.ok.injEq, Prod.mk.injEq] at h
          rw [← h.2, String.toList_ofList]
          intro hmem
          apply hchecks
          simp [hmem]

/-! ## hosts -/

/-- A character of a joined text is a dot or from one of the parts. -/
theorem mem_intercalate {c : Char} {texts : List String}
    (h : c ∈ (".".intercalate texts).toList) : c = '.' ∨ ∃ text ∈ texts, c ∈ text.toList := by
  induction texts with
  | nil => simp at h
  | cons text texts ih =>
      cases texts with
      | nil => exact .inr ⟨text, by simp, by simpa using h⟩
      | cons next texts =>
          rw [String.intercalate_cons_cons] at h
          simp only [String.toList_append, List.mem_append] at h
          obtain (hmem | hdot) | hrest := h
          · exact .inr ⟨text, by simp, hmem⟩
          · exact .inl (by simpa using hdot)
          · obtain hdot | ⟨found, hfound, hmem⟩ := ih hrest
            · exact .inl hdot
            · exact .inr ⟨found, by simp [hfound], hmem⟩

/-- A valid host does not start a query. -/
theorem join_query {host : HostParts} {ctx : ErrorContext} (hvalid : host.validate ctx = .ok ())
    {domain : String} (hdomain : '?' ∉ domain.toList) : '?' ∉ (host.join domain).toList := by
  obtain ⟨spec, attempt⟩ := host
  cases spec with
  | absolute text => exact (HostParts.validate_absolute hvalid).2.query
  | suffixDomain labels =>
      rw [HostParts.join_suffixDomain]
      intro hquery
      obtain hdot | ⟨text, htext, hmem⟩ := mem_intercalate hquery
      · simp at hdot
      · rw [List.mem_append, List.mem_singleton] at htext
        obtain hvalue | rfl := htext
        · obtain ⟨label, hlabel, rfl⟩ := List.mem_map.mp hvalue
          have hchar := (HostParts.isLabel_of_validate hvalid hlabel).mem hmem
          simp at hchar
        · exact hdomain hmem

/-- The route of a generated endpoint: a host that is valid, with the domain
of the base URL. -/
structure Routed (baseUrl : String) (route : ResolvedRoute) : Prop where
  exists_host : ∃ (scheme : Scheme) (domain : String) (host : HostParts) (ctx : ErrorContext),
    parseBaseUrlLiteral baseUrl = .ok (scheme, domain) ∧ host.validate ctx = .ok () ∧
      route.scheme = scheme.text ∧ route.host = host.join domain

/-- An origin has no question mark. -/
theorem Routed.query {baseUrl : String} {route : ResolvedRoute} (h : Routed baseUrl route) :
    '?' ∉ (route.scheme ++ "://" ++ route.host).toList := by
  obtain ⟨scheme, domain, host, ctx, hparse, hvalid, hscheme, hhost⟩ := h
  have hnot := join_query hvalid (parseBaseUrlLiteral_query hparse)
  rw [hscheme, hhost]
  cases scheme with
  | http => simp [Scheme.text, hnot]
  | https => simp [Scheme.text, hnot]

/-! ## URLs -/

/-- What the code needs of the `url` crate: a query starts with a question
mark, and setting the path is not setting the query. -/
structure LawfulQuery (urls : UrlCrate υ) : Prop where
  query_parse {text : String} {url : Url} (htext : '?' ∉ text.toList)
    (hurl : urls.parse text = .ok url) : url.query = none
  query_setPath (url : Url) (path : String) : (urls.setPath url path).query = url.query

/-- Appended pairs come after those that are there. -/
theorem queryPairs_appendPairs (pairs : List (String × String)) (url : Url) :
    (pairs.foldl (fun url pair => url.appendPair pair.1 pair.2) url).queryPairs =
      url.queryPairs ++ pairs := by
  induction pairs generalizing url with
  | nil => simp
  | cons pair pairs ih => simp [ih]

/-- The query of a request is that of its plan. -/
theorem queryPairs_of_requestUrl {urls : UrlCrate υ} (hurls : LawfulQuery urls)
    {plan : EndpointPlan} {baseUrl : String} (hroute : Routed baseUrl plan.route) {url : Url}
    (h : requestUrl urls plan = .ok url) : url.queryPairs = plan.policy.query := by
  obtain ⟨base, hbase, rfl⟩ := Results.map_eq_ok_iff.mp h
  have hquery : (urls.setPath base plan.route.path).query = none := by
    rw [hurls.query_setPath, hurls.query_parse hroute.query hbase]
  rw [queryPairs_appendPairs, Url.queryPairs, hquery]
  rfl

/-! ## the law of the layers -/

/-- The query is the last writes to its keys in the order in which they were
made, and is read back from the URL.  `Accept` is what the endpoint made it,
or what the codec asks for; other headers are what the last call made them. -/
theorem layered_policy_law {urls : UrlCrate υ} (hurls : LawfulQuery urls)
    (generated : GeneratedEndpoint ε β E) (inputs : GeneratedInputs ε β)
    (hlayers : inputs.layers.Directives) {baseUrl : String}
    (hroute : Routed baseUrl inputs.route) :
    let plan := generated.prepareGeneratedEndpoint inputs
    let policy := plan.endpoint.policy
    let writes := inputs.layers.queryWrites
    policy.query = LastWrite.expand (LastWrite.finals writes) ∧
      (∀ key, (policy.query.filter (·.1 = key)).map (·.2) =
        (LastWrite.last (LastWrite.toKey key) writes).getD []) ∧
      (∀ key, (LastWrite.last (LastWrite.toKey key) writes).getD [] = [] →
        ∀ pair ∈ policy.query, pair.1 ≠ key) ∧
      (∀ apiHeaders overrides (body : PreparedBody ε β) head,
        resolvePublicRequestHead urls apiHeaders plan.endpoint overrides body = .ok head →
          head.url.queryPairs = policy.query) ∧
      (∀ value, generated.method ≠ .head → generated.response = ⟨some value, false⟩ →
        policy.headers.getAll HeaderName.accept =
          (LastWrite.last (PolicyOp.header? HeaderName.accept) inputs.layers.endpoint).getD
            [value]) ∧
      ∀ name ≠ HeaderName.accept, policy.headers.getAll name =
        (LastWrite.last (PolicyOp.header? name) inputs.layers.calls).getD [] := by
  have hquery := inputs.layers.query_of_run generated.method generated.response
  have hkey (key : String) :
      (((generated.prepareGeneratedEndpoint inputs).endpoint.policy.query).filter
          (·.1 = key)).map (·.2) =
        (LastWrite.last (LastWrite.toKey key) inputs.layers.queryWrites).getD [] := by
    rw [← LastWrite.filter_expand_finals, ← hquery]
    rfl
  refine ⟨hquery, hkey, ?_, ?_, ?_, ?_⟩
  · intro key hnone pair hpair heq
    have hempty := hkey key
    rw [hnone, List.map_eq_nil_iff, List.filter_eq_nil_iff] at hempty
    exact hempty pair hpair (by simpa using heq)
  · intro apiHeaders overrides body head hhead
    obtain ⟨hurl, _, _⟩ := resolved_of_resolvePublicRequestHead hhead
    exact queryPairs_of_requestUrl hurls hroute hurl
  · intro value hmethod hresponse
    have haccept := PolicyLayers.accept_of_run hlayers hmethod value
    rw [← hresponse] at haccept
    exact haccept
  · intro name hname
    exact inputs.layers.header_of_run generated.method generated.response hname

/-- The sample reader keeps queries. -/
theorem DnsUrl.lawfulQuery : LawfulQuery DnsUrl.reader.toUrlCrate where
  query_parse _ hurl := by
    obtain ⟨_, _, htaken⟩ := DnsUrl.taken_of_parse hurl
    rw [htaken.url_eq]
  query_setPath _ _ := rfl

/-- The client sets a page and a tag. -/
def listingClient : PolicyBlocksResolved where
  headers := [.set (.static "accept") (.value (.litStr "text/plain")) .scalar]
  query := [.set (.static "page") (.value (.litStr "1")) .scalar,
    .set (.static "tag") (.value (.litStr "a")) .scalar]
  timeout := none
  rateLimit := none

/-- The endpoint has its own pages, and a tag that may be left out. -/
def listingPolicy : ResolvedPolicySpec where
  scopes := []
  endpoint :=
    { headers := []
      query := [.set (.static "sort") (.value (.litStr "name")) .scalar,
        .set (.static "page") (.value (.epField "pages")) .vector,
        .set (.static "tag") (.optionalEpField "tag") .optionalScalar]
      timeout := none
      rateLimit := none }
  auth := []

/-- Two pages asked for. -/
def listingValues : PolicyValues where
  texts := ⟨fun _ => none, fun _ => none⟩
  items _ field := if field = "pages" then some ["2", "3"] else none
  expr _ := ""
  duration _ := 0

/-- A client with an `Accept`, a page and a tag of its own. -/
def listingLayers : PolicyLayers where
  client := [.setHeader HeaderName.accept (FormUrlencoded.utf8Bytes "text/plain"),
    .setQuery "page" "1", .setQuery "tag" "a"]
  scopes := []
  endpoint := [.setQuery "sort" "name", .replaceQueryValues "page" ["2", "3"],
    .removeQuery "tag"]

/-- What the endpoint is given. -/
def listingInputs : GeneratedInputs Unit Unit :=
  ⟨⟨"https", "example.com", "/items"⟩, listingLayers, ⟨[]⟩, ⟨.empty, none⟩⟩

/-- An endpoint that lists. -/
def listing : GeneratedEndpoint Unit Unit Unit where
  name := "List"
  method := .get
  response := ⟨some (FormUrlencoded.utf8Bytes "application/json"), false⟩
  pagination := false
  inputs _ := .ok listingInputs

/-- The endpoint's pages replace the client's. -/
theorem layered_policy_law_listing :
    emitPolicyLayers ⟨"List", .get⟩ listingValues (fun _ => "") listingClient listingPolicy =
        .ok listingLayers ∧
      (listing.prepareGeneratedEndpoint listingInputs).endpoint.policy.query =
        [("sort", "name"), ("page", "2"), ("page", "3")] ∧
      (listing.prepareGeneratedEndpoint listingInputs).endpoint.policy.headers.getAll
        HeaderName.accept = [FormUrlencoded.utf8Bytes "application/json"] := by
  have hemitted : emitPolicyLayers ⟨"List", .get⟩ listingValues (fun _ => "") listingClient
      listingPolicy = .ok listingLayers := by decide +kernel
  have hroute : Routed "https://example.com/" listingInputs.route :=
    ⟨.https, "example.com", HostParts.default, ⟨"List", .get⟩, by decide +kernel, rfl, rfl, rfl⟩
  obtain ⟨hquery, _, _, _, haccept, _⟩ := layered_policy_law DnsUrl.lawfulQuery listing
    listingInputs (emitPolicyLayers_directives hemitted) hroute
  refine ⟨hemitted, hquery.trans (by decide), ?_⟩
  rw [haccept _ (by decide) rfl]
  rfl

end Concord.Sema
