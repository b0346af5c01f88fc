import Concord.Sema.Facade

/-!
# Concord.Sema.Resolve

Resolution of an API declaration as a whole
(`concord_macros/src/sema/mod.rs`).
-/

namespace Concord.Sema

/-! ## the client -/

/-- The variables of a `vars` or `secret` block: the map and the list. -/
def declareClientVars (vars : VarMap) (out : List VarInfo) :
    List VarInfo → Result (VarMap × List VarInfo)
  | [] => .ok (vars, out)
  | decl :: decls => do
    let vars' ← upsertVar vars decl
    if (vars decl.rust).isSome then declareClientVars vars' out decls
    else
      match vars' decl.rust with
      | none =>
        fail "internal resolver error: inserted client var missing from resolution map"
      | some resolved => declareClientVars vars' (out ++ [resolved]) decls

/-- `collect_endpoint_output_types`. -/
def collectEndpointOutputTypes : NormItems → Nat → List Ident → EndpointOutputs →
    Result EndpointOutputs
  | .nil, _, _, out => .ok out
  | .layer layer items rest, scopeDepth, scopeStack, out =>
    match layer.scopeName with
    | some name => do
      checkDslScopeDepth (scopeDepth + 1)
      let out ← collectEndpointOutputTypes items (scopeDepth + 1) (scopeStack ++ [name]) out
      collectEndpointOutputTypes rest scopeDepth scopeStack out
    | none => do
      let out ← collectEndpointOutputTypes items scopeDepth scopeStack out
      collectEndpointOutputTypes rest scopeDepth scopeStack out
  | .endpoint endpoint rest, scopeDepth, scopeStack, out => do
    let key : EndpointTargetIr := ⟨scopeStack, endpoint.name⟩
    if (out.lookup key).isSome then fail ("duplicate endpoint `" ++ key.displayString ++ "`")
    let responseIo ← classifyHttpResponseIo endpoint.response
    collectEndpointOutputTypes rest scopeDepth scopeStack
      (out ++ [(key, responsePublicOutputTy responseIo)])

/-- What resolution finds out about the client before it walks the items. -/
structure ClientResolved where
  vars : List VarInfo
  authVars : List VarInfo
  policy : PolicyBlocksResolved
  ctx : WalkItemsCtx

/-- The part of `resolve` before the walk. -/
def resolveClient (client : RawClient) (items : NormItems) : Result ClientResolved := do
  let (clientVars, vars) ← declareClientVars .empty [] (client.vars.getD [])
  let (authVarsMap, authVars) ← declareClientVars .empty [] (client.authVars.getD [])
  let endpointOutputs ← collectEndpointOutputTypes items 0 [] []
  let credentials ← analyzeAuthCredentials client.auth authVarsMap endpointOutputs
  let rateLimitProfiles ← resolveRateLimitProfiles client.rateLimit
  let profiles ← resolveProfiles client.profiles
  validateProfileUsesUniqueAtSite client.defaultProfileUses
  let defaultProfile ← resolveProfileUses client.defaultProfileUses profiles
  let defaultProfileRateLimit ←
    resolveProfileRateLimitSpecs rateLimitProfiles ⟨.empty, none, .clientBase⟩
      defaultProfile.rateLimitSpecs none
  let clientAuth ← resolveAuthRequirements (defaultProfile.authUses ++ client.authUses)
    credentials .client
  let policy ← resolvePolicyBlocks client.policy .client clientVars none
  let explicitDefaultRateLimit ← resolveClientRateLimit client.rateLimit rateLimitProfiles
  .ok
    { vars := vars
      authVars := authVars
      policy := { policy with
        rateLimit := mergeRateLimitResolved defaultProfileRateLimit explicitDefaultRateLimit }
      ctx :=
        { clientVars := clientVars
          authCredentials := credentials
          clientAuth := clientAuth
          clientDefaultProfileNames := profileUseNames client.defaultProfileUses
          rateLimitProfiles := rateLimitProfiles
          profiles := profiles } }

/-! ## the pipeline -/

/-- The resolved API, before the check of its public names. -/
def resolveItems (norm : NormApiTree) : Result ResolvedApi := do
  let client ← resolveClient norm.client norm.items
  let walked ← walkItems client.ctx norm.items 0 .init
  .ok
    { clientName := norm.client.name
      scheme := norm.client.scheme
      domain := norm.client.host
      clientVars := client.vars
      clientAuthVars := client.authVars
      clientAuthCredentials := client.ctx.authCredentials
      clientPolicy := client.policy
      rateLimitResponsePolicy := norm.client.rateLimit.bind (·.responsePolicy)
      endpoints := walked.endpoints }

structure ResolvedApiPipeline where
  api : ResolvedApi
  facadeIr : FacadeIr
  deriving DecidableEq, Repr

def resolve (toUppercase : Char → List Char) (norm : NormApiTree) :
    Result ResolvedApiPipeline := do
  let api ← resolveItems norm
  let facadeIr := buildFacadeIr toUppercase api
  validateGeneratedPublicApi toUppercase api facadeIr
  .ok ⟨api, facadeIr⟩

/-- `analyze_pipeline`. -/
def analyzePipeline (toUppercase : Char → List Char) (ast : RawApi) :
    Result ResolvedApiPipeline := do
  let norm ← normalizeApi ast
  resolve toUppercase norm

/-- The API of an accepted declaration is what its items resolve to. -/
theorem analyzePipeline_eq_ok {toUppercase : Char → List Char} {ast : RawApi}
    {pipeline : ResolvedApiPipeline} (h : analyzePipeline toUppercase ast = .ok pipeline) :
    ∃ norm, normalizeApi ast = .ok norm ∧ resolveItems norm = .ok pipeline.api ∧
      pipeline.facadeIr = buildFacadeIr toUppercase pipeline.api ∧
      validateGeneratedPublicApi toUppercase pipeline.api pipeline.facadeIr = .ok () := by
  unfold analyzePipeline at h
  obtain ⟨norm, hnorm, hresolve⟩ := Results.bind_eq_ok_iff.mp h
  unfold resolve at hresolve
  obtain ⟨api, hapi, hrest⟩ := Results.bind_eq_ok_iff.mp hresolve
  obtain ⟨_, hvalid, hok⟩ := Results.bind_eq_ok_iff.mp hrest
  cases hok
  exact ⟨norm, hnorm, hapi, rfl, hvalid⟩

/-! ## small declarations -/

/-- A client that declares nothing. -/
def RawClient.bare (name : Ident) : RawClient where
  name := name
  scheme := .https
  host := "example.com"
  policy := .default
  vars := none
  authVars := none
  auth := none
  authUses := []
  defaultProfileUses := []
  rateLimit := none
  profiles := none

/-- A `GET` endpoint that declares nothing but its response, a `Json<T>`. -/
def RawEndpoint.bare (name : Ident) : RawEndpoint where
  method := "GET"
  name := name
  alias_ := none
  route := ⟨[]⟩
  params := []
  policy := .default
  profileUses := []
  authUses := []
  rateLimit := none
  rateLimitKeys := []
  paginate := none
  body := none
  response := ⟨.path none false [⟨"Json", .none⟩], "Json", .other "T", [.other "T"], true⟩

/-- A scope that declares nothing but its parameters. -/
def RawScope.bare (name : Ident) (params : List VarInfo) : RawScope where
  scopeName := some name
  hostRoute := none
  pathRoute := none
  params := params
  policy := .default
  profileUses := []
  authUses := []
  rateLimit := none
  rateLimitKeys := []

/-- `char::to_uppercase` of the characters of these declarations. -/
def asciiUppercase (c : Char) : List Char := [c.toUpper]

end Concord.Sema
