import Concord.Sema.Resolve

/-!
# Concord.Sema.Inheritance

Inheritance over the tree of scopes.

The direct definition goes down the tree as it is written and hands to each
scope and endpoint what it inherits.  The resolver splits scopes into layers,
keeps the layers in a list and walks it with a stack of positions; it gives
the same endpoints.
-/

namespace Concord.Sema

/-! ## the direct definition -/

/-- What a place in the tree inherits: everything of the client, then of the
enclosing scopes from the outermost to the innermost. -/
structure Inherited where
  scopeModules : List Ident
  facadeParamGroups : List (List VarInfo)
  decls : List VarInfo
  keyBindings : List RateLimitKeyBindingResolved
  hostLabels : List PrefixPiece
  pathPieces : List PathPiece
  policies : List PolicyBlocksResolved
  auth : List AuthUseIr
  profileNames : List Ident

/-- What the top of the tree inherits. -/
def Inherited.ofClient (cx : WalkItemsCtx) : Inherited where
  scopeModules := []
  facadeParamGroups := []
  decls := []
  keyBindings := []
  hostLabels := []
  pathPieces := []
  policies := []
  auth := cx.clientAuth
  profileNames := cx.clientDefaultProfileNames

/-- The keys visible in a scope: inner bindings shadow outer ones. -/
def Inherited.visibleKeys (inh : Inherited) (own : List RateLimitKeyBindingResolved) : KeyMap :=
  Keyed.last RateLimitKeyBindingResolved.name (inh.keyBindings ++ own)

/-- The pieces of a route that may be missing. -/
def directRoute {P : Type} (resolve : RouteExpr → Result (List P)) :
    Option RouteExpr → Result (List P)
  | none => .ok []
  | some route => resolve route

/-- What a scope declares, its routes apart. -/
structure ScopeFacts where
  keyBindings : List RateLimitKeyBindingResolved
  policy : PolicyBlocksResolved
  auth : List AuthUseIr

/-- What a scope adds besides its route. -/
def directScopeFacts (cx : WalkItemsCtx) (inh : Inherited) (vars : VarMap) (id : Nat)
    (scope : RawScope) : Result ScopeFacts := do
  let keyBindings ← resolveRateLimitKeyBindings scope.params [] scope.rateLimitKeys
  validateProfileUsesUniqueAtSite scope.profileUses
  let profile ← resolveProfileUses scope.profileUses cx.profiles
  let policy ← resolvePolicyBlocks scope.policy .layer cx.clientVars (some vars)
  let site : AttachmentSite := ⟨inh.visibleKeys keyBindings, none, .layer⟩
  let profileRateLimit ←
    resolveProfileRateLimitSpecs cx.rateLimitProfiles site profile.rateLimitSpecs none
  let explicitRateLimit ← resolveRateLimitSpec scope.rateLimit cx.rateLimitProfiles site
  let auth ← resolveAuthRequirements (profile.authUses ++ scope.authUses) cx.authCredentials
    (.scope id)
  .ok
    { keyBindings := keyBindings
      policy := { policy with
        rateLimit := mergeRateLimitResolved profileRateLimit explicitRateLimit }
      auth := auth }

/-- A scope with a host and a path. -/
def RawScope.hasBothRoutes (scope : RawScope) : Bool :=
  scope.hostRoute.isSome && scope.pathRoute.isSome

/-- What the items of a scope inherit, from what the scope inherits and
declares. -/
def Inherited.enter (inh : Inherited) (scope : RawScope) (hostLabels : List PrefixPiece)
    (pathPieces : List PathPiece) (facts : ScopeFacts) : Inherited where
  scopeModules := inh.scopeModules ++ scope.scopeName.toList
  facadeParamGroups :=
    inh.facadeParamGroups ++ if scope.scopeName.isSome then [scope.params] else []
  decls := inh.decls ++ scope.params
  keyBindings := inh.keyBindings ++ facts.keyBindings
  hostLabels := inh.hostLabels ++ hostLabels
  pathPieces := inh.pathPieces ++ pathPieces
  -- a scope with two routes has a second layer, with no policy of its own
  policies := inh.policies ++ facts.policy :: if scope.hasBothRoutes then [.default] else []
  auth := inh.auth ++ facts.auth
  profileNames := inh.profileNames ++ profileUseNames scope.profileUses

/-- The parameters a scope sees: those of the enclosing scopes and its own,
where inner ones shadow outer ones. -/
def Inherited.scopeVars (inh : Inherited) (scope : RawScope) : VarMap :=
  Keyed.last VarInfo.rust (inh.decls ++ scope.params)

/-- A scope: what its items inherit. -/
def directScope (cx : WalkItemsCtx) (inh : Inherited) (id : Nat) (scope : RawScope) :
    Result Inherited := do
  let vars := inh.scopeVars scope
  let hostLabels ← directRoute (resolvePrefixRoute cx.clientVars vars) scope.hostRoute
  let pathPieces ← directRoute (resolvePathRoute cx.clientVars vars) scope.pathRoute
  let facts ← directScopeFacts cx inh vars id scope
  .ok (inh.enter scope hostLabels pathPieces facts)

/-- The authentication requirements of an endpoint: the inherited ones, then
its own. -/
def directEndpointAuth (cx : WalkItemsCtx) (inh : Inherited) (target : EndpointTargetIr)
    (uses : List AuthUseKind) : Result (List AuthRequirementIr) := do
  let own ← resolveAuthRequirements uses cx.authCredentials .endpoint
  let auth := materializeAuthRequirements (inh.auth ++ own) target.displayString 0
  validateFinalAuthMaterializationTargets target.displayString [] auth
  match selfAcquired cx.authCredentials target auth with
  | some credential =>
    fail ("credential `" ++ credential.name ++ "` cannot acquire via endpoint `" ++
      target.endpoint ++ "` because the endpoint uses that credential")
  | none => .ok auth

/-- An endpoint.  Of the parameters declared around it and by itself, the
first one of each name is kept, and the later ones must agree with it. -/
def directEndpoint (cx : WalkItemsCtx) (inh : Inherited) (ed : RawEndpoint) :
    Result ResolvedEndpoint :=
  let decls := inh.decls ++ ed.params
  let vars : VarMap := Keyed.first VarInfo.rust decls
  let kept := Keyed.keepFirst VarInfo.rust decls
  if ¬ Consistent decls then fail "var redefined"
  else do
    let routePieces ← ed.route.atoms.mapM (resolveEndpointAtom cx.clientVars vars)
    let policy ← resolvePolicyBlocks ed.policy .endpoint cx.clientVars (some vars)
    validateProfileUsesUniqueAtSite ed.profileUses
    let profile ← resolveProfileUses ed.profileUses cx.profiles
    let keyBindings ← resolveRateLimitKeyBindings kept [] ed.rateLimitKeys
    let site : AttachmentSite := ⟨inh.visibleKeys keyBindings, some vars, .endpoint⟩
    let profileRateLimit ←
      resolveProfileRateLimitSpecs cx.rateLimitProfiles site profile.rateLimitSpecs none
    let explicitRateLimit ← resolveRateLimitSpec ed.rateLimit cx.rateLimitProfiles site
    let auth ← directEndpointAuth cx inh ⟨inh.scopeModules, ed.name⟩
      (profile.authUses ++ ed.authUses)
    let io ← resolveEndpointIo ed
    let paginate ← resolveOptionalPaginate ed.paginate vars
    .ok
      { name := ed.name
        alias_ := ed.alias_
        scopeModules := inh.scopeModules
        facadeParamGroups := inh.facadeParamGroups
        method := ed.method
        prefixPieces := inh.hostLabels
        scopePathPieces := inh.pathPieces
        routePieces := routePieces
        vars := kept
        io := io
        policy :=
          { scopes := inh.policies
            endpoint := { policy with
              rateLimit := mergeRateLimitResolved profileRateLimit explicitRateLimit }
            auth := auth }
        profileDoc := Keyed.keepFirst id (inh.profileNames ++ profileUseNames ed.profileUses)
        paginate := paginate }

/-- The layers of a scope. -/
def RawScope.layerCount (scope : RawScope) : Nat := if scope.hasBothRoutes then 2 else 1

/-- The endpoints of a list of items in source order.  Scopes are numbered as
they are met, by their layers. -/
def directItems (cx : WalkItemsCtx) : RawItems → Inherited → (depth next : Nat) →
    Result (List ResolvedEndpoint × Nat)
  | .nil, _, _, next => .ok ([], next)
  | .layer scope items rest, inh, depth, next => do
    checkDslScopeDepth (depth + 1)
    let inner ← directScope cx inh next scope
    let (inside, next) ← directItems cx items inner (depth + 1) (next + scope.layerCount)
    let (others, next) ← directItems cx rest inh depth next
    .ok (inside ++ others, next)
  | .endpoint ed rest, inh, depth, next => do
    let endpoint ← directEndpoint cx inh ed
    let (others, next) ← directItems cx rest inh depth next
    .ok (endpoint :: others, next)

/-! ## layers -/

/-- What comes down through a list of layers. -/
def Inherited.ofLayers (cx : WalkItemsCtx) (layers : List LayerIr) : Inherited where
  scopeModules := Sema.scopeModules layers
  facadeParamGroups := Sema.facadeParamGroups layers
  decls := layers.flatMap (·.decls)
  keyBindings := layers.flatMap (·.rateLimitKeyBindings)
  hostLabels := (layers.filter (·.kind = .prefix_)).flatMap (·.prefixPieces)
  pathPieces := (layers.filter (·.kind = .path)).flatMap (·.pathPieces)
  policies := layers.map (·.policy)
  auth := cx.clientAuth ++ layers.flatMap (·.auth)
  profileNames := cx.clientDefaultProfileNames ++ layers.flatMap (·.profileNames)

/-- Below no scope an endpoint inherits from the client alone. -/
theorem Inherited.ofLayers_nil (cx : WalkItemsCtx) :
    Inherited.ofLayers cx [] = Inherited.ofClient cx := by
  simp [Inherited.ofLayers, Inherited.ofClient, Sema.scopeModules, Sema.facadeParamGroups]

/-- The keys that are visible are those of the ancestry and then the scope's own. -/
theorem visibleKeys_ofLayers (cx : WalkItemsCtx) (layers : List LayerIr)
    (own : List RateLimitKeyBindingResolved) :
    own.foldl KeyMap.insert (rateLimitKeyBindingsForAncestry layers) =
      (Inherited.ofLayers cx layers).visibleKeys own := by
  unfold rateLimitKeyBindingsForAncestry Inherited.visibleKeys Inherited.ofLayers
  rw [KeyMap.insert_eq, KeyMap.empty_eq, Keyed.foldl_insert, Keyed.foldl_insert, List.nil_append]

/-- Of the variables of the layers and the scope, the last declaration counts. -/
theorem layerVars_ofLayers (layers : List LayerIr) (params : List VarInfo) :
    params.foldl VarMap.insert ((layers.flatMap (·.decls)).foldl VarMap.insert .empty) =
      Keyed.last VarInfo.rust (layers.flatMap (·.decls) ++ params) := by
  rw [VarMap.insert_eq, VarMap.empty_eq, Keyed.foldl_insert, Keyed.foldl_insert, List.nil_append]

/-- The auth of an endpoint depends on its layers only through what they hand down. -/
theorem resolveEndpointAuth_eq (cx : WalkItemsCtx) (layers : List LayerIr)
    (target : EndpointTargetIr) (uses : List AuthUseKind) :
    resolveEndpointAuth cx layers target uses =
      directEndpointAuth cx (Inherited.ofLayers cx layers) target uses := rfl

/-- An endpoint below a list of layers is analyzed as what comes down through
them says. -/
theorem analyzeEndpoint_toOption (cx : WalkItemsCtx) (layers : List LayerIr) (ed : RawEndpoint) :
    (analyzeEndpoint cx layers ed).toOption =
      (directEndpoint cx (Inherited.ofLayers cx layers) ed).toOption := by
  by_cases hconsistent : Consistent (layers.flatMap (·.decls) ++ ed.params)
  · have hregistry := VarRegistry.foldlM_upsert.mpr
      ⟨hconsistent, rfl⟩
    unfold analyzeEndpoint directEndpoint
    rw [hregistry, Results.ok_bind]
    simp only [visibleKeys_ofLayers cx layers, VarRegistry.decls_of, resolveEndpointAuth_eq]
    have hdirect : ¬ ¬ Consistent ((Inherited.ofLayers cx layers).decls ++ ed.params) :=
      fun h => h hconsistent
    rw [if_neg hdirect]
    rfl
  · have hfails : ((layers.flatMap (·.decls) ++ ed.params).foldlM VarRegistry.upsert
        .empty).toOption = none := by
      cases hregistry : (layers.flatMap (·.decls) ++ ed.params).foldlM VarRegistry.upsert .empty with
      | error e => rfl
      | ok registry => exact absurd (VarRegistry.foldlM_upsert.mp hregistry).1 hconsistent
    unfold analyzeEndpoint directEndpoint
    rw [Results.toOption_bind, hfails]
    have hdirect : ¬ Consistent ((Inherited.ofLayers cx layers).decls ++ ed.params) := hconsistent
    simp only [if_pos hdirect]
    rfl

/-! ## scopes and their layers -/

/-- A scope is entered exactly if both of its routes and its facts resolve. -/
theorem directScope_eq_ok_iff {cx : WalkItemsCtx} {inh inh' : Inherited} {id : Nat}
    {scope : RawScope} :
    directScope cx inh id scope = .ok inh' ↔
      ∃ hostLabels pathPieces facts,
        directRoute (resolvePrefixRoute cx.clientVars (inh.scopeVars scope)) scope.hostRoute =
          .ok hostLabels ∧
        directRoute (resolvePathRoute cx.clientVars (inh.scopeVars scope)) scope.pathRoute =
          .ok pathPieces ∧
        directScopeFacts cx inh (inh.scopeVars scope) id scope = .ok facts ∧
        inh' = inh.enter scope hostLabels pathPieces facts := by
  unfold directScope
  simp only [Results.bind_eq_ok_iff, Except.ok.injEq]
  constructor
  · intro h
    obtain ⟨host, hhost, path, hpath, facts, hfacts, heq⟩ := h
    exact ⟨host, path, facts, hhost, hpath, hfacts, heq.symm⟩
  · intro h
    obtain ⟨host, path, facts, hhost, hpath, hfacts, heq⟩ := h
    exact ⟨host, hhost, path, hpath, facts, hfacts, heq.symm⟩

/-- The layer of a scope that carries what the scope declares. -/
def RawScope.layer (scope : RawScope) (kind : RouteLayerKind)
    (pieces : List PrefixPiece × List PathPiece) (facts : ScopeFacts) : LayerIr where
  scopeName := scope.scopeName
  kind := kind
  prefixPieces := pieces.1
  pathPieces := pieces.2
  policy := facts.policy
  auth := facts.auth
  rateLimitKeyBindings := facts.keyBindings
  profileNames := profileUseNames scope.profileUses
  decls := scope.params

/-- The second layer of a scope with two routes. -/
def secondLayer (pathPieces : List PathPiece) : LayerIr where
  scopeName := none
  kind := .path
  prefixPieces := []
  pathPieces := pathPieces
  policy := .default
  auth := []
  rateLimitKeyBindings := []
  profileNames := []
  decls := []

/-- A layer that carries the facts of its scope. -/
theorem analyzeLayer_norm {cx : WalkItemsCtx} {layers : List LayerIr} {id : Nat}
    {scope : RawScope} {kind : RouteLayerKind} {route : RouteExpr} {layer : LayerIr} :
    analyzeLayer cx layers id (scope.norm kind route) = .ok layer ↔
      ∃ pieces facts,
        analyzeLayerRoute (scope.norm kind route) cx.clientVars
          ((Inherited.ofLayers cx layers).scopeVars scope) = .ok pieces ∧
        directScopeFacts cx (Inherited.ofLayers cx layers)
          ((Inherited.ofLayers cx layers).scopeVars scope) id scope = .ok facts ∧
        layer = scope.layer kind pieces facts := by
  have hvars : (Inherited.ofLayers cx layers).scopeVars scope =
      Keyed.last VarInfo.rust (layers.flatMap (·.decls) ++ scope.params) := rfl
  rw [hvars]
  unfold analyzeLayer directScopeFacts
  simp only [layerVars_ofLayers, visibleKeys_ofLayers cx layers, Results.bind_eq_ok_iff,
    Except.ok.injEq]
  constructor
  · intro h
    obtain ⟨pieces, hpieces, keys, hkeys, _, hunique, profile, hprofile, policy, hpolicy,
      profileLimit, hprofileLimit, explicitLimit, hexplicitLimit, auth, hauth, heq⟩ := h
    exact ⟨pieces, _, hpieces, ⟨keys, hkeys, (), hunique, profile, hprofile, policy, hpolicy,
      profileLimit, hprofileLimit, explicitLimit, hexplicitLimit, auth, hauth, rfl⟩, heq.symm⟩
  · intro h
    obtain ⟨pieces, facts, hpieces, ⟨keys, hkeys, _, hunique, profile, hprofile, policy, hpolicy,
      profileLimit, hprofileLimit, explicitLimit, hexplicitLimit, auth, hauth, hfacts⟩, heq⟩ := h
    refine ⟨pieces, hpieces, keys, hkeys, (), hunique, profile, hprofile, policy, hpolicy,
      profileLimit, hprofileLimit, explicitLimit, hexplicitLimit, auth, hauth, ?_⟩
    rw [heq, ← hfacts]
    rfl

/-- The second layer of a scope with a host and a path carries the path alone. -/
theorem analyzeLayer_pathLayer {cx : WalkItemsCtx} {layers : List LayerIr} {id : Nat}
    {path : RouteExpr} {layer : LayerIr} :
    analyzeLayer cx layers id (pathLayer path) = .ok layer ↔
      ∃ pathPieces,
        resolvePathRoute cx.clientVars (Keyed.last VarInfo.rust (layers.flatMap (·.decls))) path =
          .ok pathPieces ∧
        layer = secondLayer pathPieces := by
  have hrest : analyzeLayer cx layers id (pathLayer path) =
      (resolvePathRoute cx.clientVars (Keyed.last VarInfo.rust (layers.flatMap (·.decls))) path >>=
        fun pieces => .ok (secondLayer pieces)) := by
    have hvars := layerVars_ofLayers layers []
    rw [List.append_nil, List.foldl_nil] at hvars
    unfold analyzeLayer
    simp only [pathLayer, List.foldl_nil, hvars, analyzeLayerRoute, bind_assoc]
    rfl
  rw [hrest]
  simp only [Results.bind_eq_ok_iff, Except.ok.injEq]
  constructor
  · intro h
    obtain ⟨pieces, hpieces, heq⟩ := h
    exact ⟨pieces, hpieces, heq.symm⟩
  · intro h
    obtain ⟨pieces, hpieces, heq⟩ := h
    exact ⟨pieces, hpieces, heq.symm⟩

/-- The layers the walk makes of a scope. -/
def analyzeScope (cx : WalkItemsCtx) (layers : List LayerIr) (id : Nat) (scope : RawScope) :
    Result (List LayerIr) :=
  match scope.hostRoute, scope.pathRoute with
  | some host, some path => do
    let first ← analyzeLayer cx layers id (scope.norm .prefix_ host)
    let second ← analyzeLayer cx (layers ++ [first]) (id + 1) (pathLayer path)
    .ok [first, second]
  | some host, none => do
    let layer ← analyzeLayer cx layers id (scope.norm .prefix_ host)
    .ok [layer]
  | none, some path => do
    let layer ← analyzeLayer cx layers id (scope.norm .path path)
    .ok [layer]
  | none, none => do
    let layer ← analyzeLayer cx layers id (scope.norm .path ⟨[]⟩)
    .ok [layer]

/-- The layers of a scope from its pieces. -/
def RawScope.layers (scope : RawScope) (hostLabels : List PrefixPiece)
    (pathPieces : List PathPiece) (facts : ScopeFacts) : List LayerIr :=
  if scope.hasBothRoutes then
    [scope.layer .prefix_ (hostLabels, []) facts, secondLayer pathPieces]
  else if scope.hostRoute.isSome then [scope.layer .prefix_ (hostLabels, []) facts]
  else [scope.layer .path ([], pathPieces) facts]

/-- The layer of a host. -/
theorem analyzeLayer_host {cx : WalkItemsCtx} {layers : List LayerIr} {id : Nat}
    {scope : RawScope} {route : RouteExpr} {layer : LayerIr} :
    analyzeLayer cx layers id (scope.norm .prefix_ route) = .ok layer ↔
      ∃ hostLabels facts,
        resolvePrefixRoute cx.clientVars ((Inherited.ofLayers cx layers).scopeVars scope) route =
          .ok hostLabels ∧
        directScopeFacts cx (Inherited.ofLayers cx layers)
          ((Inherited.ofLayers cx layers).scopeVars scope) id scope = .ok facts ∧
        layer = scope.layer .prefix_ (hostLabels, []) facts := by
  rw [analyzeLayer_norm]
  unfold analyzeLayerRoute
  simp only [RawScope.norm, Results.bind_eq_ok_iff, Except.ok.injEq]
  constructor
  · intro h
    obtain ⟨_, facts, ⟨hostLabels, hhost, rfl⟩, hfacts, hlayer⟩ := h
    exact ⟨hostLabels, facts, hhost, hfacts, hlayer⟩
  · intro h
    obtain ⟨hostLabels, facts, hhost, hfacts, hlayer⟩ := h
    exact ⟨_, facts, ⟨hostLabels, hhost, rfl⟩, hfacts, hlayer⟩

/-- The layer of a path. -/
theorem analyzeLayer_path {cx : WalkItemsCtx} {layers : List LayerIr} {id : Nat}
    {scope : RawScope} {route : RouteExpr} {layer : LayerIr} :
    analyzeLayer cx layers id (scope.norm .path route) = .ok layer ↔
      ∃ pathPieces facts,
        resolvePathRoute cx.clientVars ((Inherited.ofLayers cx layers).scopeVars scope) route =
          .ok pathPieces ∧
        directScopeFacts cx (Inherited.ofLayers cx layers)
          ((Inherited.ofLayers cx layers).scopeVars scope) id scope = .ok facts ∧
        layer = scope.layer .path ([], pathPieces) facts := by
  rw [analyzeLayer_norm]
  unfold analyzeLayerRoute
  simp only [RawScope.norm, Results.bind_eq_ok_iff, Except.ok.injEq]
  constructor
  · intro h
    obtain ⟨_, facts, ⟨pathPieces, hpath, rfl⟩, hfacts, hlayer⟩ := h
    exact ⟨pathPieces, facts, hpath, hfacts, hlayer⟩
  · intro h
    obtain ⟨pathPieces, facts, hpath, hfacts, hlayer⟩ := h
    exact ⟨_, facts, ⟨pathPieces, hpath, rfl⟩, hfacts, hlayer⟩

/-- A scope with a host and a path is two layers. -/
theorem layers_of_both {scope : RawScope} {host path : RouteExpr}
    (hhost : scope.hostRoute = some host) (hpath : scope.pathRoute = some path)
    (hostLabels : List PrefixPiece) (pathPieces : List PathPiece) (facts : ScopeFacts) :
    scope.layers hostLabels pathPieces facts =
      [scope.layer .prefix_ (hostLabels, []) facts, secondLayer pathPieces] := by
  simp [RawScope.layers, RawScope.hasBothRoutes, hhost, hpath]

/-- A scope with a host alone is one layer. -/
theorem layers_of_host {scope : RawScope} {host : RouteExpr}
    (hhost : scope.hostRoute = some host) (hpath : scope.pathRoute = none)
    (hostLabels : List PrefixPiece) (pathPieces : List PathPiece) (facts : ScopeFacts) :
    scope.layers hostLabels pathPieces facts =
      [scope.layer .prefix_ (hostLabels, []) facts] := by
  simp [RawScope.layers, RawScope.hasBothRoutes, hhost, hpath]

/-- A scope without a host is one layer, of its path. -/
theorem layers_of_noHost {scope : RawScope} (hhost : scope.hostRoute = none)
    (hostLabels : List PrefixPiece) (pathPieces : List PathPiece) (facts : ScopeFacts) :
    scope.layers hostLabels pathPieces facts =
      [scope.layer .path ([], pathPieces) facts] := by
  simp [RawScope.layers, RawScope.hasBothRoutes, hhost]

/-- The walk makes layers of a scope exactly if the scope is accepted, and
they carry what it declares. -/
theorem analyzeScope_eq_ok_iff {cx : WalkItemsCtx} {layers new : List LayerIr} {id : Nat}
    {scope : RawScope} :
    analyzeScope cx layers id scope = .ok new ↔
      ∃ hostLabels pathPieces facts,
        directRoute (resolvePrefixRoute cx.clientVars
          ((Inherited.ofLayers cx layers).scopeVars scope)) scope.hostRoute = .ok hostLabels ∧
        directRoute (resolvePathRoute cx.clientVars
          ((Inherited.ofLayers cx layers).scopeVars scope)) scope.pathRoute = .ok pathPieces ∧
        directScopeFacts cx (Inherited.ofLayers cx layers)
          ((Inherited.ofLayers cx layers).scopeVars scope) id scope = .ok facts ∧
        new = scope.layers hostLabels pathPieces facts := by
  unfold analyzeScope
  cases hhost : scope.hostRoute with
  | some host =>
      cases hpath : scope.pathRoute with
      | some path =>
          simp only [Results.bind_eq_ok_iff, analyzeLayer_host, analyzeLayer_pathLayer,
            Except.ok.injEq, layers_of_both hhost hpath, directRoute]
          constructor
          · intro h
            obtain ⟨_, ⟨labels, facts, hlabels, hfacts, rfl⟩, _, ⟨pieces, hpieces, rfl⟩, hnew⟩ := h
            refine ⟨labels, pieces, facts, hlabels, ?_, hfacts, hnew.symm⟩
            simpa [RawScope.layer, Inherited.scopeVars, Inherited.ofLayers] using hpieces
          · intro h
            obtain ⟨labels, pieces, facts, hlabels, hpieces, hfacts, hnew⟩ := h
            refine ⟨_, ⟨labels, facts, hlabels, hfacts, rfl⟩, _, ⟨pieces, ?_, rfl⟩, hnew.symm⟩
            simpa [RawScope.layer, Inherited.scopeVars, Inherited.ofLayers] using hpieces
      | none =>
          simp only [Results.bind_eq_ok_iff, analyzeLayer_host, Except.ok.injEq,
            layers_of_host hhost hpath, directRoute]
          constructor
          · intro h
            obtain ⟨_, ⟨labels, facts, hlabels, hfacts, rfl⟩, hnew⟩ := h
            exact ⟨labels, [], facts, hlabels, rfl, hfacts, hnew.symm⟩
          · intro h
            obtain ⟨labels, _, facts, hlabels, _, hfacts, hnew⟩ := h
            exact ⟨_, ⟨labels, facts, hlabels, hfacts, rfl⟩, hnew.symm⟩
  | none =>
      cases hpath : scope.pathRoute with
      | some path =>
          simp only [Results.bind_eq_ok_iff, analyzeLayer_path, Except.ok.injEq,
            layers_of_noHost hhost, directRoute]
          constructor
          · intro h
            obtain ⟨_, ⟨pieces, facts, hpieces, hfacts, rfl⟩, hnew⟩ := h
            exact ⟨[], pieces, facts, rfl, hpieces, hfacts, hnew.symm⟩
          · intro h
            obtain ⟨_, pieces, facts, _, hpieces, hfacts, hnew⟩ := h
            exact ⟨_, ⟨pieces, facts, hpieces, hfacts, rfl⟩, hnew.symm⟩
      | none =>
          -- A scope without routes is a layer with an empty path.
          simp only [Results.bind_eq_ok_iff, analyzeLayer_path, Except.ok.injEq,
            layers_of_noHost hhost, directRoute]
          constructor
          · intro h
            obtain ⟨_, ⟨pieces, facts, hpieces, hfacts, rfl⟩, hnew⟩ := h
            cases hpieces
            exact ⟨[], [], facts, rfl, rfl, hfacts, hnew.symm⟩
          · intro h
            obtain ⟨_, pieces, facts, _, hpieces, hfacts, hnew⟩ := h
            cases hpieces
            exact ⟨_, ⟨[], facts, rfl, hfacts, rfl⟩, hnew.symm⟩

/-- The layers of a scope hand down what entering the scope does. -/
theorem Inherited.ofLayers_append (cx : WalkItemsCtx) (layers : List LayerIr) {scope : RawScope}
    {hostLabels : List PrefixPiece} {pathPieces : List PathPiece} (facts : ScopeFacts)
    (hhost : scope.hostRoute = none → hostLabels = [])
    (hpath : scope.pathRoute = none → pathPieces = []) :
    Inherited.ofLayers cx (layers ++ scope.layers hostLabels pathPieces facts) =
      (Inherited.ofLayers cx layers).enter scope hostLabels pathPieces facts := by
  unfold Inherited.ofLayers Inherited.enter Sema.scopeModules Sema.facadeParamGroups
  cases hhostRoute : scope.hostRoute with
  | none =>
      rw [layers_of_noHost hhostRoute]
      cases hname : scope.scopeName <;>
        simp [RawScope.layer, RawScope.hasBothRoutes, hhost hhostRoute, hhostRoute, hname]
  | some host =>
      cases hpathRoute : scope.pathRoute with
      | none =>
          rw [layers_of_host hhostRoute hpathRoute]
          cases hname : scope.scopeName <;>
            simp [RawScope.layer, RawScope.hasBothRoutes, hpath hpathRoute, hpathRoute, hname]
      | some path =>
          rw [layers_of_both hhostRoute hpathRoute]
          cases hname : scope.scopeName <;>
            simp [RawScope.layer, RawScope.hasBothRoutes, secondLayer, hhostRoute, hpathRoute,
              hname]

/-- A scope has as many layers as are counted for it. -/
theorem length_layers (scope : RawScope) (hostLabels : List PrefixPiece)
    (pathPieces : List PathPiece) (facts : ScopeFacts) :
    (scope.layers hostLabels pathPieces facts).length = scope.layerCount := by
  unfold RawScope.layers RawScope.layerCount
  split
  · rfl
  · split <;> rfl

/-- A route that is not there has no pieces. -/
theorem directRoute_none {P : Type} {resolve : RouteExpr → Result (List P)}
    {route : Option RouteExpr} {pieces : List P} (h : directRoute resolve route = .ok pieces)
    (hnone : route = none) : pieces = [] := by
  rw [hnone] at h
  exact (Except.ok.inj h).symm

/-- A scope that is analyzed in layers can be entered directly. -/
theorem directScope_of_analyzeScope {cx : WalkItemsCtx} {layers new : List LayerIr} {id : Nat}
    {scope : RawScope} (h : analyzeScope cx layers id scope = .ok new) :
    directScope cx (Inherited.ofLayers cx layers) id scope =
      .ok (Inherited.ofLayers cx (layers ++ new)) ∧ new.length = scope.layerCount := by
  obtain ⟨labels, pieces, facts, hlabels, hpieces, hfacts, hnew⟩ := analyzeScope_eq_ok_iff.mp h
  have hlayers := Inherited.ofLayers_append cx layers facts (directRoute_none hlabels)
    (directRoute_none hpieces)
  rw [hnew, hlayers, length_layers]
  exact ⟨directScope_eq_ok_iff.mpr ⟨labels, pieces, facts, hlabels, hpieces, hfacts, rfl⟩, rfl⟩

/-- A scope that can be entered directly is analyzed in layers. -/
theorem analyzeScope_of_directScope {cx : WalkItemsCtx} {layers : List LayerIr} {id : Nat}
    {scope : RawScope} {inh : Inherited}
    (h : directScope cx (Inherited.ofLayers cx layers) id scope = .ok inh) :
    ∃ new, analyzeScope cx layers id scope = .ok new := by
  obtain ⟨labels, pieces, facts, hlabels, hpieces, hfacts, _⟩ := directScope_eq_ok_iff.mp h
  exact ⟨_, analyzeScope_eq_ok_iff.mpr ⟨labels, pieces, facts, hlabels, hpieces, hfacts, rfl⟩⟩

/-! ## the arena and the stack -/

/-- A layer is found by its position. -/
theorem layerAt_eq_ok_iff {layers : List LayerIr} {id : Nat} {layer : LayerIr} :
    layerAt layers id = .ok layer ↔ layers[id]? = some layer := by
  unfold layerAt
  cases layers[id]? <;> simp

/-- An ancestry is found by the positions of its layers. -/
theorem layersAt_eq_ok_iff {layers ancestors : List LayerIr} {ancestry : List Nat} :
    layersAt layers ancestry = .ok ancestors ↔
      List.Forall₂ (fun id layer => layers[id]? = some layer) ancestry ancestors := by
  unfold layersAt
  rw [Results.mapM_eq_ok_iff]
  simp only [layerAt_eq_ok_iff]

/-- Positions keep their layer when the list grows. -/
theorem layersAt_grow {layers more ancestors : List LayerIr} {ancestry : List Nat}
    (h : layersAt layers ancestry = .ok ancestors) (hmore : layers <+: more) :
    layersAt more ancestry = .ok ancestors := by
  obtain ⟨rest, rfl⟩ := hmore
  rw [layersAt_eq_ok_iff] at h ⊢
  refine h.imp (fun id layer hid => ?_)
  have hlt : id < layers.length := (List.getElem?_eq_some_iff.mp hid).1
  rw [List.getElem?_append_left hlt, hid]

/-- The state in which the items of a scope are walked. -/
def WalkState.push (st : WalkState) (new : List LayerIr) : WalkState :=
  { st with
    layers := st.layers ++ new
    ancestry := st.ancestry ++ List.range' st.layers.length new.length }

/-- The state after an endpoint. -/
def WalkState.add (st : WalkState) (endpoint : ResolvedEndpoint) : WalkState :=
  { st with endpoints := st.endpoints ++ [endpoint] }

/-- The state after the layers of a scope are popped. -/
def WalkState.pop (st : WalkState) (count : Nat) : WalkState :=
  { st with ancestry := List.dropLast^[count] st.ancestry }

/-- New layers end the ancestry. -/
theorem layersAt_push {st : WalkState} {ancestors : List LayerIr}
    (h : layersAt st.layers st.ancestry = .ok ancestors) (new : List LayerIr) :
    layersAt (st.push new).layers (st.push new).ancestry = .ok (ancestors ++ new) := by
  have hgrown := layersAt_eq_ok_iff.mp (layersAt_grow h (List.prefix_append st.layers new))
  refine layersAt_eq_ok_iff.mpr (List.rel_append hgrown ?_)
  rw [List.forall₂_iff_get]
  refine ⟨by simp, fun i hi hi' => ?_⟩
  simp [List.getElem?_append_right]

/-- The depth of the items of a scope, in named scopes. -/
def RawScope.innerDepth (scope : RawScope) (depth : Nat) : Nat :=
  if scope.scopeName.isSome then depth + 1 else depth

/-- The check of the depth is a comparison. -/
theorem checkDslScopeDepth_eq_ok_iff {depth : Nat} :
    checkDslScopeDepth depth = .ok () ↔ depth ≤ maxDslScopeDepth := by
  unfold checkDslScopeDepth
  split
  · simp only [fail, reduceCtorEq, false_iff]
    omega
  · simp only [true_iff]
    omega

/-- One layer of the walk. -/
theorem walkItems_layer {cx : WalkItemsCtx} {ld : NormScope} {items rest : NormItems}
    {depth inside : Nat} {st st' : WalkState} {ancestors : List LayerIr}
    (hancestors : layersAt st.layers st.ancestry = .ok ancestors)
    (hinside : (if ld.scopeName.isSome then depth + 1 else depth) = inside)
    (hdepth : inside ≤ maxDslScopeDepth) :
    walkItems cx (.layer ld items rest) depth st = .ok st' ↔
      ∃ new inner, (∃ layer, analyzeLayer cx ancestors st.layers.length ld = .ok layer ∧
          [layer] = new) ∧
        walkItems cx items inside (st.push new) = .ok inner ∧
        walkItems cx rest depth (inner.pop new.length) = .ok st' := by
  rw [walkItems, hinside]
  simp only [Results.bind_eq_ok_iff]
  constructor
  · intro h
    obtain ⟨_, _, ancestors', hancestors', layer, hlayer, inner, hinner, hrest⟩ := h
    rw [hancestors] at hancestors'
    cases hancestors'
    exact ⟨[layer], inner, ⟨layer, hlayer, rfl⟩, hinner, hrest⟩
  · intro h
    obtain ⟨_, inner, ⟨layer, hlayer, rfl⟩, hinner, hrest⟩ := h
    exact ⟨(), checkDslScopeDepth_eq_ok_iff.mpr hdepth, ancestors, hancestors, layer, hlayer,
      inner, hinner, hrest⟩

theorem WalkState.push_push (st : WalkState) (first second : LayerIr) :
    (st.push [first]).push [second] = st.push [first, second] := by
  simp [WalkState.push, List.range'_succ]

/-- A scope of the walk: its layers are pushed, its items walked, its layers
popped. -/
theorem walkItems_scope {cx : WalkItemsCtx} {scope : RawScope} {items rest : NormItems}
    {depth : Nat} {st st' : WalkState} {ancestors : List LayerIr}
    (hancestors : layersAt st.layers st.ancestry = .ok ancestors)
    (hdepth : scope.innerDepth depth ≤ maxDslScopeDepth) :
    walkItems cx (normalizeScope scope items rest) depth st = .ok st' ↔
      ∃ new inner, analyzeScope cx ancestors st.layers.length scope = .ok new ∧
        walkItems cx items (scope.innerDepth depth) (st.push new) = .ok inner ∧
        walkItems cx rest depth (inner.pop new.length) = .ok st' := by
  have hinside (kind : RouteLayerKind) (route : RouteExpr) :
      (if (scope.norm kind route).scopeName.isSome then depth + 1 else depth) =
        scope.innerDepth depth := rfl
  unfold normalizeScope analyzeScope
  cases hhost : scope.hostRoute with
  | some host =>
      cases hpath : scope.pathRoute with
      | some path =>
          have hsame : (if (pathLayer path).scopeName.isSome then scope.innerDepth depth + 1
              else scope.innerDepth depth) = scope.innerDepth depth := rfl
          simp only [Results.bind_eq_ok_iff, Except.ok.injEq]
          rw [walkItems_layer hancestors (hinside .prefix_ host) hdepth]
          constructor
          · intro h
            obtain ⟨_, outer, ⟨first, hfirst, rfl⟩, houter, hrest⟩ := h
            rw [walkItems_layer (layersAt_push hancestors [first]) hsame hdepth] at houter
            obtain ⟨_, inner, ⟨second, hsecond, rfl⟩, hinner, hnil⟩ := houter
            cases hnil
            rw [WalkState.push_push] at hinner
            refine ⟨[first, second], inner, ⟨first, hfirst, second, ?_, rfl⟩, hinner, hrest⟩
            simpa [WalkState.push] using hsecond
          · intro h
            obtain ⟨_, inner, ⟨first, hfirst, second, hsecond, rfl⟩, hinner, hrest⟩ := h
            rw [← WalkState.push_push] at hinner
            refine ⟨[first], inner.pop 1, ⟨first, hfirst, rfl⟩, ?_, hrest⟩
            rw [walkItems_layer (layersAt_push hancestors [first]) hsame hdepth]
            refine ⟨[second], inner, ⟨second, ?_, rfl⟩, hinner, rfl⟩
            simpa [WalkState.push] using hsecond
      | none =>
          simp only [Results.bind_eq_ok_iff, Except.ok.injEq]
          exact walkItems_layer hancestors (hinside .prefix_ host) hdepth
  | none =>
      cases hpath : scope.pathRoute with
      | some path =>
          simp only [Results.bind_eq_ok_iff, Except.ok.injEq]
          exact walkItems_layer hancestors (hinside .path path) hdepth
      | none =>
          simp only [Results.bind_eq_ok_iff, Except.ok.injEq]
          exact walkItems_layer hancestors (hinside .path ⟨[]⟩) hdepth

/-! ## the walk is the direct definition -/

/-- What a walk leaves: its endpoints added, the stack as it was, the list of
layers grown. -/
structure Walked (st st' : WalkState) (endpoints : List ResolvedEndpoint) : Prop where
  endpoints : st'.endpoints = st.endpoints ++ endpoints
  ancestry : st'.ancestry = st.ancestry
  layers : st.layers <+: st'.layers

/-- A scope is normalized with what it contains, one level deeper. -/
theorem normalizeItems_layer {scope : RawScope} {items rest : RawItems} {depth : Nat}
    {norm : NormItems} :
    normalizeItems depth (.layer scope items rest) = .ok norm ↔
      depth + 1 ≤ maxDslScopeDepth ∧ ∃ items' rest',
        normalizeItems (depth + 1) items = .ok items' ∧ normalizeItems depth rest = .ok rest' ∧
        norm = normalizeScope scope items' rest' := by
  rw [normalizeItems]
  simp only [Results.bind_eq_ok_iff, Except.ok.injEq]
  constructor
  · intro h
    obtain ⟨_, hdepth, items', hitems, rest', hrest, heq⟩ := h
    exact ⟨checkDslScopeDepth_eq_ok_iff.mp hdepth, items', rest', hitems, hrest, heq.symm⟩
  · intro h
    obtain ⟨hdepth, items', rest', hitems, hrest, heq⟩ := h
    exact ⟨(), checkDslScopeDepth_eq_ok_iff.mpr hdepth, items', hitems, rest', hrest, heq.symm⟩

/-- An endpoint is normalized to itself. -/
theorem normalizeItems_endpoint {ed : RawEndpoint} {rest : RawItems} {depth : Nat}
    {norm : NormItems} :
    normalizeItems depth (.endpoint ed rest) = .ok norm ↔
      ∃ rest', normalizeItems depth rest = .ok rest' ∧ norm = .endpoint ed rest' := by
  rw [normalizeItems]
  simp only [Results.bind_eq_ok_iff, Except.ok.injEq, @eq_comm _ norm]

/-- A scope is walked with what it contains, one level deeper. -/
theorem directItems_layer {cx : WalkItemsCtx} {scope : RawScope} {items rest : RawItems}
    {inh : Inherited} {depth next : Nat} {out : List ResolvedEndpoint × Nat} :
    directItems cx (.layer scope items rest) inh depth next = .ok out ↔
      depth + 1 ≤ maxDslScopeDepth ∧ ∃ inner inside others,
        directScope cx inh next scope = .ok inner ∧
        directItems cx items inner (depth + 1) (next + scope.layerCount) = .ok inside ∧
        directItems cx rest inh depth inside.2 = .ok others ∧
        out = (inside.1 ++ others.1, others.2) := by
  rw [directItems]
  simp only [Results.bind_eq_ok_iff, Except.ok.injEq]
  constructor
  · intro h
    obtain ⟨_, hdepth, inner, hinner, inside, hinside, others, hothers, heq⟩ := h
    exact ⟨checkDslScopeDepth_eq_ok_iff.mp hdepth, inner, inside, others, hinner, hinside,
      hothers, heq.symm⟩
  · intro h
    obtain ⟨hdepth, inner, inside, others, hinner, hinside, hothers, heq⟩ := h
    exact ⟨(), checkDslScopeDepth_eq_ok_iff.mpr hdepth, inner, hinner, inside, hinside, others,
      hothers, heq.symm⟩

/-- An endpoint is resolved where it stands. -/
theorem directItems_endpoint {cx : WalkItemsCtx} {ed : RawEndpoint} {rest : RawItems}
    {inh : Inherited} {depth next : Nat} {out : List ResolvedEndpoint × Nat} :
    directItems cx (.endpoint ed rest) inh depth next = .ok out ↔
      ∃ endpoint others, directEndpoint cx inh ed = .ok endpoint ∧
        directItems cx rest inh depth next = .ok others ∧
        out = (endpoint :: others.1, others.2) := by
  rw [directItems]
  simp only [Results.bind_eq_ok_iff, Except.ok.injEq]
  constructor
  · intro h
    obtain ⟨endpoint, hendpoint, others, hothers, heq⟩ := h
    exact ⟨endpoint, others, hendpoint, hothers, heq.symm⟩
  · intro h
    obtain ⟨endpoint, others, hendpoint, hothers, heq⟩ := h
    exact ⟨endpoint, hendpoint, others, hothers, heq.symm⟩

/-- A scope that is two layers is one level deep nevertheless. -/
theorem RawScope.innerDepth_le (scope : RawScope) {walkDepth depth : Nat}
    (h : walkDepth ≤ depth) : scope.innerDepth walkDepth ≤ depth + 1 := by
  unfold RawScope.innerDepth
  split <;> omega

/-- The stack after the items of a scope is the stack before it. -/
theorem pop_of_walked {st inner : WalkState} {new : List LayerIr}
    {endpoints : List ResolvedEndpoint} {scope : RawScope}
    (hwalked : Walked (st.push new) inner endpoints) (hlength : new.length = scope.layerCount) :
    Walked st (inner.pop new.length) endpoints := by
  have hancestry := hwalked.ancestry
  refine ⟨hwalked.endpoints, ?_, (List.prefix_append st.layers new).trans hwalked.layers⟩
  unfold WalkState.pop
  rw [hlength]
  simp only [WalkState.push, hlength] at hancestry
  simp only [hancestry]
  unfold RawScope.layerCount
  split
  · simp [List.range'_succ]
  · simp

/-- What the walk over normalized items resolves, the direct recursion does. -/
theorem directItems_of_walkItems {cx : WalkItemsCtx} {raw : RawItems} {norm : NormItems}
    {depth walkDepth : Nat} {st st' : WalkState} {ancestors : List LayerIr}
    (hnorm : normalizeItems depth raw = .ok norm) (hdepth : walkDepth ≤ depth)
    (hancestors : layersAt st.layers st.ancestry = .ok ancestors)
    (hwalk : walkItems cx norm walkDepth st = .ok st') :
    ∃ endpoints, directItems cx raw (Inherited.ofLayers cx ancestors) depth st.layers.length =
        .ok (endpoints, st'.layers.length) ∧ Walked st st' endpoints := by
  induction raw generalizing norm depth walkDepth st st' ancestors with
  | nil =>
      cases hnorm
      cases hwalk
      exact ⟨[], rfl, (List.append_nil _).symm, rfl, List.prefix_rfl⟩
  | layer scope items rest ihItems ihRest =>
      obtain ⟨hlimit, items', rest', hitems, hrest, rfl⟩ := normalizeItems_layer.mp hnorm
      have hinner := scope.innerDepth_le hdepth
      obtain ⟨new, inner, hnew, hin, hout⟩ :=
        (walkItems_scope hancestors (hinner.trans hlimit)).mp hwalk
      obtain ⟨hscope, hlength⟩ := directScope_of_analyzeScope hnew
      obtain ⟨inside, hinside, hwalkedIn⟩ :=
        ihItems hitems hinner (layersAt_push hancestors new) hin
      have hpopped := pop_of_walked hwalkedIn hlength
      have hancestors' : layersAt (inner.pop new.length).layers (inner.pop new.length).ancestry =
          .ok ancestors := by
        rw [hpopped.ancestry]
        exact layersAt_grow hancestors hpopped.layers
      obtain ⟨others, hothers, hwalkedOut⟩ := ihRest hrest hdepth hancestors' hout
      have hnext : (st.push new).layers.length = st.layers.length + scope.layerCount := by
        simp [WalkState.push, hlength]
      rw [hnext] at hinside
      refine ⟨inside ++ others, ?_, ?_, hwalkedOut.ancestry.trans hpopped.ancestry,
        hpopped.layers.trans hwalkedOut.layers⟩
      · exact directItems_layer.mpr ⟨hlimit, _, _, _, hscope, hinside, hothers, rfl⟩
      · rw [hwalkedOut.endpoints, hpopped.endpoints, List.append_assoc]
  | endpoint ed rest ih =>
      obtain ⟨rest', hrest, rfl⟩ := normalizeItems_endpoint.mp hnorm
      rw [walkItems] at hwalk
      simp only [Results.bind_eq_ok_iff] at hwalk
      obtain ⟨ancestors', hancestors', endpoint, hendpoint, hout⟩ := hwalk
      rw [hancestors] at hancestors'
      cases hancestors'
      have hdirect : directEndpoint cx (Inherited.ofLayers cx ancestors) ed = .ok endpoint := by
        rw [← Results.toOption_eq_some_iff, ← analyzeEndpoint_toOption, hendpoint]
        rfl
      have hsame : layersAt (st.add endpoint).layers (st.add endpoint).ancestry = .ok ancestors :=
        hancestors
      obtain ⟨others, hothers, hwalked⟩ := ih hrest hdepth hsame hout
      refine ⟨endpoint :: others, ?_, ?_, hwalked.ancestry, hwalked.layers⟩
      · exact directItems_endpoint.mpr ⟨endpoint, _, hdirect, hothers, rfl⟩
      · rw [hwalked.endpoints, WalkState.add, List.append_assoc, List.singleton_append]

/-- Items that the direct recursion accepts can be normalized. -/
theorem normalizeItems_of_directItems {cx : WalkItemsCtx} {raw : RawItems} {inh : Inherited}
    {depth next : Nat} {out : List ResolvedEndpoint × Nat}
    (h : directItems cx raw inh depth next = .ok out) :
    ∃ norm, normalizeItems depth raw = .ok norm := by
  induction raw generalizing inh depth next out with
  | nil => exact ⟨.nil, rfl⟩
  | layer scope items rest ihItems ihRest =>
      obtain ⟨hlimit, inner, inside, others, _, hinside, hothers, _⟩ := directItems_layer.mp h
      obtain ⟨items', hitems⟩ := ihItems hinside
      obtain ⟨rest', hrest⟩ := ihRest hothers
      exact ⟨_, normalizeItems_layer.mpr ⟨hlimit, items', rest', hitems, hrest, rfl⟩⟩
  | endpoint ed rest ih =>
      obtain ⟨endpoint, others, _, hothers, _⟩ := directItems_endpoint.mp h
      obtain ⟨rest', hrest⟩ := ih hothers
      exact ⟨_, normalizeItems_endpoint.mpr ⟨rest', hrest, rfl⟩⟩

/-- What the direct recursion resolves, the walk does. -/
theorem walkItems_of_directItems {cx : WalkItemsCtx} {raw : RawItems} {norm : NormItems}
    {depth walkDepth : Nat} {st : WalkState} {ancestors : List LayerIr}
    {out : List ResolvedEndpoint × Nat}
    (hnorm : normalizeItems depth raw = .ok norm) (hdepth : walkDepth ≤ depth)
    (hancestors : layersAt st.layers st.ancestry = .ok ancestors)
    (hdirect : directItems cx raw (Inherited.ofLayers cx ancestors) depth st.layers.length =
      .ok out) :
    ∃ st', walkItems cx norm walkDepth st = .ok st' := by
  induction raw generalizing norm depth walkDepth st ancestors out with
  | nil =>
      cases hnorm
      exact ⟨st, rfl⟩
  | layer scope items rest ihItems ihRest =>
      obtain ⟨hlimit, items', rest', hitems, hrest, rfl⟩ := normalizeItems_layer.mp hnorm
      have hinner := scope.innerDepth_le hdepth
      obtain ⟨_, inh, inside, others, hscope, hinside, hothers, _⟩ := directItems_layer.mp hdirect
      obtain ⟨new, hnew⟩ := analyzeScope_of_directScope hscope
      obtain ⟨hscope', hlength⟩ := directScope_of_analyzeScope hnew
      rw [hscope] at hscope'
      cases hscope'
      have hnext : st.layers.length + scope.layerCount = (st.push new).layers.length := by
        simp [WalkState.push, hlength]
      rw [hnext] at hinside
      have hpushed := layersAt_push hancestors new
      obtain ⟨inner, hin⟩ := ihItems hitems hinner hpushed hinside
      obtain ⟨_, hinside', hwalkedIn⟩ := directItems_of_walkItems hitems hinner hpushed hin
      rw [hinside] at hinside'
      cases hinside'
      have hpopped := pop_of_walked hwalkedIn hlength
      have hancestors' : layersAt (inner.pop new.length).layers (inner.pop new.length).ancestry =
          .ok ancestors := by
        rw [hpopped.ancestry]
        exact layersAt_grow hancestors hpopped.layers
      obtain ⟨st', hout⟩ := ihRest hrest hdepth hancestors' hothers
      exact ⟨st', (walkItems_scope hancestors (hinner.trans hlimit)).mpr
        ⟨new, inner, hnew, hin, hout⟩⟩
  | endpoint ed rest ih =>
      obtain ⟨rest', hrest, rfl⟩ := normalizeItems_endpoint.mp hnorm
      obtain ⟨endpoint, others, hendpoint, hothers, _⟩ := directItems_endpoint.mp hdirect
      have hanalyzed : analyzeEndpoint cx ancestors ed = .ok endpoint := by
        rw [← Results.toOption_eq_some_iff, analyzeEndpoint_toOption, hendpoint]
        rfl
      have hsame : layersAt (st.add endpoint).layers (st.add endpoint).ancestry = .ok ancestors :=
        hancestors
      obtain ⟨st', hout⟩ := ih hrest hdepth hsame hothers
      refine ⟨st', ?_⟩
      rw [walkItems, hancestors, Results.ok_bind, hanalyzed, Results.ok_bind]
      exact hout

/-- Inheritance over the scope tree is exact: what normalization and the walk
make of the items of an API is what the direct definition makes of the tree
as it is written, and they fail on the same trees. -/
theorem inheritance_is_exact (cx : WalkItemsCtx) (raw : RawItems) :
    ((normalizeItems 0 raw >>= fun norm => walkItems cx norm 0 .init).map
        WalkState.endpoints).toOption =
      ((directItems cx raw (Inherited.ofClient cx) 0 0).map Prod.fst).toOption := by
  have hinit : layersAt WalkState.init.layers WalkState.init.ancestry = .ok [] := rfl
  rw [← Inherited.ofLayers_nil]
  cases hdirect : directItems cx raw (Inherited.ofLayers cx []) 0 0 with
  | ok out =>
      obtain ⟨norm, hnorm⟩ := normalizeItems_of_directItems hdirect
      obtain ⟨st', hwalk⟩ := walkItems_of_directItems hnorm (Nat.le_refl 0) hinit hdirect
      obtain ⟨endpoints, hendpoints, hwalked⟩ :=
        directItems_of_walkItems hnorm (Nat.le_refl 0) hinit hwalk
      have hout : out = (endpoints, st'.layers.length) :=
        Except.ok.inj (hdirect.symm.trans hendpoints)
      rw [hnorm, Results.ok_bind, hwalk, hout]
      have hadded : st'.endpoints = endpoints := hwalked.endpoints
      rw [← hadded]
      rfl
  | error e =>
      cases hwalk : normalizeItems 0 raw >>= fun norm => walkItems cx norm 0 .init with
      | error e' => rfl
      | ok st' =>
          obtain ⟨norm, hnorm, hwalk'⟩ := Results.bind_eq_ok_iff.mp hwalk
          obtain ⟨endpoints, hendpoints, _⟩ :=
            directItems_of_walkItems hnorm (Nat.le_refl 0) hinit hwalk'
          have hclash := hdirect.symm.trans hendpoints
          cases hclash

/-! ## places -/

/-- The endpoints of a list of items with the scopes around them, from the
outermost to the innermost, in source order. -/
def places : RawItems → List RawScope → List (List RawScope × RawEndpoint)
  | .nil, _ => []
  | .layer scope items rest, scopes => places items (scopes ++ [scope]) ++ places rest scopes
  | .endpoint ed rest, scopes => (scopes, ed) :: places rest scopes

/-- What comes down through scopes that are accepted one in the other. -/
inductive Enters (cx : WalkItemsCtx) : List RawScope → Inherited → Prop
  | client : Enters cx [] (Inherited.ofClient cx)
  | scope {scopes : List RawScope} {inh inh' : Inherited} {scope : RawScope} {id : Nat}
      (houter : Enters cx scopes inh) (hscope : directScope cx inh id scope = .ok inh') :
      Enters cx (scopes ++ [scope]) inh'

/-- What is declared below a chain of scopes are their parameters, in order. -/
theorem Enters.decls {cx : WalkItemsCtx} {scopes : List RawScope} {inh : Inherited}
    (h : Enters cx scopes inh) : inh.decls = scopes.flatMap (·.params) := by
  induction h with
  | client => rfl
  | scope _ hscope ih =>
      obtain ⟨host, path, facts, _, _, _, rfl⟩ := directScope_eq_ok_iff.mp hscope
      rw [List.flatMap_append, ← ih]
      simp [Inherited.enter]

/-- The modules below a chain of scopes are the names of those that have one. -/
theorem Enters.scopeModules {cx : WalkItemsCtx} {scopes : List RawScope} {inh : Inherited}
    (h : Enters cx scopes inh) : inh.scopeModules = scopes.filterMap RawScope.scopeName := by
  induction h with
  | client => rfl
  | @scope scopes inh inh' scope id _ hscope ih =>
      obtain ⟨host, path, facts, _, _, _, rfl⟩ := directScope_eq_ok_iff.mp hscope
      rw [List.filterMap_append, ← ih]
      unfold Inherited.enter
      cases hname : scope.scopeName <;> simp [hname]

/-- The endpoint that the declaration at a place resolves to. -/
def EndpointAt (cx : WalkItemsCtx) (place : List RawScope × RawEndpoint)
    (endpoint : ResolvedEndpoint) : Prop :=
  ∃ inh, Enters cx place.1 inh ∧ directEndpoint cx inh place.2 = .ok endpoint

/-- The requirements of an endpoint passed the checks on them. -/
theorem directEndpointAuth_eq_ok {cx : WalkItemsCtx} {inh : Inherited} {target : EndpointTargetIr}
    {uses : List AuthUseKind} {auth : List AuthRequirementIr}
    (h : directEndpointAuth cx inh target uses = .ok auth) :
    (∃ own, resolveAuthRequirements uses cx.authCredentials .endpoint = .ok own ∧
      auth = materializeAuthRequirements (inh.auth ++ own) target.displayString 0) ∧
    validateFinalAuthMaterializationTargets target.displayString [] auth = .ok () ∧
    selfAcquired cx.authCredentials target auth = none := by
  unfold directEndpointAuth at h
  simp only [Results.bind_eq_ok_iff] at h
  obtain ⟨own, hown, _, htargets, hchecked⟩ := h
  split at hchecked
  · cases hchecked
  · next hnone =>
      cases hchecked
      exact ⟨⟨own, hown, rfl⟩, htargets, hnone⟩

/-- What an endpoint takes from its place and from its own declaration. -/
structure TakenFrom (cx : WalkItemsCtx) (inh : Inherited) (ed : RawEndpoint)
    (endpoint : ResolvedEndpoint) : Prop where
  name : endpoint.name = ed.name
  scopeModules : endpoint.scopeModules = inh.scopeModules
  facadeParamGroups : endpoint.facadeParamGroups = inh.facadeParamGroups
  consistent : Consistent (inh.decls ++ ed.params)
  vars : endpoint.vars = Keyed.keepFirst VarInfo.rust (inh.decls ++ ed.params)
  auth : ∃ profile, resolveProfileUses ed.profileUses cx.profiles = .ok profile ∧
    directEndpointAuth cx inh ⟨inh.scopeModules, ed.name⟩ (profile.authUses ++ ed.authUses) =
      .ok endpoint.policy.auth

/-- An endpoint takes what it does not declare from what it inherits. -/
theorem takenFrom_of_directEndpoint {cx : WalkItemsCtx} {inh : Inherited} {ed : RawEndpoint}
    {endpoint : ResolvedEndpoint} (h : directEndpoint cx inh ed = .ok endpoint) :
    TakenFrom cx inh ed endpoint := by
  unfold directEndpoint at h
  by_cases hconsistent : Consistent (inh.decls ++ ed.params)
  · simp only [hconsistent, not_true_eq_false, if_false, Results.bind_eq_ok_iff,
      Except.ok.injEq] at h
    obtain ⟨_, _, _, _, _, _, profile, hprofile, _, _, _, _, _, _, auth, hauth, _, _, _, _,
      rfl⟩ := h
    exact ⟨rfl, rfl, rfl, hconsistent, rfl, profile, hprofile, hauth⟩
  · simp only [hconsistent, not_false_eq_true, if_true] at h
    cases h

/-- Endpoints are resolved at their places, in order. -/
theorem directItems_places {cx : WalkItemsCtx} {raw : RawItems} {inh : Inherited}
    {depth next : Nat} {out : List ResolvedEndpoint × Nat} {scopes : List RawScope}
    (h : directItems cx raw inh depth next = .ok out) (henters : Enters cx scopes inh) :
    List.Forall₂ (EndpointAt cx) (places raw scopes) out.1 := by
  induction raw generalizing inh depth next out scopes with
  | nil =>
      cases h
      exact .nil
  | layer scope items rest ihItems ihRest =>
      obtain ⟨_, inner, inside, others, hscope, hinside, hothers, rfl⟩ := directItems_layer.mp h
      exact List.rel_append (ihItems hinside (.scope henters hscope)) (ihRest hothers henters)
  | endpoint ed rest ih =>
      obtain ⟨endpoint, others, hendpoint, hothers, rfl⟩ := directItems_endpoint.mp h
      exact .cons ⟨inh, henters, hendpoint⟩ (ih hothers henters)

/-- The endpoints of an accepted API are those of its places. -/
theorem endpoints_at_places {toUppercase : Char → List Char} {ast : RawApi}
    {pipeline : ResolvedApiPipeline} (h : analyzePipeline toUppercase ast = .ok pipeline) :
    ∃ items client, resolveClient ast.client items = .ok client ∧
      pipeline.api.clientPolicy = client.policy ∧
      pipeline.api.clientAuthCredentials = client.ctx.authCredentials ∧
      List.Forall₂ (EndpointAt client.ctx) (places ast.items []) pipeline.api.endpoints := by
  obtain ⟨norm, hnorm, hresolve, _, _⟩ := analyzePipeline_eq_ok h
  unfold normalizeApi at hnorm
  obtain ⟨items, hitems, hnormEq⟩ := Results.bind_eq_ok_iff.mp hnorm
  cases hnormEq
  unfold resolveItems at hresolve
  obtain ⟨client, hclient, hrest⟩ := Results.bind_eq_ok_iff.mp hresolve
  obtain ⟨walked, hwalk, hapi⟩ := Results.bind_eq_ok_iff.mp hrest
  simp only [Except.ok.injEq] at hapi
  rw [← hapi]
  refine ⟨items, client, hclient, rfl, rfl, ?_⟩
  have hinit : layersAt WalkState.init.layers WalkState.init.ancestry = .ok [] := rfl
  obtain ⟨endpoints, hendpoints, hwalked⟩ :=
    directItems_of_walkItems hitems (Nat.le_refl 0) hinit hwalk
  have hadded : walked.endpoints = endpoints := hwalked.endpoints
  rw [Inherited.ofLayers_nil] at hendpoints
  simp only [hadded]
  exact directItems_places hendpoints .client

/-- Every endpoint of an accepted API has a place in it. -/
theorem exists_place {toUppercase : Char → List Char} {ast : RawApi}
    {pipeline : ResolvedApiPipeline} (h : analyzePipeline toUppercase ast = .ok pipeline)
    {ep : ResolvedEndpoint} (hep : ep ∈ pipeline.api.endpoints) :
    ∃ cx, ∃ place ∈ places ast.items [], EndpointAt cx place ep := by
  obtain ⟨_, client, _, _, _, hplaces⟩ := endpoints_at_places h
  exact ⟨client.ctx, Pairs.exists_left hplaces hep⟩

end Concord.Sema
