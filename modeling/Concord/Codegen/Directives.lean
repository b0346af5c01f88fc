import Concord.Codegen.Layers
import Concord.Sema.Inheritance

/-!
# Concord.Codegen.Directives

The rate-limit directives of an endpoint: those of the client, of the scopes
around the endpoint from the outermost to the innermost, and its own.  At each
of these sites the directives of the profiles come first, those of a profile's
ancestors before its own, and the one that is written there last.

A directive is resolved at the site it is attached to.
-/

namespace Concord.Sema

open Edits

/-! ## sites -/

/-- A directive and what it does at its site. -/
structure Attached where
  spec : RateLimitSpec
  op : RateLimitResolved

/-- What a directive does to the plan, by its form alone. -/
def RateLimitSpec.kind : RateLimitSpec → Kind
  | .off => .off
  | .profiles only _ _ => if only then .only else .plain
  | .inline only _ => if only then .only else .plain

/-- The directives at a site. -/
def SiteDirectives (limits : RateLimitProfiles) (defs : List ProfileDef) (site : AttachmentSite)
    (uses : List ProfileUseSpec) (own : Option RateLimitSpec) (layer : List Attached) : Prop :=
  ∃ lines, List.Forall₂ (Lineage defs) (profileUseNames uses) lines ∧
    layer.map Attached.spec = lines.flatten.filterMap (·.patch.rateLimit) ++ own.toList ∧
    ∀ directive ∈ layer, resolveRateLimitDirective limits site directive.spec = .ok directive.op

/-- The directives of scopes one in the other, and the keys bound by them,
after those bound around them. -/
def ScopesDirectives (limits : RateLimitProfiles) (defs : List ProfileDef) :
    List RateLimitKeyBindingResolved → List RawScope → List RateLimitKeyBindingResolved →
      List (List Attached) → Prop
  | keys, [], bound, layers => bound = keys ∧ layers = []
  | keys, scope :: scopes, bound, layers =>
    ∃ own layer inner,
      resolveRateLimitKeyBindings scope.params [] scope.rateLimitKeys = .ok own ∧
      SiteDirectives limits defs
        ⟨Keyed.last RateLimitKeyBindingResolved.name (keys ++ own), none, .layer⟩
        scope.profileUses scope.rateLimit layer ∧
      ScopesDirectives limits defs (keys ++ own) scopes bound inner ∧
      layers = layer :: inner

/-- The directive of a client with default limits. -/
def RawClient.defaultLimit (client : RawClient) : Option RateLimitSpec :=
  match client.rateLimit with
  | none => none
  | some block => if h : block.default = [] then none else some (.profiles false block.default h)

/-- The site of the client's own directives. -/
def clientSite : AttachmentSite := ⟨.empty, none, .clientBase⟩

/-- The directives of the endpoint at a place, layer by layer. -/
def DirectivesAt (ast : RawApi) (place : List RawScope × RawEndpoint)
    (layers : List (List Attached)) : Prop :=
  ∃ limits client keys scopes own endpoint,
    resolveRateLimitProfiles ast.client.rateLimit = .ok limits ∧
    SiteDirectives limits ast.client.profileDefs clientSite ast.client.defaultProfileUses
      ast.client.defaultLimit client ∧
    ScopesDirectives limits ast.client.profileDefs [] place.1 keys scopes ∧
    resolveRateLimitKeyBindings
      (Keyed.keepFirst VarInfo.rust (place.1.flatMap (·.params) ++ place.2.params)) []
      place.2.rateLimitKeys = .ok own ∧
    SiteDirectives limits ast.client.profileDefs
      ⟨Keyed.last RateLimitKeyBindingResolved.name (keys ++ own),
        some (Keyed.first VarInfo.rust (place.1.flatMap (·.params) ++ place.2.params)), .endpoint⟩
      place.2.profileUses place.2.rateLimit endpoint ∧
    layers = client :: scopes ++ [endpoint]

/-- The plan after the directives of the client, then those of the inner
layers, one by one from an empty plan. -/
def oneByOne (ctx : ErrorContext) (fields : Ident → String) :
    List (List Attached) → Except EmitError RateLimitPlan
  | [] => .ok .new
  | client :: inner => do
    let plan ← (client.map Attached.op).foldlM (applyRateLimitOp ctx none) .new
    (inner.flatten.map Attached.op).foldlM (applyRateLimitOp ctx (some fields)) plan

/-! ## the directives of a place are determined -/

/-- The directives of a site are determined. -/
theorem SiteDirectives.unique {limits : RateLimitProfiles} {defs : List ProfileDef}
    {site : AttachmentSite} {uses : List ProfileUseSpec} {own : Option RateLimitSpec}
    {layer layer' : List Attached} (h : SiteDirectives limits defs site uses own layer)
    (h' : SiteDirectives limits defs site uses own layer') : layer = layer' := by
  obtain ⟨lines, hlines, hspecs, hops⟩ := h
  obtain ⟨lines', hlines', hspecs', hops'⟩ := h'
  have hsame : layer.map Attached.spec = layer'.map Attached.spec := by
    rw [hspecs, hspecs', lines_unique hlines hlines']
  clear hspecs hspecs'
  induction layer generalizing layer' with
  | nil =>
      cases layer' with
      | nil => rfl
      | cons directive' layer' => cases hsame
  | cons directive layer ih =>
      cases layer' with
      | nil => cases hsame
      | cons directive' layer' =>
          rw [List.forall_mem_cons] at hops hops'
          rw [List.map_cons, List.map_cons, List.cons.injEq] at hsame
          have hop : directive.op = directive'.op := by
            have hresolved := hops.1
            rw [hsame.1, hops'.1] at hresolved
            exact (Except.ok.inj hresolved).symm
          have hdirective : directive = directive' := by
            cases directive
            cases directive'
            simp only at hop hsame
            rw [hop, hsame.1]
          rw [hdirective, ih hops.2 hops'.2 hsame.2]

/-- So are those of a chain of scopes. -/
theorem ScopesDirectives.unique {limits : RateLimitProfiles} {defs : List ProfileDef}
    {keys bound bound' : List RateLimitKeyBindingResolved} {scopes : List RawScope}
    {layers layers' : List (List Attached)}
    (h : ScopesDirectives limits defs keys scopes bound layers)
    (h' : ScopesDirectives limits defs keys scopes bound' layers') :
    bound = bound' ∧ layers = layers' := by
  induction scopes generalizing keys layers layers' with
  | nil =>
      obtain ⟨rfl, rfl⟩ := h
      obtain ⟨rfl, rfl⟩ := h'
      exact ⟨rfl, rfl⟩
  | cons scope scopes ih =>
      obtain ⟨own, layer, inner, hown, hlayer, hinner, rfl⟩ := h
      obtain ⟨own', layer', inner', hown', hlayer', hinner', rfl⟩ := h'
      rw [hown] at hown'
      cases hown'
      obtain ⟨hbound, hlayers⟩ := ih hinner hinner'
      rw [hlayer.unique hlayer', hlayers]
      exact ⟨hbound, rfl⟩

/-- And those of an endpoint. -/
theorem DirectivesAt.unique {ast : RawApi} {place : List RawScope × RawEndpoint}
    {layers layers' : List (List Attached)} (h : DirectivesAt ast place layers)
    (h' : DirectivesAt ast place layers') : layers = layers' := by
  obtain ⟨limits, client, keys, scopes, own, endpoint, hlimits, hclient, hscopes, hown, hendpoint,
    rfl⟩ := h
  obtain ⟨limits', client', keys', scopes', own', endpoint', hlimits', hclient', hscopes', hown',
    hendpoint', rfl⟩ := h'
  rw [hlimits] at hlimits'
  cases hlimits'
  rw [hown] at hown'
  cases hown'
  obtain ⟨hkeys, hlayers⟩ := hscopes.unique hscopes'
  rw [← hkeys] at hendpoint'
  rw [hclient.unique hclient', hlayers, hendpoint.unique hendpoint']

/-! ## what the resolver makes of the directives -/

/-- A resolved directive is of the kind of its form. -/
theorem resolveRateLimitDirective_kind {limits : RateLimitProfiles} {site : AttachmentSite}
    {spec : RateLimitSpec} {op : RateLimitResolved}
    (h : resolveRateLimitDirective limits site spec = .ok op) : op.kind = spec.kind := by
  cases spec with
  | off =>
      cases h
      rfl
  | profiles only names names_ne =>
      unfold resolveRateLimitDirective at h
      simp only [Results.bind_eq_ok_iff, Except.ok.injEq] at h
      obtain ⟨_, _, plan, _, rfl⟩ := h
      cases only <;> rfl
  | inline only spec =>
      unfold resolveRateLimitDirective at h
      simp only [Results.bind_eq_ok_iff, Except.ok.injEq] at h
      obtain ⟨_, _, plan, _, rfl⟩ := h
      cases only <;> rfl

/-- The directives of a profile are resolved one by one and merged. -/
theorem resolveProfileRateLimitSpecs_eq_ok {limits : RateLimitProfiles} {site : AttachmentSite}
    {specs : List RateLimitSpec} {out out' : Option RateLimitResolved}
    (h : resolveProfileRateLimitSpecs limits site specs out = .ok out') :
    ∃ layer : List Attached, layer.map Attached.spec = specs ∧
      (∀ directive ∈ layer,
        resolveRateLimitDirective limits site directive.spec = .ok directive.op) ∧
      out' = (layer.map Attached.op).foldl
        (fun out op => mergeRateLimitResolved out (some op)) out := by
  induction specs generalizing out with
  | nil =>
      cases h
      exact ⟨[], rfl, by simp, rfl⟩
  | cons spec specs ih =>
      unfold resolveProfileRateLimitSpecs resolveRateLimitSpec at h
      simp only [Results.bind_eq_ok_iff, Except.ok.injEq] at h
      obtain ⟨_, ⟨op, hop, rfl⟩, hrest⟩ := h
      obtain ⟨layer, hspecs, hops, hout⟩ := ih hrest
      refine ⟨⟨spec, op⟩ :: layer, ?_, List.forall_mem_cons.mpr ⟨hop, hops⟩, hout⟩
      rw [List.map_cons, hspecs]

/-- A site that is resolved has its directives, and its policy folds them. -/
theorem siteDirectives_of_resolved {limits : RateLimitProfiles} {defs : List ProfileDef}
    {profiles : Profiles} (hsound : ProfilesSound defs profiles) {site : AttachmentSite}
    {uses : List ProfileUseSpec} {own : Option RateLimitSpec} {profile : ProfileResolved}
    {profileLimit ownLimit : Option RateLimitResolved}
    (hprofile : resolveProfileUses uses profiles = .ok profile)
    (hprofileLimit : resolveProfileRateLimitSpecs limits site profile.rateLimitSpecs none =
      .ok profileLimit)
    (hown : resolveRateLimitSpec own limits site = .ok ownLimit) :
    ∃ layer, SiteDirectives limits defs site uses own layer ∧
      mergeRateLimitResolved profileLimit ownLimit = mergeAll (layer.map Attached.op) := by
  obtain ⟨lines, hlines, rfl⟩ := resolveProfileUses_lines hsound hprofile
  obtain ⟨layer, hlayer, hops, rfl⟩ := resolveProfileRateLimitSpecs_eq_ok hprofileLimit
  cases own with
  | none =>
      cases hown
      refine ⟨layer, ⟨lines, hlines, ?_, hops⟩, rfl⟩
      rw [hlayer, Option.toList_none, List.append_nil]
      rfl
  | some spec =>
      unfold resolveRateLimitSpec at hown
      obtain ⟨op, hop, hok⟩ := Results.bind_eq_ok_iff.mp hown
      cases hok
      refine ⟨layer ++ [⟨spec, op⟩], ⟨lines, hlines, ?_, ?_⟩, ?_⟩
      · rw [List.map_append, hlayer]
        rfl
      · intro directive hmem
        cases List.mem_append.mp hmem with
        | inl hmem => exact hops directive hmem
        | inr hmem =>
            rw [List.mem_singleton.mp hmem]
            exact hop
      · unfold mergeAll
        rw [List.map_append, List.foldl_append]
        rfl

/-- One more scope adds one more layer. -/
theorem ScopesDirectives.snoc {limits : RateLimitProfiles} {defs : List ProfileDef}
    {keys bound own : List RateLimitKeyBindingResolved} {scopes : List RawScope} {scope : RawScope}
    {layers : List (List Attached)} {layer : List Attached}
    (h : ScopesDirectives limits defs keys scopes bound layers)
    (hown : resolveRateLimitKeyBindings scope.params [] scope.rateLimitKeys = .ok own)
    (hlayer : SiteDirectives limits defs
      ⟨Keyed.last RateLimitKeyBindingResolved.name (bound ++ own), none, .layer⟩
      scope.profileUses scope.rateLimit layer) :
    ScopesDirectives limits defs keys (scopes ++ [scope]) (bound ++ own) (layers ++ [layer]) := by
  induction scopes generalizing keys layers with
  | nil =>
      obtain ⟨rfl, rfl⟩ := h
      exact ⟨own, layer, [], hown, hlayer, ⟨rfl, rfl⟩, rfl⟩
  | cons outer scopes ih =>
      obtain ⟨outerOwn, outerLayer, inner, houterOwn, houterLayer, hinner, rfl⟩ := h
      exact ⟨outerOwn, outerLayer, inner ++ [layer], houterOwn, houterLayer, ih hinner, rfl⟩

/-- The folded layers of a list of policies. -/
def policyOps (policies : List PolicyBlocksResolved) : List RateLimitResolved :=
  policies.filterMap (·.rateLimit)

/-- What is left of each layer after it was merged. -/
def foldedOps (layers : List (List Attached)) : List RateLimitResolved :=
  layers.filterMap (fun layer => mergeAll (layer.map Attached.op))

/-- What comes down through scopes carries their keys, and policies that fold
their directives. -/
theorem Enters.directives {cx : WalkItemsCtx} {defs : List ProfileDef}
    (hsound : ProfilesSound defs cx.profiles) {scopes : List RawScope} {inh : Inherited}
    (h : Enters cx scopes inh) :
    ∃ layers, ScopesDirectives cx.rateLimitProfiles defs [] scopes inh.keyBindings layers ∧
      policyOps inh.policies = foldedOps layers := by
  induction h with
  | client => exact ⟨[], ⟨rfl, rfl⟩, rfl⟩
  | @scope scopes inh inh' scope id houter hscope ih =>
      obtain ⟨layers, hlayers, hops⟩ := ih
      obtain ⟨hostLabels, pathPieces, facts, _, _, hfacts, rfl⟩ := directScope_eq_ok_iff.mp hscope
      unfold directScopeFacts at hfacts
      simp only [Results.bind_eq_ok_iff, Except.ok.injEq] at hfacts
      obtain ⟨keys, hkeys, _, _, profile, hprofile, policy, _, profileLimit, hprofileLimit,
        ownLimit, hownLimit, auth, _, rfl⟩ := hfacts
      obtain ⟨layer, hlayer, hmerged⟩ :=
        siteDirectives_of_resolved hsound hprofile hprofileLimit hownLimit
      refine ⟨layers ++ [layer], hlayers.snoc hkeys hlayer, ?_⟩
      unfold policyOps foldedOps at *
      rw [List.filterMap_append, ← hops]
      simp only [Inherited.enter, List.filterMap_append, hmerged]
      cases scope.hasBothRoutes <;> rfl

/-- The client's default is a directive at the client's site. -/
theorem RawClient.resolveClientRateLimit_eq (client : RawClient) (limits : RateLimitProfiles) :
    resolveClientRateLimit client.rateLimit limits =
      resolveRateLimitSpec client.defaultLimit limits clientSite := by
  unfold resolveClientRateLimit RawClient.defaultLimit
  cases client.rateLimit with
  | none => rfl
  | some block =>
      by_cases h : block.default = []
      · simp [h, resolveRateLimitSpec]
      · simp only [List.isEmpty_iff, if_neg h, dif_neg h, resolveRateLimitSpec,
          resolveRateLimitDirective]
        cases combineRateLimitProfiles limits block.default with
        | error e => rfl
        | ok plan =>
            rw [Results.ok_bind, Results.ok_bind]
            change (materializeRateLimitPlan clientSite plan >>= _) = _
            cases materializeRateLimitPlan clientSite plan <;> rfl

/-- The directives of the client are folded into its policy. -/
theorem resolveClient_directives {client : RawClient} {items : NormItems}
    {resolved : ClientResolved} (h : resolveClient client items = .ok resolved) :
    resolveRateLimitProfiles client.rateLimit = .ok resolved.ctx.rateLimitProfiles ∧
      ProfilesSound client.profileDefs resolved.ctx.profiles ∧
      ∃ layer, SiteDirectives resolved.ctx.rateLimitProfiles client.profileDefs clientSite
          client.defaultProfileUses client.defaultLimit layer ∧
        resolved.policy.rateLimit = mergeAll (layer.map Attached.op) := by
  unfold resolveClient at h
  simp only [Results.bind_eq_ok_iff, Except.ok.injEq] at h
  obtain ⟨_, _, _, _, _, _, credentials, _, limits, hlimits, profiles, hprofiles, _, _, profile,
    hprofile, profileLimit, hprofileLimit, auth, _, policy, _, ownLimit, hownLimit, rfl⟩ := h
  have hsound : ProfilesSound client.profileDefs profiles := resolveProfiles_sound hprofiles
  rw [client.resolveClientRateLimit_eq] at hownLimit
  obtain ⟨layer, hlayer, hmerged⟩ :=
    siteDirectives_of_resolved hsound hprofile hprofileLimit hownLimit
  exact ⟨hlimits, hsound, layer, hlayer, hmerged⟩

/-- The endpoint at a place has its directives, and the policies it is called
with fold them. -/
theorem directivesAt_of_accepted {toUppercase : Char → List Char} {ast : RawApi}
    {pipeline : ResolvedApiPipeline} (h : analyzePipeline toUppercase ast = .ok pipeline) :
    List.Forall₂ (fun place endpoint => ∃ client inner, DirectivesAt ast place (client :: inner) ∧
        pipeline.api.clientPolicy.rateLimit = mergeAll (client.map Attached.op) ∧
        policyOps (endpoint.policy.scopes ++ [endpoint.policy.endpoint]) = foldedOps inner)
      (places ast.items []) pipeline.api.endpoints := by
  obtain ⟨items, client, hclient, hpolicy, _, hplaces⟩ := endpoints_at_places h
  obtain ⟨hlimits, hsound, clientLayer, hclientLayer, hclientOps⟩ :=
    resolveClient_directives hclient
  refine hplaces.imp ?_
  intro place endpoint hplace
  obtain ⟨inh, henters, hendpoint⟩ := hplace
  obtain ⟨scopeLayers, hscopeLayers, hscopeOps⟩ := henters.directives hsound
  unfold directEndpoint at hendpoint
  simp only at hendpoint
  split at hendpoint
  · cases hendpoint
  · simp only [Results.bind_eq_ok_iff, Except.ok.injEq] at hendpoint
    obtain ⟨_, _, policy, _, _, _, profile, hprofile, own, hown, profileLimit, hprofileLimit,
      ownLimit, hownLimit, _, _, _, _, _, _, rfl⟩ := hendpoint
    obtain ⟨layer, hlayer, hmerged⟩ :=
      siteDirectives_of_resolved hsound hprofile hprofileLimit hownLimit
    rw [henters.decls] at hown hlayer
    rw [hpolicy]
    refine ⟨clientLayer, scopeLayers ++ [layer],
      ⟨_, _, _, _, _, _, hlimits, hclientLayer, hscopeLayers, hown, hlayer, rfl⟩, hclientOps, ?_⟩
    unfold policyOps foldedOps at *
    simp only [List.filterMap_append, hscopeOps, List.filterMap_cons, hmerged, List.filterMap_nil]

/-! ## directives can be emitted -/

/-- The buckets of a resolved directive are those of its plan. -/
theorem RateLimitResolved.items_eq {op : RateLimitResolved} :
    op.edit.items = match op.plan with
      | none => []
      | some plan => plan.buckets := by
  cases op <;> rfl

/-- A resolved directive brings accepted buckets, and some unless it is an
`off`. -/
theorem resolveRateLimitDirective_accepted {limits : RateLimitProfiles} {site : AttachmentSite}
    {spec : RateLimitSpec} {op : RateLimitResolved}
    (hlimits : ∀ entry ∈ limits, PlanAccepted entry.2)
    (h : resolveRateLimitDirective limits site spec = .ok op) :
    AllAccepted op.edit.items ∧ (op.kind ≠ .off → op.edit.items ≠ []) := by
  cases hplan : op.plan with
  | none =>
      cases op with
      | clear => exact ⟨fun _ hmem => absurd hmem List.not_mem_nil, fun hkind => absurd rfl hkind⟩
      | add plan => cases hplan
      | replace plan => cases hplan
  | some plan =>
      obtain ⟨template, htemplate, hmaterialized⟩ := resolveRateLimitDirective_plan hlimits h hplan
      have haccepted := materializeRateLimitPlan_accepted htemplate hmaterialized
      rw [RateLimitResolved.items_eq, hplan]
      exact ⟨haccepted.buckets, fun _ => haccepted.ne⟩

/-- The keys of the buckets are known where there is no endpoint. -/
def ClientKeys (buckets : List RateLimitBucketResolved) : Prop :=
  ∀ bucket ∈ buckets, ∀ key ∈ bucket.key, key.isClientKey

/-- Directives of the client do not read the endpoint value. -/
theorem materializeRateLimitKey_client {template : RateLimitKeyTemplate}
    {key : RateLimitKeyResolved} (h : materializeRateLimitKey clientSite template = .ok key) :
    key.isClientKey := by
  cases template with
  | named name => cases h
  | routeHost =>
      cases h
      rfl
  | endpoint =>
      cases h
      rfl
  | method =>
      cases h
      rfl
  | static name value =>
      cases h
      rfl

/-- What is resolved for the client has such keys only. -/
theorem resolveRateLimitDirective_client {limits : RateLimitProfiles} {spec : RateLimitSpec}
    {op : RateLimitResolved} (hlimits : ∀ entry ∈ limits, PlanAccepted entry.2)
    (h : resolveRateLimitDirective limits clientSite spec = .ok op) : ClientKeys op.edit.items := by
  rw [RateLimitResolved.items_eq]
  cases hplan : op.plan with
  | none => exact fun _ hmem => absurd hmem List.not_mem_nil
  | some plan =>
      obtain ⟨template, _, hmaterialized⟩ := resolveRateLimitDirective_plan hlimits h hplan
      unfold materializeRateLimitPlan at hmaterialized
      obtain ⟨buckets, hbuckets, hok⟩ := Results.bind_eq_ok_iff.mp hmaterialized
      cases hok
      intro bucket hbucket key hkey
      obtain ⟨_, _, hmaterialize⟩ := Results.exists_of_mem_mapM hbuckets hbucket
      unfold materializeRateLimitBucket at hmaterialize
      obtain ⟨keys, hkeys, hok⟩ := Results.bind_eq_ok_iff.mp hmaterialize
      cases hok
      obtain ⟨_, _, hmaterializeKey⟩ := Results.exists_of_mem_mapM hkeys hkey
      exact materializeRateLimitKey_client hmaterializeKey

/-- A property of every bucket of the directives of a layer holds of those of
the folded layer. -/
theorem mergeAll_items {P : RateLimitBucketResolved → Prop} {ops : List RateLimitResolved}
    (hops : ∀ op ∈ ops, ∀ bucket ∈ op.edit.items, P bucket) {op : RateLimitResolved}
    (h : mergeAll ops = some op) : ∀ bucket ∈ op.edit.items, P bucket := by
  induction ops using List.reverseRecOn generalizing op with
  | nil => cases h
  | append_singleton ops last ih =>
      have hlast := hops last (by simp)
      have hrest : ∀ op ∈ ops, ∀ bucket ∈ op.edit.items, P bucket :=
        fun op hmem => hops op (by simp [hmem])
      unfold mergeAll at h
      rw [List.foldl_append, List.foldl_cons, List.foldl_nil] at h
      change mergeRateLimitResolved (mergeAll ops) (some last) = some op at h
      cases last with
      | clear =>
          rw [mergeRateLimitResolved_reset (by simp)] at h
          cases h
          exact hlast
      | replace plan =>
          rw [mergeRateLimitResolved_reset (by simp)] at h
          cases h
          exact hlast
      | add plan =>
          cases hmerged : mergeAll ops with
          | none =>
              rw [hmerged] at h
              cases h
              exact hlast
          | some merged =>
              rw [hmerged] at h
              have hmergedItems := ih hrest hmerged
              cases merged with
              | clear =>
                  cases h
                  exact hlast
              | add parent =>
                  cases h
                  exact List.forall_mem_append.mpr ⟨hmergedItems, hlast⟩
              | replace parent =>
                  cases h
                  exact List.forall_mem_append.mpr ⟨hmergedItems, hlast⟩

/-- So it is applied to the same effect with and without the endpoint's fields. -/
theorem applyRateLimitOp_client (ctx : ErrorContext) (fields : Ident → String)
    (plan : RateLimitPlan) {op : RateLimitResolved} (h : ClientKeys op.edit.items) :
    applyRateLimitOp ctx none plan op = applyRateLimitOp ctx (some fields) plan op := by
  have hemit : emitRateLimitPlan ctx none op.edit.items =
      emitRateLimitPlan ctx (some fields) op.edit.items := by
    unfold emitRateLimitPlan
    rw [Results.mapM_congr (fun bucket hmem => emitRateLimitBucket_client ctx fields (h bucket hmem))]
  cases op with
  | clear => rfl
  | add more =>
      unfold applyRateLimitOp
      exact congrArg (· >>= fun more => .ok (plan.extend more)) hemit
  | replace other => exact hemit

/-! ## the plan in force -/

/-- Applying the layers is applying what is left of each. -/
theorem foldlM_applyLayer (ctx : ErrorContext) (ep : EmitEp) (plan : RateLimitPlan)
    (policies : List PolicyBlocksResolved) :
    policies.foldlM (fun plan policy => applyLayer ctx ep plan policy.rateLimit) plan =
      (policyOps policies).foldlM (applyRateLimitOp ctx ep) plan := by
  induction policies generalizing plan with
  | nil => rfl
  | cons policy policies ih =>
      unfold policyOps at *
      rw [List.foldlM_cons, List.filterMap_cons]
      cases hlimit : policy.rateLimit with
      | none => exact ih plan
      | some op =>
          rw [List.foldlM_cons]
          exact congrArg _ (funext ih)

/-- The plan in force is that of all layers, the client's first. -/
theorem planInForce_eq (ctx : ErrorContext) (fields : Ident → String)
    {client : PolicyBlocksResolved} (policy : ResolvedPolicySpec)
    (hclient : ∀ op, client.rateLimit = some op → ClientKeys op.edit.items) :
    planInForce ctx fields client policy =
      (client.rateLimit.toList ++ policyOps (policy.scopes ++ [policy.endpoint])).foldlM
        (applyRateLimitOp ctx (some fields)) .new := by
  have hbase : applyLayer ctx none .new client.rateLimit =
      client.rateLimit.toList.foldlM (applyRateLimitOp ctx (some fields)) .new := by
    cases hlimit : client.rateLimit with
    | none => rfl
    | some op =>
        rw [Option.toList_some, List.foldlM_cons, ← applyRateLimitOp_client ctx fields _
          (hclient op hlimit)]
        exact (bind_pure _).symm
  unfold planInForce
  rw [hbase, List.foldlM_append]
  congr 1
  funext plan
  rw [← foldlM_applyLayer, List.foldlM_append]
  congr 1
  funext plan
  exact (bind_pure _).symm

/-- Running what is left of each layer is running the layers as they were merged. -/
theorem run_foldedOps (layers : List (List Attached)) (buckets : List RateLimitBucketResolved) :
    run ((foldedOps layers).map RateLimitResolved.edit) buckets =
      (layers.map (·.map Attached.op)).foldl (fun buckets ops => mergedApply ops buckets)
        buckets := by
  induction layers generalizing buckets with
  | nil => rfl
  | cons layer layers ih =>
      unfold foldedOps at *
      rw [List.filterMap_cons, List.map_cons, List.foldl_cons]
      unfold mergedApply
      cases mergeAll (layer.map Attached.op) with
      | none => exact ih buckets
      | some op =>
          rw [List.map_cons, run_cons, ih]
          rfl

/-- The site of the innermost scope of a chain. -/
theorem ScopesDirectives.site {limits : RateLimitProfiles} {defs : List ProfileDef}
    {keys bound : List RateLimitKeyBindingResolved} {scopes : List RawScope}
    {layers : List (List Attached)} (h : ScopesDirectives limits defs keys scopes bound layers) :
    ∀ layer ∈ layers, ∃ site uses own, SiteDirectives limits defs site uses own layer := by
  induction scopes generalizing keys layers with
  | nil =>
      obtain ⟨_, rfl⟩ := h
      simp
  | cons scope scopes ih =>
      obtain ⟨own, layer, inner, _, hlayer, hinner, rfl⟩ := h
      exact List.forall_mem_cons.mpr ⟨⟨_, _, _, hlayer⟩, ih hinner⟩

/-- What holds of a directive at its site. -/
structure Attached.Sound (directive : Attached) : Prop where
  kind : directive.op.kind = directive.spec.kind
  accepted : AllAccepted directive.op.edit.items
  substantial : directive.op.kind ≠ .off → directive.op.edit.items ≠ []

/-- The directives of a site resolve to plans the resolver accepts. -/
theorem SiteDirectives.sound {limits : RateLimitProfiles} {defs : List ProfileDef}
    {site : AttachmentSite} {uses : List ProfileUseSpec} {own : Option RateLimitSpec}
    {layer : List Attached} (hlimits : ∀ entry ∈ limits, PlanAccepted entry.2)
    (h : SiteDirectives limits defs site uses own layer) :
    ∀ directive ∈ layer, directive.Sound := by
  obtain ⟨_, _, _, hops⟩ := h
  intro directive hmem
  have hop := hops directive hmem
  obtain ⟨haccepted, hsubstantial⟩ := resolveRateLimitDirective_accepted hlimits hop
  exact ⟨resolveRateLimitDirective_kind hop, haccepted, hsubstantial⟩

/-- So do all directives of an endpoint. -/
theorem DirectivesAt.sound {ast : RawApi} {place : List RawScope × RawEndpoint}
    {client : List Attached} {inner : List (List Attached)}
    (h : DirectivesAt ast place (client :: inner)) :
    (∀ layer ∈ client :: inner, ∀ directive ∈ layer, directive.Sound) ∧
      ∀ directive ∈ client, ClientKeys directive.op.edit.items := by
  obtain ⟨limits, client', keys, scopes, own, endpoint, hlimits, hclient, hscopes, _, hendpoint,
    heq⟩ := h
  obtain ⟨rfl, rfl⟩ := List.cons.inj heq
  have haccepted := resolveRateLimitProfiles_accepted hlimits
  constructor
  · intro layer hmem
    cases List.mem_cons.mp hmem with
    | inl hlayer =>
        rw [hlayer]
        exact hclient.sound haccepted
    | inr hmem =>
        cases List.mem_append.mp hmem with
        | inl hmem =>
            obtain ⟨site, uses, own, hsite⟩ := hscopes.site layer hmem
            exact hsite.sound haccepted
        | inr hmem =>
            rw [List.mem_singleton.mp hmem]
            exact hendpoint.sound haccepted
  · obtain ⟨_, _, _, hops⟩ := hclient
    exact fun directive hmem => resolveRateLimitDirective_client haccepted (hops directive hmem)

/-- Buckets in front of emitted ones change the plan. -/
theorem emitted_append_eq_iff {ctx : ErrorContext} {ep : EmitEp}
    {lost buckets : List RateLimitBucketResolved} {plan : RateLimitPlan}
    (h : emitRateLimitPlan ctx ep buckets = .ok plan) :
    emitRateLimitPlan ctx ep (lost ++ buckets) = .ok plan ↔ lost = [] := by
  constructor
  · intro heq
    have hlength := (emitRateLimitPlan_eq_ok_iff.mp heq).length_eq
    rw [← (emitRateLimitPlan_eq_ok_iff.mp h).length_eq, List.length_append] at hlength
    exact List.length_eq_zero_iff.mp (by omega)
  · intro hnil
    rw [hnil, List.nil_append, h]

/-- Sound directives hold accepted plans. -/
theorem flatten_accepted {layers : List (List Attached)}
    (hsound : ∀ layer ∈ layers, ∀ directive ∈ layer, directive.Sound) :
    ∀ op ∈ (layers.map (·.map Attached.op)).flatten, AllAccepted op.edit.items := by
  intro op hmem
  obtain ⟨ops, hops, hop⟩ := List.mem_flatten.mp hmem
  obtain ⟨layer, hlayer, rfl⟩ := List.mem_map.mp hops
  obtain ⟨directive, hdirective, rfl⟩ := List.mem_map.mp hop
  exact (hsound layer hlayer directive hdirective).accepted

/-- The directives one by one give what their edits leave. -/
theorem oneByOne_eq {client : List Attached} {inner : List (List Attached)}
    (hsound : ∀ layer ∈ client :: inner, ∀ directive ∈ layer, directive.Sound)
    (hclient : ∀ directive ∈ client, ClientKeys directive.op.edit.items) (ctx : ErrorContext)
    (fields : Ident → String) :
    oneByOne ctx fields (client :: inner) =
      emitRateLimitPlan ctx (some fields)
        (oneByOneBuckets ((client :: inner).map (·.map Attached.op))) := by
  have hbase : (client.map Attached.op).foldlM (applyRateLimitOp ctx none) .new =
      (client.map Attached.op).foldlM (applyRateLimitOp ctx (some fields)) .new := by
    apply Results.foldlM_congr
    intro plan op hmem
    obtain ⟨directive, hdirective, rfl⟩ := List.mem_map.mp hmem
    exact applyRateLimitOp_client ctx fields plan (hclient directive hdirective)
  have hflatten : ((client :: inner).map (·.map Attached.op)).flatten =
      client.map Attached.op ++ inner.flatten.map Attached.op := by
    rw [List.map_cons, List.flatten_cons, List.map_flatten]
  unfold oneByOneBuckets
  rw [oneByOne, hbase, ← List.foldlM_append, hflatten]
  apply foldlM_applyRateLimitOp (fun _ hmem => absurd hmem List.not_mem_nil) _ rfl
  rw [← hflatten]
  exact flatten_accepted hsound

/-- The folded layers give what their edits leave. -/
theorem planInForce_eq_layered {client : List Attached} {inner : List (List Attached)}
    (hsound : ∀ layer ∈ client :: inner, ∀ directive ∈ layer, directive.Sound)
    (hclient : ∀ directive ∈ client, ClientKeys directive.op.edit.items) (ctx : ErrorContext)
    (fields : Ident → String) {policy : PolicyBlocksResolved} {endpoint : ResolvedPolicySpec}
    (hpolicy : policy.rateLimit = mergeAll (client.map Attached.op))
    (hops : policyOps (endpoint.scopes ++ [endpoint.endpoint]) = foldedOps inner) :
    planInForce ctx fields policy endpoint =
      emitRateLimitPlan ctx (some fields)
        (layeredBuckets ((client :: inner).map (·.map Attached.op))) := by
  have hkeys : ∀ op, policy.rateLimit = some op → ClientKeys op.edit.items := by
    intro op hop
    rw [hpolicy] at hop
    refine mergeAll_items ?_ hop
    intro op hmem
    obtain ⟨directive, hdirective, rfl⟩ := List.mem_map.mp hmem
    exact hclient directive hdirective
  have hfolded : policy.rateLimit.toList ++ foldedOps inner = foldedOps (client :: inner) := by
    unfold foldedOps
    rw [hpolicy, List.filterMap_cons]
    cases mergeAll (client.map Attached.op) <;> rfl
  rw [planInForce_eq ctx fields endpoint hkeys, hops, hfolded]
  unfold layeredBuckets
  rw [← run_foldedOps]
  apply foldlM_applyRateLimitOp (fun _ hmem => absurd hmem List.not_mem_nil) _ rfl
  intro op hmem
  obtain ⟨layer, hlayer, hop⟩ := List.mem_filterMap.mp hmem
  refine mergeAll_items ?_ hop
  intro op hmem
  obtain ⟨directive, hdirective, rfl⟩ := List.mem_map.mp hmem
  exact (hsound layer hlayer directive hdirective).accepted

/-- The buckets the directives leave one by one are accepted. -/
theorem oneByOneBuckets_accepted {layers : List (List Attached)}
    (hsound : ∀ layer ∈ layers, ∀ directive ∈ layer, directive.Sound) :
    AllAccepted (oneByOneBuckets (layers.map (·.map Attached.op))) := by
  refine run_forall ?_ (fun _ hmem => absurd hmem List.not_mem_nil)
  intro edit hmem
  obtain ⟨op, hop, rfl⟩ := List.mem_map.mp hmem
  exact flatten_accepted hsound op hop

/-- And their kinds are those of their forms. -/
theorem kindsOf_eq {layers : List (List Attached)}
    (hsound : ∀ layer ∈ layers, ∀ directive ∈ layer, directive.Sound) :
    kindsOf (layers.map (·.map Attached.op)) = layers.map (·.map (·.spec.kind)) := by
  unfold kindsOf
  rw [List.map_map]
  apply List.map_congr_left
  intro layer hlayer
  rw [Function.comp_apply, List.map_map]
  apply List.map_congr_left
  intro directive hdirective
  exact (hsound layer hlayer directive hdirective).kind

/-- Rate-limit directives of an accepted API: they can all be emitted one by
one, and the plan an endpoint is called with is the plan they give one by one
just when no layer adds to the plan after an `off` that clears something and
nothing further in clears or replaces the plan again.  Then the prepared policy
has this plan as well, with equal buckets once. -/
theorem rateLimit_directives_exact {toUppercase : Char → List Char} {ast : RawApi}
    {pipeline : ResolvedApiPipeline} (h : analyzePipeline toUppercase ast = .ok pipeline) :
    List.Forall₂ (fun place endpoint =>
        (∃ layers, DirectivesAt ast place layers) ∧
          ∀ layers, DirectivesAt ast place layers → ∀ ctx fields, ∃ plan,
            oneByOne ctx fields layers = .ok plan ∧
            (planInForce ctx fields pipeline.api.clientPolicy endpoint.policy = .ok plan ↔
              ¬ LosesOff (layers.map (·.map (·.spec.kind)))) ∧
            (¬ LosesOff (layers.map (·.map (·.spec.kind))) →
              preparedPlan ctx fields pipeline.api.clientPolicy endpoint.policy =
                .ok plan.canonicalize))
      (places ast.items []) pipeline.api.endpoints := by
  refine (directivesAt_of_accepted h).imp ?_
  intro place endpoint hplace
  obtain ⟨client, inner, hat, hpolicy, hops⟩ := hplace
  refine ⟨⟨_, hat⟩, ?_⟩
  intro layers hlayers ctx fields
  rw [hlayers.unique hat]
  obtain ⟨hsound, hclient⟩ := hat.sound
  obtain ⟨plan, hplan⟩ := emitRateLimitPlan_ok ctx fields (oneByOneBuckets_accepted hsound)
  have hsubstantial : ∀ ops ∈ (client :: inner).map (·.map Attached.op), Substantial ops := by
    intro ops hmem op hop
    obtain ⟨layer, hlayer, rfl⟩ := List.mem_map.mp hmem
    obtain ⟨directive, hdirective, rfl⟩ := List.mem_map.mp hop
    exact (hsound layer hlayer directive hdirective).substantial
  obtain ⟨lost, hlost, hloses⟩ := layeredBuckets_eq hsubstantial
  have hiff : planInForce ctx fields pipeline.api.clientPolicy endpoint.policy = .ok plan ↔
      ¬ LosesOff ((client :: inner).map (·.map (·.spec.kind))) := by
    rw [planInForce_eq_layered hsound hclient ctx fields hpolicy hops, hlost,
      emitted_append_eq_iff hplan, hloses, kindsOf_eq hsound]
  refine ⟨plan, ?_, hiff, fun hkept => ?_⟩
  · rw [oneByOne_eq hsound hclient, hplan]
  · rw [preparedPlan, hiff.mpr hkept]
    rfl

/-! ## an `off` that is lost -/

/-- Ten requests a second. -/
def tenPerSecond (kind : Ident) : RateLimitBucketSpec := ⟨kind, [], none, [⟨10, 1, .seconds⟩]⟩

/-- A plain directive that names one profile. -/
def methodLimit : RateLimitSpec := .profiles false ["method"] (by decide)

/-- Limits `app` and `method`, the first one by default, and a profile
`unlimited` that turns limits off. -/
def limitedClient : RawClient :=
  { RawClient.bare "Api" with
    rateLimit := some
      { profiles :=
          [⟨"app", none, ⟨[tenPerSecond "app"], by decide⟩⟩,
            ⟨"method", none, ⟨[tenPerSecond "method"], by decide⟩⟩]
        default := ["app"]
        responsePolicy := none }
    profiles := some ⟨[⟨"unlimited", none, ⟨[], some .off⟩⟩]⟩ }

/-- An endpoint that drops the limits around it and sets its own. -/
def refilledEndpoint : RawEndpoint :=
  { RawEndpoint.bare "Get" with
    profileUses := [⟨["unlimited"]⟩]
    rateLimit := some methodLimit }

/-- A client default, and an endpoint that turns it off and adds a limit in one layer. -/
def refilledApi : RawApi := ⟨limitedClient, .endpoint refilledEndpoint .nil⟩

/-- What a directive naming the profile resolves to. -/
def tenPerSecondAdded (name : String) : RateLimitResolved :=
  .add ⟨[⟨name, name ++ "_0", [], 1, [⟨10, 1⟩]⟩]⟩

/-- And the bucket it adds. -/
def tenPerSecondUse (name : String) : RateLimitBucketUse :=
  ⟨⟨name, name ++ "_0"⟩, ⟨[]⟩, [⟨10, nanosPerSecond, Nat.succ_pos _⟩], 1, Nat.one_pos⟩

/-- The two layers of the endpoint. -/
def refilledLayers : List (List Attached) :=
  [[⟨.profiles false ["app"] (by decide), tenPerSecondAdded "app"⟩],
    [⟨.off, .clear⟩, ⟨methodLimit, tenPerSecondAdded "method"⟩]]

/-- The endpoint named in its errors. -/
def sampleContext : ErrorContext := ⟨"Get", .get⟩

/-- The endpoint whose `off` is lost in the merge. -/
theorem rateLimit_directives_exact_refilled :
    ∃ pipeline, analyzePipeline asciiUppercase refilledApi = .ok pipeline ∧
      List.Forall₂ (fun place endpoint => ∃ layers plan, DirectivesAt refilledApi place layers ∧
          oneByOne sampleContext (fun _ => "") layers = .ok plan ∧
          (planInForce sampleContext (fun _ => "") pipeline.api.clientPolicy endpoint.policy =
            .ok plan ↔ ¬ LosesOff (layers.map (·.map (·.spec.kind)))))
        (places refilledApi.items []) pipeline.api.endpoints := by
  obtain ⟨pipeline, hpipeline, _⟩ := Results.exists_ok_of_any
    (x := analyzePipeline asciiUppercase refilledApi) (p := fun _ => true) (by decide +kernel)
  refine ⟨pipeline, hpipeline, (rateLimit_directives_exact hpipeline).imp ?_⟩
  intro place endpoint h
  obtain ⟨⟨layers, hlayers⟩, hexact⟩ := h
  obtain ⟨plan, hplan, hiff, _⟩ := hexact layers hlayers sampleContext (fun _ => "")
  exact ⟨layers, plan, hlayers, hplan, hiff⟩

/-- One by one, the endpoint has its own limit; it is called with the limit of
the client as well. -/
theorem rateLimit_off_lost :
    DirectivesAt refilledApi ([], refilledEndpoint) refilledLayers ∧
      oneByOne sampleContext (fun _ => "") refilledLayers = .ok ⟨[tenPerSecondUse "method"]⟩ ∧
      ∃ pipeline endpoint, analyzePipeline asciiUppercase refilledApi = .ok pipeline ∧
        pipeline.api.endpoints = [endpoint] ∧
        planInForce sampleContext (fun _ => "") pipeline.api.clientPolicy endpoint.policy =
          .ok ⟨[tenPerSecondUse "app", tenPerSecondUse "method"]⟩ := by
  refine ⟨?_, by decide +kernel, ?_⟩
  · refine ⟨_, _, [], [], [], _, rfl, ⟨[], .nil, rfl, ?_⟩, ⟨rfl, rfl⟩, rfl,
      ⟨[[⟨"unlimited", none, ⟨[], some .off⟩⟩]], .cons (.root rfl rfl) .nil, rfl, ?_⟩, rfl⟩
    · decide +kernel
    · decide +kernel
  · obtain ⟨pipeline, hpipeline, hcheck⟩ := Results.exists_ok_of_any
      (x := analyzePipeline asciiUppercase refilledApi)
      (p := fun pipeline => pipeline.api.endpoints.map (fun endpoint =>
          planInForce sampleContext (fun _ => "") pipeline.api.clientPolicy endpoint.policy) =
        [.ok ⟨[tenPerSecondUse "app", tenPerSecondUse "method"]⟩]) (by decide +kernel)
    obtain ⟨endpoint, hendpoint, hplan⟩ := List.map_eq_singleton_iff.mp (of_decide_eq_true hcheck)
    exact ⟨pipeline, endpoint, hpipeline, hendpoint, hplan⟩

end Concord.Sema
