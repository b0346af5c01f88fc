import Concord.Lib.Ranked
import Concord.Sema.Inheritance

/-!
# Concord.Sema.Acquisition

Credentials that are acquired through endpoints.

An endpoint that acquires a credential may itself need credentials, through
the client, its scopes, profiles or its own declaration.  The resolver refuses
an endpoint that needs the credential it acquires.
-/

namespace Concord.Sema

open Relation Ranked

/-! ## what credentials need -/

/-- The endpoint as a credential names it. -/
def ResolvedEndpoint.target (ep : ResolvedEndpoint) : EndpointTargetIr := ⟨ep.scopeModules, ep.name⟩

/-- The endpoint that acquires a credential. -/
def AuthCredentialIr.acquiredThrough (cred : AuthCredentialIr) : Option EndpointTargetIr :=
  match cred.kind with
  | .endpoint target _ _ => some target
  | _ => none

/-- A credential is acquired through an endpoint that needs another. -/
def Needs (api : ResolvedApi) (credential other : Ident) : Prop :=
  ∃ cred ∈ api.clientAuthCredentials, cred.name = credential ∧
    ∃ ep ∈ api.endpoints, cred.acquiredThrough = some ep.target ∧
      ∃ requirement ∈ ep.policy.auth, requirement.credential = other

instance (api : ResolvedApi) (credential other : Ident) : Decidable (Needs api credential other) :=
  inferInstanceAs (Decidable (∃ cred ∈ api.clientAuthCredentials, _))

/-- A site uses a credential: one of its profiles, an ancestor of one, or the
site itself. -/
def UsedAt (defs : List ProfileDef) (uses : List ProfileUseSpec) (own : List AuthUseKind)
    (credential : Ident) : Prop :=
  ∃ lines, List.Forall₂ (Lineage defs) (profileUseNames uses) lines ∧
    credential ∈ (lines.flatten.flatMap (·.patch.authUses) ++ own).map AuthUseKind.credential

/-- The client, a scope around the place or its endpoint uses a credential. -/
def UsedAround (ast : RawApi) (place : List RawScope × RawEndpoint) (credential : Ident) : Prop :=
  UsedAt ast.client.profileDefs ast.client.defaultProfileUses ast.client.authUses credential ∨
  (∃ scope ∈ place.1,
    UsedAt ast.client.profileDefs scope.profileUses scope.authUses credential) ∨
  UsedAt ast.client.profileDefs place.2.profileUses place.2.authUses credential

/-- The credentials of the client's block. -/
def declaredCredentials : Option AuthCredentials → List AuthCredentialDecl
  | none => []
  | some block => block.credentials

/-- What the declaration says a credential needs. -/
def DeclaredNeeds (ast : RawApi) (credential other : Ident) : Prop :=
  ∃ decl ∈ declaredCredentials ast.client.auth, decl.name = credential ∧
    ∃ path, decl.kind = .endpoint path ∧
      ∃ place ∈ places ast.items [],
        endpointTargetFromPath path =
          .ok ⟨place.1.filterMap RawScope.scopeName, place.2.name⟩ ∧
        UsedAround ast place other

/-- The credentials can be acquired one after the other: an endpoint that
acquires one uses no other than those that come before it. -/
def AcquisitionOrdered (ast : RawApi) : Prop :=
  ∃ rank : Ident → Nat, ∀ credential other, DeclaredNeeds ast credential other →
    other ≠ credential → rank other < rank credential

/-! ## requirements and the uses they come from -/

/-- A use keeps its credential. -/
theorem resolveUse_credential {kind : AuthUseKind} {resolved : AuthUseKindIr}
    (h : resolveUse kind = .ok resolved) : resolved.credential = kind.credential := by
  cases kind <;>
    (unfold resolveUse at h
     obtain ⟨_, _, hok⟩ := Results.bind_eq_ok_iff.mp h
     cases hok
     rfl)

/-- So does a use that is resolved in its place. -/
theorem resolveAuthUseKind_eq_ok {credentials : List AuthCredentialIr}
    {provenance : AuthUseProvenanceIr} {kind : AuthUseKind} {use : AuthUseIr}
    (h : resolveAuthUseKind credentials provenance kind = .ok use) :
    use.kind.credential = kind.credential ∧
      ∃ cred ∈ credentials, cred.name = use.kind.credential := by
  unfold resolveAuthUseKind at h
  split at h
  · cases h
  · next cred hfind =>
      obtain ⟨_, _, hrest⟩ := Results.bind_eq_ok_iff.mp h
      obtain ⟨resolved, hresolved, hok⟩ := Results.bind_eq_ok_iff.mp hrest
      cases hok
      have hname := List.find?_some hfind
      have hcredential := resolveUse_credential hresolved
      refine ⟨hcredential, cred, List.mem_of_find?_eq_some hfind, ?_⟩
      simpa [hcredential] using hname

/-- Requirements name the credentials of the uses, and these are declared. -/
theorem resolveAuthRequirements_eq_ok {uses : List AuthUseKind}
    {credentials : List AuthCredentialIr} {provenance : AuthUseProvenanceIr}
    {out : List AuthUseIr} (h : resolveAuthRequirements uses credentials provenance = .ok out) :
    out.map (·.kind.credential) = uses.map AuthUseKind.credential ∧
      ∀ use ∈ out, ∃ cred ∈ credentials, cred.name = use.kind.credential := by
  unfold resolveAuthRequirements at h
  obtain ⟨_, -, hmap⟩ := Results.bind_eq_ok_iff.mp h
  have hforall := Results.mapM_eq_ok_iff.mp hmap
  constructor
  · refine (Pairs.map_eq_map ?_ hforall).symm
    intro use kind huse
    exact (resolveAuthUseKind_eq_ok huse).1.symm
  · intro use huse
    obtain ⟨kind, _, hkind⟩ := Pairs.exists_left hforall huse
    exact (resolveAuthUseKind_eq_ok hkind).2

/-- The credentials used at a site. -/
theorem usedAt_iff {defs : List ProfileDef} {profiles : Profiles}
    (hsound : ProfilesSound defs profiles) {uses : List ProfileUseSpec} {profile : ProfileResolved}
    (h : resolveProfileUses uses profiles = .ok profile) {own : List AuthUseKind}
    {credential : Ident} :
    UsedAt defs uses own credential ↔
      credential ∈ (profile.authUses ++ own).map AuthUseKind.credential := by
  obtain ⟨lines, hlines, rfl⟩ := resolveProfileUses_lines hsound h
  constructor
  · intro hused
    obtain ⟨lines', hlines', hmem⟩ := hused
    rw [lines_unique hlines' hlines] at hmem
    exact hmem
  · intro hmem
    exact ⟨lines, hlines, hmem⟩

/-- A resolved site requires the credentials it uses. -/
theorem mem_requirements_iff {defs : List ProfileDef} {profiles : Profiles}
    (hsound : ProfilesSound defs profiles) {uses : List ProfileUseSpec} {profile : ProfileResolved}
    {own : List AuthUseKind} {credentials : List AuthCredentialIr}
    {provenance : AuthUseProvenanceIr} {out : List AuthUseIr}
    (hprofile : resolveProfileUses uses profiles = .ok profile)
    (h : resolveAuthRequirements (profile.authUses ++ own) credentials provenance = .ok out)
    (credential : Ident) :
    credential ∈ out.map (·.kind.credential) ↔ UsedAt defs uses own credential := by
  rw [(resolveAuthRequirements_eq_ok h).1, usedAt_iff hsound hprofile]

/-! ## the resolved client -/

/-- What the walk gets to know about authentication. -/
structure ClientAuth (client : RawClient) (cx : WalkItemsCtx) : Prop where
  profiles : ProfilesSound client.profileDefs cx.profiles
  uses : ∀ credential, credential ∈ cx.clientAuth.map (·.kind.credential) ↔
    UsedAt client.profileDefs client.defaultProfileUses client.authUses credential
  declared : ∀ use ∈ cx.clientAuth, ∃ cred ∈ cx.authCredentials, cred.name = use.kind.credential
  credentials : ∃ authVars outputs, List.Forall₂
    (fun decl cred => cred.name = decl.name ∧
      analyzeAuthCredentialKind authVars outputs decl.kind = .ok cred.kind)
    (declaredCredentials client.auth) cx.authCredentials

/-- The declared credentials, one by one. -/
theorem analyzeAuthCredentialDecls_eq_ok {authVars : VarMap} {outputs : EndpointOutputs}
    {seen : List Ident} {decls : List AuthCredentialDecl} {credentials : List AuthCredentialIr}
    (h : analyzeAuthCredentialDecls authVars outputs seen decls = .ok credentials) :
    List.Forall₂
      (fun decl cred => cred.name = decl.name ∧
        analyzeAuthCredentialKind authVars outputs decl.kind = .ok cred.kind)
      decls credentials := by
  induction decls generalizing seen credentials with
  | nil =>
      cases h
      exact .nil
  | cons decl decls ih =>
      unfold analyzeAuthCredentialDecls at h
      simp only [check_eq_ok_iff, Results.bind_eq_ok_iff, Except.ok.injEq] at h
      obtain ⟨_, kind, hkind, rest, hrest, rfl⟩ := h
      exact .cons ⟨rfl, hkind⟩ (ih hrest)

/-- What the walk gets of the client's auth. -/
theorem clientAuth_of_resolveClient {client : RawClient} {items : NormItems}
    {resolved : ClientResolved} (h : resolveClient client items = .ok resolved) :
    ClientAuth client resolved.ctx := by
  unfold resolveClient at h
  simp only [Results.bind_eq_ok_iff, Except.ok.injEq] at h
  obtain ⟨_, _, authVars, _, outputs, _, credentials, hcredentials, _, _, profiles, hprofiles, _,
    _, profile, hprofile, _, _, auth, hauth, _, _, _, _, rfl⟩ := h
  have hsound : ProfilesSound client.profileDefs profiles := resolveProfiles_sound hprofiles
  refine ⟨hsound, mem_requirements_iff hsound hprofile hauth,
    (resolveAuthRequirements_eq_ok hauth).2, authVars.1, outputs, ?_⟩
  unfold analyzeAuthCredentials at hcredentials
  unfold declaredCredentials
  cases hblock : client.auth with
  | none =>
      rw [hblock] at hcredentials
      cases hcredentials
      exact .nil
  | some block =>
      rw [hblock] at hcredentials
      exact analyzeAuthCredentialDecls_eq_ok hcredentials

/-! ## the requirements of an endpoint -/

/-- What it has after the scopes it entered. -/
theorem Enters.auth {client : RawClient} {cx : WalkItemsCtx} (hclient : ClientAuth client cx)
    {scopes : List RawScope} {inh : Inherited} (h : Enters cx scopes inh) :
    (∀ credential, credential ∈ inh.auth.map (·.kind.credential) ↔
      UsedAt client.profileDefs client.defaultProfileUses client.authUses credential ∨
        ∃ scope ∈ scopes, UsedAt client.profileDefs scope.profileUses scope.authUses credential) ∧
    ∀ use ∈ inh.auth, ∃ cred ∈ cx.authCredentials, cred.name = use.kind.credential := by
  induction h with
  | client =>
      refine ⟨fun credential => ?_, hclient.declared⟩
      have huses := hclient.uses credential
      simpa [Inherited.ofClient] using huses
  | @scope scopes inh inh' scope id _ hscope ih =>
      obtain ⟨huses, hdeclared⟩ := ih
      obtain ⟨host, path, facts, _, _, hfacts, rfl⟩ := directScope_eq_ok_iff.mp hscope
      unfold directScopeFacts at hfacts
      simp only [Results.bind_eq_ok_iff, Except.ok.injEq] at hfacts
      obtain ⟨_, _, _, _, profile, hprofile, _, _, _, _, _, _, auth, hauth, rfl⟩ := hfacts
      have hown := mem_requirements_iff hclient.profiles hprofile hauth
      constructor
      · intro credential
        simp only [Inherited.enter, List.map_append, List.mem_append, huses, hown]
        simp only [List.mem_singleton, or_assoc, or_and_right, exists_or, exists_eq_left]
      · intro use huse
        cases List.mem_append.mp huse with
        | inl hinh => exact hdeclared use hinh
        | inr hauthUse => exact (resolveAuthRequirements_eq_ok hauth).2 use hauthUse

/-- The requirements of an endpoint are those of the credentials it uses. -/
theorem map_materializeAuthRequirements (plans : List AuthUseIr) (step : String) (start : Nat) :
    (materializeAuthRequirements plans step start).map AuthRequirementIr.credential =
      plans.map (·.kind.credential) := by
  unfold materializeAuthRequirements
  rw [List.map_map]
  induction plans generalizing start with
  | nil => rfl
  | cons plan plans ih =>
      rw [List.zipIdx_cons, List.map_cons, List.map_cons, ih]
      rfl

/-- The requirements of an endpoint, as its place says. -/
structure EndpointAuth (ast : RawApi) (cx : WalkItemsCtx) (place : List RawScope × RawEndpoint)
    (ep : ResolvedEndpoint) : Prop where
  target : ep.target = ⟨place.1.filterMap RawScope.scopeName, place.2.name⟩
  uses : ∀ credential, credential ∈ ep.policy.auth.map AuthRequirementIr.credential ↔
    UsedAround ast place credential
  declared : ∀ credential ∈ ep.policy.auth.map AuthRequirementIr.credential,
    credential ∈ cx.authCredentials.map AuthCredentialIr.name
  checked : selfAcquired cx.authCredentials ep.target ep.policy.auth = none

/-- The auth of an endpoint, by its place. -/
theorem endpointAuth_of_endpointAt {ast : RawApi} {cx : WalkItemsCtx}
    (hclient : ClientAuth ast.client cx) {place : List RawScope × RawEndpoint}
    {ep : ResolvedEndpoint} (h : EndpointAt cx place ep) : EndpointAuth ast cx place ep := by
  obtain ⟨inh, henters, hdirect⟩ := h
  have htaken := takenFrom_of_directEndpoint hdirect
  obtain ⟨profile, hprofile, hauth⟩ := htaken.auth
  obtain ⟨⟨own, hown, heq⟩, _, hchecked⟩ := directEndpointAuth_eq_ok hauth
  have htarget : ep.target = ⟨inh.scopeModules, place.2.name⟩ := by
    rw [ResolvedEndpoint.target, htaken.scopeModules, htaken.name]
  have hcredentials : ep.policy.auth.map AuthRequirementIr.credential =
      (inh.auth ++ own).map (·.kind.credential) := by
    rw [heq, map_materializeAuthRequirements]
  obtain ⟨huses, hdeclared⟩ := henters.auth hclient
  constructor
  case target => rw [htarget, henters.scopeModules]
  case uses =>
    intro credential
    rw [hcredentials, List.map_append, List.mem_append, huses,
      mem_requirements_iff hclient.profiles hprofile hown, or_assoc]
    rfl
  case declared =>
    intro credential hcredential
    rw [hcredentials] at hcredential
    obtain ⟨use, huse, rfl⟩ := List.mem_map.mp hcredential
    obtain ⟨cred, hcred, hname⟩ :
        ∃ cred ∈ cx.authCredentials, cred.name = use.kind.credential := by
      cases List.mem_append.mp huse with
      | inl hinh => exact hdeclared use hinh
      | inr hmem => exact (resolveAuthRequirements_eq_ok hown).2 use hmem
    exact List.mem_map.mpr ⟨cred, hcred, hname⟩
  case checked =>
    rw [htarget]
    exact hchecked

/-- What an accepted declaration says of the credentials of its API. -/
structure ApiAuth (ast : RawApi) (api : ResolvedApi) : Prop where
  credentials : ∃ authVars outputs, List.Forall₂
    (fun decl cred => cred.name = decl.name ∧
      analyzeAuthCredentialKind authVars outputs decl.kind = .ok cred.kind)
    (declaredCredentials ast.client.auth) api.clientAuthCredentials
  endpoints : ∃ cx : WalkItemsCtx, cx.authCredentials = api.clientAuthCredentials ∧
    List.Forall₂ (EndpointAuth ast cx) (places ast.items []) api.endpoints

/-- The auth of an accepted API, by its declaration. -/
theorem apiAuth_of_accepted {toUppercase : Char → List Char} {ast : RawApi}
    {pipeline : ResolvedApiPipeline} (h : analyzePipeline toUppercase ast = .ok pipeline) :
    ApiAuth ast pipeline.api := by
  obtain ⟨items, client, hresolved, _, hcredentials, hplaces⟩ := endpoints_at_places h
  have hclient := clientAuth_of_resolveClient hresolved
  refine ⟨?_, client.ctx, hcredentials.symm, ?_⟩
  · rw [hcredentials]
    exact hclient.credentials
  · exact hplaces.imp (fun _ _ hat => endpointAuth_of_endpointAt hclient hat)

/-! ## the graph of credentials -/

/-- A credential that is acquired through an endpoint was declared so. -/
theorem analyzeAuthCredentialKind_endpoint {authVars : VarMap} {outputs : EndpointOutputs}
    {kind : AuthCredentialKind} {target : EndpointTargetIr} {outputTy : RustType}
    {shape : AuthMaterialShapeIr}
    (h : analyzeAuthCredentialKind authVars outputs kind = .ok (.endpoint target outputTy shape)) :
    ∃ path, kind = .endpoint path ∧ endpointTargetFromPath path = .ok target := by
  unfold analyzeAuthCredentialKind at h
  cases kind with
  | endpoint path =>
      obtain ⟨found, hfound, hrest⟩ := Results.bind_eq_ok_iff.mp h
      split at hrest
      · cases hrest
      · cases hrest
        exact ⟨path, rfl, hfound⟩
  | apiKey secret | staticBearer secret =>
      obtain ⟨_, _, hrest⟩ := Results.bind_eq_ok_iff.mp h
      cases hrest
  | basic username password =>
      simp only [Results.bind_eq_ok_iff] at h
      obtain ⟨_, _, _, _, hrest⟩ := h
      cases hrest
  | oAuth2ClientCredentials tokenUrl clientId clientSecret scope =>
      simp only [Results.bind_eq_ok_iff] at h
      obtain ⟨_, _, _, _, _, _, hrest⟩ := h
      cases hrest

/-- And one that is declared so is acquired so. -/
theorem endpoint_kind_of_decl {authVars : VarMap} {outputs : EndpointOutputs}
    {path : List PathSegment} {target : EndpointTargetIr} {kind : AuthCredentialKindIr}
    (h : analyzeAuthCredentialKind authVars outputs (.endpoint path) = .ok kind)
    (htarget : endpointTargetFromPath path = .ok target) :
    ∃ outputTy shape, kind = .endpoint target outputTy shape := by
  unfold analyzeAuthCredentialKind at h
  simp only [htarget, Results.ok_bind] at h
  split at h
  · cases h
  · cases h
    exact ⟨_, _, rfl⟩

/-- The endpoint a credential is acquired through. -/
theorem acquiredThrough_eq_some_iff {cred : AuthCredentialIr} {target : EndpointTargetIr} :
    cred.acquiredThrough = some target ↔
      ∃ outputTy shape, cred.kind = .endpoint target outputTy shape := by
  unfold AuthCredentialIr.acquiredThrough
  cases cred.kind <;> simp

/-- The resolved graph is the declared one. -/
theorem needs_iff_declaredNeeds {ast : RawApi} {api : ResolvedApi} (h : ApiAuth ast api)
    {credential other : Ident} :
    Needs api credential other ↔ DeclaredNeeds ast credential other := by
  obtain ⟨authVars, outputs, hcredentials⟩ := h.credentials
  obtain ⟨cx, _, hendpoints⟩ := h.endpoints
  constructor
  · intro hneeds
    obtain ⟨cred, hcred, rfl, ep, hep, htarget, requirement, hrequirement, rfl⟩ := hneeds
    obtain ⟨outputTy, shape, hkind⟩ := acquiredThrough_eq_some_iff.mp htarget
    obtain ⟨decl, hdecl, hname, hanalyzed⟩ := Pairs.exists_left hcredentials hcred
    obtain ⟨place, hplace, hauth⟩ := Pairs.exists_left hendpoints hep
    rw [hkind] at hanalyzed
    obtain ⟨path, hpath, hfound⟩ := analyzeAuthCredentialKind_endpoint hanalyzed
    refine ⟨decl, hdecl, hname.symm, path, hpath, place, hplace, ?_, ?_⟩
    · rw [hfound, hauth.target]
    · exact (hauth.uses _).mp (List.mem_map_of_mem hrequirement)
  · intro hneeds
    obtain ⟨decl, hdecl, rfl, path, hpath, place, hplace, hfound, hused⟩ := hneeds
    obtain ⟨cred, hcred, hname, hanalyzed⟩ := Pairs.exists_right hcredentials hdecl
    obtain ⟨ep, hep, hauth⟩ := Pairs.exists_right hendpoints hplace
    rw [hpath] at hanalyzed
    obtain ⟨outputTy, shape, hkind⟩ := endpoint_kind_of_decl hanalyzed hfound
    obtain ⟨requirement, hrequirement, hother⟩ := List.mem_map.mp ((hauth.uses other).mpr hused)
    refine ⟨cred, hcred, hname, ep, hep, ?_, requirement, hrequirement, hother⟩
    rw [hauth.target]
    exact acquiredThrough_eq_some_iff.mpr ⟨outputTy, shape, hkind⟩

/-- An endpoint does not need the credential it acquires. -/
theorem not_needs_self {ast : RawApi} {api : ResolvedApi} (h : ApiAuth ast api)
    (credential : Ident) : ¬ Needs api credential credential := by
  intro hneeds
  obtain ⟨cred, hcred, rfl, ep, hep, htarget, requirement, hrequirement, hother⟩ := hneeds
  obtain ⟨outputTy, shape, hkind⟩ := acquiredThrough_eq_some_iff.mp htarget
  obtain ⟨cx, hcredentials, hendpoints⟩ := h.endpoints
  obtain ⟨place, _, hauth⟩ := Pairs.exists_left hendpoints hep
  have hchecked := hauth.checked
  unfold selfAcquired at hchecked
  have hnone := List.find?_eq_none.mp hchecked cred
    (List.mem_insertionSort _ |>.mpr (hcredentials ▸ hcred))
  simp only [hkind, decide_true, Bool.true_and] at hnone
  exact hnone (List.any_eq_true.mpr ⟨requirement, hrequirement, decide_eq_true hother⟩)

/-- Only declared credentials need one another. -/
theorem needs_declared {ast : RawApi} {api : ResolvedApi} (h : ApiAuth ast api)
    {credential other : Ident} (hneeds : Needs api credential other) :
    other ∈ (api.clientAuthCredentials.map AuthCredentialIr.name).toFinset := by
  obtain ⟨cred, _, _, ep, hep, _, requirement, hrequirement, rfl⟩ := hneeds
  obtain ⟨cx, hcredentials, hendpoints⟩ := h.endpoints
  obtain ⟨place, _, hauth⟩ := Pairs.exists_left hendpoints hep
  rw [List.mem_toFinset, ← hcredentials]
  exact hauth.declared _ (List.mem_map_of_mem hrequirement)

/-- Acquiring a credential of an accepted API never needs that credential again,
through any number of endpoints, exactly if the declaration lets its
credentials be acquired in some order. -/
theorem acquisition_acyclic_iff {toUppercase : Char → List Char} {ast : RawApi}
    {pipeline : ResolvedApiPipeline} (h : analyzePipeline toUppercase ast = .ok pipeline) :
    (∀ credential, ¬ TransGen (Needs pipeline.api) credential credential) ↔
      AcquisitionOrdered ast := by
  have hauth := apiAuth_of_accepted h
  have hranked : Acyclic (Needs pipeline.api) ↔ ∃ rank, Descends (Needs pipeline.api) rank :=
    acyclic_iff_exists_rank (fun _ _ hneeds => needs_declared hauth hneeds)
  unfold Acyclic at hranked
  rw [hranked]
  constructor
  · intro hex
    obtain ⟨rank, hrank⟩ := hex
    refine ⟨rank, fun credential other hneeds _ => ?_⟩
    exact hrank credential other ((needs_iff_declaredNeeds hauth).mpr hneeds)
  · intro hex
    obtain ⟨rank, hrank⟩ := hex
    refine ⟨rank, fun credential other hneeds => ?_⟩
    refine hrank credential other ((needs_iff_declaredNeeds hauth).mp hneeds) ?_
    intro heq
    subst heq
    exact not_needs_self hauth _ hneeds

/-! ## two credentials -/

/-- A credential acquired through an endpoint of the root. -/
def endpointCredential (name endpoint : Ident) : AuthCredentialDecl :=
  ⟨name, .endpoint [⟨endpoint, .none⟩]⟩

/-- `session` is acquired by `Login` and `device` by `Register`, which use
these credentials as bearer tokens. -/
def twoCredentialsApi (login register : List AuthUseKind) : RawApi where
  client := { RawClient.bare "Api" with
    auth := some ⟨[endpointCredential "session" "Login", endpointCredential "device" "Register"]⟩ }
  items := .endpoint { RawEndpoint.bare "Login" with authUses := login }
    (.endpoint { RawEndpoint.bare "Register" with authUses := register } .nil)

/-- `Login` uses the credential of `Register`. -/
def chainedCredentialsApi : RawApi := twoCredentialsApi [.bearer "device" none] []

/-- `Login` and `Register` use the credential of the other. -/
def mutualCredentialsApi : RawApi :=
  twoCredentialsApi [.bearer "device" none] [.bearer "session" none]

/-- A credential acquired through an endpoint that needs another. -/
theorem acquisition_acyclic_chained :
    ∃ pipeline, analyzePipeline asciiUppercase chainedCredentialsApi = .ok pipeline ∧
      Needs pipeline.api "session" "device" ∧ AcquisitionOrdered chainedCredentialsApi := by
  obtain ⟨pipeline, hok, hfound⟩ := Results.exists_ok_of_any
    (x := analyzePipeline asciiUppercase chainedCredentialsApi)
    (p := fun pipeline => Needs pipeline.api "session" "device" ∧
      ∀ cred ∈ pipeline.api.clientAuthCredentials, ∀ ep ∈ pipeline.api.endpoints,
        cred.acquiredThrough = some ep.target → ∀ requirement ∈ ep.policy.auth,
          cred.name = "session" ∧ requirement.credential = "device")
    (by decide +kernel)
  obtain ⟨hneeds, honly⟩ := of_decide_eq_true hfound
  have hrank : Descends (Needs pipeline.api) (fun name => if name = "session" then 1 else 0) := by
    intro credential other hedge
    obtain ⟨cred, hcred, rfl, ep, hep, htarget, requirement, hrequirement, rfl⟩ := hedge
    obtain ⟨hsession, hdevice⟩ := honly cred hcred ep hep htarget requirement hrequirement
    simp [hsession, hdevice]
  exact ⟨pipeline, hok, hneeds, (acquisition_acyclic_iff hok).mp hrank.acyclic⟩

/-- Two credentials that need each other are accepted. -/
theorem acquisition_cycle_accepted :
    ∃ pipeline, analyzePipeline asciiUppercase mutualCredentialsApi = .ok pipeline ∧
      TransGen (Needs pipeline.api) "session" "session" := by
  obtain ⟨pipeline, hok, hfound⟩ := Results.exists_ok_of_any
    (x := analyzePipeline asciiUppercase mutualCredentialsApi)
    (p := fun pipeline =>
      Needs pipeline.api "session" "device" ∧ Needs pipeline.api "device" "session")
    (by decide +kernel)
  obtain ⟨hdevice, hsession⟩ := of_decide_eq_true hfound
  exact ⟨pipeline, hok, .tail (.single hdevice) hsession⟩

end Concord.Sema
