import Concord.Codegen.NameChecks

/-!
# Concord.Codegen.NameClashes

When the names the generator emits in one place are distinct.

The lists of `validate_generated_public_api` leave out the methods of the
client variables and of the endpoints, the private method of the client, the
credential accessors of a root scope `auth`, and the modules next to the
client type.
-/

namespace Concord.Sema

/-! ## names that are not checked -/

/-- No client variable is named `new` or like the clear method of another. -/
def VarsApart (vars : List VarInfo) : Prop :=
  ∀ var ∈ vars, var.rust ≠ "new" ∧
    ∀ other ∈ vars, other.optional → var.rust ≠ "clear_" ++ other.rust

/-- No root scope and no root endpoint is named like the private method of the
client. -/
def RebuildApart (api : ResolvedApi) : Prop :=
  ∀ ep ∈ api.endpoints, ep.scopeModules.head? ≠ some rebuildAuthStateName ∧
    (ep.scopeModules = [] → (facadeEndpointFromResolved ep).publicMethod ≠ rebuildAuthStateName)

/-- No endpoint-backed credential is named like a setter of the scope `auth`,
a scope in it or an endpoint in it. -/
def AccessorsApart (api : ResolvedApi) (scope : FacadeScope) : Prop :=
  ∀ credential ∈ api.clientAuthCredentials, credential.isEndpoint →
    (∀ var ∈ scope.decls, var.hasSetter → credential.name ≠ var.rust ∧
      (var.optional → credential.name ≠ "clear_" ++ var.rust)) ∧
    ∀ ep ∈ api.endpoints, ¬ ["auth", credential.name] <+: ep.scopeModules ∧
      (ep.scopeModules = ["auth"] → (facadeEndpointFromResolved ep).publicMethod ≠ credential.name)

/-- No optional parameter is named `new` or like a method of another. -/
def SettersApart (vars : List VarInfo) : Prop :=
  ∀ var ∈ vars, var.rust ≠ "new" ∧ ∀ other ∈ vars, var.rust ≠ other.rust ++ "_opt" ∧
    var.rust ≠ "clear_" ++ other.rust ∧ var.rust ++ "_opt" ≠ "clear_" ++ other.rust

/-- The names that the checks leave out are apart from those beside them. -/
structure NamesApart (api : ResolvedApi) (facade : FacadeIr) : Prop where
  vars : VarsApart api.clientVars
  rebuild : api.clientAuthCredentials ≠ [] → RebuildApart api
  accessors : ∀ scope ∈ facade.scopes, scope.path = ["auth"] → AccessorsApart api scope
  params : ∀ ep ∈ api.endpoints, SettersApart (ownOptional ep)
  /-- The client is not named like a module beside it. -/
  client : api.clientName ∉ moduleNames

instance (vars : List VarInfo) : Decidable (VarsApart vars) :=
  inferInstanceAs (Decidable (∀ var ∈ vars, _))

instance (api : ResolvedApi) : Decidable (RebuildApart api) :=
  inferInstanceAs (Decidable (∀ ep ∈ api.endpoints, _))

instance (api : ResolvedApi) (scope : FacadeScope) : Decidable (AccessorsApart api scope) :=
  inferInstanceAs (Decidable (∀ credential ∈ api.clientAuthCredentials, _))

instance (vars : List VarInfo) : Decidable (SettersApart vars) :=
  inferInstanceAs (Decidable (∀ var ∈ vars, _))

instance (api : ResolvedApi) (facade : FacadeIr) : Decidable (NamesApart api facade) :=
  decidable_of_iff (_ ∧ _ ∧ _ ∧ _ ∧ _)
    ⟨fun h => ⟨h.1, h.2.1, h.2.2.1, h.2.2.2.1, h.2.2.2.2⟩,
      fun h => ⟨h.vars, h.rebuild, h.accessors, h.params, h.client⟩⟩

section

variable {toUppercase : Char → List Char} {api : ResolvedApi} {facade : FacadeIr}

/-! ## the client -/

/-- Variables with distinct setters are distinct. -/
theorem nodup_of_setterNames {vars : List VarInfo} (h : (vars.flatMap setterNames).Nodup) :
    (vars.map VarInfo.rust).Nodup := by
  have hset := (Affix.nodup_flatMap_cons_iff.mp h).1
  refine List.Nodup.of_map ("set_" ++ ·) ?_
  rwa [List.map_map]

/-- The variables of a checked client are distinct. -/
theorem Checked.nodup_vars (h : Checked toUppercase api facade) :
    (api.clientVars.map VarInfo.rust).Nodup ∧ (api.clientAuthVars.map VarInfo.rust).Nodup := by
  have hnodup := h.nodup_client
  unfold checkedClientNames at hnodup
  simp only [List.append_assoc] at hnodup
  have hsetters := hnodup.of_append_right.of_append_right
  exact ⟨nodup_of_setterNames hsetters.of_append_left,
    nodup_of_setterNames hsetters.of_append_right.of_append_left⟩

/-- Distinct variables get the setters of each. -/
theorem emitClientSetters_eq {vars : List VarInfo} (h : (vars.map VarInfo.rust).Nodup) :
    emitClientSetters vars = vars.flatMap setterNames := by
  unfold emitClientSetters
  refine List.flatMap_congr (fun var hvar => ?_)
  rw [Keyed.last_eq_some_of_nodup h hvar]
  rfl

/-- The scopes of an endpoint are the paths that lead to it. -/
theorem mem_facadeScopesOf_iff {ep : ResolvedEndpoint} {path : List Ident} :
    path ∈ (facadeScopesOf ep).map FacadeScopeInfo.path ↔
      path ≠ [] ∧ path <+: ep.scopeModules := by
  unfold facadeScopesOf
  rw [List.map_map, List.mem_map]
  constructor
  · intro h
    obtain ⟨idx, hidx, rfl⟩ := h
    have hidx := List.mem_range.mp hidx
    refine ⟨fun hnil => ?_, List.take_prefix _ _⟩
    have htake : ep.scopeModules.take (idx + 1) = [] := hnil
    have hlength := congrArg List.length htake
    rw [List.length_take, List.length_nil] at hlength
    omega
  · intro h
    obtain ⟨hne, halong⟩ := h
    have hpos : 0 < path.length := List.length_pos_of_ne_nil hne
    have hle := halong.length_le
    refine ⟨path.length - 1, List.mem_range.mpr (by omega), ?_⟩
    have hsucc : path.length - 1 + 1 = path.length := by omega
    show ep.scopeModules.take (path.length - 1 + 1) = path
    rw [hsucc]
    exact (List.prefix_iff_eq_take.mp halong).symm

/-- There is a facade scope for each path on the way to an endpoint. -/
theorem mem_scopes_iff {path : List Ident} :
    path ∈ (buildFacadeIr toUppercase api).scopes.map (·.path) ↔
      path ≠ [] ∧ ∃ ep ∈ api.endpoints, path <+: ep.scopeModules := by
  have hpaths : (buildFacadeIr toUppercase api).scopes.map (·.path) =
      (collectFacadeScopes api).map FacadeScopeInfo.path := by
    unfold buildFacadeIr
    rw [List.map_map]
    rfl
  rw [hpaths]
  unfold collectFacadeScopes
  rw [Keyed.mem_map_keepFirst_iff, List.map_flatMap, List.mem_flatMap]
  simp only [mem_facadeScopesOf_iff]
  constructor
  · intro h
    obtain ⟨ep, hep, hne, halong⟩ := h
    exact ⟨hne, ep, hep, halong⟩
  · intro h
    obtain ⟨hne, ep, hep, halong⟩ := h
    exact ⟨ep, hep, hne, halong⟩

/-- A scope `auth` at the root is one of the facade. -/
theorem rootAuthScopeExists_eq (toUppercase : Char → List Char) (api : ResolvedApi) :
    rootAuthScopeExists api =
      (buildFacadeIr toUppercase api).scopes.any (fun scope => scope.path.head? = some "auth") := by
  unfold rootAuthScopeExists
  rw [Bool.eq_iff_iff, List.any_eq_true, List.any_eq_true]
  constructor
  · intro h
    obtain ⟨ep, hep, hhead⟩ := h
    have halong := head?_eq_some_iff_prefixed.mp (of_decide_eq_true hhead)
    obtain ⟨scope, hscope, hpath⟩ := List.mem_map.mp
      (mem_scopes_iff.mpr ⟨List.cons_ne_nil _ _, ep, hep, halong⟩)
    exact ⟨scope, hscope, decide_eq_true (by rw [hpath]; rfl)⟩
  · intro h
    obtain ⟨scope, hscope, hhead⟩ := h
    obtain ⟨_, ep, hep, halong⟩ := mem_scopes_iff.mp (List.mem_map_of_mem hscope)
    refine ⟨ep, hep, decide_eq_true (head?_eq_some_iff_prefixed.mpr ?_)⟩
    exact (head?_eq_some_iff_prefixed.mp (of_decide_eq_true hhead)).trans halong

/-- The endpoint methods at the root are those of the facade. -/
theorem Checked.rootEndpointMethods_eq (h : Checked toUppercase api facade) :
    rootEndpointMethods api (buildFacadeIr toUppercase api) =
      ((buildFacadeIr toUppercase api).endpoints.filter (fun ep => ep.scopePath.isEmpty)).map
        (·.publicMethod) := by
  unfold rootEndpointMethods
  rw [List.filterMap_congr (g := fun ep => some (facadeEndpointFromResolved ep).publicMethod)]
  · simp [buildFacadeIr, List.filter_map, Function.comp_def, facadeEndpointFromResolved]
  · intro ep hep
    rw [h.endpointForResolved (List.mem_of_mem_filter hep)]
    rfl

/-- A constructor has the method name of its scope. -/
theorem method_of_emitScopeCtorMethod {scope : FacadeScope} {parent : Option FacadeScope}
    {ctor : ScopeCtor} (h : emitScopeCtorMethod scope parent = .ok ctor) :
    ctor.method = scope.publicMethod := by
  unfold emitScopeCtorMethod at h
  dsimp only at h
  split at h
  · cases h
  · cases h
    rfl

/-- The constructors at the root have the method names of their scopes. -/
theorem map_method_of_mapM {scopes : List FacadeScope} {roots : List ScopeCtor}
    (h : scopes.mapM (emitScopeCtorMethod · none) = .ok roots) :
    roots.map (·.method) = scopes.map (·.publicMethod) := by
  refine (Pairs.map_eq_map ?_ (Results.mapM_eq_ok_iff.mp h)).symm
  intro scope ctor hctor
  exact (method_of_emitScopeCtorMethod hctor).symm

/-- The methods of the client that are not checked. -/
theorem emitClientWrapper_perm (h : Checked toUppercase api (buildFacadeIr toUppercase api))
    {roots : List ScopeCtor}
    (hroots : ((buildFacadeIr toUppercase api).scopes.filter (·.path.length = 1)).mapM
      (emitScopeCtorMethod · none) = .ok roots) :
    (emitClientWrapper api (buildFacadeIr toUppercase api) roots).Perm
      (rebuildAuthStateMethod api ++ checkedClientNames api (buildFacadeIr toUppercase api)) := by
  obtain ⟨hvars, hauthVars⟩ := h.nodup_vars
  unfold emitClientWrapper checkedClientNames emitAuthFacade clientMethodNames
  rw [emitClientSetters_eq hvars, emitClientSetters_eq hauthVars, h.rootEndpointMethods_eq,
    map_method_of_mapM hroots, rootAuthScopeExists_eq toUppercase]
  rw [List.perm_iff_count]
  intro name
  simp only [List.count_append, List.count_cons, List.count_nil]
  omega

/-- A scope is entered by the last name of its path. -/
theorem mem_buildFacadeIr_publicMethod {scope : FacadeScope}
    (h : scope ∈ (buildFacadeIr toUppercase api).scopes) :
    scope.publicMethod = scope.path.getLastD "" := by
  obtain ⟨info, _, rfl⟩ := mem_buildFacadeIr_iff.mp h
  rfl

/-- The root scopes are the first scopes of the endpoints. -/
theorem mem_rootScopes_iff {name : Ident} :
    name ∈ ((buildFacadeIr toUppercase api).scopes.filter (fun scope =>
      scope.path.length = 1)).map (·.publicMethod) ↔
      ∃ ep ∈ api.endpoints, ep.scopeModules.head? = some name := by
  rw [List.mem_map]
  constructor
  · intro h
    obtain ⟨scope, hscope, hname⟩ := h
    obtain ⟨hmem, hlength⟩ := List.mem_filter.mp hscope
    obtain ⟨first, hpath⟩ := List.length_eq_one_iff.mp (of_decide_eq_true hlength)
    rw [mem_buildFacadeIr_publicMethod hmem, hpath] at hname
    obtain ⟨_, ep, hep, halong⟩ := mem_scopes_iff.mp (List.mem_map_of_mem hmem)
    refine ⟨ep, hep, head?_eq_some_iff_prefixed.mpr ?_⟩
    rw [← hname]
    rwa [hpath] at halong
  · intro h
    obtain ⟨ep, hep, hhead⟩ := h
    have halong := head?_eq_some_iff_prefixed.mp hhead
    obtain ⟨scope, hscope, hpath⟩ := List.mem_map.mp
      (mem_scopes_iff.mpr ⟨List.cons_ne_nil _ _, ep, hep, halong⟩)
    refine ⟨scope, List.mem_filter.mpr ⟨hscope, ?_⟩, ?_⟩
    · rw [hpath]
      rfl
    · rw [mem_buildFacadeIr_publicMethod hscope, hpath]
      rfl

/-- Only a root scope or a root endpoint is named like the private method. -/
theorem rebuild_mem_checkedClientNames_iff :
    rebuildAuthStateName ∈ checkedClientNames api (buildFacadeIr toUppercase api) ↔
      (∃ ep ∈ api.endpoints, ep.scopeModules.head? = some rebuildAuthStateName) ∨
      ∃ ep ∈ api.endpoints, ep.scopeModules = [] ∧
        (facadeEndpointFromResolved ep).publicMethod = rebuildAuthStateName := by
  have hmethods : rebuildAuthStateName ∉ clientMethodNames := by decide
  have hauth : ∀ b : Bool, rebuildAuthStateName ∉ if b then [] else ["auth"] := by decide
  have hset : ∀ name, rebuildAuthStateName ≠ "set_" ++ name :=
    fun _ => Affix.ne_append (by decide)
  have hclear : ∀ name, rebuildAuthStateName ≠ "clear_" ++ name :=
    fun _ => Affix.ne_append (by decide)
  have hsetters : ∀ vars : List VarInfo, rebuildAuthStateName ∉ vars.flatMap setterNames := by
    intro vars hmem
    obtain ⟨var, _, hname⟩ := List.mem_flatMap.mp hmem
    unfold setterNames at hname
    cases hopt : var.optional with
    | false => simp [hopt, hset] at hname
    | true => simp [hopt, hset, hclear] at hname
  have hlifecycle : ∀ names : List Ident, rebuildAuthStateName ∉
      names.flatMap (fun name => (facadeCredentialMethods name).lifecycle) := by
    intro names hmem
    obtain ⟨name, _, hname⟩ := List.mem_flatMap.mp hmem
    have hacquire : rebuildAuthStateName ≠ "acquire_auth_" ++ name := Affix.ne_append (by decide)
    have hvalue : rebuildAuthStateName ≠ "set_auth_" ++ name ++ "_value" :=
      (Affix.append_ne (by decide)).symm
    have hclearAuth : rebuildAuthStateName ≠ "clear_auth_" ++ name := Affix.ne_append (by decide)
    have hhas : rebuildAuthStateName ≠ "has_auth_" ++ name := Affix.ne_append (by decide)
    simp [FacadeCredentialMethods.lifecycle, facadeCredentialMethods, hacquire, hvalue,
      hclearAuth, hhas] at hname
  unfold checkedClientNames
  simp only [List.mem_append, hmethods, hauth, hsetters, hlifecycle, false_or, mem_rootScopes_iff]
  refine or_congr Iff.rfl ?_
  simp [buildFacadeIr, facadeEndpointFromResolved, and_assoc]

/-! ## variables and parameters -/

/-- Two names to clear are of two variables. -/
theorem clear_injective : Function.Injective ("clear_" ++ · : Ident → Ident) :=
  fun _ _ h => (String.append_right_inj _).mp h

/-- Two names with a suffix are of two variables. -/
theorem opt_injective : Function.Injective (· ++ "_opt" : Ident → Ident) :=
  fun _ _ h => (String.append_left_inj _).mp h

/-- The setters of the client variables are distinct just where the variables are apart. -/
theorem nodup_emitClientVars_iff {vars : List VarInfo} (h : (vars.map VarInfo.rust).Nodup) :
    (emitClientVars vars).Nodup ↔ VarsApart vars := by
  have hnew : ∀ name, "new" ≠ "clear_" ++ name := fun _ => Affix.ne_append (by decide)
  have hclears : (vars.flatMap (fun var =>
      if var.optional then ["clear_" ++ var.rust] else [])).Nodup := by
    rw [← Affix.flatMap_filter, ← List.map_eq_flatMap]
    have hnames : ((vars.filter VarInfo.optional).map VarInfo.rust).Nodup :=
      (List.filter_sublist.map _).nodup h
    have hclear := hnames.map clear_injective
    rwa [List.map_map] at hclear
  unfold emitClientVars
  rw [List.nodup_cons, Affix.nodup_flatMap_cons_iff]
  constructor
  · intro hnodup var hvar
    obtain ⟨hfresh, _, _, hapart⟩ := hnodup
    refine ⟨fun heq => hfresh ?_, fun other hother hopt heq => ?_⟩
    · exact List.mem_flatMap.mpr ⟨var, hvar, by simp [heq]⟩
    · refine hapart var hvar other hother ?_
      simp [hopt, heq]
  · intro hcond
    refine ⟨fun hmem => ?_, h, hclears, fun var hvar other hother hmem => ?_⟩
    · obtain ⟨var, hvar, hname⟩ := List.mem_flatMap.mp hmem
      have hself := (hcond var hvar).1.symm
      cases hopt : var.optional with
      | false => simp [hopt, hself] at hname
      | true => simp [hopt, hself, hnew] at hname
    · cases hopt : other.optional with
      | false => simp [hopt] at hmem
      | true =>
          simp only [hopt, if_true, List.mem_singleton] at hmem
          exact (hcond var hvar).2 other hother hopt hmem

/-- An endpoint's own optional variables are its own, have setters and are not captured. -/
theorem ownOptional_subset {ep : ResolvedEndpoint} {var : VarInfo} (h : var ∈ ownOptional ep) :
    var ∈ ep.vars ∧ var.hasSetter = true ∧ var.rust ∉ capturedNames ep := by
  unfold ownOptional at h
  rw [List.mem_filter, List.mem_filter] at h
  exact ⟨h.1.1, h.2, by simpa using h.1.2⟩

/-- They are in the order of its variables. -/
theorem ownOptional_sublist (ep : ResolvedEndpoint) : List.Sublist (ownOptional ep) ep.vars :=
  List.filter_sublist.trans List.filter_sublist

/-- The setters of an endpoint, by parameter. -/
theorem emitEndpointSetters_eq {ep : ResolvedEndpoint} (h : (ep.vars.map VarInfo.rust).Nodup) :
    emitEndpointSetters ep = (ownOptional ep).flatMap (fun var => (endpointSetter var).names) := by
  have hfields : ((facadeEndpointSetters ep).map EndpointSetter.field).Nodup := by
    unfold facadeEndpointSetters
    rw [List.map_map]
    exact ((ownOptional_sublist ep).map VarInfo.rust).nodup h
  have hown : ownOptional ep = (ep.vars.filter VarInfo.hasSetter).filter (fun var =>
      !(capturedNames ep).contains var.rust) := by
    unfold ownOptional
    rw [List.filter_filter, List.filter_filter]
    refine List.filter_congr (fun var _ => Bool.and_comm _ _)
  rw [hown, Affix.flatMap_filter]
  unfold emitEndpointSetters
  refine List.flatMap_congr (fun var hvar => ?_)
  by_cases hcaptured : var.rust ∈ capturedNames ep
  · have hnone : Keyed.last EndpointSetter.field (facadeEndpointSetters ep) var.rust = none := by
      rw [Option.eq_none_iff_forall_not_mem]
      intro setter hsetter
      obtain ⟨own, hin, rfl⟩ := List.mem_map.mp (Keyed.last_mem hsetter)
      have hname : (endpointSetter own).field = var.rust := Keyed.last_key hsetter
      rw [← hname] at hcaptured
      exact (ownOptional_subset hin).2.2 hcaptured
    simp [hnone, hcaptured]
  · have hin : var ∈ ownOptional ep := by
      rw [hown]
      exact List.mem_filter.mpr ⟨hvar, by simpa using hcaptured⟩
    have hsetter : endpointSetter var ∈ facadeEndpointSetters ep := List.mem_map_of_mem hin
    have hlast : Keyed.last EndpointSetter.field (facadeEndpointSetters ep) var.rust =
      some (endpointSetter var) := Keyed.last_eq_some_of_nodup hfields hsetter
    simp [hlast, hcaptured]

/-- Distinct variables get pending setters for each. -/
theorem emitPendingSetters_eq {ep : ResolvedEndpoint} (h : (ep.vars.map VarInfo.rust).Nodup) :
    emitPendingSetters ep = (ownOptional ep).flatMap (fun var => (endpointSetter var).names) := by
  unfold emitPendingSetters facadeEndpointSetters
  rw [List.flatMap_map]
  refine List.flatMap_congr (fun var hvar => ?_)
  obtain ⟨hmem, hsetter, _⟩ := ownOptional_subset hvar
  have hlast : Keyed.last VarInfo.rust ep.vars (endpointSetter var).field = some var :=
    Keyed.last_eq_some_of_nodup h hmem
  unfold endpointVarForSetter
  rw [hlast, Option.filter_some, if_pos hsetter]

/-- `new` and the three methods of each parameter. -/
theorem nodup_endpointMethods_iff {vars : List VarInfo} (h : (vars.map VarInfo.rust).Nodup) :
    ("new" :: vars.flatMap (fun var => (endpointSetter var).names)).Nodup ↔
      SettersApart vars := by
  have hopts : (vars.map (fun var => var.rust ++ "_opt")).Nodup := by
    have hmap := h.map opt_injective
    rwa [List.map_map] at hmap
  have hclears : (vars.map (fun var => "clear_" ++ var.rust)).Nodup := by
    have hmap := h.map clear_injective
    rwa [List.map_map] at hmap
  have hnewOpt : ∀ name, "new" ≠ name ++ "_opt" := fun _ => (Affix.append_ne (by decide)).symm
  have hnewClear : ∀ name, "new" ≠ "clear_" ++ name := fun _ => Affix.ne_append (by decide)
  unfold EndpointSetter.names endpointSetter
  rw [List.nodup_cons, Affix.nodup_flatMap_cons_iff, Affix.nodup_flatMap_cons_iff,
    ← List.map_eq_flatMap]
  simp only [List.mem_flatMap, List.mem_cons, List.not_mem_nil, or_false, hnewOpt, hnewClear,
    not_or]
  constructor
  · intro hnodup var hvar
    obtain ⟨hfresh, _, ⟨_, _, hopt⟩, hself⟩ := hnodup
    refine ⟨fun heq => hfresh ⟨var, hvar, heq.symm⟩, fun other hother => ?_⟩
    exact ⟨(hself var hvar other hother).1, (hself var hvar other hother).2,
      hopt var hvar other hother⟩
  · intro hcond
    refine ⟨fun hmem => ?_, h, ⟨hopts, hclears, fun var hvar other hother => ?_⟩,
      fun var hvar other hother => ?_⟩
    · obtain ⟨var, hvar, heq⟩ := hmem
      exact (hcond var hvar).1 heq.symm
    · exact ((hcond var hvar).2 other hother).2.2
    · exact ⟨((hcond var hvar).2 other hother).1, ((hcond var hvar).2 other hother).2.1⟩

/-! ## scopes -/

/-- Parameters of one name agree on whether they are optional. -/
def OptionalAgree (decls : List VarInfo) : Prop :=
  ∀ var ∈ decls, ∀ other ∈ decls, var.rust = other.rust → var.optional = other.optional

/-- Declarations that fit together agree on what is optional. -/
theorem optionalAgree_of_consistent {decls : List VarInfo} (h : Consistent decls) :
    OptionalAgree decls := by
  intro var hvar other hother hname
  obtain ⟨first, hfirst⟩ : ∃ first, Keyed.first VarInfo.rust decls var.rust = some first := by
    unfold Keyed.first
    rw [← Option.isSome_iff_exists, List.find?_isSome]
    exact ⟨var, hvar, decide_eq_true rfl⟩
  have hagrees := h var hvar first hfirst
  rw [hname] at hfirst
  exact hagrees.1.symm.trans (h other hother first hfirst).1

/-- So do some of them. -/
theorem OptionalAgree.subset {decls part : List VarInfo} (h : OptionalAgree decls)
    (hsubset : part ⊆ decls) : OptionalAgree part :=
  fun var hvar other hother hname => h var (hsubset hvar) other (hsubset hother) hname

/-- The checked names of a scope. -/
def checkedScopeNames (api : ResolvedApi) (scope : FacadeScope) : List Ident :=
  scope.setters.flatMap (fun setter => setter.setName :: setter.clearName.toList) ++
  scope.methods.map (·.getLastD "") ++
  (api.endpoints.filter (fun ep => ep.scopeModules = scope.path)).map (fun ep =>
    (facadeEndpointFromResolved ep).publicMethod)

/-- The checked names of a scope are distinct. -/
theorem Checked.nodup_scope (h : Checked toUppercase api (buildFacadeIr toUppercase api))
    {scope : FacadeScope} (hscope : scope ∈ (buildFacadeIr toUppercase api).scopes) :
    (checkedScopeNames api scope).Nodup := by
  have hne : scope.path ≠ [] := (mem_scopes_iff.mp (List.mem_map_of_mem hscope)).1
  have hchecked := h.scopes
  unfold validateScopeMethodNamespaces at hchecked
  have hkeys := nodup_of_noErrors hchecked
  have hown : List.Sublist (scopePublicNames scope)
      ((buildFacadeIr toUppercase api).scopes.flatMap scopePublicNames) :=
    List.sublist_flatten_of_mem (List.mem_map_of_mem hscope)
  have heps : List.Sublist
      (((buildFacadeIr toUppercase api).endpoints.filter (fun ep => ep.scopePath = scope.path)).map
        (fun ep => (⟨ep.scopePath, ep.publicMethod, "endpoint method"⟩ : PublicName)))
      (((buildFacadeIr toUppercase api).endpoints.filter (fun ep => !ep.scopePath.isEmpty)).map
        (fun ep => (⟨ep.scopePath, ep.publicMethod, "endpoint method"⟩ : PublicName))) := by
    refine List.Sublist.map _ (List.monotone_filter_right _ (fun ep hep => ?_))
    rw [of_decide_eq_true hep]
    simpa using hne
  have hnodup := ((hown.append heps).map PublicName.key).nodup hkeys
  refine List.Nodup.of_map (Prod.mk scope.path) ?_
  have hsetters : (scope.setters.flatMap (fun setter =>
      setter.setName :: setter.clearName.toList)).map (Prod.mk scope.path) =
      (scope.setters.flatMap (fun setter =>
        (⟨scope.path, setter.setName, "scope parameter setter"⟩ : PublicName) ::
          setter.clearName.toList.map (fun clear =>
            ⟨scope.path, clear, "scope parameter clearer"⟩))).map PublicName.key := by
    rw [List.map_flatMap, List.map_flatMap]
    refine List.flatMap_congr (fun setter _ => ?_)
    cases setter.clearName with
    | none => rfl
    | some clear => rfl
  have hmethods : ((api.endpoints.filter (fun ep => ep.scopeModules = scope.path)).map (fun ep =>
      (facadeEndpointFromResolved ep).publicMethod)).map (Prod.mk scope.path) =
      (((buildFacadeIr toUppercase api).endpoints.filter (fun ep => ep.scopePath = scope.path)).map
        (fun ep => (⟨ep.scopePath, ep.publicMethod, "endpoint method"⟩ : PublicName))).map
        PublicName.key := by
    unfold buildFacadeIr
    rw [List.filter_map, List.map_map, List.map_map, List.map_map]
    refine List.map_congr_left (fun ep hep => ?_)
    have hpath := of_decide_eq_true (List.mem_filter.mp hep).2
    simp [PublicName.key, facadeEndpointFromResolved, hpath]
  unfold checkedScopeNames
  rw [List.map_append, List.map_append, hsetters, hmethods, List.map_map]
  unfold scopePublicNames at hnodup
  rw [List.map_append, List.map_append, List.map_map] at hnodup
  exact hnodup

/-- A scope has the setters of its declarations. -/
theorem mem_buildFacadeIr_setters {scope : FacadeScope}
    (h : scope ∈ (buildFacadeIr toUppercase api).scopes) :
    scope.setters = (scope.decls.filter VarInfo.hasSetter).map facadeScopeSetter := by
  obtain ⟨info, _, rfl⟩ := mem_buildFacadeIr_iff.mp h
  rfl

/-- A scope emits the names of its setters. -/
theorem emitScopeSetters_eq {scope : FacadeScope}
    (hscope : scope ∈ (buildFacadeIr toUppercase api).scopes) (h : OptionalAgree scope.decls) :
    emitScopeSetters scope =
      scope.setters.flatMap (fun setter => setter.setName :: setter.clearName.toList) := by
  unfold emitScopeSetters
  refine List.flatMap_congr (fun setter hsetter => ?_)
  rw [mem_buildFacadeIr_setters hscope] at hsetter
  obtain ⟨var, hvar, rfl⟩ := List.mem_map.mp hsetter
  have hmem := List.mem_of_mem_filter hvar
  obtain ⟨last, hlast⟩ : ∃ last, Keyed.last VarInfo.rust scope.decls var.rust = some last :=
    Keyed.exists_last hmem
  have hopt := h last (Keyed.last_mem hlast) var hmem (Keyed.last_key hlast)
  unfold facadeScopeSetter emitScopeSetter
  simp only [hlast, hopt]
  cases var.optional with
  | false => rfl
  | true => rfl

/-- The endpoint methods of a scope are those of its endpoints. -/
theorem Checked.scopeEndpointMethods_eq (h : Checked toUppercase api facade) (path : List Ident) :
    scopeEndpointMethods api (buildFacadeIr toUppercase api) path =
      (api.endpoints.filter (fun ep => ep.scopeModules = path)).map (fun ep =>
        (facadeEndpointFromResolved ep).publicMethod) := by
  unfold scopeEndpointMethods
  rw [← List.filterMap_eq_map, List.filterMap_filter]
  refine List.filterMap_congr (fun ep hep => ?_)
  rw [h.endpointForResolved hep]
  by_cases hpath : ep.scopeModules = path
  · simp [facadeEndpointFromResolved, hpath]
  · simp [facadeEndpointFromResolved, hpath]

/-- The children of a scope are entered by their last names. -/
theorem map_method_children {scope : FacadeScope} {struct : ScopeStruct}
    (h : emitFacadeScopeStruct (buildFacadeIr toUppercase api) scope = .ok struct) :
    struct.children.map (·.method) = scope.methods.map (·.getLastD "") := by
  unfold emitFacadeScopeStruct at h
  obtain ⟨children, hchildren, hok⟩ := Results.bind_eq_ok_iff.mp h
  cases hok
  refine (Pairs.map_eq_map ?_ (Results.mapM_eq_ok_iff.mp hchildren)).symm
  intro path ctor hctor
  unfold emitChildMethod at hctor
  split at hctor
  · cases hctor
  · next child hchild =>
      obtain ⟨hmem, hpath⟩ := FacadeIr.scopeForPath_mem hchild
      rw [method_of_emitScopeCtorMethod hctor, mem_buildFacadeIr_publicMethod hmem, hpath]

/-- The methods of a scope: those that are checked, and the accessors. -/
theorem emitFacadeScopeMethods_names (h : Checked toUppercase api facade) {scope : FacadeScope}
    (hscope : scope ∈ (buildFacadeIr toUppercase api).scopes) (hagree : OptionalAgree scope.decls)
    {space : NameSpace}
    (hok : emitFacadeScopeMethods api (buildFacadeIr toUppercase api) scope = .ok space) :
    space.names = checkedScopeNames api scope ++
      if scope.path = ["auth"] then emitAuthAccessorMethods api else [] := by
  unfold emitFacadeScopeMethods at hok
  obtain ⟨struct, hstruct, hspace⟩ := Results.bind_eq_ok_iff.mp hok
  cases hspace
  unfold checkedScopeNames
  simp only [emitScopeSetters_eq hscope hagree, map_method_children hstruct,
    h.scopeEndpointMethods_eq]

end

/-! ## accepted declarations -/

section

variable {toUppercase : Char → List Char} {ast : RawApi} {pipeline : ResolvedApiPipeline}

/-- The variables of an endpoint of an accepted API are distinct. -/
theorem nodup_vars_of_accepted (h : analyzePipeline toUppercase ast = .ok pipeline)
    {ep : ResolvedEndpoint} (hep : ep ∈ pipeline.api.endpoints) :
    (ep.vars.map VarInfo.rust).Nodup := by
  obtain ⟨_, _, _, _, _, hdirect⟩ := exists_place h hep
  rw [(takenFrom_of_directEndpoint hdirect).vars]
  exact Keyed.nodup_keepFirst _

/-- What an endpoint captures from its scopes agrees with itself. -/
theorem optionalAgree_of_accepted (h : analyzePipeline toUppercase ast = .ok pipeline)
    {ep : ResolvedEndpoint} (hep : ep ∈ pipeline.api.endpoints) :
    OptionalAgree ep.facadeParamGroups.flatten := by
  obtain ⟨_, place, _, inh, henters, hdirect⟩ := exists_place h hep
  have htaken := takenFrom_of_directEndpoint hdirect
  refine (optionalAgree_of_consistent htaken.consistent).subset (fun var hvar => ?_)
  refine List.mem_append_left _ ?_
  rw [htaken.facadeParamGroups, henters.chain.2] at hvar
  rw [henters.decls]
  obtain ⟨group, hgroup, hmem⟩ := List.mem_flatten.mp hvar
  obtain ⟨named, hnamed, rfl⟩ := List.mem_map.mp hgroup
  obtain ⟨scope, hscope, hsome⟩ := List.mem_filterMap.mp hnamed
  refine List.mem_flatMap.mpr ⟨scope, hscope, ?_⟩
  obtain ⟨name, _, rfl⟩ := Option.map_eq_some_iff.mp hsome
  exact hmem

/-- The declarations of a scope of an accepted API agree. -/
theorem optionalAgree_of_scope (h : analyzePipeline toUppercase ast = .ok pipeline)
    {scope : FacadeScope} (hscope : scope ∈ (buildFacadeIr toUppercase pipeline.api).scopes) :
    OptionalAgree scope.decls := by
  obtain ⟨info, hinfo, rfl⟩ := mem_buildFacadeIr_iff.mp hscope
  have hmem := Keyed.first_mem (Keyed.mem_keepFirst_iff.mp hinfo)
  obtain ⟨ep, hep, hin⟩ := List.mem_flatMap.mp hmem
  obtain ⟨idx, _, rfl⟩ := List.mem_map.mp hin
  refine (optionalAgree_of_accepted h hep).subset (fun var hvar => ?_)
  obtain ⟨group, hgroup, hmem⟩ := List.mem_flatten.mp hvar
  exact List.mem_flatten.mpr ⟨group, List.mem_of_mem_take hgroup, hmem⟩

/-- A scope has a child where an endpoint is below it. -/
theorem mem_children_iff (h : analyzePipeline toUppercase ast = .ok pipeline)
    {scope : FacadeScope} (hscope : scope ∈ (buildFacadeIr toUppercase pipeline.api).scopes)
    {name : Ident} :
    name ∈ scope.methods.map (·.getLastD "") ↔
      ∃ ep ∈ pipeline.api.endpoints, scope.path ++ [name] <+: ep.scopeModules := by
  have hfacade : FacadeOf (scopeChains ast) (buildFacadeIr toUppercase pipeline.api) :=
    facade_of_chains (endpoints_below h)
  have hmethods := hfacade.methods scope hscope
  rw [List.mem_map]
  constructor
  · intro hex
    obtain ⟨path, hpath, hname⟩ := hex
    obtain ⟨child, hchild, last, hchildPath, rfl⟩ := (hmethods path).mp hpath
    rw [List.getLastD_concat] at hname
    have hin := List.mem_map_of_mem (f := FacadeScope.path) hchild
    rw [hchildPath, hname] at hin
    exact (mem_scopes_iff.mp hin).2
  · intro hex
    have hne : scope.path ++ [name] ≠ [] := List.append_ne_nil_of_right_ne_nil _ (by simp)
    obtain ⟨child, hchild, hpath⟩ := List.mem_map.mp (mem_scopes_iff.mpr ⟨hne, hex⟩)
    refine ⟨scope.path ++ [name], (hmethods _).mpr ⟨child, hchild, name, hpath, rfl⟩, ?_⟩
    exact List.getLastD_concat

/-- The names of the methods of a scope that are checked. -/
theorem mem_checkedScopeNames_iff (h : analyzePipeline toUppercase ast = .ok pipeline)
    {scope : FacadeScope} (hscope : scope ∈ (buildFacadeIr toUppercase pipeline.api).scopes)
    {name : Ident} :
    name ∈ checkedScopeNames pipeline.api scope ↔
      (∃ var ∈ scope.decls, var.hasSetter = true ∧
        (name = var.rust ∨ var.optional = true ∧ name = "clear_" ++ var.rust)) ∨
      (∃ ep ∈ pipeline.api.endpoints, scope.path ++ [name] <+: ep.scopeModules) ∨
      ∃ ep ∈ pipeline.api.endpoints, ep.scopeModules = scope.path ∧
        (facadeEndpointFromResolved ep).publicMethod = name := by
  have hsetter : ∀ var : VarInfo, name ∈ ((facadeScopeSetter var).setName ::
      (facadeScopeSetter var).clearName.toList) ↔
      (name = var.rust ∨ var.optional = true ∧ name = "clear_" ++ var.rust) := by
    intro var
    unfold facadeScopeSetter
    cases var.optional with
    | false => simp
    | true => simp
  unfold checkedScopeNames
  rw [List.mem_append, List.mem_append, mem_children_iff h hscope,
    mem_buildFacadeIr_setters hscope, or_assoc]
  refine or_congr ?_ (or_congr Iff.rfl ?_)
  · simp only [List.flatMap_map, List.mem_flatMap, List.mem_filter, hsetter, and_assoc]
  · simp [and_assoc]

/-- The names of a scope's impl are distinct just where nothing is in the way. -/
theorem nodup_scope_iff (h : analyzePipeline toUppercase ast = .ok pipeline)
    (hchecked : Checked toUppercase pipeline.api (buildFacadeIr toUppercase pipeline.api))
    {scope : FacadeScope} (hscope : scope ∈ (buildFacadeIr toUppercase pipeline.api).scopes)
    {space : NameSpace} (hok : emitFacadeScopeMethods pipeline.api
      (buildFacadeIr toUppercase pipeline.api) scope = .ok space) :
    space.names.Nodup ↔ (scope.path = ["auth"] → AccessorsApart pipeline.api scope) := by
  have hnodup := hchecked.nodup_scope hscope
  rw [emitFacadeScopeMethods_names hchecked hscope (optionalAgree_of_scope h hscope) hok]
  by_cases hpath : scope.path = ["auth"]
  · have hmem := fun name : Ident => @mem_checkedScopeNames_iff _ _ _ h _ hscope name
    rw [hpath] at hmem
    rw [if_pos hpath, List.nodup_append']
    constructor
    · intro hboth _ credential hcredential hendpoint
      have haccessor : credential.name ∈ emitAuthAccessorMethods pipeline.api :=
        List.mem_map_of_mem (List.mem_filter.mpr ⟨hcredential, hendpoint⟩)
      have hfresh : credential.name ∉ checkedScopeNames pipeline.api scope :=
        fun hname => hboth.2.2 hname haccessor
      rw [hmem, not_or, not_or] at hfresh
      obtain ⟨hsetters, hchildren, hmethods⟩ := hfresh
      refine ⟨fun var hvar hsetter => ⟨fun heq => ?_, fun hopt heq => ?_⟩,
        fun ep hep => ⟨fun halong => ?_, fun hmodules heq => ?_⟩⟩
      · exact hsetters ⟨var, hvar, hsetter, .inl heq⟩
      · exact hsetters ⟨var, hvar, hsetter, .inr ⟨hopt, heq⟩⟩
      · exact hchildren ⟨ep, hep, halong⟩
      · exact hmethods ⟨ep, hep, hmodules, heq⟩
    · intro hcond
      refine ⟨hnodup, hchecked.nodup_accessors, fun name hname haccessor => ?_⟩
      obtain ⟨credential, hcredential, rfl⟩ := List.mem_map.mp haccessor
      obtain ⟨hin, hendpoint⟩ := List.mem_filter.mp hcredential
      obtain ⟨hsetters, hothers⟩ := hcond hpath credential hin hendpoint
      rcases (hmem _).mp hname with ⟨var, hvar, hsetter, heq⟩ | ⟨ep, hep, halong⟩ |
        ⟨ep, hep, hmodules, heq⟩
      · cases heq with
        | inl heq => exact (hsetters var hvar hsetter).1 heq
        | inr hclear => exact (hsetters var hvar hsetter).2 hclear.1 hclear.2
      · exact (hothers ep hep).1 halong
      · exact (hothers ep hep).2 hmodules heq
  · rw [if_neg hpath, List.append_nil]
    exact ⟨fun _ habsurd => absurd habsurd hpath, fun _ => hnodup⟩

/-- The names of the client's impl are distinct just where nothing is in the way. -/
theorem nodup_client_iff
    (hchecked : Checked toUppercase pipeline.api (buildFacadeIr toUppercase pipeline.api))
    {roots : List ScopeCtor}
    (hroots : ((buildFacadeIr toUppercase pipeline.api).scopes.filter (·.path.length = 1)).mapM
      (emitScopeCtorMethod · none) = .ok roots) :
    (emitClientWrapper pipeline.api (buildFacadeIr toUppercase pipeline.api) roots).Nodup ↔
      (pipeline.api.clientAuthCredentials ≠ [] → RebuildApart pipeline.api) := by
  rw [(emitClientWrapper_perm hchecked hroots).nodup_iff]
  unfold rebuildAuthStateMethod
  by_cases hnone : pipeline.api.clientAuthCredentials = []
  · rw [hnone]
    exact ⟨fun _ habsurd => absurd rfl habsurd, fun _ => hchecked.nodup_client⟩
  · have hsome : pipeline.api.clientAuthCredentials.isEmpty = false := by simpa using hnone
    simp only [hsome, Bool.false_eq_true, if_false, List.singleton_append, List.nodup_cons,
      hchecked.nodup_client, and_true, rebuild_mem_checkedClientNames_iff, not_or, not_exists,
      not_and]
    constructor
    · intro hfresh _ ep hep
      exact ⟨hfresh.1 ep hep, hfresh.2 ep hep⟩
    · intro hcond
      exact ⟨fun ep hep => (hcond hnone ep hep).1, fun ep hep => (hcond hnone ep hep).2⟩

/-- The names the generator emits in one place are distinct exactly if those
that the checks leave out are apart from the names beside them. -/
theorem emitted_names_distinct_iff (h : analyzePipeline toUppercase ast = .ok pipeline)
    {spaces : List NameSpace} (hemit : emitResolved toUppercase pipeline = .ok spaces) :
    (∀ space ∈ spaces, space.names.Nodup) ↔ NamesApart pipeline.api pipeline.facadeIr := by
  obtain ⟨_, _, _, hfacade, hvalid⟩ := analyzePipeline_eq_ok h
  have hchecked := checked_of_validate hvalid
  unfold emitResolved at hemit
  rw [hfacade] at hchecked hemit ⊢
  obtain ⟨roots, hroots, hemit⟩ := Results.bind_eq_ok_iff.mp hemit
  obtain ⟨scopes, hscopes, hemit⟩ := Results.bind_eq_ok_iff.mp hemit
  cases hemit
  have hvars := nodup_emitClientVars_iff hchecked.nodup_vars.1
  have hclient := nodup_client_iff hchecked hroots
  have hmodule := hchecked.nodup_module_iff
  have hparams := fun (ep : ResolvedEndpoint) (hep : ep ∈ pipeline.api.endpoints) =>
    nodup_endpointMethods_iff (((ownOptional_sublist ep).map VarInfo.rust).nodup
      (nodup_vars_of_accepted h hep))
  simp only [List.forall_mem_append, List.forall_mem_cons, List.forall_mem_flatMap]
  constructor
  · intro hall
    obtain ⟨⟨⟨⟨⟨hmod, hvar, _, hwrapper, _⟩, hscope⟩, _⟩, hendpoint⟩, _⟩ := hall
    refine ⟨hvars.mp hvar, hclient.mp hwrapper, fun scope hmem => ?_, fun ep hep => ?_,
      hmodule.mp hmod⟩
    · obtain ⟨space, hspace, hok⟩ := Pairs.exists_right (Results.mapM_eq_ok_iff.mp hscopes) hmem
      exact (nodup_scope_iff h hchecked hmem hok).mp (hscope space hspace)
    · have hmethods := (hendpoint ep hep).1
      rw [emitEndpointSetters_eq (nodup_vars_of_accepted h hep)] at hmethods
      exact (hparams ep hep).mp hmethods
  · intro hapart
    refine ⟨⟨⟨⟨⟨hmodule.mpr hapart.client, hvars.mpr hapart.vars, by simp,
      hclient.mpr hapart.rebuild, hchecked.nodup_builder, hchecked.nodup_accessors, by simp⟩,
      fun space hspace => ?_⟩, fun name _ => ⟨by decide, by simp, by simp⟩⟩,
      fun ep hep => ?_⟩, hchecked.nodup_emitEndpoints⟩
    · obtain ⟨scope, hmem, hok⟩ := Results.exists_of_mem_mapM hscopes hspace
      exact (nodup_scope_iff h hchecked hmem hok).mpr (hapart.accessors scope hmem)
    · have hmethods := (hparams ep hep).mpr (hapart.params ep hep)
      rw [emitEndpointSetters_eq (nodup_vars_of_accepted h hep),
        emitPendingSetters_eq (nodup_vars_of_accepted h hep)]
      exact ⟨hmethods, (List.nodup_cons.mp hmethods).2, by simp⟩

end

/-! ## declarations with optional parameters -/

/-- An optional parameter. -/
def optionalParam (name : Ident) : VarInfo := ⟨name, true, .other "u32", none⟩

/-- `users` around an endpoint with the given parameters, and a client with an
optional variable. -/
def optionalParamsApi (params : List VarInfo) : RawApi where
  client := { RawClient.bare "Api" with vars := some [optionalParam "region"] }
  items := .layer (RawScope.bare "users" [optionalParam "team"])
    (.endpoint { RawEndpoint.bare "List" with params := params } .nil) .nil

/-- An endpoint with two optional parameters has distinct names. -/
theorem emitted_names_distinct_params :
    ∃ pipeline spaces,
      analyzePipeline asciiUppercase (optionalParamsApi [optionalParam "limit",
        optionalParam "offset"]) = .ok pipeline ∧
      emitResolved asciiUppercase pipeline = .ok spaces ∧
      ∀ space ∈ spaces, space.names.Nodup := by
  obtain ⟨pipeline, hok, hpipeline⟩ := Results.exists_ok_of_any
    (x := analyzePipeline asciiUppercase (optionalParamsApi [optionalParam "limit",
      optionalParam "offset"]))
    (p := fun pipeline => (emitResolved asciiUppercase pipeline).toOption.isSome &&
      decide (NamesApart pipeline.api pipeline.facadeIr)) (by decide +kernel)
  rw [Bool.and_eq_true] at hpipeline
  obtain ⟨spaces, hspaces⟩ := Option.isSome_iff_exists.mp hpipeline.1
  have hemit := Results.toOption_eq_some_iff.mp hspaces
  exact ⟨pipeline, spaces, hok, hemit,
    (emitted_names_distinct_iff hok hemit).mpr (of_decide_eq_true hpipeline.2)⟩

/-- An accepted declaration with optional parameters `limit` and `limit_opt`:
the endpoint has two methods `limit_opt`. -/
theorem emitted_names_clash :
    ∃ pipeline spaces,
      analyzePipeline asciiUppercase (optionalParamsApi [optionalParam "limit",
        optionalParam "limit_opt"]) = .ok pipeline ∧
      emitResolved asciiUppercase pipeline = .ok spaces ∧
      (∃ space ∈ spaces, space.names = ["new", "limit", "limit_opt", "clear_limit", "limit_opt",
        "limit_opt_opt", "clear_limit_opt"]) ∧
      ¬ ∀ space ∈ spaces, space.names.Nodup := by
  obtain ⟨pipeline, hok, hpipeline⟩ := Results.exists_ok_of_any
    (x := analyzePipeline asciiUppercase (optionalParamsApi [optionalParam "limit",
      optionalParam "limit_opt"]))
    (p := fun pipeline => (emitResolved asciiUppercase pipeline).toOption.any (fun spaces =>
      spaces.any (fun space => space.names = ["new", "limit", "limit_opt", "clear_limit",
        "limit_opt", "limit_opt_opt", "clear_limit_opt"]))) (by decide +kernel)
  obtain ⟨spaces, hemit, hany⟩ := Results.exists_ok_of_any hpipeline
  obtain ⟨space, hspace, hnames⟩ := List.any_eq_true.mp hany
  have hnames := of_decide_eq_true hnames
  refine ⟨pipeline, spaces, hok, hemit, ⟨space, hspace, hnames⟩, fun hall => ?_⟩
  have hnodup := hall space hspace
  rw [hnames] at hnodup
  exact absurd hnodup (by decide)

end Concord.Sema
