import Concord.Codegen.Names
import Concord.Lib.Affix

/-!
# Concord.Codegen.NameChecks

What `validate_generated_public_api` makes sure of: the lists of names it
keeps, and the names the generator emits that are on them.
-/

namespace Concord.Sema

/-! ## the checks -/

/-- What has to be distinct: the name within its space. -/
def PublicName.key (entry : PublicName) : List Ident × String := (entry.space, entry.name)

/-- Names that are added without an error are distinct, and apart from those
that are taken. -/
theorem nodup_of_publicNameErrors {label : List Ident → String} {taken entries : List PublicName}
    (htaken : (taken.map PublicName.key).Nodup) (h : publicNameErrors label taken entries = []) :
    ((taken ++ entries).map PublicName.key).Nodup := by
  induction entries generalizing taken with
  | nil => rwa [List.append_nil]
  | cons entry entries ih =>
      unfold publicNameErrors at h
      split at h
      · cases h
      · next hnone =>
          have hfresh : PublicName.key entry ∉ taken.map PublicName.key := by
            intro hmem
            obtain ⟨prev, hprev, hkey⟩ := List.mem_map.mp hmem
            obtain ⟨hspace, hname⟩ := Prod.mk.inj hkey
            have hnot := List.find?_eq_none.mp hnone prev hprev
            rw [hspace, hname] at hnot
            simp at hnot
          have hadded : ((taken ++ [entry]).map PublicName.key).Nodup := by
            rw [List.map_append, List.map_singleton, ← List.concat_eq_append]
            exact htaken.concat hfresh
          have hrest := ih hadded h
          rwa [List.append_assoc, List.singleton_append] at hrest

/-- Names that give no error are distinct. -/
theorem nodup_of_noErrors {label : List Ident → String} {entries : List PublicName}
    (h : publicNameErrors label [] entries = []) : (entries.map PublicName.key).Nodup := by
  have hnil : (([] : List PublicName).map PublicName.key).Nodup := List.nodup_nil
  exact nodup_of_publicNameErrors hnil h

/-- The lists of names that `validate_generated_public_api` has checked. -/
structure Checked (toUppercase : Char → List Char) (api : ResolvedApi) (facade : FacadeIr) :
    Prop where
  client : validateClientMethodNamespace api facade = []
  builder : validateBuilderNamespace api = []
  authFacade : validateAuthFacadeNamespace api = []
  scopes : validateScopeMethodNamespaces facade = []
  types : validateGeneratedTypeNamespace toUppercase api facade = []

/-- What the validation of the names has checked, once it passes. -/
theorem checked_of_validate {toUppercase : Char → List Char} {api : ResolvedApi}
    {facade : FacadeIr} (h : validateGeneratedPublicApi toUppercase api facade = .ok ()) :
    Checked toUppercase api facade := by
  unfold validateGeneratedPublicApi at h
  split at h
  · next hnil =>
      simp only [List.append_eq_nil_iff] at hnil
      obtain ⟨⟨⟨⟨⟨_, hclient⟩, hbuilder⟩, hauth⟩, hscopes⟩, htypes⟩ := hnil
      exact ⟨hclient, hbuilder, hauth, hscopes, htypes⟩
  · cases h

section

variable {toUppercase : Char → List Char} {api : ResolvedApi} {facade : FacadeIr}

/-- The methods of a variable of the client. -/
def setterNames (var : VarInfo) : List Ident :=
  ("set_" ++ var.rust) :: if var.optional then ["clear_" ++ var.rust] else []

/-- The names of the client that are checked. -/
def checkedClientNames (api : ResolvedApi) (facade : FacadeIr) : List Ident :=
  clientMethodNames ++
  (if facade.scopes.any (fun scope => scope.path.head? = some "auth") then [] else ["auth"]) ++
  api.clientVars.flatMap setterNames ++ api.clientAuthVars.flatMap setterNames ++
  (emitAuthAccessorMethods api).flatMap (fun name => (facadeCredentialMethods name).lifecycle) ++
  (facade.scopes.filter (fun scope => scope.path.length = 1)).map (·.publicMethod) ++
  (facade.endpoints.filter (fun ep => ep.scopePath.isEmpty)).map (·.publicMethod)

/-- The setters of the client, as names of the root space. -/
theorem map_key_clientSetterNames (vars : List VarInfo) (setter clearer : String) :
    (clientSetterNames vars setter clearer).map PublicName.key =
      (vars.flatMap setterNames).map (Prod.mk []) := by
  unfold clientSetterNames
  rw [List.map_flatMap, List.map_flatMap]
  refine List.flatMap_congr (fun var _ => ?_)
  unfold setterNames
  cases var.optional with
  | false => rfl
  | true => rfl

/-- The methods of the client are distinct. -/
theorem Checked.nodup_client (h : Checked toUppercase api facade) :
    (checkedClientNames api facade).Nodup := by
  have hchecked := h.client
  unfold validateClientMethodNamespace at hchecked
  have htaken : ∀ b : Bool, (((clientMethodNames ++ if b then [] else ["auth"]).map (fun name =>
      (⟨[], name, "generated client method"⟩ : PublicName))).map PublicName.key).Nodup := by
    decide
  have hkeys := nodup_of_publicNameErrors (htaken _) hchecked
  refine List.Nodup.of_map (Prod.mk ([] : List Ident)) ?_
  unfold checkedClientNames emitAuthAccessorMethods
  simp only [List.map_append, List.map_map, List.map_flatMap, List.flatMap_map,
    map_key_clientSetterNames, List.append_assoc] at hkeys ⊢
  exact hkeys

/-! ## endpoints -/

/-- The type of an endpoint among the types of its module. -/
def endpointMarker (ep : ResolvedEndpoint) : PublicName :=
  ⟨ep.scopeModules, ep.name, "endpoint marker type"⟩

/-- The markers of the endpoints are among the checked type names. -/
theorem endpointMarkers_sublist (seen : List PublicName) (eps : List ResolvedEndpoint) :
    List.Sublist (eps.map endpointMarker) (endpointTypeNames seen eps) := by
  induction eps generalizing seen with
  | nil => exact List.Sublist.slnil
  | cons ep eps ih =>
      unfold endpointTypeNames
      exact (List.Sublist.trans (ih _) (List.sublist_append_right _ _)).cons_cons _

/-- The modules on the path of an endpoint are added, if they were not
before. -/
theorem mem_endpointTypeNames {seen : List PublicName} {eps : List ResolvedEndpoint}
    {ep : ResolvedEndpoint} (hep : ep ∈ eps) {entry : PublicName}
    (hentry : entry ∈ endpointModules ep) :
    entry ∈ seen ∨ entry ∈ endpointTypeNames seen eps := by
  induction eps generalizing seen with
  | nil => exact absurd hep List.not_mem_nil
  | cons ep' eps ih =>
      unfold endpointTypeNames
      cases List.mem_cons.mp hep with
      | inl heq =>
          rw [heq] at hentry
          by_cases hseen : entry ∈ seen
          · exact .inl hseen
          · refine .inr (List.mem_cons_of_mem _ (List.mem_append_left _ ?_))
            exact List.mem_filter.mpr ⟨hentry, by simpa using hseen⟩
      | inr hmem =>
          cases ih hmem with
          | inl hadded =>
              cases List.mem_append.mp hadded with
              | inl hseen => exact .inl hseen
              | inr hfresh =>
                  exact .inr (List.mem_cons_of_mem _ (List.mem_append_left _ hfresh))
          | inr hrest => exact .inr (List.mem_cons_of_mem _ (List.mem_append_right _ hrest))

/-- The types of the endpoints are distinct. -/
theorem Checked.nodup_endpointTypes (h : Checked toUppercase api facade) :
    ((endpointTypeNames [] api.endpoints).map PublicName.key).Nodup := by
  have hchecked := h.types
  unfold validateGeneratedTypeNamespace at hchecked
  exact nodup_of_noErrors (List.append_eq_nil_iff.mp hchecked).2

/-- Endpoints are told apart by their scopes and names. -/
theorem Checked.nodup_targets (h : Checked toUppercase api facade) :
    (api.endpoints.map (fun ep => (ep.scopeModules, ep.name))).Nodup := by
  have hsublist := (endpointMarkers_sublist [] api.endpoints).map PublicName.key
  rw [List.map_map] at hsublist
  exact hsublist.nodup h.nodup_endpointTypes

/-- No endpoint is named like a module beside it. -/
theorem Checked.not_module (h : Checked toUppercase api facade) {ep other : ResolvedEndpoint}
    (hep : ep ∈ api.endpoints) (hother : other ∈ api.endpoints) :
    ¬ ep.scopeModules ++ [ep.name] <+: other.scopeModules := by
  intro halong
  obtain ⟨rest, hrest⟩ := halong
  have hmodule : (⟨ep.scopeModules, ep.name, "endpoint scope module"⟩ : PublicName) ∈
      endpointModules other := by
    unfold endpointModules
    refine List.mem_map.mpr ⟨ep.scopeModules.length, ?_, ?_⟩
    · rw [List.mem_range, ← hrest]
      simp
    · simp [← hrest]
  have hmarker : endpointMarker ep ∈ endpointTypeNames [] api.endpoints :=
    (endpointMarkers_sublist [] api.endpoints).subset (List.mem_map_of_mem hep)
  cases mem_endpointTypeNames hother hmodule with
  | inl hnil => exact absurd hnil List.not_mem_nil
  | inr hmem =>
      have heq := List.inj_on_of_nodup_map h.nodup_endpointTypes hmarker hmem rfl
      have hkind := congrArg PublicName.kind heq
      exact absurd hkind (by simp [endpointMarker])

/-- The facade finds the endpoint of every resolved one. -/
theorem Checked.endpointForResolved (h : Checked toUppercase api facade)
    {ep : ResolvedEndpoint} (hep : ep ∈ api.endpoints) :
    (buildFacadeIr toUppercase api).endpointForResolved ep =
      some (facadeEndpointFromResolved ep) := by
  unfold FacadeIr.endpointForResolved
  refine Keyed.last_eq_some_of_nodup ?_ (List.mem_map_of_mem hep)
  rw [List.map_map]
  refine List.Nodup.of_map (fun target : EndpointTargetIr =>
    (target.scopeModules, target.endpoint)) ?_
  rw [List.map_map]
  exact h.nodup_targets

/-- The first part of a path is the path of length one it starts with. -/
theorem head?_eq_some_iff_prefixed {name : Ident} {path : List Ident} :
    path.head? = some name ↔ [name] <+: path := by
  cases path with
  | nil => simp
  | cons first rest => simp [eq_comm]

/-! ## types -/

/-- The names of types that are checked. -/
def checkedTypeNames (toUppercase : Char → List Char) (api : ResolvedApi) (facade : FacadeIr) :
    List Ident :=
  [api.clientName] ++
  ["Vars", "AuthInner", "AuthVars", "AuthState", "Cx", "Builder"].map
    (clientPrefixedTypeName api.clientName) ++
  [generatedAuthFacadeTypeName api.clientName] ++
  (emitAuthAccessorMethods api).flatMap (fun name =>
    [generatedAuthHandleTypeName toUppercase api.clientName name,
      generatedAcquireAsTraitTypeName toUppercase api.clientName name]) ++
  facade.scopes.map (·.rustTypeName) ++
  api.endpoints.map (generatedEndpointRequestExtTraitTypeName toUppercase)

/-- The types that were checked are distinct. -/
theorem Checked.nodup_types (h : Checked toUppercase api facade) :
    (checkedTypeNames toUppercase api facade).Nodup := by
  have hchecked := h.types
  unfold validateGeneratedTypeNamespace at hchecked
  have hkeys := nodup_of_noErrors (List.append_eq_nil_iff.mp hchecked).1
  refine List.Nodup.of_map (Prod.mk ([] : List Ident)) ?_
  unfold checkedTypeNames emitAuthAccessorMethods
  simp only [List.map_append, List.map_map, List.map_flatMap, List.flatMap_map] at hkeys ⊢
  exact hkeys

/-- So are those of the module as it is emitted. -/
theorem Checked.nodup_moduleTypes (h : Checked toUppercase api facade) :
    (emitModuleTypes toUppercase api facade).Nodup := by
  rw [List.nodup_iff_count_le_one]
  intro name
  have hchecked := List.nodup_iff_count_le_one.mp h.nodup_types name
  have hreexports : List.count name (pendingExtReexports toUppercase api) ≤
      List.count name (api.endpoints.map (generatedEndpointRequestExtTraitTypeName toUppercase)) :=
    (List.filter_sublist.map _).count_le name
  have hcredentials := (List.map_append_flatMap_perm (emitAuthAccessorMethods api)
    (generatedAuthHandleTypeName toUppercase api.clientName) (fun credential =>
      [generatedAcquireAsTraitTypeName toUppercase api.clientName credential])).count_eq name
  rw [← List.map_eq_flatMap, List.count_append] at hcredentials
  unfold checkedTypeNames at hchecked
  unfold emitModuleTypes
  have hoptional : ∀ (b : Bool) (other : Ident),
      List.count name (if b then [] else [other]) ≤ List.count name [other] := by
    intro b other
    cases b with
    | false => exact Nat.le_refl _
    | true => exact Nat.zero_le _
  have hinner := hoptional api.clientAuthVars.isEmpty
    (clientPrefixedTypeName api.clientName "AuthInner")
  have hstate := hoptional api.clientAuthCredentials.isEmpty
    (clientPrefixedTypeName api.clientName "AuthState")
  simp only [List.map_cons, List.map_nil, List.count_append, List.count_cons, List.count_nil,
    ← hcredentials] at hchecked hinner hstate ⊢
  omega

/-- What the names of the types end with. -/
def typeSuffixes : List String :=
  ["Vars", "AuthInner", "AuthVars", "AuthState", "Cx", "Builder", "Auth", "Scope", "Ext",
    "RequestExt"]

/-- Every type of the module is the client's or ends in one of the known suffixes. -/
theorem mem_emitModuleTypes {name : Ident}
    (h : name ∈ emitModuleTypes toUppercase api (buildFacadeIr toUppercase api)) :
    name = api.clientName ∨ ∃ suffix ∈ typeSuffixes, ∃ before, name = before ++ suffix := by
  have hends : ∀ suffix ∈ typeSuffixes, ∀ before : String, name = before ++ suffix →
      name = api.clientName ∨ ∃ suffix ∈ typeSuffixes, ∃ before, name = before ++ suffix :=
    fun suffix hsuffix before heq => .inr ⟨suffix, hsuffix, before, heq⟩
  have hite : ∀ (b : Bool) (other : Ident), name ∈ (if b then [] else [other]) → name = other := by
    intro b other hmem
    cases b with
    | false => exact List.mem_singleton.mp hmem
    | true => exact absurd hmem List.not_mem_nil
  unfold emitModuleTypes pendingExtReexports at h
  simp only [List.mem_append, List.mem_cons, List.not_mem_nil, or_false, List.mem_map,
    clientPrefixedTypeName, generatedAuthFacadeTypeName, generatedAuthHandleTypeName,
    generatedAcquireAsTraitTypeName, generatedEndpointRequestExtTraitTypeName] at h
  rcases h with (((((((h | h) | h) | h) | h | h | h | h) | h) | h) | h) | h
  · exact hends "Vars" (by decide) _ h
  · exact hends "AuthInner" (by decide) _ (hite _ _ h)
  · exact hends "AuthVars" (by decide) _ h
  · exact hends "AuthState" (by decide) _ (hite _ _ h)
  · exact hends "Cx" (by decide) _ h
  · exact .inl h
  · exact hends "Builder" (by decide) _ h
  · exact hends "Auth" (by decide) _ h
  · obtain ⟨credential, _, rfl⟩ := h
    exact hends "Auth" (by decide) _ rfl
  · obtain ⟨scope, hscope, rfl⟩ := h
    obtain ⟨info, _, rfl⟩ := mem_buildFacadeIr_iff.mp hscope
    exact hends "Scope" (by decide) _ rfl
  · obtain ⟨credential, _, rfl⟩ := h
    exact hends "Ext" (by decide) _ rfl
  · obtain ⟨ep, _, rfl⟩ := h
    exact hends "RequestExt" (by decide) _ rfl

/-- The type of the client is one of them. -/
theorem mem_emitModuleTypes_clientName :
    api.clientName ∈ emitModuleTypes toUppercase api facade := by
  unfold emitModuleTypes
  simp

/-- The types and modules of the module are distinct exactly if the client is
not named like a module. -/
theorem Checked.nodup_module_iff (h : Checked toUppercase api (buildFacadeIr toUppercase api)) :
    (emitModuleTypes toUppercase api (buildFacadeIr toUppercase api) ++ moduleNames).Nodup ↔
      api.clientName ∉ moduleNames := by
  have hmodules : moduleNames.Nodup := by decide
  rw [List.nodup_append']
  constructor
  · intro hnodup hmem
    exact hnodup.2.2 mem_emitModuleTypes_clientName hmem
  · intro hclient
    refine ⟨h.nodup_moduleTypes, hmodules, fun name htype hmodule => ?_⟩
    cases mem_emitModuleTypes htype with
    | inl heq => exact hclient (heq ▸ hmodule)
    | inr hsuffix =>
        obtain ⟨suffix, hsuffix, before, heq⟩ := hsuffix
        have hends : ∀ suffix ∈ typeSuffixes, ∀ name ∈ moduleNames,
            suffix.toList.isSuffixOf name.toList = false := by decide
        exact Affix.append_ne (hends suffix hsuffix name hmodule) heq.symm

/-! ## the modules of the endpoints -/

/-- The hash in a name has sixteen digits. -/
theorem length_stableEndpointHash (value : String) :
    (stableEndpointHash value).toList.length = 16 := by
  simp [stableEndpointHash]

/-- The last of them is a hexadecimal digit. -/
theorem getLast?_stableEndpointHash (value : String) :
    ∃ digit : Fin 16, (stableEndpointHash value).toList.getLast? = some (Nat.digitChar digit) := by
  unfold stableEndpointHash
  have hrange : (List.range 16).getLast? = some 15 := by decide
  rw [String.toList_ofList, List.getLast?_map, hrange, Option.map_some]
  exact ⟨⟨_, Nat.mod_lt _ (by decide)⟩, rfl⟩

/-- Types of one name have extension traits of one name. -/
theorem requestExt_eq_of_internal_eq {ep other : ResolvedEndpoint}
    (h : endpointInternalIdent toUppercase ep = endpointInternalIdent toUppercase other) :
    generatedEndpointRequestExtTraitTypeName toUppercase ep =
      generatedEndpointRequestExtTraitTypeName toUppercase other := by
  unfold endpointInternalIdent at h
  have hlength : ∀ value value' : String, (stableEndpointHash value).toList.length =
      (stableEndpointHash value').toList.length := by
    intro value value'
    rw [length_stableEndpointHash, length_stableEndpointHash]
  have hpascal := Affix.left_eq_of_append_eq (Affix.left_eq_of_append_eq h (hlength _ _)) rfl
  rw [String.append_assoc, String.append_assoc, String.append_right_inj] at hpascal
  unfold generatedEndpointRequestExtTraitTypeName
  rw [hpascal]

/-- So the internal name of an endpoint is no name of an extension trait. -/
theorem internal_ne_requestExt (ep other : ResolvedEndpoint) :
    endpointInternalIdent toUppercase ep ≠
      generatedEndpointRequestExtTraitTypeName toUppercase other := by
  obtain ⟨digit, hdigit⟩ := getLast?_stableEndpointHash (endpointQualifiedName ep)
  have hne : ∀ digit : Fin 16, Nat.digitChar digit ≠ 't' := by decide
  have hlast : "RequestExt".toList.getLast? = some 't' := by decide
  exact Affix.append_ne_append hdigit hlast (hne digit)

/-- The extension traits of the endpoints are distinct. -/
theorem Checked.nodup_requestExt (h : Checked toUppercase api facade) :
    (api.endpoints.map (generatedEndpointRequestExtTraitTypeName toUppercase)).Nodup := by
  have htypes := h.nodup_types
  unfold checkedTypeNames at htypes
  exact htypes.of_append_right

/-- The types and traits of the endpoints are distinct. -/
theorem Checked.nodup_endpointDefs (h : Checked toUppercase api facade) :
    (api.endpoints.flatMap (emitEndpointTypes toUppercase)).Nodup := by
  have hinternal : (api.endpoints.map (endpointInternalIdent toUppercase)).Nodup := by
    have hext := List.pairwise_map.mp h.nodup_requestExt
    refine List.pairwise_map.mpr (hext.imp (fun hne heq => hne ?_))
    exact requestExt_eq_of_internal_eq heq
  unfold emitEndpointTypes
  rw [Affix.nodup_flatMap_cons_iff]
  refine ⟨hinternal, ?_, fun ep _ other _ hmem => ?_⟩
  · have hsublist := (List.filter_sublist (p := fun ep => !(emitPendingSetters ep).isEmpty)
      (l := api.endpoints)).map (generatedEndpointRequestExtTraitTypeName toUppercase)
    have hnodup := hsublist.nodup h.nodup_requestExt
    rw [List.map_eq_flatMap, Affix.flatMap_filter] at hnodup
    simpa using hnodup
  · split at hmem
    · exact absurd hmem List.not_mem_nil
    · exact internal_ne_requestExt ep other (List.mem_singleton.mp hmem)

/-- The endpoints at one path have distinct names. -/
theorem Checked.nodup_names_at (h : Checked toUppercase api facade) (path : List Ident) :
    ((api.endpoints.filter (fun ep => ep.scopeModules = path)).map (·.name)).Nodup := by
  have hsublist := (List.filter_sublist (p := fun ep => ep.scopeModules = path)
    (l := api.endpoints)).map (fun ep => (ep.scopeModules, ep.name))
  have hnodup := hsublist.nodup h.nodup_targets
  have heq : (api.endpoints.filter (fun ep => ep.scopeModules = path)).map
      (fun ep => (ep.scopeModules, ep.name)) =
      ((api.endpoints.filter (fun ep => ep.scopeModules = path)).map (·.name)).map
        (Prod.mk path) := by
    rw [List.map_map]
    refine List.map_congr_left (fun ep hep => ?_)
    rw [of_decide_eq_true (List.mem_filter.mp hep).2]
    rfl
  rw [heq] at hnodup
  exact hnodup.of_map

/-- The endpoints at a path and the modules below it. -/
theorem Checked.nodup_module (h : Checked toUppercase api facade) {path children : List Ident}
    (hnodup : children.Nodup)
    (hchildren : ∀ child ∈ children, ∃ ep ∈ api.endpoints, path ++ [child] <+: ep.scopeModules) :
    ((api.endpoints.filter (fun ep => ep.scopeModules = path)).map (·.name) ++ children).Nodup := by
  refine List.nodup_append'.mpr ⟨h.nodup_names_at path, hnodup, fun name hname hchild => ?_⟩
  obtain ⟨ep, hep, rfl⟩ := List.mem_map.mp hname
  obtain ⟨hmem, hpath⟩ := List.mem_filter.mp hep
  obtain ⟨other, hother, halong⟩ := hchildren ep.name hchild
  refine h.not_module hmem hother ?_
  rwa [of_decide_eq_true hpath]

/-- The endpoints with a scope, by their paths. -/
def scopedAliases (toUppercase : Char → List Char) (api : ResolvedApi) :
    List (List Ident × EndpointScopeAlias) :=
  (api.endpoints.filter (fun ep => !ep.scopeModules.isEmpty)).map (fun ep =>
    (ep.scopeModules, ⟨ep.name, endpointInternalIdent toUppercase ep⟩))

/-- The aliases at a path are the endpoints there. -/
theorem map_name_at {path : List Ident} (hne : path ≠ []) :
    (PathTree.at_ path (scopedAliases toUppercase api)).map (·.name) =
      (api.endpoints.filter (fun ep => ep.scopeModules = path)).map (·.name) := by
  unfold PathTree.at_ scopedAliases
  rw [List.filter_map, List.map_map, List.map_map, List.filter_filter]
  have hfilter : ∀ ep ∈ api.endpoints,
      (((fun entry : List Ident × EndpointScopeAlias => decide (entry.1 = path)) ∘ (fun ep =>
        (ep.scopeModules, ⟨ep.name, endpointInternalIdent toUppercase ep⟩))) ep &&
          !ep.scopeModules.isEmpty) = decide (ep.scopeModules = path) := by
    intro ep _
    by_cases hpath : ep.scopeModules = path
    · simp [hpath, hne]
    · simp [hpath]
  rw [List.filter_congr hfilter]
  rfl

/-- A module of aliases has an endpoint in it. -/
theorem exists_endpoint_of_alias {path : List Ident}
    (h : ∃ entry ∈ scopedAliases toUppercase api, path <+: entry.1) :
    ∃ ep ∈ api.endpoints, path <+: ep.scopeModules := by
  obtain ⟨entry, hentry, halong⟩ := h
  obtain ⟨ep, hep, rfl⟩ := List.mem_map.mp hentry
  exact ⟨ep, List.mem_of_mem_filter hep, halong⟩

/-- The modules of the endpoints hold distinct names. -/
theorem Checked.nodup_emitEndpoints (h : Checked toUppercase api facade) :
    ∀ space ∈ emitEndpoints toUppercase api, space.names.Nodup := by
  intro space hspace
  have hfits := PathTree.fits_ofList (scopedAliases toUppercase api)
  cases List.mem_append.mp hspace with
  | inl htop =>
      rw [List.mem_cons, List.mem_singleton] at htop
      cases htop with
      | inl heq =>
          rw [heq]
          exact h.nodup_endpointDefs
      | inr heq =>
          rw [heq]
          have hroots : ∀ ep : ResolvedEndpoint, ep.scopeModules.isEmpty =
              decide (ep.scopeModules = []) := by
            intro ep
            rw [Bool.eq_iff_iff, List.isEmpty_iff, decide_eq_true_iff]
          simp only [hroots]
          refine h.nodup_module hfits.nodup (fun child hchild => ?_)
          obtain ⟨entry, hentry, hhead⟩ := (hfits.mem_keys child).mp hchild
          exact exists_endpoint_of_alias
            ⟨entry, hentry, head?_eq_some_iff_prefixed.mp hhead⟩
  | inr hwalk =>
      obtain ⟨path, children, rfl, hne, hnodup, hchildren⟩ :=
        PathTree.mem_walk hfits.nodes hwalk
      unfold endpointScopeModule
      rw [map_name_at hne]
      exact h.nodup_module hnodup (fun child hchild => exists_endpoint_of_alias
        (hchildren child hchild))

/-! ## accessors and setters -/

/-- The auth accessors are distinct. -/
theorem Checked.nodup_accessors (h : Checked toUppercase api facade) :
    (emitAuthAccessorMethods api).Nodup := by
  have hchecked := h.authFacade
  unfold validateAuthFacadeNamespace at hchecked
  have hkeys := nodup_of_noErrors hchecked
  refine List.Nodup.of_map (Prod.mk ([] : List Ident)) ?_
  unfold emitAuthAccessorMethods
  rw [List.map_map] at hkeys ⊢
  exact hkeys

/-- The methods of the builder are distinct. -/
theorem Checked.nodup_builder (h : Checked toUppercase api facade) : (emitBuilder api).Nodup := by
  have hchecked := h.builder
  unfold validateBuilderNamespace at hchecked
  have htaken : ((["new", "build"].map (fun name =>
      (⟨[], name, "generated builder method"⟩ : PublicName))).map PublicName.key).Nodup := by
    decide
  have hkeys := nodup_of_publicNameErrors htaken hchecked
  have hnames : (["new", "build"] ++
      ((api.clientVars ++ api.clientAuthVars).filter VarInfo.required).map (·.rust)).Nodup := by
    refine List.Nodup.of_map (Prod.mk ([] : List Ident)) ?_
    simp only [List.map_append, List.map_map] at hkeys ⊢
    exact hkeys
  rw [List.nodup_iff_count_le_one] at hnames ⊢
  intro name
  have hname := hnames name
  unfold emitBuilder
  simp only [List.filter_append, List.map_append, List.count_append, List.count_cons,
    List.count_nil] at hname ⊢
  omega

end

end Concord.Sema
