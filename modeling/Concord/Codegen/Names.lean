import Concord.Codegen.Facade
import Concord.Lib.PathTree

/-!
# Concord.Codegen.Names

The names of the items the generator emits
(`concord_macros/src/codegen`): the methods of each type and each extension
trait, and the types and modules of each module.

Impls of the traits of `concord_core` have the names of those traits and are
not listed, and neither are the hidden descriptor statics, which are values.
-/

namespace Concord.Sema

/-- A type or trait with its methods, or a module with its types and
modules. -/
structure NameSpace where
  owner : String
  names : List Ident
  deriving DecidableEq, Repr

/-! ## the client -/

/-- The methods of `emit_client_vars`. -/
def emitClientVars (vars : List VarInfo) : List Ident :=
  "new" :: vars.flatMap (fun var =>
    var.rust :: if var.optional then ["clear_" ++ var.rust] else [])

/-- `var_setters` and `auth_setters`: each setter finds its variable by
name. -/
def emitClientSetters (vars : List VarInfo) : List Ident :=
  vars.flatMap (fun setter =>
    match Keyed.last VarInfo.rust vars setter.rust with
    | none => []
    | some var =>
      ("set_" ++ setter.rust) :: if var.optional then ["clear_" ++ setter.rust] else [])

/-- The methods of an endpoint-backed credential; `pendingMethod` is that of
its extension trait. -/
structure FacadeCredentialMethods where
  acquireName : Ident
  setName : Ident
  clearName : Ident
  hasName : Ident
  pendingMethod : Ident
  deriving DecidableEq, Repr

/-- `facade_credential_methods`. -/
def facadeCredentialMethods (name : Ident) : FacadeCredentialMethods where
  acquireName := "acquire_auth_" ++ name
  setName := "set_auth_" ++ name ++ "_value"
  clearName := "clear_auth_" ++ name
  hasName := "has_auth_" ++ name
  pendingMethod := "acquire_as_" ++ name

def FacadeCredentialMethods.lifecycle (methods : FacadeCredentialMethods) : List Ident :=
  [methods.acquireName, methods.setName, methods.clearName, methods.hasName]

/-- The names of the endpoint-backed credentials, which are those of their
accessors (`emit_auth_accessor_methods`). -/
def emitAuthAccessorMethods (api : ResolvedApi) : List Ident :=
  (api.clientAuthCredentials.filter AuthCredentialIr.isEndpoint).map (·.name)

def rootAuthScopeExists (api : ResolvedApi) : Bool :=
  api.endpoints.any (fun ep => ep.scopeModules.head? = some "auth")

/-- The methods of the client in `emit_auth_facade`. -/
def emitAuthFacade (api : ResolvedApi) : List Ident :=
  (if rootAuthScopeExists api then [] else ["auth"]) ++ ["auth_state"]

def rebuildAuthStateName : Ident := "__concord_rebuild_auth_state_preserving_manual"

/-- `rebuild_auth_state_method`. -/
def rebuildAuthStateMethod (api : ResolvedApi) : List Ident :=
  if api.clientAuthCredentials.isEmpty then [] else [rebuildAuthStateName]

def FacadeIr.endpointForResolved (facade : FacadeIr) (ep : ResolvedEndpoint) :
    Option FacadeEndpoint :=
  Keyed.last FacadeEndpoint.target facade.endpoints ⟨ep.scopeModules, ep.name⟩

/-- `root_endpoint_methods` of `emit_tree_facade`. -/
def rootEndpointMethods (api : ResolvedApi) (facade : FacadeIr) : List Ident :=
  (api.endpoints.filter (·.scopeModules.isEmpty)).filterMap (fun ep =>
    (facade.endpointForResolved ep).map (·.publicMethod))

/-- The methods of the client (`emit_client_wrapper`). -/
def emitClientWrapper (api : ResolvedApi) (facade : FacadeIr) (roots : List ScopeCtor) :
    List Ident :=
  ["new", "new_with_retry_mode", "new_with_safe_reqwest_builder",
    "new_with_safe_reqwest_builder_fallible", "new_with_safe_reqwest_builder_and_retry_mode",
    "builder"] ++
  rebuildAuthStateMethod api ++ emitClientSetters api.clientVars ++
  emitClientSetters api.clientAuthVars ++
  (emitAuthAccessorMethods api).flatMap (fun name => (facadeCredentialMethods name).lifecycle) ++
  emitAuthFacade api ++
  ["debug_level", "set_debug_level", "with_debug_level", "pagination_detect_loops",
    "set_pagination_detect_loops", "with_pagination_detect_loops", "configure", "configure_mut",
    "api_headers", "set_api_headers", "with_api_headers", "request"] ++
  roots.map (·.method) ++ rootEndpointMethods api facade

/-- The methods of the builder. -/
def emitBuilder (api : ResolvedApi) : List Ident :=
  ["new"] ++ (api.clientVars.filter VarInfo.required).map (·.rust) ++
    (api.clientAuthVars.filter VarInfo.required).map (·.rust) ++ ["build"]

/-! ## scopes -/

def emitScopeSetter (setter : FacadeSetter) (var : VarInfo) : List Ident :=
  setter.setName :: if var.optional then ["clear_" ++ setter.field] else []

/-- The setters of a scope, each for the variable found by its name. -/
def emitScopeSetters (scope : FacadeScope) : List Ident :=
  scope.setters.flatMap (fun setter =>
    match Keyed.last VarInfo.rust scope.decls setter.field with
    | none => []
    | some var => emitScopeSetter setter var)

def scopeEndpointMethods (api : ResolvedApi) (facade : FacadeIr) (path : List Ident) :
    List Ident :=
  api.endpoints.filterMap (fun ep =>
    match facade.endpointForResolved ep with
    | none => none
    | some endpoint => if endpoint.scopePath ≠ path then none else some endpoint.publicMethod)

/-- The methods of a scope (`emit_facade_scope_struct`). -/
def emitFacadeScopeMethods (api : ResolvedApi) (facade : FacadeIr) (scope : FacadeScope) :
    Result NameSpace := do
  let struct ← emitFacadeScopeStruct facade scope
  .ok
    { owner := "impl " ++ struct.name
      names := emitScopeSetters scope ++ struct.children.map (·.method) ++
        scopeEndpointMethods api facade scope.path ++
        if scope.path = ["auth"] then emitAuthAccessorMethods api else [] }

/-! ## endpoints -/

/-- A setter of an endpoint, with its three names. -/
structure EndpointSetter where
  field : Ident
  setName : Ident
  setOptionalName : Ident
  clearName : Ident
  deriving DecidableEq, Repr

def EndpointSetter.names (setter : EndpointSetter) : List Ident :=
  [setter.setName, setter.setOptionalName, setter.clearName]

def endpointSetter (var : VarInfo) : EndpointSetter :=
  ⟨var.rust, var.rust, var.rust ++ "_opt", "clear_" ++ var.rust⟩

/-- The optional parameters an endpoint does not take from its scopes. -/
def ownOptional (ep : ResolvedEndpoint) : List VarInfo :=
  (ep.vars.filter (fun var => !(capturedNames ep).contains var.rust)).filter VarInfo.hasSetter

/-- The setters of `facade_endpoint_from_resolved`. -/
def facadeEndpointSetters (ep : ResolvedEndpoint) : List EndpointSetter :=
  (ownOptional ep).map endpointSetter

/-- `setters_ts` of `emit_endpoint_def`. -/
def emitEndpointSetters (ep : ResolvedEndpoint) : List Ident :=
  (ep.vars.filter VarInfo.hasSetter).flatMap (fun var =>
    match Keyed.last EndpointSetter.field (facadeEndpointSetters ep) var.rust with
    | none => []
    | some setter => setter.names)

/-- `endpoint_var_for_setter`. -/
def endpointVarForSetter (ep : ResolvedEndpoint) (setter : EndpointSetter) : Option VarInfo :=
  (Keyed.last VarInfo.rust ep.vars setter.field).filter VarInfo.hasSetter

/-- `pending_setter_decls` of `emit_endpoint_def`. -/
def emitPendingSetters (ep : ResolvedEndpoint) : List Ident :=
  (facadeEndpointSetters ep).flatMap (fun setter =>
    match endpointVarForSetter ep setter with
    | none => []
    | some _ => setter.names)

/-! ## endpoint types -/

section

variable (toUppercase : Char → List Char)

def stableEndpointHash (value : String) : String :=
  let hash := value.toUTF8.data.toList.foldl
    (fun hash byte => (hash ^^^ byte.toUInt64) * 0x100000001b3) (0xcbf29ce484222325 : UInt64)
  -- `{hash:016x}`
  String.ofList ((List.range 16).map (fun idx =>
    Nat.digitChar ((hash.toNat >>> (4 * (15 - idx))) % 16)))

def endpointQualifiedName (ep : ResolvedEndpoint) : String :=
  if ep.scopeModules.isEmpty then ep.name
  else String.intercalate "::" ep.scopeModules ++ "::" ++ ep.name

/-- `endpoint_internal_ident`. -/
def endpointInternalIdent (ep : ResolvedEndpoint) : Ident :=
  "Ep" ++ pascalizeIdentPath toUppercase ep.scopeModules ++
    generatedPascalName toUppercase ep.name ++ "H" ++ stableEndpointHash (endpointQualifiedName ep)

/-- The types and traits of `emit_endpoint_def`. -/
def emitEndpointTypes (ep : ResolvedEndpoint) : List Ident :=
  endpointInternalIdent toUppercase ep ::
    if (emitPendingSetters ep).isEmpty then []
    else [generatedEndpointRequestExtTraitTypeName toUppercase ep]

structure EndpointScopeAlias where
  name : Ident
  internal : Ident
  deriving DecidableEq, Repr

/-- `emit_endpoint_scope_modules`; the walk over the items has checked the
depth of the scopes. -/
def emitEndpointScopeModules (api : ResolvedApi) : PathTree Ident EndpointScopeAlias :=
  .ofList ((api.endpoints.filter (fun ep => !ep.scopeModules.isEmpty)).map (fun ep =>
    (ep.scopeModules, ⟨ep.name, endpointInternalIdent toUppercase ep⟩)))

/-- A module of `emit_endpoint_scope_module`. -/
def endpointScopeModule (path : List Ident) (endpoints : List EndpointScopeAlias)
    (children : List Ident) : NameSpace where
  owner := "mod endpoints::" ++ String.intercalate "::" path
  names := endpoints.map (·.name) ++ children

/-- The modules of `emit_endpoints`. -/
def emitEndpoints (api : ResolvedApi) : List NameSpace :=
  let modules := emitEndpointScopeModules toUppercase api
  [⟨"mod __endpoints", api.endpoints.flatMap (emitEndpointTypes toUppercase)⟩,
    ⟨"mod endpoints",
      (api.endpoints.filter (·.scopeModules.isEmpty)).map (·.name) ++ modules.keys⟩] ++
  modules.walk endpointScopeModule []

/-! ## the module of the API -/

/-- `pending_ext_reexports`. -/
def pendingExtReexports (api : ResolvedApi) : List Ident :=
  (api.endpoints.filter (fun ep => !(facadeEndpointSetters ep).isEmpty)).map
    (generatedEndpointRequestExtTraitTypeName toUppercase)

/-- The types of the module of the API. -/
def emitModuleTypes (api : ResolvedApi) (facade : FacadeIr) : List Ident :=
  let client := api.clientName
  [clientPrefixedTypeName client "Vars"] ++
  (if api.clientAuthVars.isEmpty then [] else [clientPrefixedTypeName client "AuthInner"]) ++
  [clientPrefixedTypeName client "AuthVars"] ++
  (if api.clientAuthCredentials.isEmpty then []
    else [clientPrefixedTypeName client "AuthState"]) ++
  [clientPrefixedTypeName client "Cx", client, clientPrefixedTypeName client "Builder",
    generatedAuthFacadeTypeName client] ++
  (emitAuthAccessorMethods api).map (generatedAuthHandleTypeName toUppercase client) ++
  facade.scopes.map (·.rustTypeName) ++
  (emitAuthAccessorMethods api).map (generatedAcquireAsTraitTypeName toUppercase client) ++
  pendingExtReexports toUppercase api

def moduleNames : List Ident := ["__endpoints", "endpoints", "__internal"]

/-- What the generator emits (`emit_resolved`), unless it panics. -/
def emitResolved (pipeline : ResolvedApiPipeline) : Result (List NameSpace) := do
  let api := pipeline.api
  let facade := pipeline.facadeIr
  let client := api.clientName
  let roots ← (facade.scopes.filter (·.path.length = 1)).mapM (emitScopeCtorMethod · none)
  let scopes ← facade.scopes.mapM (emitFacadeScopeMethods api facade)
  .ok ([⟨"mod", emitModuleTypes toUppercase api facade ++ moduleNames⟩,
    ⟨"impl " ++ clientPrefixedTypeName client "Vars", emitClientVars api.clientVars⟩,
    ⟨"impl " ++ clientPrefixedTypeName client "AuthVars", ["new"]⟩,
    ⟨"impl " ++ client, emitClientWrapper api facade roots⟩,
    ⟨"impl " ++ clientPrefixedTypeName client "Builder", emitBuilder api⟩,
    ⟨"impl " ++ generatedAuthFacadeTypeName client, emitAuthAccessorMethods api⟩] ++
    scopes ++
    (emitAuthAccessorMethods api).flatMap (fun name =>
      [⟨"impl " ++ generatedAuthHandleTypeName toUppercase client name,
          ["acquire", "set", "clear", "is_set"]⟩,
        ⟨"trait " ++ generatedAcquireAsTraitTypeName toUppercase client name,
          [(facadeCredentialMethods name).pendingMethod]⟩]) ++
    api.endpoints.flatMap (fun ep =>
      [⟨"impl " ++ endpointInternalIdent toUppercase ep, "new" :: emitEndpointSetters ep⟩,
        ⟨"trait " ++ generatedEndpointRequestExtTraitTypeName toUppercase ep,
          emitPendingSetters ep⟩]) ++
    emitEndpoints toUppercase api)

end

end Concord.Sema
