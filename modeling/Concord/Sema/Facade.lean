import Concord.Sema.Items

/-!
# Concord.Sema.Facade

The facade of an API (`concord_macros/src/model/facade.rs`) and the checks on
the names the generator makes public
(`validate_generated_public_api` of `concord_macros/src/sema/mod.rs`).

`toUppercase` is `char::to_uppercase`.  Documentation texts are left out.
-/

namespace Concord.Sema

structure ResolvedApi where
  clientName : Ident
  scheme : Scheme
  domain : String
  clientVars : List VarInfo
  clientAuthVars : List VarInfo
  clientAuthCredentials : List AuthCredentialIr
  clientPolicy : PolicyBlocksResolved
  rateLimitResponsePolicy : Option String
  endpoints : List ResolvedEndpoint
  deriving DecidableEq, Repr

/-! ## scopes -/

structure FacadeSetter where
  field : Ident
  setName : Ident
  clearName : Option Ident
  deriving DecidableEq, Repr

/-- A parameter that callers need not give. -/
def VarInfo.hasSetter (var : VarInfo) : Bool := var.optional || var.default.isSome

/-- A parameter that callers must give. -/
def VarInfo.required (var : VarInfo) : Bool := !var.optional && var.default.isNone

structure FacadeScopeInfo where
  path : List Ident
  decls : List VarInfo
  deriving DecidableEq, Repr

/-- The scopes on the path of an endpoint. -/
def facadeScopesOf (ep : ResolvedEndpoint) : List FacadeScopeInfo :=
  (List.range ep.scopeModules.length).map (fun idx =>
    ⟨ep.scopeModules.take (idx + 1), (ep.facadeParamGroups.take (idx + 1)).flatten⟩)

/-- `collect_facade_scopes`. -/
def collectFacadeScopes (api : ResolvedApi) : List FacadeScopeInfo :=
  Keyed.keepFirst FacadeScopeInfo.path (api.endpoints.flatMap facadeScopesOf)

/-- `FacadeScope`; `methods` are the paths of the child scopes. -/
structure FacadeScope where
  path : List Ident
  publicMethod : Ident
  rustTypeName : Ident
  parentPath : List Ident
  decls : List VarInfo
  setters : List FacadeSetter
  methods : List (List Ident)
  deriving DecidableEq, Repr

/-! ## endpoints -/

inductive FacadeConstructorArg where
  | publicArg (name : Ident)
  | capturedScopeField (name : Ident)
  deriving DecidableEq, Repr

structure FacadeCapturedSetter where
  field : Ident
  optional : Bool
  deriving DecidableEq, Repr

structure FacadeEndpoint where
  target : EndpointTargetIr
  publicMethod : Ident
  scopePath : List Ident
  requiredArgs : List Ident
  constructor : List FacadeConstructorArg
  capturedSetters : List FacadeCapturedSetter
  deriving DecidableEq, Repr

/-! ## names -/

section

variable (toUppercase : Char → List Char)

/-- `split('_')` without the empty parts. -/
def splitWords : List Char → List (List Char)
  | [] => []
  | c :: cs =>
    match splitWords cs with
    | [] => if c = '_' then [] else [[c]]
    | word :: words =>
      if c = '_' then word :: words
      else if cs.head? = some '_' then [c] :: word :: words
      else (c :: word) :: words

def generatedPascalName (raw : Ident) : String :=
  String.ofList ((splitWords raw.toList).flatMap fun
    | [] => []
    | first :: rest => toUppercase first ++ rest)

def pascalizeIdentPath (path : List Ident) : String :=
  String.join (path.map (generatedPascalName toUppercase))

def generatedScopeTypeName (clientName : Ident) (path : List Ident) : String :=
  clientName ++ pascalizeIdentPath toUppercase path ++ "Scope"

def clientPrefixedTypeName (client suffix : String) : String := client ++ suffix

def generatedAuthFacadeTypeName (client : Ident) : String := clientPrefixedTypeName client "Auth"

def generatedAuthHandleTypeName (client credential : Ident) : String :=
  client ++ generatedPascalName toUppercase credential ++ "Auth"

def generatedAcquireAsTraitTypeName (client credential : Ident) : String :=
  client ++ "AcquireAs" ++ generatedPascalName toUppercase credential ++ "Ext"

def generatedEndpointRequestExtTraitTypeName (ep : ResolvedEndpoint) : String :=
  pascalizeIdentPath toUppercase ep.scopeModules ++ generatedPascalName toUppercase ep.name ++
    "RequestExt"

/-- `pascal_to_snake`. -/
def pascalToSnake (prevLowerOrDigit : Bool) : List Char → List Char
  | [] => []
  | ch :: rest =>
    if ch.isUpper then
      (if prevLowerOrDigit then ['_'] else []) ++ ch.toLower :: pascalToSnake false rest
    else ch :: pascalToSnake (ch.isLower || ch.isDigit) rest

def generatedEndpointMethodName (raw : Ident) : Ident :=
  String.ofList (pascalToSnake false raw.toList)

/-! ## the facade -/

structure FacadeIr where
  scopes : List FacadeScope
  endpoints : List FacadeEndpoint
  deriving DecidableEq, Repr

def facadeScopeSetter (var : VarInfo) : FacadeSetter :=
  ⟨var.rust, var.rust, if var.optional then some ("clear_" ++ var.rust) else none⟩

/-- The children of a scope (`index_facade_scope_children`). -/
def facadeScopeChildren (infos : List FacadeScopeInfo) (path : List Ident) : List (List Ident) :=
  (infos.filter (fun info => 1 < info.path.length && info.path.dropLast = path)).map (·.path)

def facadeScopeFromInfo (api : ResolvedApi) (infos : List FacadeScopeInfo)
    (info : FacadeScopeInfo) : FacadeScope where
  path := info.path
  publicMethod := info.path.getLastD ""
  rustTypeName := generatedScopeTypeName toUppercase api.clientName info.path
  parentPath := info.path.dropLast
  decls := info.decls
  setters := (info.decls.filter VarInfo.hasSetter).map facadeScopeSetter
  methods := facadeScopeChildren infos info.path

/-- `captured_names`. -/
def capturedNames (ep : ResolvedEndpoint) : List Ident := ep.facadeParamGroups.flatten.map (·.rust)

def hasRequestBody (ep : ResolvedEndpoint) : Bool := ep.io.request ≠ .none

/-- The constructor arguments of an endpoint. -/
def facadeConstructorArgs (ep : ResolvedEndpoint) : List FacadeConstructorArg :=
  (ep.vars.filter VarInfo.required).map (fun var =>
    if (capturedNames ep).contains var.rust then .capturedScopeField var.rust
    else .publicArg var.rust) ++
  if hasRequestBody ep then [.publicArg "body"] else []

def facadeRequiredArgs (ep : ResolvedEndpoint) : List Ident :=
  (ep.vars.filter (fun var => !(capturedNames ep).contains var.rust && var.required)).map
    (·.rust) ++
  if hasRequestBody ep then ["body"] else []

/-- `facade_endpoint_from_resolved`. -/
def facadeEndpointFromResolved (ep : ResolvedEndpoint) : FacadeEndpoint where
  target := ⟨ep.scopeModules, ep.name⟩
  publicMethod := generatedEndpointMethodName (ep.alias_.getD ep.name)
  scopePath := ep.scopeModules
  requiredArgs := facadeRequiredArgs ep
  constructor := facadeConstructorArgs ep
  capturedSetters := (ep.facadeParamGroups.flatten.filter VarInfo.hasSetter).map (fun var =>
    ⟨var.rust, var.optional⟩)

/-- `build_facade_ir`. -/
def buildFacadeIr (api : ResolvedApi) : FacadeIr :=
  let infos := collectFacadeScopes api
  { scopes := infos.map (facadeScopeFromInfo toUppercase api infos)
    endpoints := api.endpoints.map facadeEndpointFromResolved }

/-! ## public names -/

/-- A name added to a namespace. -/
structure PublicName where
  space : List Ident
  name : String
  kind : String
  deriving DecidableEq, Repr

/-- `PublicNameNamespace::add`, one name after the other: the errors for the
names that are taken. -/
def publicNameErrors (label : List Ident → String) (taken : List PublicName) :
    List PublicName → List String
  | [] => []
  | entry :: entries =>
    match taken.find? (fun prev => prev.space = entry.space && prev.name = entry.name) with
    | some prev =>
      ("generated public API name `" ++ entry.name ++ "` for " ++ entry.kind ++
        " conflicts with " ++ prev.kind ++ " in " ++ label entry.space) ::
        publicNameErrors label taken entries
    | none => publicNameErrors label (taken ++ [entry]) entries

def rawIdentErrors (names : List (Ident × String)) : List String :=
  (names.filter (fun entry => "r#".toList.isPrefixOf entry.1.toList)).map (fun entry =>
    "raw Rust identifier `" ++ entry.1 ++ "` is not supported for generated public API " ++
      entry.2 ++ " names")

/-- The identifiers `reject_raw_ident` is asked about. -/
def publicIdents (api : ResolvedApi) : List (Ident × String) :=
  [(api.clientName, "client type")] ++
  (api.clientVars ++ api.clientAuthVars).map (fun var => (var.rust, "client parameter")) ++
  api.clientAuthCredentials.map (fun credential => (credential.name, "credential")) ++
  api.endpoints.flatMap (fun ep =>
    [(ep.name, "endpoint")] ++ ep.alias_.toList.map (fun alias_ => (alias_, "endpoint alias")) ++
    ep.scopeModules.map (fun scope => (scope, "scope")) ++
    ep.vars.map (fun var => (var.rust, "endpoint parameter")) ++
    ep.facadeParamGroups.flatten.map (fun var => (var.rust, "scope parameter")))

def AuthCredentialIr.isEndpoint (credential : AuthCredentialIr) : Bool :=
  match credential.kind with
  | .endpoint _ _ _ => true
  | _ => false

def clientMethodNames : List String :=
  ["new", "new_with_retry_mode", "new_with_safe_reqwest_builder",
    "new_with_safe_reqwest_builder_fallible", "new_with_safe_reqwest_builder_and_retry_mode",
    "builder", "debug_level", "set_debug_level", "with_debug_level", "pagination_detect_loops",
    "set_pagination_detect_loops", "with_pagination_detect_loops", "configure", "configure_mut",
    "api_headers", "set_api_headers", "with_api_headers", "request", "auth_state"]

def clientSetterNames (vars : List VarInfo) (setter clearer : String) : List PublicName :=
  vars.flatMap (fun var => ⟨[], "set_" ++ var.rust, setter⟩ ::
    if var.optional then [⟨[], "clear_" ++ var.rust, clearer⟩] else [])

def validateClientMethodNamespace (api : ResolvedApi) (facade : FacadeIr) : List String :=
  let reserved := clientMethodNames ++
    if facade.scopes.any (fun scope => scope.path.head? = some "auth") then [] else ["auth"]
  publicNameErrors (fun _ => "generated client")
    (reserved.map (fun name => ⟨[], name, "generated client method"⟩))
    (clientSetterNames api.clientVars "client parameter setter" "client parameter clearer" ++
     clientSetterNames api.clientAuthVars "client secret setter" "client secret clearer" ++
     (api.clientAuthCredentials.filter AuthCredentialIr.isEndpoint).flatMap (fun credential =>
       ["acquire_auth_" ++ credential.name, "set_auth_" ++ credential.name ++ "_value",
         "clear_auth_" ++ credential.name, "has_auth_" ++ credential.name].map (fun name =>
           ⟨[], name, "endpoint-backed credential helper"⟩)) ++
     (facade.scopes.filter (fun scope => scope.path.length = 1)).map (fun scope =>
       ⟨[], scope.publicMethod, "root scope accessor"⟩) ++
     (facade.endpoints.filter (fun ep => ep.scopePath.isEmpty)).map (fun ep =>
       ⟨[], ep.publicMethod, "root endpoint method"⟩))

def validateBuilderNamespace (api : ResolvedApi) : List String :=
  publicNameErrors (fun _ => "generated client builder")
    (["new", "build"].map (fun name => ⟨[], name, "generated builder method"⟩))
    (((api.clientVars ++ api.clientAuthVars).filter VarInfo.required).map (fun var =>
      ⟨[], var.rust, "required constructor parameter builder setter"⟩))

def validateAuthFacadeNamespace (api : ResolvedApi) : List String :=
  publicNameErrors (fun _ => "generated auth-state facade") []
    ((api.clientAuthCredentials.filter AuthCredentialIr.isEndpoint).map (fun credential =>
      ⟨[], credential.name, "endpoint-backed credential auth-state accessor"⟩))

def scopeNamespaceLabel (path : List Ident) : String :=
  if path.isEmpty then "generated client"
  else "generated `" ++ String.intercalate "::" path ++ "` scope facade"

/-- The names a scope adds to its own namespace. -/
def scopePublicNames (scope : FacadeScope) : List PublicName :=
  scope.setters.flatMap (fun setter =>
    ⟨scope.path, setter.setName, "scope parameter setter"⟩ ::
      setter.clearName.toList.map (fun clear => ⟨scope.path, clear, "scope parameter clearer"⟩)) ++
  scope.methods.map (fun child => ⟨scope.path, child.getLastD "", "scope accessor"⟩)

def validateScopeMethodNamespaces (facade : FacadeIr) : List String :=
  publicNameErrors scopeNamespaceLabel []
    (facade.scopes.flatMap scopePublicNames ++
     (facade.endpoints.filter (fun ep => !ep.scopePath.isEmpty)).map (fun ep =>
       ⟨ep.scopePath, ep.publicMethod, "endpoint method"⟩))

def endpointTypeNamespaceLabel (path : List Ident) : String :=
  if path.isEmpty then "generated endpoints module"
  else "generated endpoints::" ++ String.intercalate "::" path ++ " module"

/-- The modules on the path of an endpoint. -/
def endpointModules (ep : ResolvedEndpoint) : List PublicName :=
  (List.range ep.scopeModules.length).map (fun idx =>
    ⟨ep.scopeModules.take idx, ep.scopeModules[idx]?.getD "", "endpoint scope module"⟩)

/-- The names of `validate_endpoint_public_type_namespaces`; a module is added
once. -/
def endpointTypeNames (seen : List PublicName) : List ResolvedEndpoint → List PublicName
  | [] => []
  | ep :: eps =>
    let fresh := (endpointModules ep).filter (fun entry => !seen.contains entry)
    ⟨ep.scopeModules, ep.name, "endpoint marker type"⟩ :: fresh ++
      endpointTypeNames (seen ++ fresh) eps

def validateGeneratedTypeNamespace (api : ResolvedApi) (facade : FacadeIr) : List String :=
  publicNameErrors (fun _ => "generated module type namespace") []
    ([⟨[], api.clientName, "client type"⟩] ++
     ["Vars", "AuthInner", "AuthVars", "AuthState", "Cx", "Builder"].map (fun suffix =>
       ⟨[], clientPrefixedTypeName api.clientName suffix, "generated client support type"⟩) ++
     [⟨[], generatedAuthFacadeTypeName api.clientName, "generated auth-state facade type"⟩] ++
     (api.clientAuthCredentials.filter AuthCredentialIr.isEndpoint).flatMap (fun credential =>
       [⟨[], generatedAuthHandleTypeName toUppercase api.clientName credential.name,
          "endpoint-backed credential auth handle type"⟩,
        ⟨[], generatedAcquireAsTraitTypeName toUppercase api.clientName credential.name,
          "endpoint-backed credential request extension trait"⟩]) ++
     facade.scopes.map (fun scope => ⟨[], scope.rustTypeName, "scope facade type"⟩) ++
     api.endpoints.map (fun ep =>
       ⟨[], generatedEndpointRequestExtTraitTypeName toUppercase ep,
         "endpoint request extension trait"⟩)) ++
  publicNameErrors endpointTypeNamespaceLabel [] (endpointTypeNames [] api.endpoints)

/-- `validate_generated_public_api`. -/
def validateGeneratedPublicApi (api : ResolvedApi) (facade : FacadeIr) : Result Unit :=
  match rawIdentErrors (publicIdents api) ++ validateClientMethodNamespace api facade ++
      validateBuilderNamespace api ++ validateAuthFacadeNamespace api ++
      validateScopeMethodNamespaces facade ++
      validateGeneratedTypeNamespace toUppercase api facade with
  | [] => .ok ()
  | errors => fail (String.intercalate "\n" errors)

end

end Concord.Sema
