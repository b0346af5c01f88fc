import Mathlib.Data.List.Sort
import Mathlib.Data.String.Basic
import Concord.HeaderOwnership
import Concord.Sema.Profile

/-!
# Concord.Sema.Auth

Credentials and authentication requirements of a declaration
(`concord_macros/src/sema/auth.rs`).
-/

namespace Concord.Sema

/-! ## credentials -/

inductive AuthMaterialShapeIr where
  | accessToken
  | secretValue
  | basic
  | unknown
  deriving DecidableEq, Repr

/-- `EndpointTargetIr` and `EndpointTargetKey`, which have the same fields. -/
structure EndpointTargetIr where
  scopeModules : List Ident
  endpoint : Ident
  deriving DecidableEq, Repr

def EndpointTargetIr.displayString (target : EndpointTargetIr) : String :=
  String.intercalate "::" (target.scopeModules ++ [target.endpoint])

/-- `AuthCredentialKindIr`. -/
inductive AuthCredentialKindIr where
  | apiKey (secret : Ident)
  | staticBearer (secret : Ident)
  | basic (username password : Ident)
  | oAuth2ClientCredentials (tokenUrl : String) (clientId clientSecret : Ident)
      (scope : Option String)
  | endpoint (target : EndpointTargetIr) (outputTy : RustType)
      (materialShape : AuthMaterialShapeIr)
  deriving DecidableEq, Repr

structure AuthCredentialIr where
  name : Ident
  kind : AuthCredentialKindIr
  deriving DecidableEq, Repr

def validateRequiredSecret (secret : SecretRef) (authVars : VarMap) : Result Unit :=
  match authVars secret.ident with
  | none => fail ("unknown secret `secret." ++ secret.ident ++ "` in auth credential")
  | some info =>
    if info.optional then
      fail ("auth credential secret `secret." ++ secret.ident ++
        "` must be required; optional secrets are not supported yet")
    else .ok ()

def tokenUrlMessage : String :=
  "OAuth2 token URL must be an https URL with a host, no userinfo, and no fragment"

/-- `validate_oauth2_token_url_raw`. -/
def validateOauth2TokenUrlRaw (tokenUrl : String) : Result Unit :=
  let scheme := "https://".toList
  if scheme.isPrefixOf tokenUrl.toList then
    let authority := (tokenUrl.toList.drop scheme.length).takeWhile
      (fun c => c ≠ '/' && c ≠ '?' && c ≠ '#')
    if authority.isEmpty || authority.contains '@' then fail tokenUrlMessage else .ok ()
  else fail tokenUrlMessage

def validateOauth2TokenUrl (tokenUrl : TokenUrl) : Result Unit := do
  validateOauth2TokenUrlRaw tokenUrl.value
  match tokenUrl.parsed with
  | .error err => fail ("invalid OAuth2 token URL: " ++ err)
  | .ok url =>
    if url.scheme ≠ "https" || url.hostStr.all String.isEmpty || !url.username.isEmpty ||
        url.password.isSome || url.fragment.isSome then
      fail tokenUrlMessage
    else .ok ()

/-- `endpoint_target_from_path`. -/
def endpointTargetFromPath (path : List PathSegment) : Result EndpointTargetIr :=
  match path.getLast? with
  | none => fail "auth endpoint reference must be `Endpoint(Name)` or `Endpoint(scope::Name)`"
  | some last =>
    if path.any (fun segment => segment.arguments ≠ .none) then
      fail "auth endpoint reference segments must not contain generic arguments"
    else .ok ⟨path.dropLast.map PathSegment.ident, last.ident⟩

def shapeFromType : RustType → AuthMaterialShapeIr
  | .path _ _ segments =>
    match segments.getLast?.map PathSegment.ident with
    | some "AccessToken" => .accessToken
    | some "ApiKey" => .secretValue
    | some "BasicCredential" => .basic
    | _ => .unknown
  | .other _ => .unknown

/-- The types the endpoints answer with. -/
abbrev EndpointOutputs := List (EndpointTargetIr × RustType)

def analyzeAuthCredentialKind (authVars : VarMap) (endpointOutputs : EndpointOutputs) :
    AuthCredentialKind → Result AuthCredentialKindIr
  | .apiKey secret => do
    validateRequiredSecret secret authVars
    .ok (.apiKey secret.ident)
  | .staticBearer secret => do
    validateRequiredSecret secret authVars
    .ok (.staticBearer secret.ident)
  | .basic username password => do
    validateRequiredSecret username authVars
    validateRequiredSecret password authVars
    .ok (.basic username.ident password.ident)
  | .oAuth2ClientCredentials tokenUrl clientId clientSecret scope => do
    validateOauth2TokenUrl tokenUrl
    validateRequiredSecret clientId authVars
    validateRequiredSecret clientSecret authVars
    .ok (.oAuth2ClientCredentials tokenUrl.value clientId.ident clientSecret.ident scope)
  | .endpoint endpoint => do
    let target ← endpointTargetFromPath endpoint
    match endpointOutputs.lookup target with
    | none =>
      fail ("unknown auth endpoint `" ++ target.displayString ++ "` in credential source")
    | some outputTy => .ok (.endpoint target outputTy (shapeFromType outputTy))

/-- The loop of `analyze_auth_credentials`. -/
def analyzeAuthCredentialDecls (authVars : VarMap) (endpointOutputs : EndpointOutputs)
    (seen : List Ident) : List AuthCredentialDecl → Result (List AuthCredentialIr)
  | [] => .ok []
  | decl :: decls => do
    if seen.contains decl.name then fail ("duplicate auth credential `" ++ decl.name ++ "`")
    let kind ← analyzeAuthCredentialKind authVars endpointOutputs decl.kind
    let rest ← analyzeAuthCredentialDecls authVars endpointOutputs (decl.name :: seen) decls
    .ok (⟨decl.name, kind⟩ :: rest)

def analyzeAuthCredentials (block : Option AuthCredentials) (authVars : VarMap)
    (endpointOutputs : EndpointOutputs) : Result (List AuthCredentialIr) :=
  match block with
  | none => .ok []
  | some block => analyzeAuthCredentialDecls authVars endpointOutputs [] block.credentials

/-! ## uses -/

inductive AuthChallengePolicyIr where
  | unauthorized
  | unauthorizedOrForbidden
  | neverRecover
  deriving DecidableEq, Repr

inductive AuthUseProvenanceIr where
  | client
  | scope (id : Nat)
  | endpoint
  deriving DecidableEq, Repr

inductive AuthUseKindIr where
  | bearer (credential : Ident) (challenge : AuthChallengePolicyIr)
  | header (header : String) (credential : Ident) (challenge : AuthChallengePolicyIr)
  | query (key : String) (credential : Ident) (challenge : AuthChallengePolicyIr)
  | basic (credential : Ident) (challenge : AuthChallengePolicyIr)
  deriving DecidableEq, Repr

/-- `AuthUseIr`, which is all that an `AuthUsePlanIr` holds. -/
structure AuthUseIr where
  kind : AuthUseKindIr
  provenance : AuthUseProvenanceIr
  deriving DecidableEq, Repr

/-- `auth_use_credential_ident`. -/
def AuthUseKind.credential : AuthUseKind → Ident
  | .bearer credential _ | .header _ credential _ | .query _ credential _
  | .basic credential _ => credential

/-- `reject_duplicate_auth_materialization_keys`, with the headers and query
keys seen so far. -/
def rejectDuplicateAuthMaterializationKeys (headers : List (String × String))
    (queries : List String) : List AuthUseKind → Result Unit
  | [] => .ok ()
  | .header header _ _ :: uses =>
    match headers.lookup header.toLower with
    | some first => fail ("duplicate auth header `" ++ first ++ "` in the same layer")
    | none => rejectDuplicateAuthMaterializationKeys ((header.toLower, header) :: headers) queries uses
  | .query key _ _ :: uses =>
    if queries.contains key then
      fail ("duplicate auth query parameter `" ++ key ++ "` in the same layer")
    else rejectDuplicateAuthMaterializationKeys headers (key :: queries) uses
  | .bearer _ _ :: uses | .basic _ _ :: uses =>
    rejectDuplicateAuthMaterializationKeys headers queries uses

def resolveAuthChallenge : Option Ident → Result AuthChallengePolicyIr
  | none => .ok .unauthorized
  | some challenge =>
    if challenge = "unauthorized" then .ok .unauthorized
    else if challenge = "unauthorized_or_forbidden" then .ok .unauthorizedOrForbidden
    else if challenge = "never_recover" then .ok .neverRecover
    else
      fail ("unknown auth challenge policy; expected `unauthorized`, " ++
        "`unauthorized_or_forbidden`, or `never_recover`")

/-- What a credential is made of. -/
def AuthCredentialKindIr.shape : AuthCredentialKindIr → AuthMaterialShapeIr
  | .apiKey _ => .secretValue
  | .staticBearer _ | .oAuth2ClientCredentials _ _ _ _ => .accessToken
  | .basic _ _ => .basic
  | .endpoint _ _ materialShape => materialShape

def validateAuthUsageFit (use : AuthUseKind) (cred : AuthCredentialIr) : Result Unit :=
  match use with
  | .bearer _ _ =>
    if [AuthMaterialShapeIr.accessToken, .unknown].contains cred.kind.shape then .ok ()
    else fail ("BearerAuth requires an access-token credential; `" ++ cred.name ++
      "` does not fit")
  | .header _ _ _ | .query _ _ _ =>
    if [AuthMaterialShapeIr.secretValue, .accessToken, .unknown].contains cred.kind.shape then
      .ok ()
    else fail ("header/query auth requires a secret credential; `" ++ cred.name ++
      "` does not fit")
  | .basic _ _ =>
    if cred.kind.shape = .basic then .ok ()
    else fail ("BasicAuth requires BasicCredential material; `" ++ cred.name ++
      "` does not fit")

/-- The use with its challenge resolved. -/
def resolveUse : AuthUseKind → Result AuthUseKindIr
  | .bearer credential challenge => do
    let challenge ← resolveAuthChallenge challenge
    .ok (.bearer credential challenge)
  | .header header credential challenge => do
    let challenge ← resolveAuthChallenge challenge
    .ok (.header header credential challenge)
  | .query key credential challenge => do
    let challenge ← resolveAuthChallenge challenge
    .ok (.query key credential challenge)
  | .basic credential challenge => do
    let challenge ← resolveAuthChallenge challenge
    .ok (.basic credential challenge)

def resolveAuthUseKind (credentials : List AuthCredentialIr) (provenance : AuthUseProvenanceIr)
    (kind : AuthUseKind) : Result AuthUseIr :=
  match credentials.find? (fun cred => cred.name = kind.credential) with
  | none =>
    fail (unknownNameMessage "auth credential" kind.credential (credentials.map AuthCredentialIr.name))
  | some cred => do
    validateAuthUsageFit kind cred
    let kind ← resolveUse kind
    .ok ⟨kind, provenance⟩

def resolveAuthRequirements (uses : List AuthUseKind) (credentials : List AuthCredentialIr)
    (provenance : AuthUseProvenanceIr) : Result (List AuthUseIr) := do
  rejectDuplicateAuthMaterializationKeys [] [] uses
  uses.mapM (resolveAuthUseKind credentials provenance)

/-! ## requirements -/

inductive AuthPlacementIr where
  | bearer
  | header (name : String)
  | query (key : String)
  | basic
  deriving DecidableEq, Repr

structure AuthRequirementIr where
  credential : Ident
  placement : AuthPlacementIr
  usageId : String
  stepId : String
  provenance : String
  challenge : AuthChallengePolicyIr
  deriving DecidableEq, Repr

def provenanceLabel : AuthUseProvenanceIr → String
  | .client => "client"
  | .scope id => "scope:" ++ toString id
  | .endpoint => "endpoint"

namespace AuthUseKindIr

def placement : AuthUseKindIr → AuthPlacementIr
  | .bearer _ _ => .bearer
  | .header name _ _ => .header name
  | .query key _ _ => .query key
  | .basic _ _ => .basic

def credential : AuthUseKindIr → Ident
  | .bearer credential _ | .header _ credential _ | .query _ credential _
  | .basic credential _ => credential

def challenge : AuthUseKindIr → AuthChallengePolicyIr
  | .bearer _ challenge | .header _ _ challenge | .query _ _ challenge
  | .basic _ challenge => challenge

/-- `auth_usage_id`. -/
def usageId : AuthUseKindIr → String
  | .bearer _ _ => "bearer"
  | .header _ _ _ => "header"
  | .query _ _ _ => "query"
  | .basic _ _ => "basic"

end AuthUseKindIr

def materializeAuthRequirement (endpointStep : String) (use : AuthUseIr × Nat) :
    AuthRequirementIr where
  credential := use.1.kind.credential
  placement := use.1.kind.placement
  usageId := use.1.kind.usageId
  stepId := endpointStep ++ ":" ++ toString use.2 ++ ":" ++ use.1.kind.credential
  provenance := provenanceLabel use.1.provenance
  challenge := use.1.kind.challenge

def materializeAuthRequirements (plans : List AuthUseIr) (endpointStep : String) (startIdx : Nat) :
    List AuthRequirementIr :=
  (plans.zipIdx startIdx).map (materializeAuthRequirement endpointStep)

/-- `auth_plan_references_credential`. -/
def authPlanReferencesCredential (plans : List AuthRequirementIr) (target : Ident) : Bool :=
  plans.any (fun plan => plan.credential = target)

/-! ## materialization targets -/

inductive AuthMaterializationTargetKey where
  | header (name : String)
  | query (key : String)
  | authorization
  deriving DecidableEq, Repr

def AuthMaterializationTargetKey.displayString : AuthMaterializationTargetKey → String
  | .header name => "header `" ++ name ++ "`"
  | .query key => "query `" ++ key ++ "`"
  | .authorization => "Authorization"

/-- `final_auth_materialization_target` of a placement. -/
def finalAuthMaterializationTarget : AuthPlacementIr → AuthMaterializationTargetKey
  | .header name =>
    if eqIgnoreAsciiCase name "authorization" then .authorization else .header name.toLower
  | .query key => .query key
  | .bearer | .basic => .authorization

/-- `validate_final_auth_materialization_targets`, with the requirements seen
so far. -/
def validateFinalAuthMaterializationTargets (endpointDisplay : String)
    (seen : List (AuthMaterializationTargetKey × AuthRequirementIr)) :
    List AuthRequirementIr → Result Unit
  | [] => .ok ()
  | req :: reqs =>
    let target := finalAuthMaterializationTarget req.placement
    match seen.lookup target with
    | some first =>
      fail ("final endpoint `" ++ endpointDisplay ++
        "` has duplicate auth materialization target `" ++ target.displayString ++
        "` between `" ++ first.provenance ++ "` and `" ++ req.provenance ++ "`")
    | none => validateFinalAuthMaterializationTargets endpointDisplay ((target, req) :: seen) reqs

end Concord.Sema
