import Mathlib.Data.List.Defs

/-!
# Concord.Sema.Ast

The syntax tree of an API declaration (`concord_macros/src/ast`) and its
normalized form (`concord_macros/src/model/norm.rs`,
`concord_macros/src/sema/normalize.rs`).

Spans are left out.  Rust syntax inside a declaration is kept as far as the
resolver looks into it: a type is a path with its segments, an expression of
a policy is what the checks on it find, an identifier used as a header key
comes with its kebab-case form and a token URL with its parse.
-/

namespace Concord.Sema

abbrev Ident := String

/-! ## Rust syntax -/

inductive GenericArgument where
  | type (tokens : String)
  | other (tokens : String)
  deriving DecidableEq, Repr

inductive PathArguments where
  | none
  | angleBracketed (args : List GenericArgument)
  | parenthesized (tokens : String)
  deriving DecidableEq, Repr

structure PathSegment where
  ident : Ident
  arguments : PathArguments
  deriving DecidableEq, Repr

/-- `syn::Type`. -/
inductive RustType where
  | path (qself : Option String) (leadingColon : Bool) (segments : List PathSegment)
  | other (tokens : String)
  deriving DecidableEq, Repr

/-- An expression in a policy or a pagination block, by what
`lower_public_policy_expr_checked`, `resolve_value_kind` and
`validate_public_expr` make of it.  `secret` is refused by the first of them,
`forbidden` by the last. -/
inductive Expr where
  | litStr (value : String)
  | cxField (field : Ident)
  | epField (field : Ident)
  | other (tokens : String)
  | forbidden (tokens reason : String)
  | secret (tokens : String)
  deriving DecidableEq, Repr

/-- `VarDeclNoWire` and `VarInfo`, which have the same fields: a declared
parameter. -/
structure VarInfo where
  rust : Ident
  optional : Bool
  ty : RustType
  default : Option String
  deriving DecidableEq, Repr

/-! ## routes -/

inductive RefScope where
  | cx
  | ep
  | auth
  deriving DecidableEq, Repr

structure ScopedRef where
  scope : RefScope
  ident : Ident
  explicit : Bool
  deriving DecidableEq, Repr

inductive FmtPiece where
  | lit (value : String)
  | ref (ref : ScopedRef)
  deriving DecidableEq, Repr

structure FmtSpec where
  requireAll : Bool
  pieces : List FmtPiece
  deriving DecidableEq, Repr

inductive RouteAtom where
  | static (lit : String)
  | ref (ref : ScopedRef)
  | fmt (spec : FmtSpec)
  deriving DecidableEq, Repr

structure RouteExpr where
  atoms : List RouteAtom
  deriving DecidableEq, Repr

/-! ## policies -/

/-- `KeySpec`; `kebab` is the `to_kebab` of the identifier. -/
inductive KeySpec where
  | ident (id : Ident) (kebab : String)
  | str (value : String)
  deriving DecidableEq, Repr

inductive PolicyValue where
  | expr (expr : Expr)
  | fmt (fmt : FmtSpec)
  deriving DecidableEq, Repr

inductive PolicyStmt where
  | remove (key : KeySpec)
  | set (key : KeySpec) (value : PolicyValue)
  deriving DecidableEq, Repr

structure PolicyBlock where
  stmts : List PolicyStmt
  deriving DecidableEq, Repr

structure PolicyBlocks where
  headers : Option PolicyBlock
  query : Option PolicyBlock
  timeout : Option Expr
  deriving DecidableEq, Repr

def PolicyBlocks.default : PolicyBlocks := ⟨none, none, none⟩

/-! ## rate limits -/

inductive RateLimitKeySpec where
  | routeHost
  | endpoint
  | method
  | named (name : Ident)
  | static (value : String)
  deriving DecidableEq, Repr

inductive RateLimitDurationUnit where
  | seconds
  | minutes
  deriving DecidableEq, Repr

structure RateLimitWindowSpec where
  max : Nat
  every : Nat
  unit : RateLimitDurationUnit
  deriving DecidableEq, Repr

structure RateLimitBucketSpec where
  kind : Ident
  key : List RateLimitKeySpec
  cost : Option Nat
  windows : List RateLimitWindowSpec
  deriving DecidableEq, Repr

/-- `RateLimitPlanSpec`; `parse_rate_limit_plan_body` refuses an empty
block. -/
structure RateLimitPlanSpec where
  buckets : List RateLimitBucketSpec
  buckets_ne : buckets ≠ []
  deriving DecidableEq, Repr

/-- `RateLimitSpec`; `parse_rate_limit_profile_list` refuses an empty list. -/
inductive RateLimitSpec where
  | profiles (only : Bool) (names : List Ident) (names_ne : names ≠ [])
  | inline (only : Bool) (plan : RateLimitPlanSpec)
  | off
  deriving DecidableEq, Repr

structure RateLimitProfileDef where
  name : Ident
  extends_ : Option Ident
  plan : RateLimitPlanSpec
  deriving DecidableEq, Repr

structure RateLimitProfilesBlock where
  profiles : List RateLimitProfileDef
  default : List Ident
  responsePolicy : Option String
  deriving DecidableEq, Repr

structure RateLimitKeyBindingSpec where
  name : Ident
  value : Ident
  deriving DecidableEq, Repr

/-! ## authentication -/

/-- A parsed URL, as far as `validate_oauth2_token_url` reads it. -/
structure ParsedUrl where
  scheme : String
  hostStr : Option String
  username : String
  password : Option String
  fragment : Option String
  deriving DecidableEq, Repr

/-- A token URL with what the URL parser answers. -/
structure TokenUrl where
  value : String
  parsed : Except String ParsedUrl

structure SecretRef where
  ident : Ident
  deriving DecidableEq, Repr

inductive AuthCredentialKind where
  | apiKey (secret : SecretRef)
  | staticBearer (secret : SecretRef)
  | basic (username password : SecretRef)
  | oAuth2ClientCredentials (tokenUrl : TokenUrl) (clientId clientSecret : SecretRef)
      (scope : Option String)
  | endpoint (endpoint : List PathSegment)

structure AuthCredentialDecl where
  name : Ident
  kind : AuthCredentialKind

structure AuthCredentials where
  credentials : List AuthCredentialDecl

/-- `AuthUseKind`, which is all that an `AuthUseDecl` or a `NormAuthUse`
holds. -/
inductive AuthUseKind where
  | bearer (credential : Ident) (challenge : Option Ident)
  | header (header : String) (credential : Ident) (challenge : Option Ident)
  | query (key : String) (credential : Ident) (challenge : Option Ident)
  | basic (credential : Ident) (challenge : Option Ident)
  deriving DecidableEq, Repr

/-! ## profiles -/

structure ProfilePatch where
  authUses : List AuthUseKind
  rateLimit : Option RateLimitSpec
  deriving DecidableEq, Repr

structure ProfileDef where
  name : Ident
  extends_ : Option Ident
  patch : ProfilePatch
  deriving DecidableEq, Repr

structure ProfilesBlock where
  profiles : List ProfileDef
  deriving DecidableEq, Repr

structure ProfileUseSpec where
  names : List Ident
  deriving DecidableEq, Repr

/-! ## the tree -/

structure RawIoSpec where
  marker : RustType
  enc : String
  ty : RustType
  args : List RustType
  hadAngleArgs : Bool
  deriving DecidableEq, Repr

structure PaginateAssign where
  key : Ident
  value : Expr
  deriving DecidableEq, Repr

structure PaginateSpec where
  ctrlTy : RustType
  assigns : List PaginateAssign
  deriving DecidableEq, Repr

/-- `RawScope`, less its items. -/
structure RawScope where
  scopeName : Option Ident
  hostRoute : Option RouteExpr
  pathRoute : Option RouteExpr
  params : List VarInfo
  policy : PolicyBlocks
  profileUses : List ProfileUseSpec
  authUses : List AuthUseKind
  rateLimit : Option RateLimitSpec
  rateLimitKeys : List RateLimitKeyBindingSpec
  deriving DecidableEq, Repr

/-- `RawEndpoint` and `NormEndpoint`: normalization keeps every field. -/
structure RawEndpoint where
  method : Ident
  name : Ident
  alias_ : Option Ident
  route : RouteExpr
  params : List VarInfo
  policy : PolicyBlocks
  profileUses : List ProfileUseSpec
  authUses : List AuthUseKind
  rateLimit : Option RateLimitSpec
  rateLimitKeys : List RateLimitKeyBindingSpec
  paginate : Option PaginateSpec
  body : Option RawIoSpec
  response : RawIoSpec
  deriving DecidableEq, Repr

/-- `Vec<RawItem>`: a scope with its items or an endpoint, and what comes
after it. -/
inductive RawItems where
  | nil
  | layer (scope : RawScope) (items rest : RawItems)
  | endpoint (endpoint : RawEndpoint) (rest : RawItems)
  deriving DecidableEq, Repr

inductive Scheme where
  | http
  | https
  deriving DecidableEq, Repr

structure RawClient where
  name : Ident
  scheme : Scheme
  host : String
  policy : PolicyBlocks
  vars : Option (List VarInfo)
  authVars : Option (List VarInfo)
  auth : Option AuthCredentials
  authUses : List AuthUseKind
  defaultProfileUses : List ProfileUseSpec
  rateLimit : Option RateLimitProfilesBlock
  profiles : Option ProfilesBlock

structure RawApi where
  client : RawClient
  items : RawItems

/-! ## normalization -/

inductive RouteLayerKind where
  | prefix_
  | path
  deriving DecidableEq, Repr

/-- `NormScope`, less its items. -/
structure NormScope where
  scopeName : Option Ident
  kind : RouteLayerKind
  route : RouteExpr
  params : List VarInfo
  policy : PolicyBlocks
  profileUses : List ProfileUseSpec
  authUses : List AuthUseKind
  rateLimit : Option RateLimitSpec
  rateLimitKeys : List RateLimitKeyBindingSpec
  deriving DecidableEq, Repr

/-- `Vec<NormNode>`. -/
inductive NormItems where
  | nil
  | layer (scope : NormScope) (items rest : NormItems)
  | endpoint (endpoint : RawEndpoint) (rest : NormItems)
  deriving DecidableEq, Repr

/-- `NormApiTree`; normalization keeps every field of the client. -/
structure NormApiTree where
  client : RawClient
  items : NormItems

/-- How resolution fails: with an error of the declaration, or by a panic of
the resolver. -/
inductive SemaError where
  | error (message : String)
  | panic (message : String)
  deriving DecidableEq, Repr

abbrev Result (α : Type) := Except SemaError α

def fail {α : Type} (message : String) : Result α := .error (.error message)

def maxDslScopeDepth : Nat := 64

def checkDslScopeDepth (depth : Nat) : Result Unit :=
  if depth > maxDslScopeDepth then
    fail ("DSL scope nesting exceeds maximum supported depth of " ++ toString maxDslScopeDepth)
  else .ok ()

/-- The layer of a scope, with everything it declares. -/
def RawScope.norm (raw : RawScope) (kind : RouteLayerKind) (route : RouteExpr) : NormScope where
  scopeName := raw.scopeName
  kind := kind
  route := route
  params := raw.params
  policy := raw.policy
  profileUses := raw.profileUses
  authUses := raw.authUses
  rateLimit := raw.rateLimit
  rateLimitKeys := raw.rateLimitKeys

/-- The second layer of a scope with a host and a path: its path alone. -/
def pathLayer (path : RouteExpr) : NormScope where
  scopeName := none
  kind := .path
  route := path
  params := []
  policy := .default
  profileUses := []
  authUses := []
  rateLimit := none
  rateLimitKeys := []

/-- The layers of a scope around its items, with what comes after it. -/
def normalizeScope (raw : RawScope) (items rest : NormItems) : NormItems :=
  match raw.hostRoute, raw.pathRoute with
  | some host, some path =>
    .layer (raw.norm .prefix_ host) (.layer (pathLayer path) items .nil) rest
  | some host, none => .layer (raw.norm .prefix_ host) items rest
  | none, some path => .layer (raw.norm .path path) items rest
  | none, none => .layer (raw.norm .path ⟨[]⟩) items rest

def normalizeItems (scopeDepth : Nat) : RawItems → Result NormItems
  | .nil => .ok .nil
  | .layer scope items rest => do
    checkDslScopeDepth (scopeDepth + 1)
    let items ← normalizeItems (scopeDepth + 1) items
    let rest ← normalizeItems scopeDepth rest
    .ok (normalizeScope scope items rest)
  | .endpoint endpoint rest => do
    let rest ← normalizeItems scopeDepth rest
    .ok (.endpoint endpoint rest)

def normalizeApi (raw : RawApi) : Result NormApiTree := do
  let items ← normalizeItems 0 raw.items
  .ok ⟨raw.client, items⟩

end Concord.Sema
