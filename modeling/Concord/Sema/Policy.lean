import Concord.Sema.Common

/-!
# Concord.Sema.Policy

Resolution of the values of a declaration: route formats, header and query
policies, timeouts and pagination assignments
(`concord_macros/src/sema/policy.rs`).
-/

namespace Concord.Sema

/-! ## resolved values -/

inductive FmtVarSource where
  | cx
  | ep
  deriving DecidableEq, Repr

inductive FmtResolvedPiece where
  | lit (value : String)
  | var (source : FmtVarSource) (field : Ident) (optional : Bool)
  deriving DecidableEq, Repr

structure FmtResolved where
  requireAll : Bool
  pieces : List FmtResolvedPiece
  deriving DecidableEq, Repr

inductive ValueKind where
  | litStr (value : String)
  | cxField (field : Ident)
  | epField (field : Ident)
  | otherExpr (expr : Expr)
  | fmt (fmt : FmtResolved)
  deriving DecidableEq, Repr

inductive PublicValueKind where
  | litStr (value : String)
  | cxField (field : Ident)
  | epField (field : Ident)
  | otherExpr (expr : Expr)
  | fmt (fmt : FmtResolved)
  deriving DecidableEq, Repr

inductive PaginationValueKind where
  | litStr (value : String)
  | epField (field : Ident)
  | otherExpr (expr : Expr)
  | fmt (fmt : FmtResolved)
  deriving DecidableEq, Repr

inductive KeyResolved where
  | static (lit : String)
  | ident (id : Ident) (kebab : String)
  deriving DecidableEq, Repr

inductive QueryValueCardinality where
  | scalar
  | optionalScalar
  | vector
  | optionalVector
  deriving DecidableEq, Repr

inductive PolicySetValue where
  | value (value : PublicValueKind)
  | optionalCxField (field : Ident)
  | optionalEpField (field : Ident)
  deriving DecidableEq, Repr

inductive PolicyOp where
  | remove (key : KeyResolved)
  | set (key : KeyResolved) (value : PolicySetValue) (cardinality : QueryValueCardinality)
  deriving DecidableEq, Repr

inductive PolicyKeyKind where
  | header
  | query
  deriving DecidableEq, Repr

inductive PolicyOwner where
  | client
  | endpoint
  | layer
  deriving DecidableEq, Repr

/-! ## expressions -/

def directSecretExprMessage : String :=
  "DSL-010 direct `secret.*` is not allowed in policy expressions; declare an auth credential"

/-- `lower_public_policy_expr_checked`. -/
def lowerPublicPolicyExprChecked : Expr → Result Expr
  | .secret _ => fail directSecretExprMessage
  | expr => .ok expr

def resolveValueKind : Expr → ValueKind
  | .litStr value => .litStr value
  | .cxField field => .cxField field
  | .epField field => .epField field
  | expr => .otherExpr expr

def validatePublicExpr : Expr → Result Unit
  | .forbidden _ reason => fail reason
  | _ => .ok ()

def publicValueFromValueKind : ValueKind → Result PublicValueKind
  | .litStr value => .ok (.litStr value)
  | .cxField field => .ok (.cxField field)
  | .epField field => .ok (.epField field)
  | .otherExpr expr => do
    validatePublicExpr expr
    .ok (.otherExpr expr)
  | .fmt fmt => .ok (.fmt fmt)

/-! ## formats -/

def secretRouteMessage : String := "secret references are only allowed in credential declarations"

def unknownClientVar {α : Type} (name : Ident) : Result α :=
  fail (unknownScopedName "client var" "vars" name)

def unknownEndpointVar {α : Type} (name : Ident) : Result α :=
  fail (unknownScopedName "endpoint var" "ep" name)

/-- One piece of `resolve_route_fmt_spec`. -/
def resolveRouteFmtPiece (clientVars epVars : VarMap) (allowExplicitEp : Bool) :
    FmtPiece → Result FmtResolvedPiece
  | .lit value => .ok (.lit value)
  | .ref r =>
    match r.scope with
    | .cx =>
      match clientVars r.ident with
      | none => unknownClientVar r.ident
      | some var => .ok (.var .cx r.ident var.optional)
    | .ep =>
      if r.explicit && !allowExplicitEp then
        fail ("`ep.*` is not allowed in scope route fmt[...] specs; use the scope parameter name " ++
          "directly")
      else
        match epVars r.ident with
        | none => unknownEndpointVar r.ident
        | some var => .ok (.var .ep r.ident var.optional)
    | .auth => fail secretRouteMessage

def resolveRouteFmtSpec (spec : FmtSpec) (clientVars epVars : VarMap) (allowExplicitEp : Bool) :
    Result FmtResolved := do
  let pieces ← spec.pieces.mapM (resolveRouteFmtPiece clientVars epVars allowExplicitEp)
  .ok ⟨spec.requireAll, pieces⟩

/-- One piece of the format of `resolve_policy_value_kind`. -/
def resolvePolicyFmtPiece (clientVars : VarMap) (endpointVars : Option VarMap) :
    FmtPiece → Result FmtResolvedPiece
  | .lit value => .ok (.lit value)
  | .ref r =>
    match r.scope with
    | .cx =>
      match clientVars r.ident with
      | none => unknownClientVar r.ident
      | some var => .ok (.var .cx r.ident var.optional)
    | .ep =>
      match endpointVars with
      | none => fail "`ep.*` is not allowed here"
      | some epVars =>
        match epVars r.ident with
        | none => unknownEndpointVar r.ident
        | some var => .ok (.var .ep r.ident var.optional)
    | .auth =>
      fail "direct secret.* is not allowed in policy expressions; declare an auth credential"

def FmtResolvedPiece.isOptional : FmtResolvedPiece → Bool
  | .lit _ => false
  | .var _ _ optional => optional

def resolvePolicyValueKind (clientVars : VarMap) (endpointVars : Option VarMap) :
    PolicyValue → Result ValueKind
  | .expr expr => .ok (resolveValueKind expr)
  | .fmt fmt => do
    let pieces ← fmt.pieces.mapM (resolvePolicyFmtPiece clientVars endpointVars)
    if !fmt.requireAll && pieces.any FmtResolvedPiece.isOptional then
      fail "optional placeholders are not allowed in this template context"
    else .ok (.fmt ⟨fmt.requireAll, pieces⟩)

/-! ## policy blocks -/

structure RateLimitWindowResolved where
  max : Nat
  perSecs : Nat
  deriving DecidableEq, Repr

inductive RateLimitKeyResolved where
  | routeHost
  | endpoint
  | method
  | epField (name : String) (field : Ident)
  | static (name value : String)
  deriving DecidableEq, Repr

structure RateLimitBucketResolved where
  kind : String
  name : String
  key : List RateLimitKeyResolved
  cost : Nat
  windows : List RateLimitWindowResolved
  deriving DecidableEq, Repr

structure RateLimitPlanResolved where
  buckets : List RateLimitBucketResolved
  deriving DecidableEq, Repr

/-- What a rate-limit directive does to the plan inherited so far. -/
inductive RateLimitResolved where
  | add (plan : RateLimitPlanResolved)
  | replace (plan : RateLimitPlanResolved)
  | clear
  deriving DecidableEq, Repr

structure PolicyBlocksResolved where
  headers : List PolicyOp
  query : List PolicyOp
  timeout : Option PublicValueKind
  rateLimit : Option RateLimitResolved
  deriving DecidableEq, Repr

def PolicyBlocksResolved.default : PolicyBlocksResolved := ⟨[], [], none, none⟩

def resolveKey : KeySpec → KeyResolved
  | .ident id kebab => .ident id kebab
  | .str value => .static value

/-- The path `Vec` or `std::vec::Vec`. -/
def isStandardVecPath (leadingColon : Bool) (segments : List PathSegment) : Bool :=
  match segments with
  | [vec] => !leadingColon && vec.ident = "Vec"
  | [std, vec, last] =>
    std.arguments = .none && vec.arguments = .none && std.ident = "std" && vec.ident = "vec" &&
      last.ident = "Vec"
  | _ => false

def isStandardVecType : RustType → Bool
  | .path none leadingColon segments =>
    isStandardVecPath leadingColon segments &&
      match segments.getLast?.map PathSegment.arguments with
      | some (.angleBracketed [.type _]) => true
      | _ => false
  | _ => false

def queryCardinality (kind : PolicyKeyKind) (optional : Bool) (ty : RustType) :
    QueryValueCardinality :=
  if kind ≠ .query then if optional then .optionalScalar else .scalar
  else if isStandardVecType ty then if optional then .optionalVector else .vector
  else if optional then .optionalScalar
  else .scalar

/-- The value a `set` statement writes. -/
def resolveSetValue (clientVars : VarMap) (endpointVars : Option VarMap) :
    ValueKind → Result PolicySetValue
  | .cxField id =>
    match clientVars id with
    | none => unknownClientVar id
    | some var => .ok (if var.optional then .optionalCxField id else .value (.cxField id))
  | .epField id =>
    match endpointVars with
    | none => fail "ep.* is not allowed here"
    | some epVars =>
      match epVars id with
      | none => unknownEndpointVar id
      | some var => .ok (if var.optional then .optionalEpField id else .value (.epField id))
  | other => do
    let value ← publicValueFromValueKind other
    .ok (.value value)

def setValueCardinality (kind : PolicyKeyKind) (clientVars : VarMap)
    (endpointVars : Option VarMap) : PolicySetValue → QueryValueCardinality
  | .optionalCxField id =>
    ((clientVars id).map (fun var => queryCardinality kind true var.ty)).getD .optionalScalar
  | .optionalEpField id =>
    ((endpointVars.bind (· id)).map (fun var => queryCardinality kind true var.ty)).getD
      .optionalScalar
  | .value (.cxField id) =>
    ((clientVars id).map (fun var => queryCardinality kind false var.ty)).getD .scalar
  | .value (.epField id) =>
    ((endpointVars.bind (· id)).map (fun var => queryCardinality kind false var.ty)).getD .scalar
  | _ => .scalar

def lowerPolicyValue : PolicyValue → Result PolicyValue
  | .expr expr => do
    let expr ← lowerPublicPolicyExprChecked expr
    .ok (.expr expr)
  | .fmt fmt => .ok (.fmt fmt)

def resolvePolicyStmt (kind : PolicyKeyKind) (clientVars : VarMap) (endpointVars : Option VarMap) :
    PolicyStmt → Result PolicyOp
  | .remove key => .ok (.remove (resolveKey key))
  | .set key value => do
    let lowered ← lowerPolicyValue value
    let kindOf ← resolvePolicyValueKind clientVars endpointVars lowered
    let setValue ← resolveSetValue clientVars endpointVars kindOf
    .ok (.set (resolveKey key) setValue
      (setValueCardinality kind clientVars endpointVars setValue))

def PolicyOp.readsEndpoint : PolicyOp → Bool
  | .set _ (.value (.epField _)) _ | .set _ (.optionalEpField _) _ => true
  | _ => false

/-- What `HeaderValue::from_str` takes. -/
def isHeaderValueText (text : String) : Bool :=
  text.toList.all (fun c => (32 ≤ c.toNat && c.toNat < 127) || c = '\t')

/-- The check of one operation of a resolved block. -/
def validatePolicyOp (kind : PolicyKeyKind) (clientVars : VarMap) (endpointVars : Option VarMap) :
    PolicyOp → Result Unit
  | .set _ (.value (.cxField id)) _ | .set _ (.optionalCxField id) _ =>
    if (clientVars id).isSome then .ok () else unknownClientVar id
  | .set _ (.value (.epField id)) _ | .set _ (.optionalEpField id) _ =>
    match endpointVars with
    | none => fail "`ep.*` is not allowed here"
    | some epVars => if (epVars id).isSome then .ok () else unknownEndpointVar id
  | .set _ (.value (.otherExpr expr)) _ => validatePublicExpr expr
  | .set _ (.value (.litStr lit)) _ =>
    if kind = .header && !isHeaderValueText lit then
      fail "header value literal is not a valid HTTP header value"
    else .ok ()
  | _ => .ok ()

def headerKeyForDuplicateCheck : KeyResolved → String
  | .static lit => lit.toLower
  | .ident _ kebab => kebab.toLower

def rejectDuplicateHeaderSets (seen : List String) : List PolicyOp → Result Unit
  | [] => .ok ()
  | .remove _ :: ops => rejectDuplicateHeaderSets seen ops
  | .set key _ _ :: ops =>
    let normalized := headerKeyForDuplicateCheck key
    if seen.contains normalized then
      fail ("duplicate header `" ++ normalized ++ "` in the same policy layer")
    else rejectDuplicateHeaderSets (normalized :: seen) ops

def resolvePolicyBlock (block : PolicyBlock) (kind : PolicyKeyKind) (owner : PolicyOwner)
    (clientVars : VarMap) (endpointVars : Option VarMap) : Result (List PolicyOp) := do
  let ops ← block.stmts.mapM (resolvePolicyStmt kind clientVars endpointVars)
  if owner = .client && ops.any PolicyOp.readsEndpoint then
    fail "`ep.*` is not allowed in client policy"
  let _ ← ops.mapM (validatePolicyOp kind clientVars endpointVars)
  if kind = .header then rejectDuplicateHeaderSets [] ops
  .ok ops

/-- The operations of a block, none if it is not there. -/
def resolveOptionalBlock (block : Option PolicyBlock) (kind : PolicyKeyKind) (owner : PolicyOwner)
    (clientVars : VarMap) (endpointVars : Option VarMap) : Result (List PolicyOp) :=
  match block with
  | none => .ok []
  | some block => resolvePolicyBlock block kind owner clientVars endpointVars

def resolveTimeout : Option Expr → Result (Option PublicValueKind)
  | none => .ok none
  | some expr => do
    let lowered ← lowerPublicPolicyExprChecked expr
    let value ← publicValueFromValueKind (resolveValueKind lowered)
    .ok (some value)

def resolvePolicyBlocks (policy : PolicyBlocks) (owner : PolicyOwner) (clientVars : VarMap)
    (endpointVars : Option VarMap) : Result PolicyBlocksResolved := do
  let headers ← resolveOptionalBlock policy.headers .header owner clientVars endpointVars
  let query ← resolveOptionalBlock policy.query .query owner clientVars endpointVars
  let timeout ← resolveTimeout policy.timeout
  .ok ⟨headers, query, timeout, none⟩

/-! ## pagination -/

structure PaginationAssignmentResolved where
  field : Ident
  value : PaginationValueKind
  deriving DecidableEq, Repr

structure PaginationBindingIr where
  controllerField : Ident
  endpointRustField : Ident
  deriving DecidableEq, Repr

structure PaginateResolved where
  controllerTy : RustType
  assigns : List PaginationAssignmentResolved
  bindings : List PaginationBindingIr
  deriving DecidableEq, Repr

def paginationScopedRefMessage : String :=
  "paginate assignments must not reference client variables or secrets; use `ep.*` or constants"

def FmtResolvedPiece.isClient : FmtResolvedPiece → Bool
  | .var .cx _ _ => true
  | _ => false

def paginationValueFromValueKind : ValueKind → Result PaginationValueKind
  | .litStr value => .ok (.litStr value)
  | .epField field => .ok (.epField field)
  | .otherExpr expr => do
    validatePublicExpr expr
    .ok (.otherExpr expr)
  | .fmt fmt =>
    if fmt.pieces.any FmtResolvedPiece.isClient then fail paginationScopedRefMessage
    else .ok (.fmt fmt)
  | .cxField _ => fail paginationScopedRefMessage

/-- One assignment of `resolve_paginate`, with the binding it makes. -/
def resolvePaginateAssign (epVars : VarMap) (assign : PaginateAssign) :
    Result (PaginationAssignmentResolved × Option PaginationBindingIr) := do
  let lowered ← lowerPublicPolicyExprChecked assign.value
  let value ← paginationValueFromValueKind (resolveValueKind lowered)
  match value with
  | .epField field =>
    match epVars field with
    | none => unknownEndpointVar field
    | some var => .ok (⟨assign.key, value⟩, some ⟨assign.key, var.rust⟩)
  | _ => .ok (⟨assign.key, value⟩, none)

def resolvePaginate (spec : PaginateSpec) (epVars : VarMap) : Result PaginateResolved := do
  let assigns ← spec.assigns.mapM (resolvePaginateAssign epVars)
  .ok ⟨spec.ctrlTy, assigns.map Prod.fst, assigns.filterMap Prod.snd⟩

end Concord.Sema
