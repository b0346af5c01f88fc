import Concord.Sema.Auth

/-!
# Concord.Sema.Items

Resolution of the tree of scopes and endpoints
(`concord_macros/src/sema/items.rs`).

`walk_items` keeps the layers it has analyzed in one flat list and the
ancestry of the place it is at as a stack of positions in that list.
-/

namespace Concord.Sema

/-! ## routes -/

inductive PrefixPiece where
  | static (label : String)
  | cxVar (field : Ident) (optional : Bool)
  | epVar (field : Ident)
  | fmt (fmt : FmtResolved)
  deriving DecidableEq, Repr

inductive PathPiece where
  | static (text : String)
  | cxVar (field : Ident) (optional : Bool)
  | epVar (field : Ident)
  | fmt (fmt : FmtResolved)
  deriving DecidableEq, Repr

def rejectFormattedLit (lit context : String) : Result Unit :=
  if lit.toList.contains '\x7b' || lit.toList.contains '\x7d' then
    fail (context ++ " string literals must not contain `\x7b` or `\x7d`; use separate route " ++
      "atoms such as \"a\", id, \"b\", or fmt[\"x\", id]")
  else .ok ()

/-- The characters `str::trim` drops. -/
def isWhitespace (c : Char) : Bool :=
  (0x9 ≤ c.toNat && c.toNat ≤ 0xd) || (0x2000 ≤ c.toNat && c.toNat ≤ 0x200a) ||
    [0x20, 0x85, 0xa0, 0x1680, 0x2028, 0x2029, 0x202f, 0x205f, 0x3000].contains c.toNat

def trim (text : List Char) : List Char :=
  ((text.dropWhile isWhitespace).reverse.dropWhile isWhitespace).reverse

/-- `split('.')`. -/
def splitLabels : List Char → List (List Char)
  | [] => [[]]
  | c :: cs =>
    match splitLabels cs with
    | [] => [[c]]
    | label :: labels => if c = '.' then [] :: label :: labels else (c :: label) :: labels

def resolveHostLabel (label : List Char) : Result PrefixPiece :=
  if (trim label).isEmpty then fail "prefix label must not be empty"
  else .ok (.static (String.ofList (trim label)))

/-- A reference in a route.  Scope routes name the parameters of the scopes,
endpoint routes those of the endpoint. -/
def resolveRouteRef {P : Type} (cxVar : Ident → Bool → P) (epVar : Ident → P)
    (clientVars vars : VarMap) (inScope : Bool) (r : ScopedRef) : Result P :=
  match r.scope with
  | .cx =>
    match clientVars r.ident with
    | none => unknownClientVar r.ident
    | some var => .ok (cxVar r.ident var.optional)
  | .ep =>
    if inScope && r.explicit then
      fail "`ep.*` is not allowed in scope routes; use the scope parameter name directly"
    else
      match vars r.ident with
      | none =>
        if inScope then fail (unknownScopedName "scope param" "scope" r.ident)
        else unknownEndpointVar r.ident
      | some _ => .ok (epVar r.ident)
  | .auth => fail secretRouteMessage

def resolvePrefixAtom (clientVars layerVars : VarMap) : RouteAtom → Result (List PrefixPiece)
  | .static lit => do
    rejectFormattedLit lit "prefix"
    (splitLabels lit.toList).mapM resolveHostLabel
  | .fmt spec => do
    let resolved ← resolveRouteFmtSpec spec clientVars layerVars false
    .ok [.fmt resolved]
  | .ref r => do
    let piece ← resolveRouteRef .cxVar .epVar clientVars layerVars true r
    .ok [piece]

def resolvePathAtom (clientVars layerVars : VarMap) : RouteAtom → Result PathPiece
  | .static lit => do
    rejectFormattedLit lit "path"
    .ok (.static lit)
  | .fmt spec => do
    let resolved ← resolveRouteFmtSpec spec clientVars layerVars false
    .ok (.fmt resolved)
  | .ref r => resolveRouteRef .cxVar .epVar clientVars layerVars true r

def resolveEndpointAtom (clientVars epVars : VarMap) : RouteAtom → Result PathPiece
  | .static lit => do
    rejectFormattedLit lit "endpoint route"
    .ok (.static lit)
  | .fmt spec => do
    let resolved ← resolveRouteFmtSpec spec clientVars epVars true
    .ok (.fmt resolved)
  | .ref r => resolveRouteRef .cxVar .epVar clientVars epVars false r

def resolvePrefixRoute (clientVars layerVars : VarMap) (route : RouteExpr) :
    Result (List PrefixPiece) := do
  let pieces ← route.atoms.mapM (resolvePrefixAtom clientVars layerVars)
  .ok pieces.flatten

def resolvePathRoute (clientVars layerVars : VarMap) (route : RouteExpr) :
    Result (List PathPiece) :=
  route.atoms.mapM (resolvePathAtom clientVars layerVars)

/-! ## bodies -/

structure BufferedCodecIo where
  marker : RustType
  codecPath : String
  valueTy : RustType
  deriving DecidableEq, Repr

inductive ResolvedRequestBodyIo where
  | none
  | bufferedCodec (io : BufferedCodecIo)
  | rawStream (mediaTy : RustType)
  | multipart (valueTy : RustType)
  deriving DecidableEq, Repr

inductive ResolvedResponseBodyIo where
  | bufferedCodec (io : BufferedCodecIo)
  | bufferedBytes
  | noContent
  | rawStream (mediaTy : RustType)
  deriving DecidableEq, Repr

inductive EndpointIoClassification where
  | bufferedCodec (io : BufferedCodecIo)
  | bufferedBytes
  | noContent
  | rawStream (mediaTy : RustType)
  | multipart (valueTy : RustType)
  deriving DecidableEq, Repr

inductive EndpointIoPosition where
  | request
  | response
  deriving DecidableEq, Repr

def endpointIoFamilyName (spec : RawIoSpec) : String :=
  match spec.marker with
  | .path _ _ segments => ((segments.getLast?).map PathSegment.ident).getD ""
  | .other _ => ""

def bufferedCodecIo (spec : RawIoSpec) : BufferedCodecIo := ⟨spec.marker, spec.enc, spec.ty⟩

def classifyEndpointIo (spec : RawIoSpec) (position : EndpointIoPosition) :
    Result EndpointIoClassification :=
  match endpointIoFamilyName spec with
  | "Bytes" =>
    if spec.hadAngleArgs || !spec.args.isEmpty then
      fail "reserved endpoint I/O family `Bytes` does not take type arguments"
    else .ok .bufferedBytes
  | "NoContent" =>
    if spec.hadAngleArgs || !spec.args.isEmpty then
      fail "reserved endpoint I/O family `NoContent` does not take type arguments"
    else if position = .request then
      fail "`NoContent` is only valid as an endpoint response"
    else .ok .noContent
  | "Stream" =>
    match spec.args with
    | [mediaTy] => .ok (.rawStream mediaTy)
    | _ => fail "reserved endpoint I/O family `Stream` expects exactly one type argument"
  | "Multipart" =>
    match spec.args with
    | [valueTy] => .ok (.multipart valueTy)
    | _ => fail "reserved endpoint I/O family `Multipart` expects exactly one type argument"
  | _ =>
    if spec.args.length > 1 then fail "codec spec expects exactly one type argument: `Enc<T>`"
    else .ok (.bufferedCodec (bufferedCodecIo spec))

def classifyRequestIo : Option RawIoSpec → Result ResolvedRequestBodyIo
  | none => .ok .none
  | some spec => do
    let io ← classifyEndpointIo spec .request
    match io with
    | .bufferedCodec io => .ok (.bufferedCodec io)
    | .bufferedBytes => fail "`Bytes` endpoint I/O is reserved but not supported yet"
    | .noContent => fail "`NoContent` is not valid as an endpoint request"
    | .rawStream mediaTy => .ok (.rawStream mediaTy)
    | .multipart valueTy => .ok (.multipart valueTy)

def classifyHttpResponseIo (spec : RawIoSpec) : Result ResolvedResponseBodyIo := do
  let io ← classifyEndpointIo spec .response
  match io with
  | .bufferedCodec io => .ok (.bufferedCodec io)
  | .bufferedBytes => .ok .bufferedBytes
  | .noContent => .ok .noContent
  | .rawStream mediaTy => .ok (.rawStream mediaTy)
  | .multipart _ => fail "`Multipart` is only valid as an endpoint request"

def PathArguments.tokens : PathArguments → String
  | .none => ""
  | .angleBracketed args =>
    "<" ++ String.intercalate ", " (args.map fun | .type tokens | .other tokens => tokens) ++ ">"
  | .parenthesized tokens => tokens

/-- The tokens of a type. -/
def RustType.tokens : RustType → String
  | .path qself leadingColon segments =>
    qself.getD "" ++ (if leadingColon then "::" else "") ++
      String.intercalate "::" (segments.map fun segment => segment.ident ++ segment.arguments.tokens)
  | .other tokens => tokens

/-- `response_public_output_ty`. -/
def responsePublicOutputTy : ResolvedResponseBodyIo → RustType
  | .bufferedCodec io => io.valueTy
  | .bufferedBytes => .path none true [⟨"bytes", .none⟩, ⟨"Bytes", .none⟩]
  | .noContent => .other "()"
  | .rawStream mediaTy =>
    .path none true [⟨"concord_core", .none⟩, ⟨"advanced", .none⟩,
      ⟨"StreamResponse", .angleBracketed [.type mediaTy.tokens]⟩]

/-- `ResolvedHttpEndpointIo`, less the adapters and documentation that follow
from it. -/
structure ResolvedHttpEndpointIo where
  request : ResolvedRequestBodyIo
  response : ResolvedResponseBodyIo
  deriving DecidableEq, Repr

def httpMethods : List Ident := ["GET", "POST", "PUT", "DELETE", "HEAD", "OPTIONS", "PATCH"]

def ResolvedResponseBodyIo.supportsPagination : ResolvedResponseBodyIo → Bool
  | .bufferedCodec _ => true
  | _ => false

/-- The method and the bodies of an endpoint. -/
def resolveEndpointIo (ed : RawEndpoint) : Result ResolvedHttpEndpointIo := do
  if !httpMethods.contains ed.method then fail "unsupported endpoint method"
  let request ← classifyRequestIo ed.body
  let response ← classifyHttpResponseIo ed.response
  if response = .bufferedBytes && ed.paginate.isSome then
    fail "`Bytes` responses do not support pagination"
  if !response.supportsPagination && ed.paginate.isSome then
    fail "pagination is only supported for buffered responses"
  if request ≠ .none && ed.paginate.isSome then
    fail "paginated endpoints with request bodies are not supported"
  .ok ⟨request, response⟩

def resolveOptionalPaginate (paginate : Option PaginateSpec) (epVars : VarMap) :
    Result (Option PaginateResolved) :=
  match paginate with
  | none => .ok none
  | some spec => do
    let resolved ← resolvePaginate spec epVars
    .ok (some resolved)

/-! ## layers -/

structure LayerIr where
  scopeName : Option Ident
  kind : RouteLayerKind
  prefixPieces : List PrefixPiece
  pathPieces : List PathPiece
  policy : PolicyBlocksResolved
  auth : List AuthUseIr
  rateLimitKeyBindings : List RateLimitKeyBindingResolved
  profileNames : List Ident
  decls : List VarInfo
  deriving DecidableEq, Repr

/-- What the walk reads of the client (`WalkItemsCtx`). -/
structure WalkItemsCtx where
  clientVars : VarMap
  authCredentials : List AuthCredentialIr
  clientAuth : List AuthUseIr
  clientDefaultProfileNames : List Ident
  rateLimitProfiles : RateLimitProfiles
  profiles : Profiles

/-- `rate_limit_key_bindings_for_ancestry`. -/
def rateLimitKeyBindingsForAncestry (ancestors : List LayerIr) : KeyMap :=
  (ancestors.flatMap (·.rateLimitKeyBindings)).foldl KeyMap.insert .empty

/-- The pieces of a layer's route, on the host or on the path. -/
def analyzeLayerRoute (ld : NormScope) (clientVars layerVars : VarMap) :
    Result (List PrefixPiece × List PathPiece) :=
  match ld.kind with
  | .prefix_ => do
    let pieces ← resolvePrefixRoute clientVars layerVars ld.route
    .ok (pieces, [])
  | .path => do
    let pieces ← resolvePathRoute clientVars layerVars ld.route
    .ok ([], pieces)

/-- The analysis of one layer in `walk_items`. -/
def analyzeLayer (cx : WalkItemsCtx) (ancestors : List LayerIr) (id : Nat) (ld : NormScope) :
    Result LayerIr := do
  let decls := ld.params
  let layerVars := decls.foldl VarMap.insert
    ((ancestors.flatMap (·.decls)).foldl VarMap.insert .empty)
  let (prefixPieces, pathPieces) ← analyzeLayerRoute ld cx.clientVars layerVars
  let keyBindings ← resolveRateLimitKeyBindings decls [] ld.rateLimitKeys
  validateProfileUsesUniqueAtSite ld.profileUses
  let profile ← resolveProfileUses ld.profileUses cx.profiles
  let policy ← resolvePolicyBlocks ld.policy .layer cx.clientVars (some layerVars)
  let visibleKeys := keyBindings.foldl KeyMap.insert (rateLimitKeyBindingsForAncestry ancestors)
  let site : AttachmentSite := ⟨visibleKeys, none, .layer⟩
  let profileRateLimit ←
    resolveProfileRateLimitSpecs cx.rateLimitProfiles site profile.rateLimitSpecs none
  let explicitRateLimit ← resolveRateLimitSpec ld.rateLimit cx.rateLimitProfiles site
  let auth ← resolveAuthRequirements (profile.authUses ++ ld.authUses) cx.authCredentials
    (.scope id)
  .ok
    { scopeName := ld.scopeName
      kind := ld.kind
      prefixPieces := prefixPieces
      pathPieces := pathPieces
      policy := { policy with
        rateLimit := mergeRateLimitResolved profileRateLimit explicitRateLimit }
      auth := auth
      rateLimitKeyBindings := keyBindings
      profileNames := profileUseNames ld.profileUses
      decls := decls }

/-! ## endpoints -/

structure ResolvedPolicySpec where
  scopes : List PolicyBlocksResolved
  endpoint : PolicyBlocksResolved
  auth : List AuthRequirementIr
  deriving DecidableEq, Repr

/-- `ResolvedEndpoint`, less the descriptor and the query cardinalities that
follow from its other fields. -/
structure ResolvedEndpoint where
  name : Ident
  alias_ : Option Ident
  scopeModules : List Ident
  facadeParamGroups : List (List VarInfo)
  method : Ident
  prefixPieces : List PrefixPiece
  scopePathPieces : List PathPiece
  routePieces : List PathPiece
  vars : List VarInfo
  io : ResolvedHttpEndpointIo
  policy : ResolvedPolicySpec
  profileDoc : List Ident
  paginate : Option PaginateResolved
  deriving DecidableEq, Repr

/-- The named layers of an ancestry (`scope_modules`). -/
def scopeModules (ancestors : List LayerIr) : List Ident := ancestors.filterMap (·.scopeName)

/-- The parameters of the named layers (`facade_param_groups`). -/
def facadeParamGroups (ancestors : List LayerIr) : List (List VarInfo) :=
  (ancestors.filter (·.scopeName.isSome)).map (·.decls)

/-- The credential that would be acquired through an endpoint that uses it. -/
def selfAcquired (credentials : List AuthCredentialIr) (target : EndpointTargetIr)
    (auth : List AuthRequirementIr) : Option AuthCredentialIr :=
  (credentials.insertionSort (fun a b => a.name ≤ b.name)).find? (fun credential =>
    match credential.kind with
    | .endpoint acquiring _ _ =>
      acquiring = target && authPlanReferencesCredential auth credential.name
    | _ => false)

/-- The authentication requirements of an endpoint, checked. -/
def resolveEndpointAuth (cx : WalkItemsCtx) (ancestors : List LayerIr) (target : EndpointTargetIr)
    (uses : List AuthUseKind) : Result (List AuthRequirementIr) := do
  let own ← resolveAuthRequirements uses cx.authCredentials .endpoint
  let plans := cx.clientAuth ++ ancestors.flatMap (·.auth) ++ own
  let auth := materializeAuthRequirements plans target.displayString 0
  validateFinalAuthMaterializationTargets target.displayString [] auth
  match selfAcquired cx.authCredentials target auth with
  | some credential =>
    fail ("credential `" ++ credential.name ++ "` cannot acquire via endpoint `" ++
      target.endpoint ++ "` because the endpoint uses that credential")
  | none => .ok auth

/-- `analyze_endpoint`. -/
def analyzeEndpoint (cx : WalkItemsCtx) (ancestors : List LayerIr) (ed : RawEndpoint) :
    Result ResolvedEndpoint := do
  let registry ← (ancestors.flatMap (·.decls) ++ ed.params).foldlM VarRegistry.upsert .empty
  let routePieces ← ed.route.atoms.mapM (resolveEndpointAtom cx.clientVars registry.vars)
  let policy ← resolvePolicyBlocks ed.policy .endpoint cx.clientVars (some registry.vars)
  validateProfileUsesUniqueAtSite ed.profileUses
  let profile ← resolveProfileUses ed.profileUses cx.profiles
  let keyBindings ← resolveRateLimitKeyBindings registry.decls [] ed.rateLimitKeys
  let visibleKeys := keyBindings.foldl KeyMap.insert (rateLimitKeyBindingsForAncestry ancestors)
  let site : AttachmentSite := ⟨visibleKeys, some registry.vars, .endpoint⟩
  let profileRateLimit ←
    resolveProfileRateLimitSpecs cx.rateLimitProfiles site profile.rateLimitSpecs none
  let explicitRateLimit ← resolveRateLimitSpec ed.rateLimit cx.rateLimitProfiles site
  let auth ← resolveEndpointAuth cx ancestors ⟨scopeModules ancestors, ed.name⟩
    (profile.authUses ++ ed.authUses)
  let io ← resolveEndpointIo ed
  let paginate ← resolveOptionalPaginate ed.paginate registry.vars
  .ok
    { name := ed.name
      alias_ := ed.alias_
      scopeModules := scopeModules ancestors
      facadeParamGroups := facadeParamGroups ancestors
      method := ed.method
      prefixPieces := (ancestors.filter (·.kind = .prefix_)).flatMap (·.prefixPieces)
      scopePathPieces := (ancestors.filter (·.kind = .path)).flatMap (·.pathPieces)
      routePieces := routePieces
      vars := registry.decls
      io := io
      policy :=
        { scopes := ancestors.map (·.policy)
          endpoint := { policy with
            rateLimit := mergeRateLimitResolved profileRateLimit explicitRateLimit }
          auth := auth }
      profileDoc := Keyed.keepFirst id (cx.clientDefaultProfileNames ++
        ancestors.flatMap (·.profileNames) ++ profileUseNames ed.profileUses)
      paginate := paginate }

/-! ## the walk -/

structure WalkState where
  layers : List LayerIr
  endpoints : List ResolvedEndpoint
  ancestry : List Nat
  deriving DecidableEq, Repr

def WalkState.init : WalkState := ⟨[], [], []⟩

/-- `layers[id]`. -/
def layerAt (layers : List LayerIr) (id : Nat) : Result LayerIr :=
  match layers[id]? with
  | some layer => .ok layer
  | none => .error (.panic "index out of bounds")

/-- The layers at the positions of an ancestry. -/
def layersAt (layers : List LayerIr) (ancestry : List Nat) : Result (List LayerIr) :=
  ancestry.mapM (layerAt layers)

/-- `walk_items`. -/
def walkItems (cx : WalkItemsCtx) : NormItems → Nat → WalkState → Result WalkState
  | .nil, _, st => .ok st
  | .layer ld items rest, scopeDepth, st => do
    let nextScopeDepth := if ld.scopeName.isSome then scopeDepth + 1 else scopeDepth
    checkDslScopeDepth nextScopeDepth
    let id := st.layers.length
    let ancestors ← layersAt st.layers st.ancestry
    let layer ← analyzeLayer cx ancestors id ld
    let st ← walkItems cx items nextScopeDepth
      { st with layers := st.layers ++ [layer], ancestry := st.ancestry ++ [id] }
    walkItems cx rest scopeDepth { st with ancestry := st.ancestry.dropLast }
  | .endpoint ed rest, scopeDepth, st => do
    let ancestors ← layersAt st.layers st.ancestry
    let endpoint ← analyzeEndpoint cx ancestors ed
    walkItems cx rest scopeDepth { st with endpoints := st.endpoints ++ [endpoint] }

end Concord.Sema
