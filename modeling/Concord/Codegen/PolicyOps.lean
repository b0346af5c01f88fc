import Concord.PolicyLayers
import Concord.Codegen.Path
import Concord.Codegen.RateLimit

/-!
# Concord.Codegen.PolicyOps

The calls that generated code makes on a policy
(`concord_macros/src/codegen/policy/ops.rs`, `emit_policy_apply_fn` of
`concord_macros/src/codegen/policy/context.rs` and `emit_policy_fn_base` of
`concord_macros/src/codegen/client.rs`).

A field that has no value, and a format that misses one it needs, remove what
the layers before have set.
-/

namespace Concord.Sema

/-! ## values -/

/-- What generated code reads when it applies a policy: fields as texts,
fields that are vectors as the texts of their items, and other expressions. -/
structure PolicyValues where
  texts : RouteValues
  items : FmtVarSource → Ident → Option (List String)
  expr : Expr → String
  duration : PublicValueKind → Nat

namespace PolicyValues

/-- The text of `emit_value_expr`. -/
def text (values : PolicyValues) : PublicValueKind → String
  | .litStr text => text
  | .cxField field => (values.texts.cx field).getD ""
  | .epField field => (values.texts.ep field).getD ""
  | .otherExpr expr => values.expr expr
  | .fmt format => fmtBuildString values.texts format

/-- The items of a vector; only fields are vectors. -/
def itemsOf (values : PolicyValues) : PublicValueKind → List String
  | .cxField field => (values.items .cx field).getD []
  | .epField field => (values.items .ep field).getD []
  | _ => []

/-- The formats of a policy have their own word on what is optional. -/
def hasAll (values : PolicyValues) (format : FmtResolved) : Bool :=
  fmtRequireAllGuard (fun _ => none) values.texts format

end PolicyValues

/-! ## operations -/

/-- `emit_key_string`. -/
def emitKeyString (kind : PolicyKeyKind) : KeyResolved → String
  | .static lit => lit
  | .ident id kebab =>
    match kind with
    | .header => kebab
    | .query => id

section
variable (ctx : ErrorContext) (values : PolicyValues)

/-- `emit_header_name`. -/
def emitHeaderName (key : String) : Except InvalidParam HeaderName :=
  match HeaderName.fromBytes key with
  | some name => .ok name
  | none => .error ⟨ctx, "header:" ++ key⟩

/-- `HeaderValue::from_str`, with the error of generated code. -/
def emitHeaderValue (key text : String) : Except InvalidParam HeaderValue :=
  if isHeaderValueText text then .ok (FormUrlencoded.utf8Bytes text)
  else .error ⟨ctx, "header:" ++ key⟩

/-- The header is set if there is a text for it, and else removed. -/
def emitHeaderText (key : String) (name : HeaderName) (text : Option String) :
    Except InvalidParam Concord.PolicyOp :=
  match text with
  | some text => (emitHeaderValue ctx key text).map (.setHeader name)
  | none => .ok (.removeHeader name)

/-- `emit_header_set_op`. -/
def emitHeaderSetOp (key : String) (name : HeaderName) :
    PolicySetValue → Except InvalidParam Concord.PolicyOp
  | .optionalCxField field => emitHeaderText ctx key name (values.texts.cx field)
  | .optionalEpField field => emitHeaderText ctx key name (values.texts.ep field)
  | .value (.fmt format) =>
    if format.requireAll && !values.hasAll format then .ok (.removeHeader name)
    else emitHeaderText ctx key name (some (fmtBuildString values.texts format))
  -- a literal was checked with the block it stands in
  | .value value => emitHeaderText ctx key name (some (values.text value))

/-- `emit_optional_query_set`. -/
def emitOptionalQuerySet (key : String) (source : FmtVarSource) (field : Ident)
    (cardinality : QueryValueCardinality) : Concord.PolicyOp :=
  if cardinality = .optionalVector then
    match values.items source field with
    | some items => .replaceQueryValues key items
    | none => .removeQuery key
  else
    match values.texts.get field source with
    | some text => .setQuery key text
    | none => .removeQuery key

/-- `emit_query_set_op`. -/
def emitQuerySetOp (key : String) (cardinality : QueryValueCardinality) :
    PolicySetValue → Concord.PolicyOp
  | .optionalCxField field => emitOptionalQuerySet values key .cx field cardinality
  | .optionalEpField field => emitOptionalQuerySet values key .ep field cardinality
  | .value (.fmt format) =>
    if format.requireAll && !values.hasAll format then .removeQuery key
    else .setQuery key (fmtBuildString values.texts format)
  | .value value =>
    if cardinality = .vector then .replaceQueryValues key (values.itemsOf value)
    else .setQuery key (values.text value)

/-- One operation of `emit_policy_ops`. -/
def emitPolicyOp (kind : PolicyKeyKind) (op : PolicyOp) :
    Except InvalidParam Concord.PolicyOp :=
  match kind, op with
  | .header, .remove key =>
    (emitHeaderName ctx (emitKeyString .header key)).map .removeHeader
  | .header, .set key value _ =>
    emitHeaderName ctx (emitKeyString .header key) >>= fun name =>
      emitHeaderSetOp ctx values (emitKeyString .header key) name value
  | .query, .remove key => .ok (.removeQuery (emitKeyString .query key))
  | .query, .set key value cardinality =>
    .ok (emitQuerySetOp values (emitKeyString .query key) cardinality value)

end

/-! ## layers -/

/-- Why the policy of a call is not built. -/
inductive PolicyEmitError where
  | invalidParam (error : InvalidParam)
  | rateLimit (error : EmitError)
  deriving DecidableEq, Repr

/-- `emit_rate_limit_op`. -/
def emitRateLimitOp (ctx : ErrorContext) (ep : EmitEp) :
    RateLimitResolved → Except EmitError Concord.PolicyOp
  | .clear => .ok .clearRateLimit
  | .add plan => (emitRateLimitPlan ctx ep plan.buckets).map .addRateLimit
  | .replace plan => (emitRateLimitPlan ctx ep plan.buckets).map .replaceRateLimit

/-- `emit_policy_apply_fn`, and for the client `emit_policy_fn_base`, which has
no endpoint. -/
def emitPolicyApply (ctx : ErrorContext) (values : PolicyValues) (ep : EmitEp)
    (policy : PolicyBlocksResolved) : Except PolicyEmitError (List Concord.PolicyOp) := do
  let headers ← (policy.headers.mapM (emitPolicyOp ctx values .header)).mapError .invalidParam
  let query ← (policy.query.mapM (emitPolicyOp ctx values .query)).mapError .invalidParam
  let timeout := policy.timeout.toList.map fun value => .setTimeout (values.duration value)
  let rateLimit ← (policy.rateLimit.toList.mapM (emitRateLimitOp ctx ep)).mapError .rateLimit
  .ok (headers ++ query ++ timeout ++ rateLimit)

/-- The layers of a generated endpoint. -/
def emitPolicyLayers (ctx : ErrorContext) (values : PolicyValues) (fields : Ident → String)
    (client : PolicyBlocksResolved) (policy : ResolvedPolicySpec) :
    Except PolicyEmitError PolicyLayers := do
  let clientOps ← emitPolicyApply ctx values none client
  let scopes ← policy.scopes.mapM (emitPolicyApply ctx values (some fields))
  let endpoint ← emitPolicyApply ctx values (some fields) policy.endpoint
  .ok ⟨clientOps, scopes, endpoint⟩

/-! ## directives -/

/-- The key a directive is for. -/
def PolicyOp.key : PolicyOp → KeyResolved
  | .remove key | .set key _ _ => key

section
variable {ctx : ErrorContext} {values : PolicyValues} {call : Concord.PolicyOp}

/-- A header directive writes its header. -/
theorem emitHeaderText_header? {key : String} {name : HeaderName} {text : Option String}
    (h : emitHeaderText ctx key name text = .ok call) :
    ∃ written, call.header? name = some written := by
  cases text with
  | none =>
      simp only [emitHeaderText, Except.ok.injEq] at h
      simp [← h, PolicyOp.header?]
  | some text =>
      simp only [emitHeaderText, emitHeaderValue] at h
      split at h
      · simp only [Except.map, Except.ok.injEq] at h
        simp [← h, PolicyOp.header?]
      · contradiction

/-- So does a set. -/
theorem emitHeaderSetOp_header? {key : String} {name : HeaderName} {value : PolicySetValue}
    (h : emitHeaderSetOp ctx values key name value = .ok call) :
    ∃ written, call.header? name = some written := by
  unfold emitHeaderSetOp at h
  split at h
  · exact emitHeaderText_header? h
  · exact emitHeaderText_header? h
  · split at h
    · simp only [Except.ok.injEq] at h
      simp [← h, PolicyOp.header?]
    · exact emitHeaderText_header? h
  · exact emitHeaderText_header? h

/-- A header operation writes to its header. -/
theorem emitPolicyOp_header? {op : PolicyOp}
    (h : emitPolicyOp ctx values .header op = .ok call) :
    ∃ name written, HeaderName.fromBytes (emitKeyString .header op.key) = some name ∧
      call.header? name = some written := by
  have hname {key : String} {name : HeaderName} (h' : emitHeaderName ctx key = .ok name) :
      HeaderName.fromBytes key = some name := by
    unfold emitHeaderName at h'
    split at h'
    · next found hfound =>
        rw [Except.ok.injEq] at h'
        rw [hfound, h']
    · contradiction
  cases op with
  | remove key =>
      simp only [emitPolicyOp, Results.map_eq_ok_iff] at h
      obtain ⟨name, hkey, rfl⟩ := h
      exact ⟨name, [], hname hkey, by simp [PolicyOp.header?]⟩
  | set key value cardinality =>
      simp only [emitPolicyOp, Results.bind_eq_ok_iff] at h
      obtain ⟨name, hkey, hset⟩ := h
      obtain ⟨written, hwritten⟩ := emitHeaderSetOp_header? hset
      exact ⟨name, written, hname hkey, hwritten⟩

/-- An optional query directive writes its key. -/
theorem emitOptionalQuerySet_query? (key : String) (source : FmtVarSource) (field : Ident)
    (cardinality : QueryValueCardinality) :
    ∃ written, (emitOptionalQuerySet values key source field cardinality).query? =
      some (key, written) := by
  unfold emitOptionalQuerySet
  split
  · split
    · exact ⟨_, rfl⟩
    · exact ⟨_, rfl⟩
  · split
    · exact ⟨_, rfl⟩
    · exact ⟨_, rfl⟩

/-- A query operation writes to its key. -/
theorem emitPolicyOp_query? {op : PolicyOp} (h : emitPolicyOp ctx values .query op = .ok call) :
    ∃ written, call.query? = some (emitKeyString .query op.key, written) := by
  cases op with
  | remove key =>
      simp only [emitPolicyOp, Except.ok.injEq] at h
      exact ⟨[], by simp [← h, PolicyOp.query?, PolicyOp.key]⟩
  | set key value cardinality =>
      simp only [emitPolicyOp, Except.ok.injEq] at h
      rw [← h, PolicyOp.key]
      unfold emitQuerySetOp
      split
      · exact emitOptionalQuerySet_query? _ _ _ _
      · exact emitOptionalQuerySet_query? _ _ _ _
      · split
        · exact ⟨_, rfl⟩
        · exact ⟨_, rfl⟩
      · split
        · exact ⟨_, rfl⟩
        · exact ⟨_, rfl⟩

/-- The call of a directive is one that policy blocks make. -/
theorem emitPolicyOp_isDirective {kind : PolicyKeyKind} {op : PolicyOp}
    (h : emitPolicyOp ctx values kind op = .ok call) : call.isDirective = true := by
  rw [← Bool.not_eq_false]
  intro hmark
  cases kind with
  | header =>
      obtain ⟨name, written, _, hwritten⟩ := emitPolicyOp_header? h
      rw [PolicyOp.header?_of_not_isDirective hmark] at hwritten
      contradiction
  | query =>
      obtain ⟨written, hwritten⟩ := emitPolicyOp_query? h
      rw [PolicyOp.query?_of_not_isDirective hmark] at hwritten
      contradiction

/-- So is that of a rate limit. -/
theorem emitRateLimitOp_isDirective {ep : EmitEp} {op : RateLimitResolved}
    (h : emitRateLimitOp ctx ep op = .ok call) : call.isDirective = true := by
  cases op with
  | clear =>
      simp only [emitRateLimitOp, Except.ok.injEq] at h
      rw [← h]
      rfl
  | add plan =>
      obtain ⟨_, _, rfl⟩ := Results.map_eq_ok_iff.mp h
      rfl
  | replace plan =>
      obtain ⟨_, _, rfl⟩ := Results.map_eq_ok_iff.mp h
      rfl

/-- So are all calls of a layer. -/
theorem emitPolicyApply_isDirective {ep : EmitEp} {policy : PolicyBlocksResolved}
    {calls : List Concord.PolicyOp} (h : emitPolicyApply ctx values ep policy = .ok calls)
    (hcall : call ∈ calls) : call.isDirective = true := by
  simp only [emitPolicyApply, Results.bind_eq_ok_iff, Results.mapError_eq_ok_iff,
    Except.ok.injEq] at h
  obtain ⟨headers, hheaders, query, hquery, rateLimit, hrateLimit, rfl⟩ := h
  simp only [List.mem_append] at hcall
  obtain ((hmem | hmem) | hmem) | hmem := hcall
  · obtain ⟨op, _, hop⟩ := Results.exists_of_mem_mapM hheaders hmem
    exact emitPolicyOp_isDirective hop
  · obtain ⟨op, _, hop⟩ := Results.exists_of_mem_mapM hquery hmem
    exact emitPolicyOp_isDirective hop
  · obtain ⟨value, _, rfl⟩ := List.mem_map.mp hmem
    rfl
  · obtain ⟨op, _, hop⟩ := Results.exists_of_mem_mapM hrateLimit hmem
    exact emitRateLimitOp_isDirective hop

/-- The layers of generated code make directives only. -/
theorem emitPolicyLayers_directives {fields : Ident → String} {client : PolicyBlocksResolved}
    {policy : ResolvedPolicySpec} {layers : PolicyLayers}
    (h : emitPolicyLayers ctx values fields client policy = .ok layers) : layers.Directives := by
  simp only [emitPolicyLayers, Results.bind_eq_ok_iff, Except.ok.injEq] at h
  obtain ⟨clientOps, hclient, scopes, hscopes, endpoint, hendpoint, rfl⟩ := h
  intro op hop
  simp only [PolicyLayers.calls, List.mem_append] at hop
  obtain (hmem | hmem) | hmem := hop
  · exact emitPolicyApply_isDirective hclient hmem
  · obtain ⟨scope, hscope, hmem⟩ := List.mem_flatten.mp hmem
    obtain ⟨policy, _, hpolicy⟩ := Results.exists_of_mem_mapM hscopes hscope
    exact emitPolicyApply_isDirective hpolicy hmem
  · exact emitPolicyApply_isDirective hendpoint hmem

end

end Concord.Sema
