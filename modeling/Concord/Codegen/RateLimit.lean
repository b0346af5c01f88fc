import Concord.Lib.Edits
import Concord.RateLimit.Plan
import Concord.Sema.Items

/-!
# Concord.Codegen.RateLimit

The rate-limit part of generated policies
(`concord_macros/src/codegen/policy/rate_limit.rs`) and what it does to the
plan of a policy (`concord_core/src/policy.rs`).

A policy is built in layers: the client's, one for each enclosing scope, the
endpoint's.  Each does at most one thing to the plan.
-/

namespace Concord.Sema

open Edits

/-! ## plans -/

/-- Why a generated policy has no plan: the generated code does not compile,
or it fails when the endpoint is called. -/
inductive EmitError where
  | compileError (message : String)
  | rateLimit (error : RateLimitError)
  deriving DecidableEq, Repr

/-- The fields of the endpoint value as text, where there is one:
`PolicyEmitCtx::ClientBase` has none. -/
abbrev EmitEp := Option (Ident → String)

/-- A key of an endpoint where there is none. -/
def epFieldInClientBase : String :=
  "internal Concord error: endpoint/scope rate_limit key reached client base codegen"

/-- One part of `emit_rate_limit_key`. -/
def emitRateLimitKeyPart (ep : EmitEp) : RateLimitKeyResolved → Except EmitError RateLimitKeyPart
  | .routeHost => .ok ⟨"route.host", .urlHost⟩
  | .endpoint => .ok ⟨"endpoint", .endpoint⟩
  | .method => .ok ⟨"method", .method⟩
  | .epField name field =>
    match ep with
    | none => .error (.compileError epFieldInClientBase)
    | some fields => .ok ⟨name, .static (fields field)⟩
  | .static name value => .ok ⟨name, .static value⟩

/-- A window, if it has cells and time. -/
def emitRateLimitWindow (ctx : ErrorContext) (window : RateLimitWindowResolved) :
    Except EmitError RateLimitWindow :=
  if h : 0 < window.max then .ok ⟨window.max, window.perSecs * nanosPerSecond, h⟩
  else .error (.rateLimit ⟨ctx, .invalidConfiguration, "validated rate-limit max was zero"⟩)

/-- A cost, if it is positive. -/
def emitRateLimitCost (ctx : ErrorContext) (cost : Nat) : Except EmitError { n : Nat // 0 < n } :=
  if h : 0 < cost then .ok ⟨cost, h⟩
  else .error (.rateLimit ⟨ctx, .invalidConfiguration, "validated rate-limit cost was zero"⟩)

/-- A bucket with its key, windows and cost. -/
def emitRateLimitBucket (ctx : ErrorContext) (ep : EmitEp) (bucket : RateLimitBucketResolved) :
    Except EmitError RateLimitBucketUse := do
  let key ← bucket.key.mapM (emitRateLimitKeyPart ep)
  let cost ← emitRateLimitCost ctx bucket.cost
  let windows ← bucket.windows.mapM (emitRateLimitWindow ctx)
  .ok ⟨⟨bucket.kind, bucket.name⟩, ⟨key⟩, windows, cost.1, cost.2⟩

/-- `emit_rate_limit_plan`. -/
def emitRateLimitPlan (ctx : ErrorContext) (ep : EmitEp) (buckets : List RateLimitBucketResolved) :
    Except EmitError RateLimitPlan := do
  let buckets ← buckets.mapM (emitRateLimitBucket ctx ep)
  .ok ⟨buckets⟩

/-- `emit_rate_limit_op`, run on the plan of a policy: `clear_rate_limit`,
`add_rate_limit` or `replace_rate_limit`. -/
def applyRateLimitOp (ctx : ErrorContext) (ep : EmitEp) (plan : RateLimitPlan) :
    RateLimitResolved → Except EmitError RateLimitPlan
  | .clear => .ok .new
  | .add more => do
    let more ← emitRateLimitPlan ctx ep more.buckets
    .ok (plan.extend more)
  | .replace other => emitRateLimitPlan ctx ep other.buckets

/-- One layer of a policy. -/
def applyLayer (ctx : ErrorContext) (ep : EmitEp) (plan : RateLimitPlan)
    (layer : Option RateLimitResolved) : Except EmitError RateLimitPlan :=
  match layer with
  | none => .ok plan
  | some op => applyRateLimitOp ctx ep plan op

/-- The plan of the policy of an endpoint that is called: `base_policy`, the
scopes' policies from the outermost to the innermost, the endpoint's.
`prepare_generated_policy` then drops the buckets that are repeated. -/
def planInForce (ctx : ErrorContext) (fields : Ident → String) (client : PolicyBlocksResolved)
    (policy : ResolvedPolicySpec) : Except EmitError RateLimitPlan := do
  let plan ← applyLayer ctx none .new client.rateLimit
  let plan ← policy.scopes.foldlM
    (fun plan scope => applyLayer ctx (some fields) plan scope.rateLimit) plan
  applyLayer ctx (some fields) plan policy.endpoint.rateLimit

/-- The plan of the prepared policy (`prepare_generated_policy`). -/
def preparedPlan (ctx : ErrorContext) (fields : Ident → String) (client : PolicyBlocksResolved)
    (policy : ResolvedPolicySpec) : Except EmitError RateLimitPlan :=
  (planInForce ctx fields client policy).map RateLimitPlan.canonicalize

/-! ## what is emitted -/

/-- The parts of a key that do not read the endpoint value. -/
def RateLimitKeyResolved.isClientKey : RateLimitKeyResolved → Bool
  | .epField _ _ => false
  | _ => true

/-- A client's key needs no endpoint. -/
theorem emitRateLimitKeyPart_client (fields : Ident → String) {key : RateLimitKeyResolved}
    (h : key.isClientKey) :
    emitRateLimitKeyPart none key = emitRateLimitKeyPart (some fields) key := by
  cases key with
  | epField name field => cases h
  | routeHost => rfl
  | endpoint => rfl
  | method => rfl
  | static name value => rfl

/-- A bucket without endpoint values in its key is the same in every layer. -/
theorem emitRateLimitBucket_client (ctx : ErrorContext) (fields : Ident → String)
    {bucket : RateLimitBucketResolved} (h : ∀ key ∈ bucket.key, key.isClientKey) :
    emitRateLimitBucket ctx none bucket = emitRateLimitBucket ctx (some fields) bucket := by
  unfold emitRateLimitBucket
  rw [Results.mapM_congr (fun key hmem => emitRateLimitKeyPart_client fields (h key hmem))]

/-- With an endpoint every key is emitted. -/
theorem emitRateLimitKeyPart_ok (fields : Ident → String) (key : RateLimitKeyResolved) :
    ∃ part, emitRateLimitKeyPart (some fields) key = .ok part := by
  cases key <;> exact ⟨_, rfl⟩

/-- An accepted window is emitted. -/
theorem emitRateLimitWindow_ok (ctx : ErrorContext) {cost : Nat} {window : RateLimitWindowResolved}
    (h : WindowAccepted cost window) : ∃ out, emitRateLimitWindow ctx window = .ok out := by
  unfold emitRateLimitWindow
  rw [dif_pos h.max_pos]
  exact ⟨_, rfl⟩

/-- So is an accepted bucket. -/
theorem emitRateLimitBucket_ok (ctx : ErrorContext) (fields : Ident → String)
    {bucket : RateLimitBucketResolved} (h : BucketAccepted bucket.cost bucket.windows) :
    ∃ use, emitRateLimitBucket ctx (some fields) bucket = .ok use := by
  obtain ⟨parts, hparts⟩ := Results.exists_mapM_eq_ok
    (fun key (_ : key ∈ bucket.key) => emitRateLimitKeyPart_ok fields key)
  obtain ⟨windows, hwindows⟩ := Results.exists_mapM_eq_ok
    (fun window hmem => emitRateLimitWindow_ok ctx (h.windows window hmem))
  unfold emitRateLimitBucket emitRateLimitCost
  rw [hparts, hwindows, dif_pos h.cost_pos]
  exact ⟨_, rfl⟩

/-- Buckets the resolver accepts. -/
def AllAccepted (buckets : List RateLimitBucketResolved) : Prop :=
  ∀ bucket ∈ buckets, BucketAccepted bucket.cost bucket.windows

/-- So is a plan of them. -/
theorem emitRateLimitPlan_ok (ctx : ErrorContext) (fields : Ident → String)
    {buckets : List RateLimitBucketResolved} (h : AllAccepted buckets) :
    ∃ plan, emitRateLimitPlan ctx (some fields) buckets = .ok plan := by
  obtain ⟨uses, huses⟩ := Results.exists_mapM_eq_ok
    (fun bucket hmem => emitRateLimitBucket_ok ctx fields (h bucket hmem))
  unfold emitRateLimitPlan
  rw [huses]
  exact ⟨_, rfl⟩

theorem emitRateLimitPlan_eq_ok_iff {ctx : ErrorContext} {ep : EmitEp}
    {buckets : List RateLimitBucketResolved} {plan : RateLimitPlan} :
    emitRateLimitPlan ctx ep buckets = .ok plan ↔
      List.Forall₂ (fun bucket use => emitRateLimitBucket ctx ep bucket = .ok use) buckets
        plan.buckets := by
  unfold emitRateLimitPlan
  simp only [Results.bind_eq_ok_iff, Except.ok.injEq, ← Results.mapM_eq_ok_iff]
  constructor
  · intro h
    obtain ⟨uses, huses, rfl⟩ := h
    exact huses
  · intro h
    exact ⟨plan.buckets, h, rfl⟩

theorem emitRateLimitPlan_append {ctx : ErrorContext} {ep : EmitEp}
    {buckets more : List RateLimitBucketResolved} {plan : RateLimitPlan}
    (h : emitRateLimitPlan ctx ep buckets = .ok plan) :
    emitRateLimitPlan ctx ep (buckets ++ more) =
      emitRateLimitPlan ctx ep more >>= fun more => .ok (plan.extend more) := by
  have hbuckets := emitRateLimitPlan_eq_ok_iff.mp h
  rw [← Results.mapM_eq_ok_iff] at hbuckets
  unfold emitRateLimitPlan
  rw [List.mapM_append, hbuckets]
  cases more.mapM (emitRateLimitBucket ctx ep) <;> rfl

/-! ## directives as edits -/

/-- What a directive does to the buckets of the plan. -/
def RateLimitResolved.edit : RateLimitResolved → Edit RateLimitBucketResolved
  | .clear => .clear
  | .add plan => .add plan.buckets
  | .replace plan => .replace plan.buckets

/-- A directive acts on an emitted plan as its edit on the buckets the plan is
emitted from. -/
theorem applyRateLimitOp_emitted {ctx : ErrorContext} {ep : EmitEp}
    {buckets : List RateLimitBucketResolved} {plan : RateLimitPlan}
    (h : emitRateLimitPlan ctx ep buckets = .ok plan) (op : RateLimitResolved) :
    applyRateLimitOp ctx ep plan op = emitRateLimitPlan ctx ep (op.edit.apply buckets) := by
  cases op with
  | clear => rfl
  | add more => exact (emitRateLimitPlan_append h).symm
  | replace other => rfl

/-- A run of directives emits what their edits leave. -/
theorem foldlM_applyRateLimitOp {ctx : ErrorContext} {fields : Ident → String}
    {ops : List RateLimitResolved} {buckets : List RateLimitBucketResolved} {plan : RateLimitPlan}
    (haccepted : AllAccepted buckets) (hops : ∀ op ∈ ops, AllAccepted op.edit.items)
    (h : emitRateLimitPlan ctx (some fields) buckets = .ok plan) :
    ops.foldlM (applyRateLimitOp ctx (some fields)) plan =
      emitRateLimitPlan ctx (some fields) (run (ops.map RateLimitResolved.edit) buckets) := by
  induction ops generalizing buckets plan with
  | nil => exact h.symm
  | cons op ops ih =>
      obtain ⟨hop, hrest⟩ := List.forall_mem_cons.mp hops
      have hnext : AllAccepted (op.edit.apply buckets) := apply_forall hop haccepted
      obtain ⟨plan', hplan'⟩ := emitRateLimitPlan_ok ctx fields hnext
      rw [List.foldlM_cons, applyRateLimitOp_emitted h, hplan', Results.ok_bind,
        ih hnext hrest hplan', List.map_cons, run_cons]

end Concord.Sema
