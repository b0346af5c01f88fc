import Concord.Policy

/-!
# Concord.PolicyLayers

What the layers of a policy leave of its query and its headers.

The query of a policy is the list of the last writes to its keys, in the order
in which they were made.  A header has what the last call on it left, with one
exception: the `Accept` that the response codec asks for wins over that of the
client and the scopes, but not over that of the endpoint.
-/

namespace Concord

/-! ## calls -/

/-- The key and the values that a call writes to the query. -/
def PolicyOp.query? : PolicyOp → Option (String × List String)
  | .setQuery key value => some (key, [value])
  | .replaceQueryValues key values => some (key, values)
  | .removeQuery key => some (key, [])
  | _ => none

/-- What a call writes to a header, if it does. -/
def PolicyOp.header? (name : HeaderName) : PolicyOp → Option (List HeaderValue)
  | .setHeader found value => if found = name then some [value] else none
  | .removeHeader found => if found = name then some [] else none
  | _ => none

/-- What is no directive leaves the query alone. -/
theorem PolicyOp.query?_of_not_isDirective {op : PolicyOp} (h : op.isDirective = false) :
    op.query? = none := by
  cases op with
  | setQuery key value => contradiction
  | replaceQueryValues key values => contradiction
  | removeQuery key => contradiction
  | _ => rfl

/-- It leaves the headers alone as well. -/
theorem PolicyOp.header?_of_not_isDirective {op : PolicyOp} (h : op.isDirective = false)
    (name : HeaderName) : op.header? name = none := by
  cases op with
  | setHeader found value => contradiction
  | removeHeader found => contradiction
  | _ => rfl

/-! ## the query -/

/-- The provenance of `Accept` is not in the query. -/
theorem Policy.noteAccept_query (policy : Policy) (name : HeaderName) :
    (policy.noteAccept name).query = policy.query := by
  unfold noteAccept
  split
  · rfl
  · rfl

/-- An operation writes its key of the query. -/
theorem Policy.apply_query (policy : Policy) (op : PolicyOp) :
    (policy.apply op).query = op.query?.toList.foldl LastWrite.overwrite policy.query := by
  cases op with
  | setHeader name value => exact policy.noteAccept_query name
  | removeHeader name => exact policy.noteAccept_query name
  | removeQuery key => simp [apply, removeQuery, PolicyOp.query?, LastWrite.overwrite]
  | ensureAccept value =>
      show (policy.ensureAccept value).query = policy.query
      unfold ensureAccept
      split <;> rfl
  | _ => rfl

/-- Operations write their keys one after the other. -/
theorem Policy.run_query (policy : Policy) (ops : List PolicyOp) :
    (policy.run ops).query =
      (ops.filterMap PolicyOp.query?).foldl LastWrite.overwrite policy.query := by
  unfold run
  induction ops generalizing policy with
  | nil => rfl
  | cons op ops ih =>
      rw [List.foldl_cons, ih, apply_query, List.filterMap_cons]
      cases op.query? with
      | none => rfl
      | some entry => rfl

/-! ## headers -/

/-- The default for `Accept` leaves the other headers alone. -/
theorem Policy.getAll_ensureAccept (policy : Policy) (value : HeaderValue) {name : HeaderName}
    (h : name ≠ HeaderName.accept) :
    (policy.ensureAccept value).headers.getAll name = policy.headers.getAll name := by
  unfold ensureAccept
  split
  · rfl
  · exact Multimap.getAll_insert_of_ne h

/-- One call, on any header but an `Accept` that the codec asks for. -/
theorem Policy.getAll_apply (policy : Policy) (op : PolicyOp) (name : HeaderName)
    (h : name ≠ HeaderName.accept ∨ ∀ value, op ≠ .ensureAccept value) :
    (policy.apply op).headers.getAll name =
      (op.header? name).getD (policy.headers.getAll name) := by
  cases op with
  | setHeader found value =>
      show (policy.headers.insert found value).getAll name = _
      by_cases hfound : found = name
      · simp [PolicyOp.header?, hfound]
      · rw [Multimap.getAll_insert_of_ne fun heq => hfound heq.symm]
        simp [PolicyOp.header?, hfound]
  | removeHeader found =>
      show (policy.headers.remove found).getAll name = _
      by_cases hfound : found = name
      · simp [PolicyOp.header?, hfound]
      · rw [Multimap.getAll_remove_of_ne fun heq => hfound heq.symm]
        simp [PolicyOp.header?, hfound]
  | ensureAccept value =>
      rcases h with hname | hop
      · exact policy.getAll_ensureAccept value hname
      · exact absurd rfl (hop value)
  | _ => rfl

/-- The last operation on a header decides it. -/
theorem Policy.getAll_run_of_ne (policy : Policy) (ops : List PolicyOp) {name : HeaderName}
    (h : name ≠ HeaderName.accept) :
    (policy.run ops).headers.getAll name =
      (LastWrite.last (PolicyOp.header? name) ops).getD (policy.headers.getAll name) :=
  LastWrite.read_foldl (PolicyOp.header? name) (fun policy => policy.headers.getAll name)
    (fun policy op => policy.getAll_apply op name (.inl h)) policy ops

/-- The same of directives, for every header. -/
theorem Policy.getAll_run_directives (policy : Policy) {ops : List PolicyOp}
    (h : ∀ op ∈ ops, op.isDirective = true) (name : HeaderName) :
    (policy.run ops).headers.getAll name =
      (LastWrite.last (PolicyOp.header? name) ops).getD (policy.headers.getAll name) := by
  refine LastWrite.read_foldl_of_mem (PolicyOp.header? name)
    (fun policy => policy.headers.getAll name) (fun policy op hop => ?_) policy
  refine policy.getAll_apply op name (.inr fun value heq => ?_)
  have hdirective := h op hop
  rw [heq] at hdirective
  contradiction

/-! ## who has set `Accept` -/

/-- The calls on `Accept`. -/
def PolicyOp.onAccept (op : PolicyOp) : Bool := (op.header? HeaderName.accept).isSome

/-- A header that is set is `Accept` or not. -/
theorem PolicyOp.onAccept_setHeader (name : HeaderName) (value : HeaderValue) :
    (PolicyOp.setHeader name value).onAccept = decide (name = HeaderName.accept) := by
  by_cases h : name = HeaderName.accept
  · simp [onAccept, header?, h]
  · simp [onAccept, header?, h]

/-- So is one that is removed. -/
theorem PolicyOp.onAccept_removeHeader (name : HeaderName) :
    (PolicyOp.removeHeader name).onAccept = decide (name = HeaderName.accept) := by
  by_cases h : name = HeaderName.accept
  · simp [onAccept, header?, h]
  · simp [onAccept, header?, h]

/-- What `ensure_accept` looks at. -/
structure Policy.Provenance (policy : Policy) (layer : PolicyLayer) (byEndpoint : Bool) :
    Prop where
  layer : policy.layer = layer
  byEndpoint : policy.acceptExplicitByEndpoint = byEndpoint
  byRuntime : policy.acceptExplicitByRuntime = false

/-- To go on to another layer keeps the provenance. -/
theorem Policy.Provenance.setLayer {policy : Policy} {layer : PolicyLayer} {byEndpoint : Bool}
    (h : policy.Provenance layer byEndpoint) (next : PolicyLayer) :
    (policy.setLayer next).Provenance next byEndpoint :=
  ⟨rfl, h.byEndpoint, h.byRuntime⟩

/-- The default replaces `Accept` unless the endpoint wrote it. -/
theorem Policy.Provenance.getAll_ensureAccept {policy : Policy} {layer : PolicyLayer}
    {byEndpoint : Bool} (h : policy.Provenance layer byEndpoint) (value : HeaderValue) :
    (policy.ensureAccept value).headers.getAll HeaderName.accept =
      if byEndpoint then policy.headers.getAll HeaderName.accept else [value] := by
  obtain ⟨_, hendpoint, hruntime⟩ := h
  unfold Policy.ensureAccept
  cases byEndpoint with
  | true => simp [hendpoint]
  | false => simp [hendpoint, hruntime]

/-- A write to `Accept` is noted in the layer of the endpoint. -/
theorem Policy.Provenance.noteAccept {policy : Policy} {layer : PolicyLayer} {byEndpoint : Bool}
    (h : policy.Provenance layer byEndpoint) (name : HeaderName) :
    (policy.noteAccept name).Provenance layer
      (byEndpoint || (decide (layer = .endpoint) && decide (name = HeaderName.accept))) := by
  obtain ⟨hlayer, hendpoint, hruntime⟩ := h
  unfold Policy.noteAccept
  by_cases hexplicit : policy.layer = .endpoint ∧ name = HeaderName.accept
  · rw [if_pos hexplicit]
    refine ⟨hlayer, ?_, hruntime⟩
    simp [← hlayer, hexplicit.1, hexplicit.2]
  · rw [if_neg hexplicit]
    refine ⟨hlayer, ?_, hruntime⟩
    rw [← hlayer, hendpoint, ← Bool.decide_and, decide_eq_false hexplicit, Bool.or_false]

/-- One directive: only the endpoint layer is noted. -/
theorem Policy.Provenance.apply {policy : Policy} {layer : PolicyLayer} {byEndpoint : Bool}
    (h : policy.Provenance layer byEndpoint) {op : PolicyOp} (hop : op.isDirective = true) :
    (policy.apply op).Provenance layer
      (byEndpoint || (decide (layer = .endpoint) && op.onAccept)) := by
  have hnote (name : HeaderName) (h' : op.onAccept = decide (name = HeaderName.accept)) :
      (policy.noteAccept name).Provenance layer
        (byEndpoint || (decide (layer = .endpoint) && op.onAccept)) := by
    rw [h']
    exact h.noteAccept name
  have hkeep (h' : op.onAccept = false) :
      policy.Provenance layer (byEndpoint || (decide (layer = .endpoint) && op.onAccept)) := by
    rw [h', Bool.and_false, Bool.or_false]
    exact h
  cases op with
  | setHeader name value =>
      obtain ⟨hlayer, hendpoint, hruntime⟩ := hnote name (PolicyOp.onAccept_setHeader name value)
      exact ⟨hlayer, hendpoint, hruntime⟩
  | removeHeader name =>
      obtain ⟨hlayer, hendpoint, hruntime⟩ := hnote name (PolicyOp.onAccept_removeHeader name)
      exact ⟨hlayer, hendpoint, hruntime⟩
  | beginPrefixLayer => contradiction
  | beginEndpointLayer => contradiction
  | beginRuntimeLayer => contradiction
  | ensureAccept value => contradiction
  | _ =>
      obtain ⟨hlayer, hendpoint, hruntime⟩ := hkeep rfl
      exact ⟨hlayer, hendpoint, hruntime⟩

/-- So are the writes of a layer. -/
theorem Policy.Provenance.run {policy : Policy} {layer : PolicyLayer} {byEndpoint : Bool}
    (h : policy.Provenance layer byEndpoint) {ops : List PolicyOp}
    (hops : ∀ op ∈ ops, op.isDirective = true) :
    (policy.run ops).Provenance layer
      (byEndpoint || (decide (layer = .endpoint) && ops.any PolicyOp.onAccept)) := by
  induction ops generalizing policy byEndpoint with
  | nil => simpa [Policy.run] using h
  | cons op ops ih =>
      obtain ⟨hop, hrest⟩ := List.forall_mem_cons.mp hops
      have hrun := ih (h.apply hop) hrest
      rw [List.any_cons, Bool.and_or_distrib_left, ← Bool.or_assoc]
      exact hrun

/-- Operations in two parts. -/
theorem Policy.run_append (policy : Policy) (ops ops' : List PolicyOp) :
    policy.run (ops ++ ops') = (policy.run ops).run ops' := by
  simp [run]

namespace PolicyLayers

/-- The layers make directives only. -/
def Directives (layers : PolicyLayers) : Prop := ∀ op ∈ layers.calls, op.isDirective = true

/-- The client has directives. -/
theorem Directives.client {layers : PolicyLayers} (h : layers.Directives) {op : PolicyOp}
    (hop : op ∈ layers.client) : op.isDirective = true :=
  h op (by simp [calls, hop])

/-- So have the scopes. -/
theorem Directives.scope {layers : PolicyLayers} (h : layers.Directives) {scope : List PolicyOp}
    (hscope : scope ∈ layers.scopes) {op : PolicyOp} (hop : op ∈ scope) :
    op.isDirective = true := by
  have hmem : op ∈ layers.scopes.flatten := List.mem_flatten_of_mem hscope hop
  exact h op (by simp only [calls, List.mem_append, hmem, or_true, true_or])

/-- And the endpoint. -/
theorem Directives.endpoint {layers : PolicyLayers} (h : layers.Directives) {op : PolicyOp}
    (hop : op ∈ layers.endpoint) : op.isDirective = true :=
  h op (by simp [calls, hop])

/-- The scopes are not the endpoint. -/
theorem provenance_scopes {policy : Policy} {layer : PolicyLayer} (hlayer : layer ≠ .endpoint)
    (h : policy.Provenance layer false) {scopes : List (List PolicyOp)}
    (hscopes : ∀ scope ∈ scopes, ∀ op ∈ scope, op.isDirective = true) :
    ∃ last, last ≠ PolicyLayer.endpoint ∧
      (policy.run (scopes.flatMap fun scope => .beginPrefixLayer :: scope)).Provenance
        last false := by
  induction scopes generalizing policy layer with
  | nil => exact ⟨layer, hlayer, h⟩
  | cons scope scopes ih =>
      obtain ⟨hscope, hrest⟩ := List.forall_mem_cons.mp hscopes
      have hrun := (h.setLayer .prefixPath).run hscope
      rw [decide_eq_false (by decide), Bool.false_and, Bool.or_false] at hrun
      rw [List.flatMap_cons, Policy.run_append]
      exact ih (by decide) hrun hrest

/-- The policy that the endpoint layer starts from. -/
def inherited (layers : PolicyLayers) : Policy :=
  (Policy.new.run (layers.client ++
    layers.scopes.flatMap fun scope => .beginPrefixLayer :: scope)).setLayer .endpoint

/-- No inherited layer counts as the endpoint. -/
theorem Directives.provenance {layers : PolicyLayers} (h : layers.Directives) :
    layers.inherited.Provenance .endpoint false := by
  have hnew : Policy.new.Provenance .client false := ⟨rfl, rfl, rfl⟩
  have hclient := hnew.run fun _ hop => h.client hop
  rw [decide_eq_false (by decide), Bool.false_and, Bool.or_false] at hclient
  obtain ⟨last, _, hscopes⟩ :=
    provenance_scopes (by decide) hclient fun _ hscope _ hop => h.scope hscope hop
  rw [← Policy.run_append] at hscopes
  exact hscopes.setLayer .endpoint

/-! ## what the layers leave -/

/-- The writes of the layers to the query. -/
def queryWrites (layers : PolicyLayers) : List (String × List String) :=
  layers.calls.filterMap PolicyOp.query?

/-- The query has the last write of every key, in the order in which they came. -/
theorem query_of_run (layers : PolicyLayers) (method : Method) (response : ResponsePlan) :
    (Policy.new.run (layers.emitted method response)).query =
      LastWrite.expand (LastWrite.finals layers.queryWrites) := by
  rw [Policy.run_query, layers.filterMap_emitted fun _ => PolicyOp.query?_of_not_isDirective,
    LastWrite.foldl_overwrite]
  rfl

/-- A header has its last write. -/
theorem header_of_run (layers : PolicyLayers) (method : Method) (response : ResponsePlan)
    {name : HeaderName} (h : name ≠ HeaderName.accept) :
    (Policy.new.run (layers.emitted method response)).headers.getAll name =
      (LastWrite.last (PolicyOp.header? name) layers.calls).getD [] := by
  rw [Policy.getAll_run_of_ne _ _ h,
    layers.last_emitted fun _ hop => PolicyOp.header?_of_not_isDirective hop name]
  rfl

/-- Some operation is on `Accept` just if there is a last one. -/
theorem any_onAccept (ops : List PolicyOp) :
    ops.any PolicyOp.onAccept =
      (LastWrite.last (PolicyOp.header? HeaderName.accept) ops).isSome := by
  cases hlast : LastWrite.last (PolicyOp.header? HeaderName.accept) ops with
  | none =>
      rw [LastWrite.last_eq_none_iff] at hlast
      rw [Option.isSome_none, List.any_eq_false]
      intro op hop
      rw [PolicyOp.onAccept, hlast op hop]
      simp
  | some values =>
      obtain ⟨before, op, after, rfl, hop, _⟩ := (LastWrite.last_eq_some_iff _).mp hlast
      simp [PolicyOp.onAccept, hop]

/-- `Accept` is what the endpoint made it, or what the codec asks for. -/
theorem accept_of_run {layers : PolicyLayers} (h : layers.Directives) {method : Method}
    (hmethod : method ≠ .head) (value : HeaderValue) :
    (Policy.new.run (layers.emitted method ⟨some value, false⟩)).headers.getAll
        HeaderName.accept =
      (LastWrite.last (PolicyOp.header? HeaderName.accept) layers.endpoint).getD [value] := by
  have hops : acceptOps method ⟨some value, false⟩ = [.ensureAccept value] := by
    simp [acceptOps, hmethod]
  have hdirectives : ∀ op ∈ layers.endpoint, op.isDirective = true := fun _ hop => h.endpoint hop
  have hprovenance := (h.provenance.run hdirectives).setLayer .runtime
  have hrun : Policy.new.run (layers.emitted method ⟨some value, false⟩) =
      ((layers.inherited.run layers.endpoint).setLayer .runtime).ensureAccept value := by
    unfold emitted
    rw [hops, Policy.run_append, Policy.run_append]
    rfl
  rw [hrun, hprovenance.getAll_ensureAccept, decide_eq_true rfl, Bool.true_and, Bool.false_or,
    any_onAccept]
  show (if _ then (layers.inherited.run layers.endpoint).headers.getAll HeaderName.accept
    else [value]) = _
  rw [layers.inherited.getAll_run_directives hdirectives]
  cases LastWrite.last (PolicyOp.header? HeaderName.accept) layers.endpoint with
  | none => simp
  | some values => simp

end PolicyLayers

end Concord
