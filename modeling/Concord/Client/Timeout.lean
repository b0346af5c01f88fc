import Concord.Progress
import Concord.Client.Head

/-!
# Concord.Client.Timeout

The timeout of a request: what the calls on the pending request and the calls
of the policy layers ask for, and what the request gets.

`TimeoutOverride` tells an inherited timeout from a cleared one, but the
override of the plan is an optional duration, and both become `none`.  When
the head is resolved the timeout of the policy takes the place of a `none`, so
a `clear_timeout` on the pending request is lost where the policy has a
timeout.
-/

namespace Concord

variable {ε β υ E R Page Item : Type*}

/-! ## what is asked for -/

/-- What a call makes of the override, if it does. -/
def PendingCall.timeout? : PendingCall E → Option TimeoutOverride
  | .timeout duration => some (.set duration)
  | .clearTimeout => some .clear
  | .inheritTimeout => some .inherit
  | .mapEndpoint _ | .debugLevel _ => none

/-- What an override asks for, over the timeout of the policy. -/
def TimeoutOverride.over (policy : Option Nat) : TimeoutOverride → Option Nat
  | .set timeout => some timeout
  | .clear => none
  | .inherit => policy

/-- The timeout that the calls on a pending request and the policy layers
amount to. -/
def effectiveTimeout (calls : List (PendingCall E)) (layers : PolicyLayers) : Option Nat :=
  ((LastWrite.last PendingCall.timeout? calls).getD .inherit).over layers.timeoutResult

/-- The last timeout call on the pending request clears the timeout, and the
last one of the policy layers sets it. -/
def ClearsPolicyTimeout (calls : List (PendingCall E)) (layers : PolicyLayers) : Prop :=
  LastWrite.last PendingCall.timeout? calls = some .clear ∧
    ∃ timeout, LastWrite.last PolicyOp.timeout? layers.calls = some (some timeout)

/-! ## what is sent -/

/-- What becomes of an override and the timeout of the policy. -/
def TimeoutOverride.sent (policy : Option Nat) : TimeoutOverride → Option Nat
  | .set timeout => some timeout
  | .clear | .inherit => policy

theorem sent_eq_over_iff (override : TimeoutOverride) (policy : Option Nat) :
    override.sent policy = override.over policy ↔
      ¬ (override = .clear ∧ ∃ timeout, policy = some timeout) := by
  cases override with
  | inherit => simp [TimeoutOverride.sent, TimeoutOverride.over]
  | set timeout => simp [TimeoutOverride.sent, TimeoutOverride.over]
  | clear =>
      cases policy with
      | none => simp [TimeoutOverride.sent, TimeoutOverride.over]
      | some timeout => simp [TimeoutOverride.sent, TimeoutOverride.over]

theorem timeoutResult_eq_some_iff {layers : PolicyLayers} {timeout : Nat} :
    layers.timeoutResult = some timeout ↔
      LastWrite.last PolicyOp.timeout? layers.calls = some (some timeout) := by
  unfold PolicyLayers.timeoutResult
  cases LastWrite.last PolicyOp.timeout? layers.calls with
  | none => simp
  | some result => simp

theorem PendingRequest.call_timeout (pending : PendingRequest E) (call : PendingCall E) :
    (pending.call call).opts.timeoutOverride =
      call.timeout?.getD pending.opts.timeoutOverride := by
  cases call <;> rfl

/-- The override of a pending request is that of the last timeout call. -/
theorem PendingRequest.after_timeout (ep : E) (calls : List (PendingCall E)) :
    (PendingRequest.after ep calls).opts.timeoutOverride =
      (LastWrite.last PendingCall.timeout? calls).getD .inherit := by
  unfold PendingRequest.after
  exact LastWrite.read_foldl PendingCall.timeout? (fun pending => pending.opts.timeoutOverride)
    PendingRequest.call_timeout (PendingRequest.new ep) calls

/-- The timeout of a request built from the plan of a generated endpoint. -/
theorem timeout_of_generated {generated : GeneratedEndpoint ε β E} {inputs : GeneratedInputs ε β}
    {builder : RequestBuilder υ β} {opts : RequestOptions} {pageIndex : Nat}
    {plan : FullRequestPlan ε β} {body : PreparedBody ε β} {built : BuiltRequest β}
    (hplan : plan = (generated.prepareGeneratedEndpoint inputs).withOptions opts pageIndex)
    (hbuilt : buildExecution builder plan.endpoint plan.overrides body = .ok built) :
    built.message.timeout = opts.timeoutOverride.sent inputs.layers.timeoutResult := by
  have hpolicy : plan.endpoint.policy.timeout = inputs.layers.timeoutResult := by
    rw [hplan]
    exact inputs.layers.timeout_of_run generated.method generated.response
  rw [(message_of_buildExecution hbuilt).2, hpolicy, hplan]
  cases hoverride : opts.timeoutOverride with
  | inherit =>
      simp [FullRequestPlan.withOptions, RequestOptions.applyTo, hoverride,
        GeneratedEndpoint.prepareGeneratedEndpoint, FullRequestPlan.view,
        RequestOverrides.default, TimeoutOverride.sent]
  | clear =>
      simp [FullRequestPlan.withOptions, RequestOptions.applyTo, hoverride,
        TimeoutOverride.sent]
  | set timeout =>
      simp [FullRequestPlan.withOptions, RequestOptions.applyTo, hoverride,
        TimeoutOverride.sent]

/-- The request gets the timeout that is asked for unless a `clear_timeout`
is lost. -/
theorem timeout_eq_effective_iff {generated : GeneratedEndpoint ε β E}
    {inputs : GeneratedInputs ε β} {builder : RequestBuilder υ β} {ep : E}
    {calls : List (PendingCall E)} {pageIndex : Nat} {plan : FullRequestPlan ε β}
    {body : PreparedBody ε β} {built : BuiltRequest β}
    (hplan : plan = (generated.prepareGeneratedEndpoint inputs).withOptions
      (PendingRequest.after ep calls).opts pageIndex)
    (hbuilt : buildExecution builder plan.endpoint plan.overrides body = .ok built) :
    built.message.timeout = effectiveTimeout calls inputs.layers ↔
      ¬ ClearsPolicyTimeout calls inputs.layers := by
  rw [timeout_of_generated hplan hbuilt, PendingRequest.after_timeout]
  unfold effectiveTimeout ClearsPolicyTimeout
  rw [sent_eq_over_iff]
  simp only [timeoutResult_eq_some_iff]
  have hclear : (LastWrite.last PendingCall.timeout? calls).getD .inherit = .clear ↔
      LastWrite.last PendingCall.timeout? calls = some .clear := by
    cases LastWrite.last PendingCall.timeout? calls with
    | none => simp
    | some override => simp
  rw [hclear]

/-! ## pages -/

/-- A generated endpoint as the pagination loop sees it. -/
def GeneratedEndpoint.paginated (generated : GeneratedEndpoint ε β E)
    (paginationRuntime : E → Option R) (runtime : PaginationRuntime ApiClientError E R Page) :
    PaginatedEndpoint ApiClientError E R Page where
  plan ep := (generated.plan ep).map FullRequestPlan.view
  paginationRuntime := paginationRuntime
  runtime := runtime

/-- The plan that a turn of the loop executes, after it has prepared the
endpoint of its page. -/
def GeneratedEndpoint.pagePlan (generated : GeneratedEndpoint ε β E) (opts : RequestOptions)
    (s : CollectState ApiClientError E R Page Item) :
    Except ApiClientError (FullRequestPlan ε β) :=
  (generated.plan s.ep).map fun plan => plan.withOptions opts s.pageIndex

/-- The call of a turn is that plan, as the loop sees it. -/
theorem pagePlan_of_nextCall {generated : GeneratedEndpoint ε β E}
    {paginationRuntime : E → Option R} {runtime : PaginationRuntime ApiClientError E R Page}
    {opts : RequestOptions} {ctx : ErrorContext}
    {s s' : CollectState ApiClientError E R Page Item} {page : PageCall}
    (h : nextCall (generated.paginated paginationRuntime runtime) opts ctx s = .ok (s', page)) :
    (generated.pagePlan opts s').map FullRequestPlan.view = .ok page.call := by
  have hspec := nextCall_spec (generated.paginated paginationRuntime runtime) opts ctx s
  rw [h] at hspec
  cases hspec with
  | sent hkey hplans hfresh =>
      obtain ⟨_, viewed, hviewed, hcall⟩ := hplans
      unfold GeneratedEndpoint.pagePlan
      simp only [GeneratedEndpoint.paginated] at hviewed
      cases hplan : generated.plan _ with
      | error error =>
          rw [hplan] at hviewed
          contradiction
      | ok plan =>
          rw [hplan] at hviewed
          simp only [Except.map, Except.ok.injEq] at hviewed ⊢
          rw [FullRequestPlan.view_withOptions, hviewed, hcall]

theorem inputs_of_plan {generated : GeneratedEndpoint ε β E} {ep : E} {plan : FullRequestPlan ε β}
    {inputs : GeneratedInputs ε β} (hinputs : generated.inputs ep = .ok inputs)
    (hplan : generated.plan ep = .ok plan) :
    plan = generated.prepareGeneratedEndpoint inputs := by
  unfold GeneratedEndpoint.plan at hplan
  rw [hinputs] at hplan
  exact (Except.ok.inj hplan).symm

/-- **Effective timeout**: whatever the policy layers of a generated endpoint
and the calls on its pending request are, a request that is built for it, on
its own or for a page, has the timeout of the last `timeout(d)`, none after a
`clear_timeout`, and else the result of the last call of the policy, if and
only if it is not the case that the pending request clears a timeout that the
policy sets. -/
theorem effective_timeout_iff (generated : GeneratedEndpoint ε β E)
    (builder : RequestBuilder υ β) (ep : E) (calls : List (PendingCall E)) :
    (∀ (inputs : GeneratedInputs ε β) (plan : FullRequestPlan ε β) (body : PreparedBody ε β)
        (built : BuiltRequest β),
      generated.inputs (PendingRequest.after ep calls).ep = .ok inputs →
      (PendingRequest.after ep calls).preparedCall generated = .ok plan →
      buildExecution builder plan.endpoint plan.overrides body = .ok built →
      (built.message.timeout = effectiveTimeout calls inputs.layers ↔
        ¬ ClearsPolicyTimeout calls inputs.layers)) ∧
    ∀ (paginationRuntime : E → Option R) (runtime : PaginationRuntime ApiClientError E R Page)
        (ctx : ErrorContext) (s s' : CollectState ApiClientError E R Page Item) (page : PageCall),
      nextCall (generated.paginated paginationRuntime runtime)
        (PendingRequest.after ep calls).opts ctx s = .ok (s', page) →
      ∃ plan, generated.pagePlan (PendingRequest.after ep calls).opts s' = .ok plan ∧
        page.call = plan.view ∧
        ∀ (inputs : GeneratedInputs ε β) (body : PreparedBody ε β) (built : BuiltRequest β),
          generated.inputs s'.ep = .ok inputs →
          buildExecution builder plan.endpoint plan.overrides body = .ok built →
          (built.message.timeout = effectiveTimeout calls inputs.layers ↔
            ¬ ClearsPolicyTimeout calls inputs.layers) := by
  constructor
  · intro inputs plan body built hinputs hplan hbuilt
    unfold PendingRequest.preparedCall at hplan
    cases hgenerated : generated.plan (PendingRequest.after ep calls).ep with
    | error error =>
        rw [hgenerated] at hplan
        contradiction
    | ok base =>
        rw [hgenerated] at hplan
        have hbase := inputs_of_plan hinputs hgenerated
        subst hbase
        exact timeout_eq_effective_iff (Except.ok.inj hplan).symm hbuilt
  · intro paginationRuntime runtime ctx s s' page hnext
    have hpage := pagePlan_of_nextCall hnext
    unfold GeneratedEndpoint.pagePlan at hpage ⊢
    cases hgenerated : generated.plan s'.ep with
    | error error =>
        rw [hgenerated] at hpage
        contradiction
    | ok base =>
        rw [hgenerated] at hpage
        refine ⟨_, rfl, (Except.ok.inj hpage).symm, ?_⟩
        intro inputs body built hinputs hbuilt
        have hbase := inputs_of_plan hinputs hgenerated
        subst hbase
        exact timeout_eq_effective_iff rfl hbuilt

/-! ### a request and a page -/

/-- An endpoint whose client layer sets a timeout of thirty. -/
def patientEndpoint : GeneratedEndpoint Unit Unit Unit where
  name := "List"
  method := .get
  response := ⟨none, false⟩
  pagination := true
  inputs _ := .ok {
    route := ⟨"https", "example.com", "/items"⟩
    layers := ⟨[.setTimeout 30], [], []⟩
    auth := ⟨[]⟩
    body := ⟨.empty, none⟩ }

def exampleBuilder : RequestBuilder Unit Unit where
  urls :=
    { parse := fun text => .ok ⟨text ++ "/", none⟩
      setPath := fun url path => { url with base := "https://example.com" ++ path } }
  apiHeaders := Multimap.empty
  reqwest := ⟨fun _ => some ⟨none, none⟩, fun _ => true⟩
  slotCounter := 0
  taken _ := 0

/-- A runtime that leaves the endpoint as it is. -/
def idleRuntime : PaginationRuntime ApiClientError Unit Unit Unit where
  init runtime _ _ := .ok runtime
  apply runtime ep _ := .ok (runtime, ep)
  advance runtime ep _ _ _ := .ok (runtime, ep, .stop)
  progressKey _ := none
  expectedItemsPerPage _ := none

/-- The state of a loop that has sent nothing. -/
def firstTurn : CollectState ApiClientError Unit Unit Unit Unit :=
  CollectState.start ⟨.takePages 1, true⟩ () ()

theorem effective_timeout_iff_set :
    (∃ plan built,
      (PendingRequest.after () [.clearTimeout, .timeout 5]).preparedCall patientEndpoint =
        .ok plan ∧
      buildExecution exampleBuilder plan.endpoint plan.overrides plan.body = .ok built ∧
      built.message.timeout = some 5) ∧
    ∃ s' page plan built,
      nextCall (patientEndpoint.paginated (fun _ => some ()) idleRuntime)
        (PendingRequest.after () [.inheritTimeout]).opts ⟨"List", .get⟩ firstTurn =
          .ok (s', page) ∧
      patientEndpoint.pagePlan (PendingRequest.after () [.inheritTimeout]).opts s' = .ok plan ∧
      buildExecution exampleBuilder plan.endpoint plan.overrides plan.body = .ok built ∧
      built.message.timeout = some 30 := by
  constructor
  · refine ⟨_, _, rfl, rfl, ?_⟩
    have hkept : ¬ ClearsPolicyTimeout [.clearTimeout, PendingCall.timeout 5]
        ⟨[.setTimeout 30], [], []⟩ (E := Unit) := by
      intro h
      simp [ClearsPolicyTimeout, LastWrite.last, PendingCall.timeout?] at h
    exact ((@effective_timeout_iff _ _ _ _ Unit Unit Unit patientEndpoint exampleBuilder ()
      [.clearTimeout, .timeout 5]).1 _ _ ⟨.empty, none⟩ _ rfl rfl rfl).mpr hkept
  · refine ⟨_, _, _, _, rfl, rfl, rfl, ?_⟩
    have hkept : ¬ ClearsPolicyTimeout [PendingCall.inheritTimeout]
        ⟨[.setTimeout 30], [], []⟩ (E := Unit) := by
      intro h
      simp [ClearsPolicyTimeout, LastWrite.last, PendingCall.timeout?] at h
    obtain ⟨plan, hplan, _, hiff⟩ := (effective_timeout_iff patientEndpoint exampleBuilder ()
      [.inheritTimeout]).2 (fun _ => some ()) idleRuntime ⟨"List", .get⟩ firstTurn _ _ rfl
    cases hplan
    exact (hiff _ ⟨.empty, none⟩ _ rfl rfl).mpr hkept

/-- A `clear_timeout` on the pending request does not clear the timeout of
the policy. -/
theorem effective_timeout_cleared :
    ∃ plan built,
      (PendingRequest.after () [.clearTimeout]).preparedCall patientEndpoint = .ok plan ∧
      buildExecution exampleBuilder plan.endpoint plan.overrides plan.body = .ok built ∧
      effectiveTimeout [.clearTimeout] ⟨[.setTimeout 30], [], []⟩ (E := Unit) = none ∧
      built.message.timeout = some 30 :=
  ⟨_, _, rfl, rfl, rfl, rfl⟩

end Concord
