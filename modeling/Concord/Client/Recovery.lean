import Mathlib.Data.List.Basic
import Concord.Client.Execute

/-!
# Concord.Client.Recovery

Authentication recovery is bounded.  The loop of `drive_executions` goes
round at most once, and only from a first response that asks for recovery of
a body that can be produced again.

`Handled` says what can follow an observed response, `Turned` what a whole
turn can do, and `AtHead` what the loop finds at its head.  The stages of an
execution are the events that only the execution itself takes, so a log that
shows two runs of them shows two executions.
-/

namespace Concord

open Loop

variable {ε β T : Type*}

/-! ## stages -/

/-- The events of an execution's own stages. -/
def ExecutionEvent.isStage : ExecutionEvent → Bool
  | .prepareAuth | .produceBody | .acquireRateLimit | .send => true
  | .respond _ | .slot _ => false

/-- The stages of the executions of a log. -/
def stages (events : List ExecutionEvent) : List ExecutionEvent := events.filter (·.isStage)

/-- The stages of one visible execution. -/
def execution : List ExecutionEvent := [.prepareAuth, .produceBody, .acquireRateLimit, .send]

/-- Stages are those of one part after the other. -/
@[simp] theorem stages_append (events events' : List ExecutionEvent) :
    stages (events ++ events') = stages events ++ stages events' :=
  List.filter_append ..

/-- Slot events are no stages. -/
@[simp] theorem stages_slots (events : List SlotEvent) : stages (events.map .slot) = [] := by
  induction events with
  | nil => rfl
  | cons event rest ih => exact ih

/-! ## plans that ask no provider -/

/-- No provider was asked. -/
def Effect.OnlyInvalidates (effect : Effect T) : Prop :=
  ∀ event ∈ effect.events, ∃ op, event = .invalidated op

/-- An effect without operations. -/
theorem onlyInvalidates_nil (slots : Slots T) (result : Except AuthError Unit) :
    (⟨slots, [], result⟩ : Effect T).OnlyInvalidates := by
  simp [Effect.OnlyInvalidates]

/-- A local invalidation invalidates. -/
theorem onlyInvalidates_invalidateLocal (slots : Slots T) (id : CredentialId)
    (generation : Option Nat) : (slots.invalidateLocal id generation).OnlyInvalidates := by
  unfold Slots.invalidateLocal
  split
  · exact onlyInvalidates_nil _ _
  · simp [Effect.OnlyInvalidates]

/-- So does a bound action, if no recovery is asked for or allowed. -/
theorem onlyInvalidates_applyBinding (bindings : AuthBindings)
    {application : AuthRejectionApplication} (status : StatusCode)
    (provider : Except AuthError Unit) {bound : RejectionBinding} (slots : Slots T)
    (h : application = .invalidationOnly ∨ bound.action.requestsRecovery = false) :
    (applyBinding bindings application status provider bound slots).OnlyInvalidates := by
  obtain ⟨result, he⟩ | ⟨id, generation, he⟩ | ⟨hcapable, hrecover, _⟩ :=
    applyBinding_cases bindings application status provider bound slots
  · rw [he]
    exact onlyInvalidates_nil _ _
  · rw [he]
    exact onlyInvalidates_invalidateLocal _ _ _
  · simp [hcapable, hrecover] at h

/-- And all of them. -/
theorem onlyInvalidates_applyBindings (bindings : AuthBindings)
    {application : AuthRejectionApplication} (status : StatusCode)
    (provider : Nat → Except AuthError Unit) {k : Nat} {bound : List RejectionBinding}
    (slots : Slots T)
    (h : application = .invalidationOnly ∨ ∀ b ∈ bound, b.action.requestsRecovery = false) :
    (applyBindings bindings application status provider k bound slots).OnlyInvalidates := by
  induction bound generalizing k slots with
  | nil => exact onlyInvalidates_nil _ _
  | cons b rest ih =>
      have hb := onlyInvalidates_applyBinding bindings status (provider k) slots
        (h.imp_right fun hall => hall b List.mem_cons_self)
      simp only [applyBindings]
      split
      · exact hb
      · intro event hmem
        cases List.mem_append.mp hmem with
        | inl hfirst => exact hb event hfirst
        | inr hrest =>
            exact ih _ (h.imp_right fun hall b' hb' => hall b' (List.mem_cons_of_mem _ hb'))
              event hrest

/-- A plan without a recover action, or one that is carried out by
invalidation only, asks no provider. -/
theorem onlyInvalidates_applyAuthRejectionPlan (bindings : AuthBindings)
    (requirements : List AuthRequirement) (applied : List AuthAppliedCredential)
    {plan : AuthRejectionPlan} {application : AuthRejectionApplication} (status : StatusCode)
    (provider : Nat → Except AuthError Unit) (slots : Slots T)
    (h : application = .invalidationOnly ∨ plan.requestsRecovery = false) :
    (applyAuthRejectionPlan bindings requirements applied plan.actions application status provider
      slots).OnlyInvalidates := by
  unfold applyAuthRejectionPlan
  split
  · exact onlyInvalidates_nil _ _
  · next bound hbound =>
      refine onlyInvalidates_applyBindings bindings status provider slots
        (h.imp_right fun hno b hb => ?_)
      have hmem := (resolves_of_mem (resolves_of_resolveActions hbound) hb).1
      have hall := List.any_eq_false.mp hno b.action hmem
      simpa using hall

/-! ## after a response -/

section turn

variable (env : ExecutionEnv ε T) (ctx : ErrorContext) (authRebuildable : Bool)

/-- The error is not one of a challenged response. -/
def ExecuteError.NotChallenged (error : ExecuteError ε) : Prop :=
  ∀ e, error ≠ .challenged e

/-- The log of a state, continued by what was done to the slots. -/
def DriveState.close (s : DriveState ε β T) (result : Except (ExecuteError ε) Response)
    (effect : Effect T) : Driven ε T :=
  ⟨result, effect.slots, s.events ++ effect.events.map .slot⟩

/-- What can follow a response: another turn, a rejection that was carried out
without a provider, one that could not be, or the end of the request. -/
inductive Handled (s : DriveState ε β T) (applied : List AuthAppliedCredential)
    (response : Response) : DriveState ε β T ⊕ Driven ε T → Prop
  | recover {plan : AuthRejectionPlan}
      (hc : classifyAuthRejection env.bindings env.requirements applied response.status =
        .ok (some plan))
      (hplan : plan.requestsRecovery = true) (hbuild : authRebuildable = true)
      (hbudget : s.authRecovery.initiated = false) :
      Handled s applied response (.inl { s with
        authRecovery := ⟨true⟩
        pendingAuth := some ⟨plan, response.status, applied⟩
        turn := s.turn + 1 })
  | rejected {plan : AuthRejectionPlan} {application : AuthRejectionApplication}
      {error : ApiClientError}
      (hc : classifyAuthRejection env.bindings env.requirements applied response.status =
        .ok (some plan))
      (hlocal : application = .invalidationOnly ∨ plan.requestsRecovery = false)
      (herror : error = authChallengeRejected ctx ∨
        authRebuildable = false ∧ error = .httpStatus ctx response.status)
      (hok : (s.effect env ⟨plan, response.status, applied⟩ application).result = .ok ()) :
      Handled s applied response (.inr (s.close (.error (.challenged error))
        (s.effect env ⟨plan, response.status, applied⟩ application)))
  | failed {plan : AuthRejectionPlan} {application : AuthRejectionApplication}
      {error : ApiClientError}
      (hc : classifyAuthRejection env.bindings env.requirements applied response.status =
        .ok (some plan))
      (hlocal : application = .invalidationOnly ∨ plan.requestsRecovery = false) :
      Handled s applied response (.inr (s.close (.error (.raised error))
        (s.effect env ⟨plan, response.status, applied⟩ application)))
  | ended {result : Except (ExecuteError ε) Response}
      (hc : ∀ plan, classifyAuthRejection env.bindings env.requirements applied
        response.status ≠ .ok (some plan))
      (hresult : ∀ error, result = .error error → error.NotChallenged) :
      Handled s applied response (.inr ⟨result, s.slots, s.events⟩)

/-- An error of the client itself is no challenge. -/
theorem notChallenged_raised (error : ApiClientError) :
    (ExecuteError.raised error : ExecuteError ε).NotChallenged :=
  fun _ h => by contradiction

/-- Nor is one it passes on. -/
theorem notChallenged_passed (error : ε) : (ExecuteError.passed error).NotChallenged :=
  fun _ h => by contradiction

/-- What a rejection does to the slots does not depend on the budget. -/
theorem DriveState.effect_authRecovery (s : DriveState ε β T)
    (budget : AuthenticationRecoveryBudget) (intent : AuthResendIntent)
    (application : AuthRejectionApplication) :
    ({ s with authRecovery := budget } : DriveState ε β T).effect env intent application =
      s.effect env intent application := rfl

/-- What the loop does with a response. -/
theorem handled_handleResponse (family : ExecutionFamily) (s : DriveState ε β T)
    (applied : List AuthAppliedCredential) (response : Response) :
    Handled env ctx authRebuildable s applied response
      (handleResponse env ctx authRebuildable family s applied response) := by
  unfold handleResponse
  cases hc : classifyAuthRejection env.bindings env.requirements applied response.status with
  | error source =>
      exact .ended (by simp [hc]) (fun error h => by
        rw [← Except.error.inj h]
        exact notChallenged_raised _)
  | ok classification =>
      cases classification with
      | none =>
          simp only
          cases classifyResponse family ctx response with
          | error error =>
              exact .ended (by simp [hc]) (fun error h => by
                rw [← Except.error.inj h]
                exact notChallenged_raised _)
          | ok response' => exact .ended (by simp [hc]) (fun error h => by contradiction)
      | some plan =>
          simp only
          cases hplan : plan.requestsRecovery with
          | false =>
              simp only [applyAuthRejectionStep, DriveState.apply, hplan, Bool.false_eq_true,
                and_false, if_false]
              cases hr : (s.effect env ⟨plan, response.status, applied⟩
                .providerCapable).result with
              | error source => exact .failed hc (.inr hplan)
              | ok _ => exact .rejected hc (.inr hplan) (.inl rfl) hr
          | true =>
              cases hbuild : authRebuildable with
              | false =>
                  simp only [DriveState.apply, Bool.false_eq_true, not_false_eq_true, if_true]
                  cases hr : (s.effect env ⟨plan, response.status, applied⟩
                    .invalidationOnly).result with
                  | error source => exact .failed hc (.inl rfl)
                  | ok _ => exact .rejected hc (.inl rfl) (.inr ⟨rfl, rfl⟩) hr
              | true =>
                  cases hbudget : s.authRecovery.initiated with
                  | false =>
                      simp only [AuthenticationRecoveryBudget.initiate, hbudget,
                        Bool.false_eq_true, not_true_eq_false, if_true, if_false]
                      exact .recover hc hplan rfl hbudget
                  | true =>
                      simp only [AuthenticationRecoveryBudget.initiate, hbudget,
                        not_true_eq_false, if_true, if_false, DriveState.apply,
                        DriveState.effect_authRecovery]
                      cases hr : (s.effect env ⟨plan, response.status, applied⟩
                        .invalidationOnly).result with
                      | error source => exact .failed hc (.inl rfl)
                      | ok _ => exact .rejected hc (.inl rfl) (.inl rfl) hr

/-! ## a turn -/

/-- The server answered: `s'` is the state in which the answer to the
execution started at `s` is handled. -/
structure DriveState.Answered (s s' : DriveState ε β T) (preparation : AuthPreparation)
    (response : Response) : Prop where
  prepared : env.prepareAuth s.turn = .ok preparation
  executed : env.execute s.turn = .ok response
  turn : s'.turn = s.turn
  authRecovery : s'.authRecovery = s.authRecovery
  log : ∃ before, s'.events = before ++ [.respond response.status] ∧
    stages before = stages s.events ++ execution

/-- What a turn can do: stop before it sends, get no answer, fail on the
answer before it is handled, or handle it. -/
inductive Turned (s : DriveState ε β T) : DriveState ε β T ⊕ Driven ε T → Prop
  | stopped {error : ExecuteError ε} {slots : Slots T} {events : List ExecutionEvent}
      (taken : List ExecutionEvent) (herror : error.NotChallenged)
      (hevents : stages events = stages s.events ++ taken)
      (htaken : taken <+: [.prepareAuth, .produceBody, .acquireRateLimit]) :
      Turned s (.inr ⟨.error error, slots, events⟩)
  | unanswered {error : ExecuteError ε} {failure : ε} {slots : Slots T}
      {events : List ExecutionEvent} (herror : error.NotChallenged)
      (hevents : stages events = stages s.events ++ execution)
      (hexecute : env.execute s.turn = .error failure) :
      Turned s (.inr ⟨.error error, slots, events⟩)
  | unobserved {s' : DriveState ε β T} {preparation : AuthPreparation} {response : Response}
      {error : ExecuteError ε} (herror : error.NotChallenged)
      (ha : s.Answered env s' preparation response) : Turned s (.inr (s'.fail error))
  | handled {s' : DriveState ε β T} {preparation : AuthPreparation} {response : Response}
      {outcome : DriveState ε β T ⊕ Driven ε T} (ha : s.Answered env s' preparation response)
      (hh : Handled env ctx authRebuildable s' preparation.applied response outcome) :
      Turned s outcome

/-- The states between the head of the loop and the production of the body:
nothing has happened but the preparation of credentials. -/
structure DriveState.Prepared (s s' : DriveState ε β T) (preparation : AuthPreparation) :
    Prop where
  prepared : env.prepareAuth s.turn = .ok preparation
  turn : s'.turn = s.turn
  authRecovery : s'.authRecovery = s.authRecovery
  log : stages s'.events = stages s.events ++ [.prepareAuth]

variable {env} in
/-- After the preparation of auth come the stages of the send. -/
theorem DriveState.Prepared.stages_append {s s' : DriveState ε β T}
    {preparation : AuthPreparation} (hp : s.Prepared env s' preparation)
    (events : List ExecutionEvent) :
    stages (s'.events ++ events) = stages s.events ++ (.prepareAuth :: stages events) := by
  rw [Concord.stages_append, hp.log, List.append_assoc]
  rfl

/-- What one execution does. -/
theorem turned_visibleExecution (family : ExecutionFamily) {s s' : DriveState ε β T}
    {preparation : AuthPreparation} (hp : s.Prepared env s' preparation) :
    Turned env ctx authRebuildable s
      (visibleExecution env ctx authRebuildable family s' preparation) := by
  simp only [visibleExecution, sendAndObserveOnce, DriveState.fail, hp.turn]
  cases s'.body.produceForExecution.2 with
  | error error =>
      refine .stopped [.prepareAuth, .produceBody] ?_ (hp.stages_append _) (by simp)
      cases error with
      | alreadyConsumed => exact notChallenged_raised _
      | factoryFailure error => exact notChallenged_passed _
  | ok produced =>
      cases env.finish s.turn with
      | error error =>
          exact .stopped [.prepareAuth, .produceBody] (notChallenged_passed _)
            (hp.stages_append _) (by simp)
      | ok _ =>
          simp only [List.append_assoc]
          cases env.acquire s.turn with
          | error error =>
              exact .stopped [.prepareAuth, .produceBody, .acquireRateLimit]
                (notChallenged_passed _) (hp.stages_append _) (List.prefix_refl _)
          | ok _ =>
              cases env.preSend s.turn with
              | error error =>
                  exact .stopped [.prepareAuth, .produceBody, .acquireRateLimit]
                    (notChallenged_passed _) (hp.stages_append _) (List.prefix_refl _)
              | ok _ =>
                  cases hexecute : env.execute s.turn with
                  | error error =>
                      exact .unanswered (notChallenged_passed _) (hp.stages_append _) hexecute
                  | ok response =>
                      have hanswered : s.Answered env
                          { s' with
                            turn := s.turn
                            body := s'.body.produceForExecution.1
                            events := s'.events ++ [.produceBody, .acquireRateLimit, .send,
                              .respond response.status] } preparation response :=
                        ⟨hp.prepared, hexecute, rfl, hp.authRecovery,
                          s'.events ++ [.produceBody, .acquireRateLimit, .send],
                          by simp, hp.stages_append _⟩
                      cases env.observe s.turn with
                      | error error => exact .unobserved (notChallenged_passed _) hanswered
                      | ok _ =>
                          exact .handled hanswered
                            (handled_handleResponse env ctx authRebuildable family _ _ _)

/-! ## the head of the loop -/

/-- The first response asks for recovery, and the body can be produced again. -/
structure Recoverable (body : PreparedBody ε β) : Prop where
  replayable : body.isReplayable = true
  challenged : ∃ preparation response plan,
    env.prepareAuth 0 = .ok preparation ∧ env.execute 0 = .ok response ∧
      classifyAuthRejection env.bindings env.requirements preparation.applied response.status =
        .ok (some plan) ∧ plan.requestsRecovery = true

/-- What the loop finds at its head: its start, or its one recovery. -/
inductive AtHead (body : PreparedBody ε β) : DriveState ε β T → Prop
  | first (slots : Slots T) : AtHead body (.start body slots)
  | second {s : DriveState ε β T} {intent : AuthResendIntent} (hturn : s.turn = 1)
      (hbudget : s.authRecovery.initiated = true) (hpending : s.pendingAuth = some intent)
      (hintent : intent.rejectionPlan.requestsRecovery = true)
      (hlog : stages s.events = execution) (hrecover : Recoverable env body) : AtHead body s

/-- What is left of the previous turn when credentials are prepared. -/
structure DriveState.Resumed (s s' : DriveState ε β T) : Prop where
  turn : s'.turn = s.turn
  authRecovery : s'.authRecovery = s.authRecovery
  cachedAuthPreparation : s'.cachedAuthPreparation = none
  log : stages s'.events = stages s.events

variable {env} in
/-- A recovery fails, or it leaves no prepared credentials behind. -/
theorem resumed_resumeRecovery {body : PreparedBody ε β} {s : DriveState ε β T}
    (h : AtHead env body s) :
    (∃ s', resumeRecovery env ctx body.isReplayable
        { s with authPlacementPlan := true, authStateSnapshot := true } = .inl s' ∧
      s.Resumed s') ∨
    (∃ error slots events, resumeRecovery env ctx body.isReplayable
        { s with authPlacementPlan := true, authStateSnapshot := true } =
          .inr ⟨.error error, slots, events⟩ ∧
      error.NotChallenged ∧ stages events = stages s.events) := by
  cases h with
  | first slots => exact .inl ⟨_, rfl, rfl, rfl, rfl, rfl⟩
  | @second _ intent hturn hbudget hpending hintent hlog hrecover =>
      simp only [resumeRecovery, hpending, applyAuthRejectionStep, hrecover.replayable, hintent,
        not_true_eq_false, false_and, if_false, if_true, DriveState.apply]
      cases (DriveState.effect env _ intent .providerCapable).result with
      | error source => exact .inr ⟨_, _, _, rfl, notChallenged_raised _, by simp⟩
      | ok _ => exact .inl ⟨_, rfl, rfl, rfl, rfl, by simp⟩

variable {env} in
/-- Credentials are prepared once. -/
theorem prepared_authAttempt {s s' : DriveState ε β T} (h : s.Resumed s') :
    (∃ s'' preparation, authAttempt env s' = (s'', .ok preparation) ∧
      s.Prepared env s'' preparation) ∨
    (∃ s'' error, authAttempt env s' = (s'', .error error) ∧
      stages s''.events = stages s.events ++ [.prepareAuth]) := by
  have hlog : stages (s'.events ++ [.prepareAuth]) = stages s.events ++ [.prepareAuth] := by
    rw [stages_append, h.log]
    rfl
  simp only [authAttempt, h.cachedAuthPreparation, h.turn]
  cases hp : env.prepareAuth s.turn with
  | error error => exact .inr ⟨_, error, rfl, hlog⟩
  | ok preparation =>
      by_cases hcache : preparation.cachePolicy.allowsRequestLocalReuse = true
      · simp only [hcache, if_true]
        exact .inl ⟨_, preparation, rfl, hp, rfl, h.authRecovery, hlog⟩
      · simp only [hcache]
        exact .inl ⟨_, preparation, rfl, hp, rfl, h.authRecovery, hlog⟩

/-- A request that is refused before it is sent is no challenge. -/
theorem notChallenged_preflight {s : DriveState ε β T} {error : ExecuteError ε}
    (h : preflight env ctx s = .error error) : error.NotChallenged := by
  unfold preflight at h
  split at h
  · exact Except.error.inj h ▸ notChallenged_passed _
  · split at h
    · exact Except.error.inj h ▸ notChallenged_raised _
    · split at h
      · exact Except.error.inj h ▸ notChallenged_passed _
      · split at h
        · exact Except.error.inj h ▸ notChallenged_passed _
        · split at h
          · exact Except.error.inj h ▸ notChallenged_raised _
          · contradiction

variable {env} in
/-- A turn taken at the head of the loop. -/
theorem turned_driveTurn (family : ExecutionFamily) {body : PreparedBody ε β}
    {s : DriveState ε β T} (h : AtHead env body s) :
    Turned env ctx body.isReplayable s (driveTurn env ctx body.isReplayable family s) := by
  unfold driveTurn
  cases hpre : preflight env ctx s with
  | error error =>
      exact .stopped [] (notChallenged_preflight env ctx hpre) (List.append_nil _).symm
        List.nil_prefix
  | ok _ =>
      simp only
      cases resumed_resumeRecovery ctx h with
      | inr hfailed =>
          obtain ⟨error, slots, events, hr, herror, hlog⟩ := hfailed
          rw [hr]
          exact .stopped [] herror (by rw [hlog, List.append_nil]) List.nil_prefix
      | inl hresumed =>
          obtain ⟨s', hr, hs'⟩ := hresumed
          rw [hr]
          simp only
          cases prepared_authAttempt hs' with
          | inr hfailed =>
              obtain ⟨s'', error, ha, hlog⟩ := hfailed
              rw [ha]
              exact .stopped [.prepareAuth] (notChallenged_passed _) hlog (by simp)
          | inl hprepared =>
              obtain ⟨s'', preparation, ha, hs''⟩ := hprepared
              rw [ha]
              exact turned_visibleExecution env ctx _ family hs''

variable {env} in
/-- Going round the loop takes the recovery budget, and leads to the recovery
of a first response that asked for it. -/
theorem atHead_driveTurn (family : ExecutionFamily) {body : PreparedBody ε β}
    {s s' : DriveState ε β T} (h : AtHead env body s)
    (ht : driveTurn env ctx body.isReplayable family s = .inl s') :
    s.authRecovery.initiated = false ∧ s.turn = 0 ∧ s'.turn = 1 ∧ AtHead env body s' := by
  have hturned := turned_driveTurn ctx family h
  rw [ht] at hturned
  cases hturned with
  | handled ha hh =>
      cases hh with
      | recover hc hplan hbuild hbudget =>
          rw [ha.authRecovery] at hbudget
          cases h with
          | second _ hspent _ _ _ _ =>
              rw [hspent] at hbudget
              contradiction
          | first slots =>
              obtain ⟨before, hlog, hstages⟩ := ha.log
              have hrecover : Recoverable env body :=
                ⟨hbuild, _, _, _, ha.prepared, ha.executed, hc, hplan⟩
              refine ⟨rfl, rfl, ?_, .second ?_ rfl rfl hplan ?_ hrecover⟩
              · simp only [ha.turn, DriveState.start]
              · simp only [ha.turn, DriveState.start]
              · simp only [hlog, stages_append, hstages]
                rfl

/-! ## leaving the loop -/

variable {env} in
/-- An answered execution has gone through all its stages. -/
theorem DriveState.Answered.stages_events {s s' : DriveState ε β T}
    {preparation : AuthPreparation} {response : Response}
    (h : s.Answered env s' preparation response) :
    stages s'.events = stages s.events ++ execution := by
  obtain ⟨before, hlog, hstages⟩ := h.log
  rw [hlog, stages_append, hstages]
  exact List.append_nil _

variable {env} in
/-- Closing the turn adds no stage. -/
theorem DriveState.Answered.stages_close {s s' : DriveState ε β T}
    {preparation : AuthPreparation} {response : Response}
    (h : s.Answered env s' preparation response) (result : Except (ExecuteError ε) Response)
    (effect : Effect T) : stages (s'.close result effect).events = stages s.events ++ execution := by
  rw [DriveState.close, stages_append, stages_slots, List.append_nil, h.stages_events]

/-- Closing a turn puts the slot events after its response. -/
theorem DriveState.close_events {s : DriveState ε β T} {before : List ExecutionEvent}
    {status : StatusCode} (h : s.events = before ++ [.respond status])
    (result : Except (ExecuteError ε) Response) (effect : Effect T) :
    (s.close result effect).events = before ++ .respond status :: effect.events.map .slot := by
  rw [DriveState.close, h, List.append_assoc]
  rfl

variable {env} in
/-- A rejection only invalidates if the budget is used up or no recovery is asked for. -/
theorem onlyInvalidates_effect (s : DriveState ε β T) (intent : AuthResendIntent)
    {application : AuthRejectionApplication}
    (h : application = .invalidationOnly ∨ intent.rejectionPlan.requestsRecovery = false) :
    (s.effect env intent application).OnlyInvalidates :=
  onlyInvalidates_applyAuthRejectionPlan _ _ _ _ _ _ h

variable {env ctx authRebuildable} in
/-- A turn takes the stages of one execution in order, each once, and all of
them if it returns a response. -/
theorem stages_of_turned {s : DriveState ε β T} {driven : Driven ε T}
    (h : Turned env ctx authRebuildable s (.inr driven)) :
    stages driven.events <+: stages s.events ++ execution ∧
      (∀ response, driven.result = .ok response →
        stages driven.events = stages s.events ++ execution) := by
  have hwithin : [ExecutionEvent.prepareAuth, .produceBody, .acquireRateLimit] <+: execution :=
    ⟨[.send], rfl⟩
  have hfull : ∀ {d : Driven ε T}, stages d.events = stages s.events ++ execution →
      stages d.events <+: stages s.events ++ execution ∧ (∀ response, d.result = .ok response →
        stages d.events = stages s.events ++ execution) :=
    fun h => ⟨h ▸ List.prefix_refl _, fun _ _ => h⟩
  cases h with
  | stopped taken herror hevents htaken =>
      rw [hevents]
      exact ⟨(List.prefix_append_right_inj _).mpr (htaken.trans hwithin), fun _ h => by
        contradiction⟩
  | unanswered herror hevents hexecute => exact hfull hevents
  | unobserved herror ha => exact hfull ha.stages_events
  | handled ha hh =>
      cases hh with
      | rejected hc hlocal herror hok => exact hfull (ha.stages_close _ _)
      | failed hc hlocal => exact hfull (ha.stages_close _ _)
      | ended hc hresult => exact hfull ha.stages_events

variable {env ctx authRebuildable} in
/-- A turn that leaves the loop after a rejected response returns an error and
has only invalidated credentials. -/
theorem rejected_of_turned {s : DriveState ε β T} {driven : Driven ε T}
    (h : Turned env ctx authRebuildable s (.inr driven))
    (hstages : stages driven.events = stages s.events ++ execution)
    {preparation : AuthPreparation} {response : Response} {plan : AuthRejectionPlan}
    (hprepare : env.prepareAuth s.turn = .ok preparation)
    (hexecute : env.execute s.turn = .ok response)
    (hclassify : classifyAuthRejection env.bindings env.requirements preparation.applied
      response.status = .ok (some plan)) :
    ∃ error before, ∃ events : List SlotEvent, driven.result = .error error ∧
      driven.events = before ++ .respond response.status :: events.map .slot ∧
      stages before = stages s.events ++ execution ∧
      ∀ event ∈ events, ∃ op, event = SlotEvent.invalidated op := by
  have hsame : ∀ {s' : DriveState ε β T} {preparation' response'},
      s.Answered env s' preparation' response' →
      preparation' = preparation ∧ response' = response := by
    intro s' preparation' response' ha
    exact ⟨Except.ok.inj (ha.prepared.symm.trans hprepare),
      Except.ok.inj (ha.executed.symm.trans hexecute)⟩
  cases h with
  | stopped taken herror hevents htaken =>
      rw [hevents] at hstages
      have hlength := congrArg List.length (List.append_cancel_left hstages)
      have hle := htaken.length_le
      simp only [execution, List.length_cons, List.length_nil] at hlength hle
      omega
  | unanswered herror hevents hfailed =>
      rw [hfailed] at hexecute
      contradiction
  | unobserved herror ha =>
      obtain ⟨rfl, rfl⟩ := hsame ha
      obtain ⟨before, hlog, hbefore⟩ := ha.log
      exact ⟨_, before, [], rfl, hlog, hbefore, by simp⟩
  | handled ha hh =>
      obtain ⟨rfl, rfl⟩ := hsame ha
      obtain ⟨before, hlog, hbefore⟩ := ha.log
      cases hh with
      | rejected hc hlocal herror hok =>
          exact ⟨_, before, _, rfl, DriveState.close_events hlog _ _, hbefore,
            onlyInvalidates_effect _ _ hlocal⟩
      | failed hc hlocal =>
          exact ⟨_, before, _, rfl, DriveState.close_events hlog _ _, hbefore,
            onlyInvalidates_effect _ _ hlocal⟩
      | ended hc hresult => exact absurd hclassify (hc plan)

/-- Two turns are enough. -/
theorem driveExecutions_isSome (env : ExecutionEnv ε T) (ctx : ErrorContext)
    (family : ExecutionFamily) (body : PreparedBody ε β) (slots : Slots T) :
    ∃ driven, driveExecutions env ctx family 2 body slots = some driven :=
  run_isSome (I := AtHead env body) (m := fun s => 1 - s.turn)
    (fun hhead hturn => ⟨(atHead_driveTurn ctx family hhead hturn).2.2.2, by
      have hnext := atHead_driveTurn ctx family hhead hturn
      omega⟩) (.first slots) (by simp [DriveState.start])

end turn

/-- **Authentication recovery is bounded**: whatever the surroundings answer,
two turns are enough.  The log shows at most two executions, each of which
prepares credentials, produces the body, acquires the rate limit and sends,
once each and in this order, and a response is returned only after all of
them.  The second execution needs a first response that asks for recovery, a
body that can be produced again, and the unspent budget.  A rejection of the
second execution only invalidates credentials and ends in an error. -/
theorem auth_recovery_is_bounded (env : ExecutionEnv ε T) (ctx : ErrorContext)
    (family : ExecutionFamily) (body : PreparedBody ε β) (slots : Slots T) :
    ∃ driven, driveExecutions env ctx family 2 body slots = some driven ∧
      stages driven.events <+: execution ++ execution ∧
      (∀ response, driven.result = .ok response →
        stages driven.events = execution ∨ stages driven.events = execution ++ execution) ∧
      (¬ stages driven.events <+: execution → Recoverable env body) ∧
      (∀ s s', Reaches (driveTurn env ctx body.isReplayable family) (.start body slots) s →
        driveTurn env ctx body.isReplayable family s = .inl s' →
        s.authRecovery.initiated = false ∧ s'.authRecovery.initiated = true ∧
          Recoverable env body) ∧
      (stages driven.events = execution ++ execution → ∀ preparation response plan,
        env.prepareAuth 1 = .ok preparation → env.execute 1 = .ok response →
        classifyAuthRejection env.bindings env.requirements preparation.applied
          response.status = .ok (some plan) →
        ∃ error before, ∃ events : List SlotEvent, driven.result = .error error ∧
          driven.events = before ++ .respond response.status :: events.map .slot ∧
          stages before = execution ++ execution ∧
          ∀ event ∈ events, ∃ op, event = SlotEvent.invalidated op) := by
  have hkeep : ∀ {s s' : DriveState ε β T}, AtHead env body s →
      driveTurn env ctx body.isReplayable family s = .inl s' → AtHead env body s' :=
    fun h ht => (atHead_driveTurn ctx family h ht).2.2.2
  obtain ⟨driven, hrun⟩ : ∃ driven, driveExecutions env ctx family 2 body slots = some driven :=
    run_isSome (I := AtHead env body) (m := fun s => 1 - s.turn)
      (fun h ht => ⟨hkeep h ht, by
        have hturn := atHead_driveTurn ctx family h ht
        omega⟩) (.first slots) (by simp [DriveState.start])
  obtain ⟨s, hreach, hleave⟩ := reaches_of_run hrun
  have hhead := hreach.invariant hkeep (.first slots)
  have hturned := turned_driveTurn ctx family hhead
  rw [hleave] at hturned
  obtain ⟨hwithin, hok⟩ := stages_of_turned hturned
  have hrounds : ∀ s s', Reaches (driveTurn env ctx body.isReplayable family)
      (.start body slots) s → driveTurn env ctx body.isReplayable family s = .inl s' →
      s.authRecovery.initiated = false ∧ s'.authRecovery.initiated = true ∧
        Recoverable env body := by
    intro s s' hr ht
    obtain ⟨hunspent, _, hturn, hhead'⟩ :=
      atHead_driveTurn ctx family (hr.invariant hkeep (.first slots)) ht
    cases hhead' with
    | first slots' => simp [DriveState.start] at hturn
    | second _ hspent _ _ _ hrecover => exact ⟨hunspent, hspent, hrecover⟩
  cases hhead with
  | first slots' =>
      refine ⟨driven, hrun, hwithin.trans (List.prefix_append _ _), fun r hr => .inl (hok r hr),
        fun hmore => absurd hwithin hmore, hrounds, fun hstages => ?_⟩
      have hlength := hwithin.length_le
      rw [hstages] at hlength
      simp [execution, DriveState.start, stages] at hlength
  | second hturn hbudget hpending hintent hlog hrecover =>
      rw [hlog] at hwithin hok
      refine ⟨driven, hrun, hwithin, fun r hr => .inr (hok r hr), fun _ => hrecover, hrounds,
        fun hstages preparation response plan hprepare hexecute hclassify => ?_⟩
      rw [← hturn] at hprepare hexecute
      have hrejected := rejected_of_turned hturned (by rw [hlog]; exact hstages) hprepare
        hexecute hclassify
      rwa [hlog] at hrejected

end Concord
