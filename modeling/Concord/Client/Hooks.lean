import Concord.Client.Recovery
import Concord.Client.SendFlow

/-!
# Concord.Client.Hooks

The hooks and the rate limiter over a whole request: the executions of
`Concord.Client.SendFlow`, put in the loop of `drive_executions`.

`ExecutionEnv.sending` makes the surroundings of the loop out of executions,
`sendAndObserveOnce_sending` says that the loop sees what they do, and
`HookState.next` is the order in which hooks may be called.
-/

namespace Concord

open Loop

variable {ε β T : Type*}

/-! ## executions in the loop -/

/-- What the loop logs for an event of an execution. -/
def HookEvent.logged : HookEvent → List ExecutionEvent
  | .acquire => [.acquireRateLimit]
  | .execute => [.send]
  | .postResponse status => [.respond status]
  | .preSend | .requestError _ | .onResponse _ => []

/-- The surroundings of a loop whose k-th execution is made with `sends k` and
the body `bodies k`. -/
def ExecutionEnv.sending (env : ExecutionEnv SendError T) (sends : Nat → SendEnv)
    (bodies : Nat → ReqwestBody) : ExecutionEnv SendError T :=
  { env with
    acquire := fun k => (sends k).acquire.mapError (SendError.wrapRateLimit (sends k).ctx
      .acquireFailed "rate-limit acquire failed")
    preSend := fun k =>
      match limitRequestBody (sends k).maxRequestBodyBytes (bodies k) with
      | .error refused => .error (.requestBodyLimitExceeded (sends k).ctx refused)
      | .ok _ =>
        match (sends k).preSend with
        | .error error => .error error
        | .ok _ => (sends k).materializeAuthentication.mapError (.auth (sends k).ctx)
    execute := fun k =>
      match limitRequestBody (sends k).maxRequestBodyBytes (bodies k) with
      | .error refused => .error (.requestBodyLimitExceeded (sends k).ctx refused)
      | .ok body =>
        let transported := (sends k).transport body
        match transported.result with
        | .ok response => .ok response
        | .error failure =>
          .error (terminalError (sends k).ctx (sends k).proxies
            (body.errorsAfter transported.polls) failure)
    observe := fun k =>
      match limitRequestBody (sends k).maxRequestBodyBytes (bodies k) with
      | .error refused => .error (.requestBodyLimitExceeded (sends k).ctx refused)
      | .ok body =>
        match ((sends k).transport body).result with
        | .error _ => .ok ()
        | .ok response =>
          match (sends k).onResponse response.status with
          | .error error => .error (error.wrapRateLimit (sends k).ctx .responseActionFailed
              "rate-limit response action failed")
          | .ok _ => .ok () }

/-- The loop sees the events and the result of an execution. -/
theorem sendAndObserveOnce_sending (env : ExecutionEnv SendError T) (sends : Nat → SendEnv)
    (bodies : Nat → ReqwestBody) (k : Nat) :
    Concord.sendAndObserveOnce (env.sending sends bodies) k =
      (((sends k).sendAndObserveOnce (bodies k)).events.flatMap HookEvent.logged,
        ((sends k).sendAndObserveOnce (bodies k)).result.map Prod.fst) := by
  simp only [Concord.sendAndObserveOnce, ExecutionEnv.sending, SendEnv.sendAndObserveOnce,
    sendLimited, sendBuiltRequest, observeTransportResponse]
  cases (sends k).acquire with
  | error error => rfl
  | ok _ =>
      cases limitRequestBody (sends k).maxRequestBodyBytes (bodies k) with
      | error refused => rfl
      | ok body =>
          cases (sends k).preSend with
          | error error => rfl
          | ok _ =>
              cases (sends k).materializeAuthentication with
              | error source => rfl
              | ok _ =>
                  obtain ⟨transported, htransported⟩ : ∃ transported, (sends k).transport body =
                      transported := ⟨_, rfl⟩
                  obtain ⟨polls, result⟩ := transported
                  simp only [htransported, Except.mapError]
                  cases result with
                  | error failure => rfl
                  | ok response =>
                      simp only
                      cases (sends k).onResponse response.status with
                      | error error => rfl
                      | ok action => rfl

/-! ## one turn -/

/-- The events of sending a request. -/
def ExecutionEvent.isSend : ExecutionEvent → Bool
  | .acquireRateLimit | .send | .respond _ => true
  | .prepareAuth | .produceBody | .slot _ => false

/-- The events of executions in a log. -/
def sendEvents (events : List ExecutionEvent) : List ExecutionEvent := events.filter (·.isSend)

/-- The events of sending are those of one part after the other. -/
@[simp] theorem sendEvents_append (events events' : List ExecutionEvent) :
    sendEvents (events ++ events') = sendEvents events ++ sendEvents events' :=
  List.filter_append ..

/-- Slot events are none of them. -/
@[simp] theorem sendEvents_slots (events : List SlotEvent) :
    sendEvents (events.map .slot) = [] := by
  induction events with
  | nil => rfl
  | cons event rest ih => exact ih

/-- All events of one send are. -/
theorem sendEvents_sendAndObserveOnce (env : ExecutionEnv ε T) (k : Nat) :
    sendEvents (sendAndObserveOnce env k).1 = (sendAndObserveOnce env k).1 := by
  unfold sendAndObserveOnce
  split
  · rfl
  · split
    · rfl
    · split
      · rfl
      · split
        · rfl
        · rfl

section turn

variable (env : ExecutionEnv ε T) (ctx : ErrorContext) (authRebuildable : Bool)

/-- Nothing was sent; a loop that goes on is in this turn. -/
def Unsent (s : DriveState ε β T) (turn : Nat) : DriveState ε β T ⊕ Driven ε T → Prop
  | .inl s' => s'.turn = turn ∧ sendEvents s'.events = sendEvents s.events
  | .inr driven => sendEvents driven.events = sendEvents s.events

/-- Applying a rejection sends nothing. -/
theorem sendEvents_apply (s : DriveState ε β T) (intent : AuthResendIntent)
    (application : AuthRejectionApplication) :
    (s.apply env intent application).1.turn = s.turn ∧
      sendEvents (s.apply env intent application).1.events = sendEvents s.events := by
  simp [DriveState.apply]

/-- Nor does the whole step after a rejection. -/
theorem sendEvents_applyAuthRejectionStep (s : DriveState ε β T) (intent : AuthResendIntent) :
    (applyAuthRejectionStep env ctx authRebuildable s intent).1.turn = s.turn ∧
      sendEvents (applyAuthRejectionStep env ctx authRebuildable s intent).1.events =
        sendEvents s.events := by
  have happly := sendEvents_apply env s intent .providerCapable
  unfold applyAuthRejectionStep
  split
  · exact ⟨rfl, rfl⟩
  · split
    · next heq => rwa [heq] at happly
    · next heq =>
        rw [heq] at happly
        split
        · exact happly
        · exact happly

/-- Nor does a resumed recovery. -/
theorem unsent_resumeRecovery (s : DriveState ε β T) :
    Unsent s s.turn (resumeRecovery env ctx authRebuildable s) := by
  unfold resumeRecovery
  split
  · exact ⟨rfl, rfl⟩
  · next intent _ =>
      have hstep := sendEvents_applyAuthRejectionStep env ctx authRebuildable
        { s with pendingAuth := none } intent
      split
      · next heq =>
          rw [heq] at hstep
          exact hstep.2
      · next heq =>
          rw [heq] at hstep
          exact hstep
      · next heq =>
          rw [heq] at hstep
          exact hstep.2

/-- Nor does the preparation of auth. -/
theorem sendEvents_authAttempt (s : DriveState ε β T) :
    (authAttempt env s).1.turn = s.turn ∧
      sendEvents (authAttempt env s).1.events = sendEvents s.events := by
  unfold authAttempt
  split
  · exact ⟨rfl, rfl⟩
  · simp only
    split
    · simp [sendEvents, ExecutionEvent.isSend]
    · split
      · simp [sendEvents, ExecutionEvent.isSend]
      · simp [sendEvents, ExecutionEvent.isSend]

/-- Nor does the handling of a response. -/
theorem unsent_handleResponse (family : ExecutionFamily) (s : DriveState ε β T)
    (applied : List AuthAppliedCredential) (response : Response) :
    Unsent s (s.turn + 1) (handleResponse env ctx authRebuildable family s applied response) := by
  unfold handleResponse
  split
  · rfl
  · next plan _ =>
      simp only
      have hstep := sendEvents_applyAuthRejectionStep env ctx authRebuildable s
        ⟨plan, response.status, applied⟩
      split
      · split
        · have happly := sendEvents_apply env s ⟨plan, response.status, applied⟩ .invalidationOnly
          split
          · next heq =>
              rw [heq] at happly
              exact happly.2
          · next heq =>
              rw [heq] at happly
              exact happly.2
        · split
          · exact ⟨rfl, rfl⟩
          · next budget _ =>
              have happly := sendEvents_apply env { s with authRecovery := budget }
                ⟨plan, response.status, applied⟩ .invalidationOnly
              split
              · next heq =>
                  rw [heq] at happly
                  exact happly.2
              · next heq =>
                  rw [heq] at happly
                  exact happly.2
      · split
        · next heq =>
            rw [heq] at hstep
            exact hstep.2
        · next heq =>
            rw [heq] at hstep
            exact hstep.2
        · next heq =>
            rw [heq] at hstep
            exact hstep.2
  · split
    · rfl
    · rfl

/-- What a turn does to the log of executions: nothing, one execution that
fails, one whose response is handled, or one that is followed by another
turn. -/
inductive TurnSends (s : DriveState ε β T) : DriveState ε β T ⊕ Driven ε T → Prop
  | stopped {driven : Driven ε T} (hevents : sendEvents driven.events = sendEvents s.events) :
      TurnSends s (.inr driven)
  | failed {driven : Driven ε T} {error : ε}
      (hevents : sendEvents driven.events =
        sendEvents s.events ++ (sendAndObserveOnce env s.turn).1)
      (herror : (sendAndObserveOnce env s.turn).2 = .error error)
      (hresult : driven.result = .error (.passed error)) : TurnSends s (.inr driven)
  | answered {driven : Driven ε T} {response : Response}
      (hevents : sendEvents driven.events =
        sendEvents s.events ++ (sendAndObserveOnce env s.turn).1)
      (hok : (sendAndObserveOnce env s.turn).2 = .ok response) : TurnSends s (.inr driven)
  | next {s' : DriveState ε β T} {response : Response} (hturn : s'.turn = s.turn + 1)
      (hevents : sendEvents s'.events = sendEvents s.events ++ (sendAndObserveOnce env s.turn).1)
      (hok : (sendAndObserveOnce env s.turn).2 = .ok response) : TurnSends s (.inl s')

/-- One execution sends once, or ends before it. -/
theorem turnSends_visibleExecution (family : ExecutionFamily) (s : DriveState ε β T)
    (preparation : AuthPreparation) :
    TurnSends env s (visibleExecution env ctx authRebuildable family s preparation) := by
  have hproduced : sendEvents (s.events ++ [.produceBody]) = sendEvents s.events := by
    simp [sendEvents, ExecutionEvent.isSend]
  simp only [visibleExecution]
  cases s.body.produceForExecution.2 with
  | error error => exact .stopped hproduced
  | ok produced =>
      cases env.finish s.turn with
      | error error => exact .stopped hproduced
      | ok _ =>
          have hsent : sendEvents (s.events ++ [.produceBody] ++ (sendAndObserveOnce env s.turn).1) =
              sendEvents s.events ++ (sendAndObserveOnce env s.turn).1 := by
            rw [sendEvents_append, hproduced, sendEvents_sendAndObserveOnce]
          simp only
          cases hresult : (sendAndObserveOnce env s.turn).2 with
          | error error => exact .failed hsent hresult rfl
          | ok response =>
              simp only
              obtain ⟨sent, hs⟩ : ∃ sent : DriveState ε β T, sent = { s with
                  body := s.body.produceForExecution.1
                  events := s.events ++ [.produceBody] ++ (sendAndObserveOnce env s.turn).1 } :=
                ⟨_, rfl⟩
              have hhandled := unsent_handleResponse env ctx authRebuildable family sent
                preparation.applied response
              have hlog : sendEvents sent.events =
                  sendEvents s.events ++ (sendAndObserveOnce env s.turn).1 := by
                rw [hs]
                exact hsent
              have hturn : sent.turn = s.turn := by rw [hs]
              rw [← hs]
              cases houtcome : handleResponse env ctx authRebuildable family sent
                  preparation.applied response with
              | inl s' =>
                  rw [houtcome] at hhandled
                  exact .next (hturn ▸ hhandled.1) (hhandled.2.trans hlog) hresult
              | inr driven =>
                  rw [houtcome] at hhandled
                  exact .answered (Eq.trans hhandled hlog) hresult

/-- So does one turn of the loop. -/
theorem turnSends_driveTurn (family : ExecutionFamily) (s : DriveState ε β T) :
    TurnSends env s (driveTurn env ctx authRebuildable family s) := by
  unfold driveTurn
  cases preflight env ctx s with
  | error error => exact .stopped rfl
  | ok _ =>
      simp only
      have hresumed := unsent_resumeRecovery env ctx authRebuildable
        { s with authPlacementPlan := true, authStateSnapshot := true }
      cases hresume : resumeRecovery env ctx authRebuildable
          { s with authPlacementPlan := true, authStateSnapshot := true } with
      | inr driven =>
          rw [hresume] at hresumed
          exact .stopped hresumed
      | inl s' =>
          rw [hresume] at hresumed
          obtain ⟨hturn, hevents⟩ := hresumed
          have hprepared := sendEvents_authAttempt env s'
          simp only
          obtain ⟨s'', attempt, hattempt⟩ : ∃ s'' attempt, authAttempt env s' = (s'', attempt) :=
            ⟨_, _, rfl⟩
          rw [hattempt] at hprepared
          simp only at hturn hevents hprepared
          rw [hattempt]
          have hlog : sendEvents s''.events = sendEvents s.events := hprepared.2.trans hevents
          have hturn' : s''.turn = s.turn := hprepared.1.trans hturn
          cases attempt with
          | error error => exact .stopped hlog
          | ok preparation =>
              have hsends := turnSends_visibleExecution env ctx authRebuildable family s'' preparation
              simp only
              revert hsends
              generalize visibleExecution env ctx authRebuildable family s'' preparation = outcome
              intro hsends
              cases hsends with
              | stopped hevents => exact .stopped (hevents.trans hlog)
              | failed hevents herror hresult =>
                  rw [hturn', hlog] at hevents
                  rw [hturn'] at herror
                  exact .failed hevents herror hresult
              | answered hevents hok =>
                  rw [hturn', hlog] at hevents
                  rw [hturn'] at hok
                  exact .answered hevents hok
              | next hnext hevents hok =>
                  rw [hturn', hlog] at hevents
                  rw [hturn'] at hok hnext
                  exact .next hnext hevents hok

end turn

/-! ## the order of hooks -/

/-- Where an execution is in its hooks. -/
inductive HookState where
  | idle
  | acquired
  | ready
  | sending
  | responded (status : StatusCode)
  | failed
  deriving DecidableEq, Repr

/-- The hooks that may come next. -/
def HookState.next : HookState → HookEvent → Option HookState
  | .idle, .acquire => some .acquired
  | .acquired, .preSend => some .ready
  | .acquired, .requestError category => if category = .requestBody then some .failed else none
  | .ready, .execute => some .sending
  | .sending, .postResponse status => some (.responded status)
  | .sending, .requestError _ => some .failed
  | .responded status, .onResponse status' => if status' = status then some .idle else none
  | _, _ => none

/-- The hooks of a log, in order; `none` if one comes out of turn. -/
def HookState.after (state : HookState) : List HookEvent → Option HookState
  | [] => some state
  | event :: events =>
    match state.next event with
    | none => none
    | some state => state.after events

/-- The automaton takes one part of the events after the other. -/
theorem HookState.after_append (state : HookState) (events events' : List HookEvent) :
    state.after (events ++ events') = (state.after events).bind (·.after events') := by
  induction events generalizing state with
  | nil => rfl
  | cons event events ih =>
      simp only [List.cons_append, HookState.after]
      cases state.next event with
      | none => rfl
      | some state => exact ih state

/-- The hooks of one execution: all of them if a response comes to its end, a
last `request_error` with the category of the error if the request fails, and
none after an error of the rate limiter or of a hook. -/
inductive HooksOf : List HookEvent → Except SendError (Response × RateLimitResponseAction) → Prop
  | unacquired (error : SendError) : HooksOf [.acquire] (.error error)
  | refused (error : SendError) (h : error.category = .requestBody) :
      HooksOf [.acquire, .requestError error.category] (.error error)
  | unsent (error : SendError) : HooksOf [.acquire, .preSend] (.error error)
  | failed (error : SendError) :
      HooksOf [.acquire, .preSend, .execute, .requestError error.category] (.error error)
  | unobserved (status : StatusCode) (error : SendError) :
      HooksOf [.acquire, .preSend, .execute, .postResponse status, .onResponse status]
        (.error error)
  | observed (response : Response) (action : RateLimitResponseAction) :
      HooksOf [.acquire, .preSend, .execute, .postResponse response.status,
        .onResponse response.status] (.ok (response, action))

/-- The hook events of one send, by its result. -/
theorem hooksOf_sendAndObserveOnce (send : SendEnv) (body : ReqwestBody) :
    HooksOf (send.sendAndObserveOnce body).events (send.sendAndObserveOnce body).result := by
  simp only [SendEnv.sendAndObserveOnce, sendLimited, sendBuiltRequest, observeTransportResponse]
  cases send.acquire with
  | error error => exact .unacquired _
  | ok _ =>
      cases limitRequestBody send.maxRequestBodyBytes body with
      | error refused => exact .refused _ rfl
      | ok limited =>
          cases send.preSend with
          | error error => exact .unsent _
          | ok _ =>
              cases send.materializeAuthentication with
              | error source => exact .unsent _
              | ok _ =>
                  simp only
                  cases (send.transport limited).result with
                  | error failure => exact .failed _
                  | ok response =>
                      simp only
                      cases send.onResponse response.status with
                      | error error => exact .unobserved _ _
                      | ok action => exact .observed _ _

/-- The hooks of an execution are in order; after a response and its
observation another execution may follow. -/
theorem HooksOf.after {events : List HookEvent}
    {result : Except SendError (Response × RateLimitResponseAction)} (h : HooksOf events result) :
    ∃ state, HookState.idle.after events = some state ∧
      ∀ observed, result = .ok observed → state = .idle := by
  cases h with
  | unacquired _ | unsent _ | failed _ => exact ⟨_, rfl, by simp⟩
  | refused error h => exact ⟨.failed, by simp [HookState.after, HookState.next, h], by simp⟩
  | unobserved status _ | observed response _ =>
      exact ⟨.idle, by simp [HookState.after, HookState.next], by simp⟩

/-- `request_error` was not called. -/
def Quiet (events : List HookEvent) : Prop := ∀ category, .requestError category ∉ events

/-- After a quiet run only the last event is an error. -/
theorem last_requestError {hooks before rest : List HookEvent} {category category' : ErrorCategory}
    (hquiet : Quiet hooks)
    (h : hooks ++ [.requestError category] = before ++ .requestError category' :: rest) :
    hooks = before ∧ category = category' ∧ rest = [] := by
  induction hooks generalizing before with
  | nil =>
      cases before with
      | nil =>
          cases h
          exact ⟨rfl, rfl, rfl⟩
      | cons event before => simp at h
  | cons hook hooks ih =>
      have hrest : Quiet hooks := fun c hmem => hquiet c (List.mem_cons_of_mem _ hmem)
      cases before with
      | nil =>
          have hfirst := (List.cons.inj h).1
          exact absurd (hfirst ▸ List.mem_cons_self) (hquiet category')
      | cons event before =>
          obtain ⟨hevent, htail⟩ := List.cons.inj h
          obtain ⟨hsame, hcategory, hnil⟩ := ih hrest htail
          exact ⟨by rw [hevent, hsame], hcategory, hnil⟩

/-- The hooks of an execution call `request_error` last, with the category of
the error it ends with, or not at all. -/
theorem HooksOf.quiet_or_last {events : List HookEvent}
    {result : Except SendError (Response × RateLimitResponseAction)} (h : HooksOf events result) :
    Quiet events ∨ ∃ hooks error, events = hooks ++ [.requestError error.category] ∧ Quiet hooks ∧
      result = .error error := by
  cases h with
  | unacquired _ | unsent _ | unobserved _ _ | observed _ _ => exact .inl (by simp [Quiet])
  | refused error _ => exact .inr ⟨[.acquire], error, rfl, by simp [Quiet], rfl⟩
  | failed error => exact .inr ⟨[.acquire, .preSend, .execute], error, rfl, by simp [Quiet], rfl⟩

/-! ## whole requests -/

section run

variable (sends : Nat → SendEnv) (bodies : Nat → ReqwestBody)

/-- The hooks of the first `n` executions. -/
def hookLog (n : Nat) : List HookEvent :=
  (List.range n).flatMap fun k => ((sends k).sendAndObserveOnce (bodies k)).events

/-- The hook events of one more send. -/
theorem hookLog_succ (n : Nat) :
    hookLog sends bodies (n + 1) =
      hookLog sends bodies n ++ ((sends n).sendAndObserveOnce (bodies n)).events := by
  simp [hookLog, List.range_succ]

/-- What holds at the head of the loop. -/
structure Sending (s : DriveState SendError β T) : Prop where
  log : sendEvents s.events = (hookLog sends bodies s.turn).flatMap HookEvent.logged
  order : HookState.idle.after (hookLog sends bodies s.turn) = some .idle
  quiet : Quiet (hookLog sends bodies s.turn)

variable {sends bodies}

/-- One more send. -/
theorem Sending.next {env : ExecutionEnv SendError T} {s s' : DriveState SendError β T}
    {response : Response} (h : Sending sends bodies s) (hturn : s'.turn = s.turn + 1)
    (hevents : sendEvents s'.events = sendEvents s.events ++
      (Concord.sendAndObserveOnce (env.sending sends bodies) s.turn).1)
    (hok : (Concord.sendAndObserveOnce (env.sending sends bodies) s.turn).2 = .ok response) :
    Sending sends bodies s' := by
  have hhooks := hooksOf_sendAndObserveOnce (sends s.turn) (bodies s.turn)
  rw [sendAndObserveOnce_sending] at hevents hok
  obtain ⟨observed, hobserved, _⟩ : ∃ observed,
      ((sends s.turn).sendAndObserveOnce (bodies s.turn)).result = .ok observed ∧
        observed.1 = response := by
    cases hresult : ((sends s.turn).sendAndObserveOnce (bodies s.turn)).result with
    | error error =>
        rw [hresult] at hok
        cases hok
    | ok observed =>
        rw [hresult] at hok
        cases hok
        exact ⟨observed, rfl, rfl⟩
  refine ⟨?_, ?_, ?_⟩
  · rw [hturn, hookLog_succ, List.flatMap_append, hevents, h.log]
  · obtain ⟨state, hafter, hidle⟩ := hhooks.after
    rw [hturn, hookLog_succ, HookState.after_append, h.order]
    rw [hidle observed hobserved] at hafter
    exact hafter
  · intro category hmem
    rw [hturn, hookLog_succ, List.mem_append] at hmem
    cases hmem with
    | inl hbefore => exact h.quiet category hbefore
    | inr hround =>
        obtain hquiet | ⟨_, error, _, _, herror⟩ := hhooks.quiet_or_last
        · exact hquiet category hround
        · rw [hobserved] at herror
          cases herror

/-- The hooks of a whole request that made `n` executions. -/
structure HooksInOrder (sends : Nat → SendEnv) (bodies : Nat → ReqwestBody)
    (driven : Driven SendError T) (n : Nat) : Prop where
  /-- The log of the run is that of the executions. -/
  log : sendEvents driven.events = (hookLog sends bodies n).flatMap HookEvent.logged
  /-- No hook comes out of turn, and a response that is returned is fully observed. -/
  order : ∃ state, HookState.idle.after (hookLog sends bodies n) = some state ∧
    ∀ response, driven.result = .ok response → state = .idle
  /-- `request_error` is called once at most, as the last of all, with the category of the error
  that the request returns. -/
  requestError : ∀ before category rest,
    hookLog sends bodies n = before ++ .requestError category :: rest →
      rest = [] ∧ Quiet before ∧
        ∃ error, driven.result = .error (.passed error) ∧ error.category = category

/-- A quiet run has no error in it. -/
theorem Quiet.not_split {events : List HookEvent} (h : Quiet events) {before rest : List HookEvent}
    {category : ErrorCategory} (hevents : events = before ++ .requestError category :: rest) :
    False :=
  h category (hevents ▸ List.mem_append_right _ List.mem_cons_self)

/-- A request that ends without another execution. -/
theorem Sending.stopped {s : DriveState SendError β T} {driven : Driven SendError T}
    (h : Sending sends bodies s) (hevents : sendEvents driven.events = sendEvents s.events) :
    HooksInOrder sends bodies driven s.turn where
  log := hevents.trans h.log
  order := ⟨.idle, h.order, fun _ _ => rfl⟩
  requestError _ _ _ hsplit := absurd hsplit fun hsplit => h.quiet.not_split hsplit

/-- A request that ends with an execution that failed. -/
theorem Sending.failed {env : ExecutionEnv SendError T} {s : DriveState SendError β T}
    {driven : Driven SendError T} {error : SendError} (h : Sending sends bodies s)
    (hevents : sendEvents driven.events = sendEvents s.events ++
      (Concord.sendAndObserveOnce (env.sending sends bodies) s.turn).1)
    (herror : (Concord.sendAndObserveOnce (env.sending sends bodies) s.turn).2 = .error error)
    (hresult : driven.result = .error (.passed error)) :
    HooksInOrder sends bodies driven (s.turn + 1) := by
  have hhooks := hooksOf_sendAndObserveOnce (sends s.turn) (bodies s.turn)
  rw [sendAndObserveOnce_sending] at hevents herror
  have hsent : ((sends s.turn).sendAndObserveOnce (bodies s.turn)).result = .error error := by
    cases hround : ((sends s.turn).sendAndObserveOnce (bodies s.turn)).result with
    | error error' =>
        rw [hround] at herror
        cases herror
        rfl
    | ok observed =>
        rw [hround] at herror
        cases herror
  refine ⟨?_, ?_, ?_⟩
  · rw [hookLog_succ, List.flatMap_append, hevents, h.log]
  · obtain ⟨state, hafter, _⟩ := hhooks.after
    refine ⟨state, ?_, ?_⟩
    · rw [hookLog_succ, HookState.after_append, h.order]
      exact hafter
    · intro response hok
      rw [hresult] at hok
      cases hok
  · intro before category rest hsplit
    rw [hookLog_succ] at hsplit
    obtain hquiet | ⟨hooks, error', hround, hquiet, herror'⟩ := hhooks.quiet_or_last
    · have hall : Quiet (hookLog sends bodies s.turn ++
          ((sends s.turn).sendAndObserveOnce (bodies s.turn)).events) := by
        intro category hmem
        exact (List.mem_append.mp hmem).elim (h.quiet category) (hquiet category)
      exact absurd hsplit fun hsplit => hall.not_split hsplit
    · have hall : Quiet (hookLog sends bodies s.turn ++ hooks) := by
        intro category hmem
        exact (List.mem_append.mp hmem).elim (h.quiet category) (hquiet category)
      rw [hround, ← List.append_assoc] at hsplit
      obtain ⟨hbefore, hcategory, hrest⟩ := last_requestError hall hsplit
      rw [hsent] at herror'
      cases herror'
      exact ⟨hrest, hbefore ▸ hall, error, hresult, hcategory⟩

/-- A request that ends with a response, whatever becomes of it. -/
theorem Sending.answered {env : ExecutionEnv SendError T} {s : DriveState SendError β T}
    {driven : Driven SendError T} {response : Response} (h : Sending sends bodies s)
    (hevents : sendEvents driven.events = sendEvents s.events ++
      (Concord.sendAndObserveOnce (env.sending sends bodies) s.turn).1)
    (hok : (Concord.sendAndObserveOnce (env.sending sends bodies) s.turn).2 = .ok response) :
    HooksInOrder sends bodies driven (s.turn + 1) := by
  -- the state in which another turn would start
  have hnext : Sending sends bodies { s with turn := s.turn + 1, events := driven.events } :=
    h.next rfl hevents hok
  exact hnext.stopped rfl

/-- **The hooks of a request are called in order**: whatever applications, the
rate limiter and the server answer, there are at most two executions, in each of
them a permit is acquired before the request is shown to `pre_send`, that comes
before the request is sent, and a response is shown to `post_response` and then
to the rate limiter before anything else happens.  `request_error` is called
once at most, after everything else, and tells the category of the error that
the caller gets. -/
theorem hooks_in_order (env : ExecutionEnv SendError T) (sends : Nat → SendEnv)
    (bodies : Nat → ReqwestBody) (ctx : ErrorContext) (family : ExecutionFamily)
    (body : PreparedBody SendError β) (slots : Slots T) :
    ∃ driven n, driveExecutions (env.sending sends bodies) ctx family 2 body slots = some driven ∧
      n ≤ 2 ∧ HooksInOrder sends bodies driven n := by
  have hkeep : ∀ {s s' : DriveState SendError β T},
      AtHead (env.sending sends bodies) body s ∧ Sending sends bodies s →
      driveTurn (env.sending sends bodies) ctx body.isReplayable family s = .inl s' →
      AtHead (env.sending sends bodies) body s' ∧ Sending sends bodies s' := by
    rintro s s' ⟨hhead, hsending⟩ hturn
    have hsends := turnSends_driveTurn (env.sending sends bodies) ctx body.isReplayable family s
    rw [hturn] at hsends
    cases hsends with
    | next hnext hevents hok =>
        exact ⟨(atHead_driveTurn ctx family hhead hturn).2.2.2, hsending.next hnext hevents hok⟩
  have hstart : AtHead (env.sending sends bodies) body (.start body slots) ∧
      Sending sends bodies (DriveState.start body slots) :=
    ⟨.first slots, rfl, rfl, by simp [Quiet, hookLog, DriveState.start]⟩
  obtain ⟨driven, hrun⟩ :=
    driveExecutions_isSome (env.sending sends bodies) ctx family body slots
  obtain ⟨s, hreach, hleave⟩ := reaches_of_run hrun
  obtain ⟨hhead, hsending⟩ := hreach.invariant hkeep hstart
  have hle : s.turn ≤ 1 := by
    cases hhead with
    | first _ => simp [DriveState.start]
    | second hturn _ _ _ _ _ => omega
  have hsends := turnSends_driveTurn (env.sending sends bodies) ctx body.isReplayable family s
  rw [hleave] at hsends
  cases hsends with
  | stopped hevents => exact ⟨driven, s.turn, hrun, by omega, hsending.stopped hevents⟩
  | failed hevents herror hresult =>
      exact ⟨driven, s.turn + 1, hrun, by omega, hsending.failed hevents herror hresult⟩
  | answered hevents hok =>
      exact ⟨driven, s.turn + 1, hrun, by omega, hsending.answered hevents hok⟩

end run

end Concord
