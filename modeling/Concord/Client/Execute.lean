import Concord.Lib.Loop
import Concord.Io
import Concord.Client.Rejection

/-!
# Concord.Client.Execute

The execution loop of a request (`drive_executions` of
`concord_core/src/client/execute.rs`, with the send path of
`concord_core/src/client/send_flow.rs`): prepare authentication, produce the
body, acquire the rate limit, send, and on a recoverable challenge do all of
it once more.

What the client asks others for, from the resolution of the request head to
the response of the server, is answered by an `ExecutionEnv`, indexed by the
turn of the loop.  Other tasks use the same credential slots: `others` is
what they did to them by the time this task has taken so many events.

A run keeps a log of its events, which the code does not keep, and tells
apart the errors it returns for a challenged response from every other one.
-/

namespace Concord

variable {ε β T : Type*}

/-! ## data -/

inductive AuthPreparationCachePolicy where
  | never
  | requestLocalReusable
  deriving DecidableEq, Repr

def AuthPreparationCachePolicy.allowsRequestLocalReuse : AuthPreparationCachePolicy → Bool
  | .requestLocalReusable => true
  | .never => false

structure AuthPreparation where
  applied : List AuthAppliedCredential
  cachePolicy : AuthPreparationCachePolicy
  deriving DecidableEq, Repr

/-- A response head: its status and the announced length of its body. -/
structure Response where
  status : StatusCode
  contentLength : Option Nat
  deriving DecidableEq, Repr

inductive ExecutionFamily where
  | buffered (skipBody : Bool) (responseLimit : Option Nat)
  | stream (responseLimit : Option Nat)
  deriving DecidableEq, Repr

/-- `AuthResendIntent`: the challenge a recovery starts from. -/
structure AuthResendIntent where
  rejectionPlan : AuthRejectionPlan
  status : StatusCode
  applied : List AuthAppliedCredential
  deriving DecidableEq, Repr

structure AuthenticationRecoveryBudget where
  initiated : Bool
  deriving DecidableEq, Repr

/-- `initiate`: true the first time only. -/
def AuthenticationRecoveryBudget.initiate (budget : AuthenticationRecoveryBudget) :
    AuthenticationRecoveryBudget × Bool :=
  if budget.initiated then (budget, false) else (⟨true⟩, true)

inductive ExecutionEvent where
  | prepareAuth
  | produceBody
  | acquireRateLimit
  | send
  | respond (status : StatusCode)
  | slot (event : SlotEvent)
  deriving DecidableEq, Repr

/-- An error of `drive_executions`: returned for a response that was
classified as a rejection, raised otherwise, or passed on. -/
inductive ExecuteError (ε : Type*) where
  | challenged (error : ApiClientError)
  | raised (error : ApiClientError)
  | passed (error : ε)
  deriving DecidableEq, Repr

/-- What the loop asks of its surroundings, by turn. -/
structure ExecutionEnv (ε T : Type*) where
  requirements : List AuthRequirement
  bindings : AuthBindings
  resolvePublicRequestHead : Nat → Except ε Unit
  fromAuthPlan : Except AuthError Unit
  applyAuthPreflight : Nat → Except ε Unit
  preflightUrl : Nat → Except ε Unit
  tryAuthState : Except AuthError Unit
  prepareAuth : Nat → Except ε AuthPreparation
  finish : Nat → Except ε Unit
  acquire : Nat → Except ε Unit
  /-- The body limit, the pre-send hook and the placement of credentials. -/
  preSend : Nat → Except ε Unit
  execute : Nat → Except ε Response
  observe : Nat → Except ε Unit
  /-- The answers of credential providers, by time and action. -/
  provider : Nat → Nat → Except AuthError Unit
  others : Nat → Slots T → Slots T

/-- The local variables of the loop, with the turn it is in and the log. -/
structure DriveState (ε β T : Type*) where
  turn : Nat
  body : PreparedBody ε β
  authPlacementPlan : Bool
  authStateSnapshot : Bool
  pendingAuth : Option AuthResendIntent
  authRecovery : AuthenticationRecoveryBudget
  cachedAuthPreparation : Option AuthPreparation
  slots : Slots T
  events : List ExecutionEvent

/-- What `drive_executions` returned, and the log of the run. -/
structure Driven (ε T : Type*) where
  result : Except (ExecuteError ε) Response
  slots : Slots T
  events : List ExecutionEvent

/-! ## errors -/

def authChallengeRejected (ctx : ErrorContext) : ApiClientError :=
  .auth ctx (AuthError.new .providerRejected "auth challenge rejected")

def produceExecutionBodyError (ctx : ErrorContext) : BodyProductionError ε → ExecuteError ε
  | .alreadyConsumed =>
    .raised (.policyViolation ctx "one-shot request body has already been consumed")
  | .factoryFailure error => .passed error

/-- `StatusCode::is_success`. -/
def StatusCode.isSuccess (status : StatusCode) : Bool := 200 ≤ status ∧ status < 300

def limitResponseBody (response : Response) (limit : Option Nat) (ctx : ErrorContext) :
    Except ApiClientError Response :=
  match limit with
  | none => .ok response
  | some limit =>
    match response.contentLength with
    | none => .ok response
    | some actual =>
      if actual > limit then .error (.responseTooLarge ctx limit actual) else .ok response

/-- The end of a turn whose response is no rejection. -/
def classifyResponse (family : ExecutionFamily) (ctx : ErrorContext) (response : Response) :
    Except ApiClientError Response :=
  if ¬ response.status.isSuccess then .error (.httpStatus ctx response.status)
  else
    match family with
    | .buffered skipBody responseLimit =>
      limitResponseBody response (if skipBody then none else responseLimit) ctx
    | .stream responseLimit => limitResponseBody response responseLimit ctx

/-! ## the phases of a turn -/

section phases

variable (env : ExecutionEnv ε T) (ctx : ErrorContext) (authRebuildable : Bool)

/-- Everything before credentials are touched.  The placement plan and the
authentication state are computed once. -/
def preflight (s : DriveState ε β T) : Except (ExecuteError ε) Unit :=
  match env.resolvePublicRequestHead s.turn with
  | .error error => .error (.passed error)
  | .ok _ =>
    match (if s.authPlacementPlan then .ok () else env.fromAuthPlan) with
    | .error source => .error (.raised (.auth ctx source))
    | .ok _ =>
      match env.applyAuthPreflight s.turn with
      | .error error => .error (.passed error)
      | .ok _ =>
        match env.preflightUrl s.turn with
        | .error error => .error (.passed error)
        | .ok _ =>
          match (if s.authStateSnapshot then .ok () else env.tryAuthState) with
          | .error source => .error (.raised (.auth ctx source))
          | .ok _ => .ok ()

/-- What carrying out a rejection plan does to the slots as other tasks have
left them. -/
def DriveState.effect (s : DriveState ε β T) (intent : AuthResendIntent)
    (application : AuthRejectionApplication) : Effect T :=
  applyAuthRejectionPlan env.bindings env.requirements intent.applied
    intent.rejectionPlan.actions application intent.status (env.provider s.events.length)
    (env.others s.events.length s.slots)

/-- The state after a rejection plan. -/
def DriveState.apply (s : DriveState ε β T) (intent : AuthResendIntent)
    (application : AuthRejectionApplication) : DriveState ε β T × Except AuthError Unit :=
  let effect := s.effect env intent application
  ({ s with
    slots := effect.slots
    events := s.events ++ effect.events.map .slot }, effect.result)

inductive AuthRejectionStep where
  | retry
  | fail (error : ApiClientError)
  deriving DecidableEq, Repr

def applyAuthRejectionStep (s : DriveState ε β T) (intent : AuthResendIntent) :
    DriveState ε β T × Except AuthError AuthRejectionStep :=
  if ¬ authRebuildable ∧ intent.rejectionPlan.requestsRecovery then
    (s, .ok (.fail (authChallengeRejected ctx)))
  else
    match s.apply env intent .providerCapable with
    | (s, .error error) => (s, .error error)
    | (s, .ok _) =>
      if intent.rejectionPlan.requestsRecovery then (s, .ok .retry)
      else (s, .ok (.fail (authChallengeRejected ctx)))

/-- Leave the loop with an error. -/
def DriveState.fail (s : DriveState ε β T) (error : ExecuteError ε) : Driven ε T :=
  ⟨.error error, s.slots, s.events⟩

/-- The recovery a challenge of the previous turn asked for. -/
def resumeRecovery (s : DriveState ε β T) : DriveState ε β T ⊕ Driven ε T :=
  match s.pendingAuth with
  | none => .inl s
  | some intent =>
    match applyAuthRejectionStep env ctx authRebuildable { s with pendingAuth := none } intent with
    | (s, .error source) => .inr (s.fail (.raised (.auth ctx source)))
    | (s, .ok .retry) => .inl { s with cachedAuthPreparation := none }
    | (s, .ok (.fail error)) => .inr (s.fail (.challenged error))

/-- The credentials of this execution, from the cache if it is filled. -/
def authAttempt (s : DriveState ε β T) : DriveState ε β T × Except ε AuthPreparation :=
  match s.cachedAuthPreparation with
  | some preparation => (s, .ok preparation)
  | none =>
    let s : DriveState ε β T := { s with events := s.events ++ [.prepareAuth] }
    match env.prepareAuth s.turn with
    | .error error => (s, .error error)
    | .ok preparation =>
      if preparation.cachePolicy.allowsRequestLocalReuse then
        ({ s with cachedAuthPreparation := some preparation }, .ok preparation)
      else (s, .ok preparation)

/-- `send_and_observe_once`. -/
def sendAndObserveOnce (turn : Nat) : List ExecutionEvent × Except ε Response :=
  match env.acquire turn with
  | .error error => ([.acquireRateLimit], .error error)
  | .ok _ =>
    match env.preSend turn with
    | .error error => ([.acquireRateLimit], .error error)
    | .ok _ =>
      match env.execute turn with
      | .error error => ([.acquireRateLimit, .send], .error error)
      | .ok response =>
        match env.observe turn with
        | .error error => ([.acquireRateLimit, .send, .respond response.status], .error error)
        | .ok _ => ([.acquireRateLimit, .send, .respond response.status], .ok response)

/-- The turn from an observed response on. -/
def handleResponse (family : ExecutionFamily) (s : DriveState ε β T)
    (applied : List AuthAppliedCredential) (response : Response) :
    DriveState ε β T ⊕ Driven ε T :=
  match classifyAuthRejection env.bindings env.requirements applied response.status with
  | .error source => .inr (s.fail (.raised (.auth ctx source)))
  | .ok (some rejectionPlan) =>
    let intent : AuthResendIntent := ⟨rejectionPlan, response.status, applied⟩
    if rejectionPlan.requestsRecovery then
      if ¬ authRebuildable then
        match s.apply env intent .invalidationOnly with
        | (s, .error source) => .inr (s.fail (.raised (.auth ctx source)))
        | (s, .ok _) => .inr (s.fail (.challenged (.httpStatus ctx response.status)))
      else
        match s.authRecovery.initiate with
        | (budget, true) =>
          .inl { s with
            authRecovery := budget
            pendingAuth := some intent
            turn := s.turn + 1 }
        | (budget, false) =>
          match { s with authRecovery := budget }.apply env intent .invalidationOnly with
          | (s, .error source) => .inr (s.fail (.raised (.auth ctx source)))
          | (s, .ok _) => .inr (s.fail (.challenged (authChallengeRejected ctx)))
    else
      match applyAuthRejectionStep env ctx authRebuildable s intent with
      | (s, .error source) => .inr (s.fail (.raised (.auth ctx source)))
      | (s, .ok (.fail error)) => .inr (s.fail (.challenged error))
      | (s, .ok .retry) => .inr (s.fail (.challenged (authChallengeRejected ctx)))
  | .ok none =>
    match classifyResponse family ctx response with
    | .error error => .inr (s.fail (.raised error))
    | .ok response => .inr ⟨.ok response, s.slots, s.events⟩

/-- The turn from the production of the body on. -/
def visibleExecution (family : ExecutionFamily) (s : DriveState ε β T)
    (preparation : AuthPreparation) : DriveState ε β T ⊕ Driven ε T :=
  let produced := s.body.produceForExecution
  let s : DriveState ε β T := { s with
    body := produced.1
    events := s.events ++ [.produceBody] }
  match produced.2 with
  | .error error => .inr (s.fail (produceExecutionBodyError ctx error))
  | .ok _ =>
    match env.finish s.turn with
    | .error error => .inr (s.fail (.passed error))
    | .ok _ =>
      let sent := sendAndObserveOnce env s.turn
      let s : DriveState ε β T := { s with events := s.events ++ sent.1 }
      match sent.2 with
      | .error error => .inr (s.fail (.passed error))
      | .ok response =>
        handleResponse env ctx authRebuildable family s preparation.applied response

/-- One turn of the loop of `drive_executions`. -/
def driveTurn (family : ExecutionFamily) (s : DriveState ε β T) :
    DriveState ε β T ⊕ Driven ε T :=
  match preflight env ctx s with
  | .error error => .inr (s.fail error)
  | .ok _ =>
    match resumeRecovery env ctx authRebuildable
        { s with authPlacementPlan := true, authStateSnapshot := true } with
    | .inr driven => .inr driven
    | .inl s =>
      match authAttempt env s with
      | (s, .error error) => .inr (s.fail (.passed error))
      | (s, .ok preparation) => visibleExecution env ctx authRebuildable family s preparation

end phases

def DriveState.start (body : PreparedBody ε β) (slots : Slots T) : DriveState ε β T where
  turn := 0
  body := body
  authPlacementPlan := false
  authStateSnapshot := false
  pendingAuth := none
  authRecovery := ⟨false⟩
  cachedAuthPreparation := none
  slots := slots
  events := []

/-- `drive_executions`, with room for `turns` turns; `none` if that is not
enough. -/
def driveExecutions (env : ExecutionEnv ε T) (ctx : ErrorContext) (family : ExecutionFamily)
    (turns : Nat) (body : PreparedBody ε β) (slots : Slots T) : Option (Driven ε T) :=
  Loop.run (driveTurn env ctx body.isReplayable family) turns (DriveState.start body slots)

end Concord
