import Concord.Body.Wire
import Concord.Client.Execute
import Concord.RateLimit.Plan

/-!
# Concord.Client.SendFlow

One visible execution, from the rate limit to the observed response
(`concord_core/src/client/send_flow.rs`), and the errors it returns
(`concord_core/src/error.rs`, `ReqwestError` of
`concord_core/src/transport.rs`).

The transport is given the body and says how often it polled it and what came
of the request.  Calls of hooks and of the rate limiter are logged, which the
code does not do; the log and the result of an execution are a `Sent`.
-/

namespace Concord

open Polled

variable {β : Type*}

/-! ## errors of the transport -/

inductive ReqwestErrorKind where
  | timeout
  | connect
  | tls
  | dns
  | io
  | request
  | other
  deriving DecidableEq, Repr

/-- What `reqwest::Client::execute` fails with; `sources` are the sources of
the error. -/
structure NativeFailure where
  isTimeout : Bool
  isConnect : Bool
  isRequest : Bool
  sources : NativeError
  deriving DecidableEq, Repr

structure SafeProxy where
  target : Url

def SafeProxy.isNetworkProxy (_ : SafeProxy) : Bool := true

/-- `ReqwestError`, with the chain of its source. -/
structure ReqwestError where
  kind : ReqwestErrorKind
  sources : NativeError
  deriving DecidableEq, Repr

def classifyReqwestError (failure : NativeFailure) : ReqwestErrorKind :=
  if failure.isTimeout then .timeout
  else if failure.isConnect then .connect
  else if failure.isRequest then .request
  else .other

/-- `sanitize_error_chain_with_proxies`, less the texts. -/
def sanitizeErrorChain (proxies : List SafeProxy) : NativeError → NativeError
  | [] => []
  | .body error :: _ => [.body error]
  | _ :: sources =>
    if proxies.any SafeProxy.isNetworkProxy then [.other]
    else .other :: sanitizeErrorChain proxies sources

namespace ReqwestError

/-- `from_reqwest`; a `reqwest::Error` is no `BodyError` itself. -/
def fromReqwest (failure : NativeFailure) (proxies : List SafeProxy) : ReqwestError :=
  ⟨classifyReqwestError failure, sanitizeErrorChain proxies (.other :: failure.sources)⟩

/-- `From<BodyError>`. -/
def ofBody (error : BodyError) : ReqwestError :=
  ⟨match error.kind with
    | .io => .io
    | .limitExceeded => .request
    | _ => .other, [.body error]⟩

end ReqwestError

/-- The first `BodyError` of a chain. -/
def firstBody : NativeError → Option BodyError
  | [] => none
  | .body error :: _ => some error
  | _ :: sources => firstBody sources

def ReqwestError.bodyError (error : ReqwestError) : Option BodyError := firstBody error.sources

/-! ## errors of an execution -/

inductive ErrorCategory where
  | config
  | missingCredential
  | authRejected
  | connect
  | requestExecution
  | requestBody
  | timeout
  | httpStatus
  | decode
  | pagination
  | rateLimit
  | responseContract
  | internalInvariant
  deriving DecidableEq, Repr

/-- `ApiClientError`, as far as an execution builds it; `other` is any other
error of an application's hooks or rate limiter. -/
inductive SendError where
  | rateLimit (source : RateLimitError)
  | auth (ctx : ErrorContext) (source : AuthError)
  | requestBodyLimitExceeded (ctx : ErrorContext) (refused : RequestBodyLimitExceeded)
  | requestBody (ctx : ErrorContext) (kind : BodyErrorKind)
  | timeout (ctx : ErrorContext)
  | connect (ctx : ErrorContext)
  | requestExecution (ctx : ErrorContext)
  | other (ctx : ErrorContext) (category : ErrorCategory)
  deriving DecidableEq, Repr

namespace SendError

/-- `request_execution`. -/
def ofReqwest (ctx : ErrorContext) (error : ReqwestError) : SendError :=
  match error.bodyError with
  | some body => .requestBody ctx body.kind
  | none =>
    match error.kind with
    | .timeout => .timeout ctx
    | .connect => .connect ctx
    | _ => .requestExecution ctx

def category : SendError → ErrorCategory
  | .rateLimit _ => .rateLimit
  | .auth _ source =>
    match source.kind with
    | .missingCredential => .missingCredential
    | .rejectedCredential => .authRejected
    | .tlsCapabilityUnavailable => .config
    | _ => .authRejected
  | .requestBodyLimitExceeded _ _ | .requestBody _ _ => .requestBody
  | .timeout _ => .timeout
  | .connect _ => .connect
  | .requestExecution _ => .requestExecution
  | .other _ category => category

/-- `wrap_rate_limit_error`; the wrapped error is left out. -/
def wrapRateLimit (ctx : ErrorContext) (kind : RateLimitErrorKind) (message : String) :
    SendError → SendError
  | .rateLimit source => .rateLimit source
  | _ => .rateLimit ⟨ctx, kind, message⟩

end SendError

/-- The error of a request that failed in the transport, given what the body
recorded. -/
def terminalError (ctx : ErrorContext) (proxies : List SafeProxy) (errors : RequestBodyErrorSlot)
    (failure : NativeFailure) : SendError :=
  let error :=
    match errors with
    | some recorded => ReqwestError.ofBody recorded
    | none => .fromReqwest failure proxies
  match error.bodyError with
  | some body =>
    if body.kind = .limitExceeded then
      .requestBodyLimitExceeded ctx ⟨body.limit.getD 0, body.observed.getD 0⟩
    else .ofReqwest ctx error
  | none => .ofReqwest ctx error

/-! ## an execution -/

inductive HookEvent where
  | acquire
  | preSend
  | execute
  | requestError (category : ErrorCategory)
  | postResponse (status : StatusCode)
  | onResponse (status : StatusCode)
  deriving DecidableEq, Repr

/-- What the transport did: how often it polled the body, and what came of the
request. -/
structure Transported where
  polls : Nat
  result : Except NativeFailure Response

/-- What an execution asks of its surroundings. -/
structure SendEnv where
  ctx : ErrorContext
  proxies : List SafeProxy
  maxRequestBodyBytes : Option UInt64
  acquire : Except SendError Unit
  preSend : Except SendError Unit
  materializeAuthentication : Except AuthError Unit
  transport : ReqwestBody → Transported
  onResponse : StatusCode → Except SendError RateLimitResponseAction

structure Sent where
  events : List HookEvent
  result : Except SendError (Response × RateLimitResponseAction)

/-- What the body has recorded after polls. -/
def ReqwestBody.errorsAfter (polls : Nat) : ReqwestBody → RequestBodyErrorSlot
  | .streaming _ layers answers =>
    (after NativeLayers.pollFrame layers (answers.take polls)).errors
  | _ => none

/-- `observe_transport_response`. -/
def observeTransportResponse (env : SendEnv) (response : Response) : Sent :=
  let events : List HookEvent := [.postResponse response.status, .onResponse response.status]
  match env.onResponse response.status with
  | .error error =>
    ⟨events, .error (error.wrapRateLimit env.ctx .responseActionFailed
      "rate-limit response action failed")⟩
  | .ok action => ⟨events, .ok (response, action)⟩

/-- `send_built_request`, and what follows a response. -/
def sendBuiltRequest (env : SendEnv) (body : ReqwestBody) : Sent :=
  match env.materializeAuthentication with
  | .error source => ⟨[], .error (.auth env.ctx source)⟩
  | .ok _ =>
    let transported := env.transport body
    match transported.result with
    | .ok response =>
      let observed := observeTransportResponse env response
      ⟨.execute :: observed.events, observed.result⟩
    | .error failure =>
      let error := terminalError env.ctx env.proxies (body.errorsAfter transported.polls) failure
      ⟨[.execute, .requestError error.category], .error error⟩

/-- `acquire_rate_limit_and_send` from the permit on. -/
def sendLimited (env : SendEnv) (body : ReqwestBody) : Sent :=
  match limitRequestBody env.maxRequestBodyBytes body with
  | .error refused =>
    let error := SendError.requestBodyLimitExceeded env.ctx refused
    ⟨[.requestError error.category], .error error⟩
  | .ok body =>
    match env.preSend with
    | .error error => ⟨[.preSend], .error error⟩
    | .ok _ =>
      let sent := sendBuiltRequest env body
      ⟨.preSend :: sent.events, sent.result⟩

/-- `send_and_observe_once`. -/
def SendEnv.sendAndObserveOnce (env : SendEnv) (body : ReqwestBody) : Sent :=
  match env.acquire with
  | .error error =>
    ⟨[.acquire], .error (error.wrapRateLimit env.ctx .acquireFailed "rate-limit acquire failed")⟩
  | .ok _ =>
    let sent := sendLimited env body
    ⟨.acquire :: sent.events, sent.result⟩

end Concord
