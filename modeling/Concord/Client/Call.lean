import Concord.Body.Reading
import Concord.Client.Head
import Concord.Client.Hooks
import Concord.RateLimit.Response

/-!
# Concord.Client.Call

A whole call (`execute_plan`, `execute_plan_raw` and `execute_stream_response`
of `concord_core/src/client/execute.rs`): the execution loop, and what is made
of the response it returns.

The loop decides about a response by its status and its announced length.  What
else comes with the k-th response, its `Content-Type` and its body, is its
`Exchange`; the body is that of the last response that came.
-/

namespace Concord

open Polled

variable {ε β δ T V : Type*}

/-! ## data -/

/-- What comes with a response that the execution loop does not look at. -/
structure Exchange (δ : Type*) where
  contentType : Option HeaderValue
  native : List (Answer δ Frame)

/-- What a call asks of its surroundings. -/
structure CallEnv (ε δ T : Type*) where
  execution : ExecutionEnv ε T
  exchange : Nat → Exchange δ

/-- The client of a call: the settings it reads, and what its calls will find. -/
structure Caller (ε δ T : Type*) where
  maxResponseBodyBytes : Option UInt64
  maxStreamResponseBodyBytes : Option UInt64
  errorMapper : δ → BodyError
  env : EndpointPlan → RequestOverrides → CallEnv ε δ T

/-- The errors of a call. -/
inductive CallError (ε : Type*) where
  | execute (error : ExecuteError ε)
  | body (error : ResponseError)
  | invalidParam (ctx : ErrorContext) (param : String)
  | policyViolation (ctx : ErrorContext) (msg : String)
  | headRequiresNoContent (ctx : ErrorContext)
  | noContentStatusRequiresNoContent (ctx : ErrorContext) (status : StatusCode)
  | decode (ctx : ErrorContext) (status : StatusCode) (contentType : Option String)
  | responseContract (ctx : ErrorContext) (msg : String)
  deriving DecidableEq, Repr

/-- `BuiltResponse`: a buffered response. -/
structure BuiltResponse where
  status : StatusCode
  contentType : Option HeaderValue
  bytes : List UInt8
  deriving DecidableEq, Repr

structure DecodeContext where
  endpoint : String
  method : Method
  status : StatusCode
  contentType : Option String
  deriving DecidableEq, Repr

/-- `ResponseCodec`; the error of `decode` is not looked at. -/
structure ResponseCodec (V : Type*) where
  isNoContent : Bool
  decode : List UInt8 → DecodeContext → Option V

structure DecodedResponse (V : Type*) where
  status : StatusCode
  contentType : Option HeaderValue
  value : V

/-- `ContentType` of a stream: its constant, and `try_header_value`. -/
structure MediaType where
  contentType : String
  tryHeaderValue : Option HeaderValue

/-- A call that is over, or still waits for a body: what it returned, and what
its execution loop left. -/
structure CallRun (ε T α : Type*) where
  outcome : Option (Except (CallError ε) α)
  slots : Slots T
  events : List ExecutionEvent

/-! ## calls -/

def StatusCode.noContent : StatusCode := 204

def StatusCode.resetContent : StatusCode := 205

/-- `into_canonical_request_plan_view`. -/
def FullRequestPlan.canonical (plan : FullRequestPlan ε β) : FullRequestPlan ε β :=
  { plan with
    endpoint := { plan.endpoint with
      policy := { plan.endpoint.policy with
        rateLimit := plan.endpoint.policy.rateLimit.canonicalize } } }

/-- How often a log says that a request was sent. -/
def sends (events : List ExecutionEvent) : Nat := events.countP (· = .send)

/-- The last execution of a run. -/
def Driven.last (driven : Driven ε T) : Nat := sends driven.events - 1

namespace Caller

/-- `drive_executions`; two turns are all it takes. -/
def drive (client : Caller ε δ T) (plan : FullRequestPlan ε β) (family : ExecutionFamily)
    (slots : Slots T) : Option (Driven ε T) :=
  driveExecutions (client.env plan.endpoint plan.overrides).execution plan.endpoint.errorContext
    family 2 plan.body slots

/-- What came with the response that a run returns. -/
def exchange (client : Caller ε δ T) (plan : FullRequestPlan ε β) (driven : Driven ε T) :
    Exchange δ :=
  (client.env plan.endpoint plan.overrides).exchange driven.last

/-- `buffer_response`, under the limit that `limit_response_body` has set. -/
def buffer (client : Caller ε δ T) (ctx : ErrorContext) (skipBody : Bool)
    (exchange : Exchange δ) : Option (Except ResponseError (List UInt8)) :=
  if skipBody then some (.ok [])
  else
    let stream := BoundedResponseStream.new client.maxResponseBodyBytes client.errorMapper
    bufferResponse ctx (run BoundedResponseStream.pollFrame stream exchange.native)

/-- `execute_plan_raw_with_body`, of a plan that is canonical. -/
def executeBuffered (client : Caller ε δ T) (plan : FullRequestPlan ε β) (skipBody : Bool)
    (slots : Slots T) : Option (CallRun ε T BuiltResponse) :=
  let limit := client.maxResponseBodyBytes.map UInt64.toNat
  (client.drive plan (.buffered skipBody limit) slots).map fun driven =>
    ⟨match driven.result with
      | .error error => some (.error (.execute error))
      | .ok response =>
        let exchange := client.exchange plan driven
        (client.buffer plan.endpoint.errorContext skipBody exchange).map fun buffered =>
          match buffered with
          | .error error => .error (.body error)
          | .ok bytes => .ok ⟨response.status, exchange.contentType, bytes⟩,
      driven.slots, driven.events⟩

/-- `execute_plan_raw` and `execute_plan_raw_skip_body`. -/
def executePlanRaw (client : Caller ε δ T) (plan : FullRequestPlan ε β) (skipBody : Bool)
    (slots : Slots T) : Option (CallRun ε T BuiltResponse) :=
  client.executeBuffered plan.canonical skipBody slots

end Caller

/-- `decode_planned_response`. -/
def decodePlannedResponse (codec : ResponseCodec V) (plan : FullRequestPlan ε β)
    (response : BuiltResponse) : Except (CallError ε) (DecodedResponse V) :=
  let ctx := plan.endpoint.errorContext
  let noContent := plan.endpoint.response.noContent || codec.isNoContent
  if plan.endpoint.method = .head ∧ ¬ noContent then .error (.headRequiresNoContent ctx)
  else if response.status ∈ [StatusCode.noContent, StatusCode.resetContent] ∧ ¬ noContent then
    .error (.noContentStatusRequiresNoContent ctx response.status)
  else
    let contentType := response.contentType.bind HeaderValue.toStr
    match codec.decode response.bytes ⟨ctx.endpoint, ctx.method, response.status, contentType⟩ with
    | none => .error (.decode ctx response.status contentType)
    | some value => .ok ⟨response.status, response.contentType, value⟩

/-- `header_matches_media_type`. -/
def headerMatchesMediaType (value : Option HeaderValue) (expected : String) : Bool :=
  match value.bind HeaderValue.toStr with
  | none => false
  | some text =>
    let base := Sema.trim (text.toList.takeWhile (· ≠ ';'))
    eqIgnoreAsciiCase (String.ofList base) expected

/-- The plan that `execute_stream_response` sends, or why it sends none. -/
def FullRequestPlan.forStream (plan : FullRequestPlan ε β) (media : MediaType) :
    Except (CallError ε) (FullRequestPlan ε β) :=
  let ctx := plan.endpoint.errorContext
  match plan.endpoint.response.accept.or media.tryHeaderValue with
  | none => .error (.invalidParam ctx "content_type")
  | some accept =>
    if plan.endpoint.pagination then
      .error (.policyViolation ctx "stream responses do not support pagination")
    else if plan.endpoint.response.noContent then
      .error (.policyViolation ctx "stream responses cannot use a no-content response plan")
    else
      .ok { plan with
        endpoint := { plan.endpoint with
          response := { plan.endpoint.response with accept := some accept } } }

def mediaTypeMismatch (ctx : ErrorContext) : CallError ε :=
  .responseContract ctx "stream response content type did not match expected media type"

namespace Caller

/-- `execute_plan`. -/
def executePlan (client : Caller ε δ T) (codec : ResponseCodec V) (plan : FullRequestPlan ε β)
    (slots : Slots T) : Option (CallRun ε T (DecodedResponse V)) :=
  let plan := plan.canonical
  (client.executeBuffered plan plan.endpoint.response.noContent slots).map fun called =>
    ⟨called.outcome.map fun outcome =>
      match outcome with
      | .error error => .error error
      | .ok response => decodePlannedResponse codec plan response,
      called.slots, called.events⟩

/-- `execute_stream_response`. -/
def executeStreamResponse (client : Caller ε δ T) (media : MediaType)
    (plan : FullRequestPlan ε β) (slots : Slots T) :
    Option (CallRun ε T (StreamResponse δ)) :=
  match plan.forStream media with
  | .error error => some ⟨some (.error error), slots, []⟩
  | .ok plan =>
    let plan := plan.canonical
    let limit := client.maxStreamResponseBodyBytes
    (client.drive plan (.stream (limit.map UInt64.toNat)) slots).map fun driven =>
      ⟨match driven.result with
        | .error error => some (.error (.execute error))
        | .ok _ =>
          let ctx := plan.endpoint.errorContext
          let exchange := client.exchange plan driven
          if headerMatchesMediaType exchange.contentType media.contentType then
            some (.ok ⟨ctx, .new limit client.errorMapper, exchange.native⟩)
          else some (.error (mediaTypeMismatch ctx)),
        driven.slots, driven.events⟩

end Caller

end Concord
