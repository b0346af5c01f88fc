import Concord.Lib.Layers
import Concord.Io
import Concord.Body.Length
import Concord.Body.SizeHint

/-!
# Concord.Body.Native

Request bodies on their way to the transport
(`TerminalBody::apply_to_reqwest` and `observe_native_request_body` of
`concord_core/src/io.rs`, `ObservedRequestBody` of `concord_core/src/body.rs`,
and the request limit of `acquire_rate_limit_and_send` in
`concord_core/src/client/send_flow.rs`).

`reqwest::Body::wrap` passes frames and hints on and makes an error the source
of its own, `wrap_stream` gives up the hint.  What the streams, the bodies and
the forms of an application answer to polls is given by a `BodySource`.
-/

namespace Concord

open Polled

variable {β : Type*}

/-! ## errors -/

inductive StreamBodyErrorKind where
  | io
  | invalidChunkSize
  | sizeHint
  | producer
  deriving DecidableEq, Repr

namespace BodyError

/-- `BodyError::new`. -/
def ofKind (kind : BodyErrorKind) : BodyError := ⟨kind, none, none⟩

def input : BodyError := ofKind .input

def invalidConfiguration : BodyError := ofKind .invalidConfiguration

/-- `From<StreamBodyError>`. -/
def ofStream : StreamBodyErrorKind → BodyError
  | .io => ofKind .io
  | .invalidChunkSize | .sizeHint => invalidConfiguration
  | .producer => input

end BodyError

/-- One source in the chain of an error. -/
inductive ErrorLink where
  | body (error : BodyError)
  | stream (kind : StreamBodyErrorKind)
  | other
  deriving DecidableEq, Repr

/-- A `reqwest::Error`, by the chain of its sources. -/
abbrev NativeError := List ErrorLink

/-- `BodyError::from_producer` of a `reqwest::Error`. -/
def fromNative : NativeError → BodyError
  | [] => .input
  | .body error :: _ => error
  | .stream kind :: _ => .ofStream kind
  | .other :: sources => fromNative sources

/-- `reqwest::Body::wrap` of a body whose errors are `BodyError`s. -/
def wrapBody (answer : Answer BodyError Frame) : Answer NativeError Frame :=
  answer.mapError fun error => [.body error]

/-- `reqwest::Body::wrap_stream`. -/
def wrapStream : Answer StreamBodyErrorKind Bytes → Answer NativeError Frame
  | .pending => .pending
  | .ready none => .ready none
  | .ready (some (.ok bytes)) => .ready (some (.ok (.data bytes)))
  | .ready (some (.error kind)) => .ready (some (.error [.stream kind]))

/-! ## layers -/

/-- `RequestBodyErrorSlot`: the first error of a body. -/
abbrev RequestBodyErrorSlot := Option BodyError

def RequestBodyErrorSlot.record (slot : RequestBodyErrorSlot) (error : BodyError) :
    RequestBodyErrorSlot :=
  if slot.isNone then some error else slot

/-- `ObservedRequestBody`, over an `ExactLengthBody` if a length is
declared. -/
structure ObservedRequestBody where
  inner : Option ExactLengthBody
  errors : RequestBodyErrorSlot

namespace ObservedRequestBody

/-- The body that is observed. -/
def pollInner : Option ExactLengthBody → Answer NativeError Frame →
    Option ExactLengthBody × Answer BodyError Frame
  | none, answer => (none, answer.mapError fromNative)
  | some exact, answer =>
    let polled := exact.pollFrame fromNative answer
    (some polled.1, polled.2)

def pollFrame (this : ObservedRequestBody) (answer : Answer NativeError Frame) :
    ObservedRequestBody × Answer BodyError Frame :=
  match pollInner this.inner answer with
  | (inner, .ready (some (.error error))) =>
    (⟨inner, this.errors.record error⟩, .ready (some (.error error)))
  | (inner, .ready (some (.ok frame))) => (⟨inner, this.errors⟩, .ready (some (.ok frame)))
  | (inner, .ready none) => (⟨inner, this.errors⟩, .ready none)
  | (inner, .pending) => (⟨inner, this.errors⟩, .pending)

end ObservedRequestBody

/-- The layers over a streaming body: a limit, if there is one, and an observed
body, unless it is a form. -/
structure NativeLayers where
  limited : Option LimitedBody
  observed : Option ObservedRequestBody

namespace NativeLayers

def pollObserved : Option ObservedRequestBody → Answer NativeError Frame →
    Option ObservedRequestBody × Answer NativeError Frame
  | none, answer => (none, answer)
  | some body, answer =>
    let polled := body.pollFrame answer
    (some polled.1, wrapBody polled.2)

def pollFrame (this : NativeLayers) (answer : Answer NativeError Frame) :
    NativeLayers × Answer NativeError Frame :=
  match this.limited with
  | none =>
    let polled := pollObserved this.observed answer
    (⟨none, polled.1⟩, polled.2)
  | some limited =>
    let polled := layered LimitedBody.terminal (LimitedBody.pollFrame fromNative) pollObserved
      (limited, this.observed) answer
    (⟨some polled.1.1, polled.1.2⟩, wrapBody polled.2)

/-- What `RequestBodyErrorSlot` holds; a form has none. -/
def errors (this : NativeLayers) : RequestBodyErrorSlot := this.observed.bind (·.errors)

end NativeLayers

/-- `observe_native_request_body`. -/
def observeNativeRequestBody (exactLength : Option UInt64) : NativeLayers where
  limited := none
  observed := some ⟨exactLength.map .new, none⟩

/-! ## bodies -/

/-- What applications' bodies answer to polls. -/
structure BodySource (β : Type*) where
  chunks : β → List (Answer StreamBodyErrorKind Bytes)
  hint : β → SizeHint
  frames : β → List (Answer BodyError Frame)
  /-- `MultipartBody::into_form`: the hint of the form, and what it answers. -/
  intoForm : MultipartBody β → Option (SizeHint × List (Answer NativeError Frame))

/-- The body of a `reqwest::Request`. -/
inductive ReqwestBody where
  | empty
  | bytes (data : List UInt8)
  | streaming (hint : SizeHint) (layers : NativeLayers) (answers : List (Answer NativeError Frame))

def validateReusableExactLength (actual : UInt64) (exactLength : Option UInt64) :
    Except BodyError Unit :=
  match exactLength with
  | none => .ok ()
  | some expected =>
    if actual < expected then .error (.exactLengthUnderflow expected actual)
    else if actual > expected then .error (.exactLengthOverflow expected actual)
    else .ok ()

/-- `TerminalBody::apply_to_reqwest`. -/
def TerminalBody.applyToReqwest (source : BodySource β) (body : TerminalBody β)
    (exactLength : Option UInt64) : Except BodyError ReqwestBody :=
  match body with
  | .empty => (validateReusableExactLength 0 exactLength).map fun _ => .empty
  | .reusableBytes bytes =>
    (validateReusableExactLength (.ofNat bytes.length) exactLength).map fun _ => .bytes bytes
  | .oneShotByteStream stream =>
    .ok (.streaming .new (observeNativeRequestBody exactLength)
      ((source.chunks stream).map wrapStream))
  | .oneShotHttpBody body =>
    .ok (.streaming (source.hint body) (observeNativeRequestBody exactLength)
      ((source.frames body).map wrapBody))
  | .multipartRecipe recipe =>
    match source.intoForm recipe with
    | none => .error .invalidConfiguration
    | some (hint, answers) => .ok (.streaming hint ⟨none, none⟩ answers)

/-! ## the request limit -/

/-- `SizeHint::exact`. -/
def SizeHint.exact (hint : SizeHint) : Option UInt64 :=
  if hint.upper = some hint.lower then hint.upper else none

/-- `size_hint` of a body that was not polled; one with a declared length
announces that. -/
def ReqwestBody.sizeHint : ReqwestBody → SizeHint
  | .empty => .withExact 0
  | .bytes data => .withExact (.ofNat data.length)
  | .streaming hint layers _ =>
    match layers.observed.bind (·.inner) with
    | none => hint
    | some exact => .withExact exact.sizeHint

/-- A streaming body below a limit; bytes are left as they are. -/
def ReqwestBody.limit (limit : UInt64) : ReqwestBody → ReqwestBody
  | .empty => .empty
  | .bytes data => .bytes data
  | .streaming hint layers answers =>
    .streaming hint { layers with limited := some (.new limit) } answers

/-- The length that is known to be beyond the limit without a poll. -/
def knownOversize (hint : SizeHint) (limit : UInt64) : Option UInt64 :=
  hint.exact <|> if hint.lower > limit then some hint.lower else none

/-- `RequestBodyLimitExceeded`. -/
structure RequestBodyLimitExceeded where
  limit : UInt64
  actual : UInt64
  deriving DecidableEq, Repr

/-- The limit on request bodies, before anything is sent. -/
def limitRequestBody (limit : Option UInt64) (body : ReqwestBody) :
    Except RequestBodyLimitExceeded ReqwestBody :=
  match limit with
  | none => .ok body
  | some limit =>
    match knownOversize body.sizeHint limit with
    | some actual => if actual > limit then .error ⟨limit, actual⟩ else .ok (body.limit limit)
    | none => .ok (body.limit limit)

end Concord
