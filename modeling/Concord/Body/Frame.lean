import Concord.Auth.Error
import Concord.Http
import Concord.Lib.Gate

/-!
# Concord.Body.Frame

Body adapters that count bytes (`concord_core/src/body.rs`,
`concord_core/src/transport.rs`, `concord_core/src/multipart.rs`,
`concord_core/src/client/auth_http.rs`).

An adapter is polled and polls the body inside it; here `poll_frame` is given
what the inner body answers if it is asked.  How an error of the inner body is
turned into a `BodyError` is a parameter.
-/

namespace Concord

open Checked Polled

/-! ## 64-bit counters -/

/-- `u64::saturating_add`. -/
def saturatingAdd (a b : UInt64) : UInt64 := .ofNat (min (a.toNat + b.toNat) u64Max)

/-- `u64::checked_add`. -/
def checkedAddU64 (a b : UInt64) : Option UInt64 := (checkedAdd u64Max a.toNat b.toNat).map .ofNat

/-- `u64::try_from` of a `usize`. -/
def u64TryFrom (n : Nat) : Option UInt64 := if n ≤ u64Max then some (.ofNat n) else none

/-- `u64::MAX`. -/
def maxU64 : UInt64 := .ofNat u64Max

theorem toNat_ofNat_of_le {n : Nat} (h : n ≤ u64Max) : (UInt64.ofNat n).toNat = n := by
  have hlt : n < 2 ^ 64 := Nat.lt_of_le_of_lt h (by decide)
  rw [UInt64.toNat_ofNat', Nat.mod_eq_of_lt hlt]

theorem toNat_le_u64Max (n : UInt64) : n.toNat ≤ u64Max := Nat.le_of_lt_succ n.toNat_lt

@[simp] theorem toNat_maxU64 : maxU64.toNat = u64Max := toNat_ofNat_of_le (Nat.le_refl _)

theorem eq_maxU64 {length : UInt64} (h : u64Max ≤ length.toNat) : length = maxU64 := by
  rw [← UInt64.toNat_inj, toNat_maxU64]
  exact Nat.le_antisymm (toNat_le_u64Max length) h

/-- Only one length cannot be told from a count that is saturated. -/
theorem toNat_lt_of_ne {length : UInt64} (hne : length ≠ maxU64) : length.toNat < u64Max :=
  Nat.lt_of_not_le fun h => hne (eq_maxU64 h)

/-! ## frames -/

/-- `Bytes`; a length is a `usize`. -/
structure Bytes where
  data : List UInt8
  len_le : data.length ≤ usizeMax

def Bytes.len (bytes : Bytes) : Nat := bytes.data.length

theorem Bytes.len_le_u64Max (bytes : Bytes) : bytes.len ≤ u64Max := bytes.len_le

inductive Frame where
  | data (data : Bytes)
  | trailers (trailers : HeaderMap)

def Frame.dataRef : Frame → Option Bytes
  | .data bytes => some bytes
  | .trailers _ => none

/-- The bytes of a frame. -/
def Frame.bytes : Frame → List UInt8
  | .data bytes => bytes.data
  | .trailers _ => []

def Frame.len (frame : Frame) : Nat := frame.bytes.length

/-! ## errors -/

inductive BodyErrorKind where
  | io
  | input
  | invalidConfiguration
  | exclusivePoll
  | limitExceeded
  | exactLengthUnderflow
  | exactLengthOverflow
  | other
  deriving DecidableEq, Repr

structure BodyError where
  kind : BodyErrorKind
  limit : Option UInt64
  observed : Option UInt64
  deriving DecidableEq, Repr

namespace BodyError

def limitExceeded (limit observed : UInt64) : BodyError := ⟨.limitExceeded, some limit, some observed⟩

def exactLengthUnderflow (expected observed : UInt64) : BodyError :=
  ⟨.exactLengthUnderflow, some expected, some observed⟩

def exactLengthOverflow (expected observed : UInt64) : BodyError :=
  ⟨.exactLengthOverflow, some expected, some observed⟩

end BodyError

variable {ε : Type*}

/-! ## limits -/

/-- `BoundedResponseStream`, less the head of the response. -/
structure BoundedResponseStream (ε : Type*) where
  limit : Option UInt64
  seen : UInt64
  terminal : Bool
  errorMapper : ε → BodyError

def BoundedResponseStream.new (limit : Option UInt64) (errorMapper : ε → BodyError) :
    BoundedResponseStream ε :=
  ⟨limit, 0, false, errorMapper⟩

def BoundedResponseStream.pollFrame (this : BoundedResponseStream ε) (answer : Answer ε Frame) :
    BoundedResponseStream ε × Answer BodyError Frame :=
  if this.terminal then (this, .ready none)
  else
    match answer with
    | .pending => (this, .pending)
    | .ready none => ({ this with terminal := true }, .ready none)
    | .ready (some (.error error)) =>
      ({ this with terminal := true }, .ready (some (.error (this.errorMapper error))))
    | .ready (some (.ok frame)) =>
      match frame.dataRef with
      | none => (this, .ready (some (.ok frame)))
      | some data =>
        let actual := saturatingAdd this.seen (.ofNat data.len)
        match this.limit with
        | none => ({ this with seen := actual }, .ready (some (.ok frame)))
        | some limit =>
          if actual > limit then
            ({ this with terminal := true },
              .ready (some (.error (.limitExceeded limit actual))))
          else ({ this with seen := actual }, .ready (some (.ok frame)))

/-- `LimitedBody`. -/
structure LimitedBody where
  limit : UInt64
  seen : UInt64
  terminal : Bool

def LimitedBody.new (limit : UInt64) : LimitedBody := ⟨limit, 0, false⟩

def LimitedBody.pollFrame (fromProducer : ε → BodyError) (this : LimitedBody)
    (answer : Answer ε Frame) : LimitedBody × Answer BodyError Frame :=
  if this.terminal then (this, .ready none)
  else
    match answer with
    | .ready (some (.ok frame)) =>
      match frame.dataRef with
      | none => (this, .ready (some (.ok frame)))
      | some data =>
        match u64TryFrom data.len with
        | none =>
          ({ this with terminal := true },
            .ready (some (.error (.limitExceeded this.limit maxU64))))
        | some len =>
          match checkedAddU64 this.seen len with
          | none =>
            ({ this with terminal := true },
              .ready (some (.error (.limitExceeded this.limit maxU64))))
          | some observed =>
            if observed > this.limit then
              ({ this with terminal := true },
                .ready (some (.error (.limitExceeded this.limit observed))))
            else ({ this with seen := observed }, .ready (some (.ok frame)))
    | .ready (some (.error error)) =>
      ({ this with terminal := true }, .ready (some (.error (fromProducer error))))
    | .ready none => ({ this with terminal := true }, .ready none)
    | .pending => (this, .pending)

/-! ## whole bodies -/

/-- `collect_bytes`, over what the stream answers to its polls: `none` while it
still waits. -/
def collectBytes : List UInt8 → List (Answer BodyError Frame) →
    Option (Except BodyError (List UInt8))
  | _, [] => none
  | collected, .pending :: answers => collectBytes collected answers
  | collected, .ready none :: _ => some (.ok collected)
  | _, .ready (some (.error error)) :: _ => some (.error error)
  | collected, .ready (some (.ok frame)) :: answers => collectBytes (collected ++ frame.bytes) answers

/-- `auth_body_limit_error`. -/
def authBodyLimitError (error : BodyError) : AuthError :=
  let limit := error.limit.getD 0
  .new .responseTooLarge s!"auth response body exceeded configured limit {limit} bytes"

/-- `{:?}` of a kind. -/
def BodyErrorKind.debug : BodyErrorKind → String
  | .io => "Io"
  | .input => "Input"
  | .invalidConfiguration => "InvalidConfiguration"
  | .exclusivePoll => "ExclusivePoll"
  | .limitExceeded => "LimitExceeded"
  | .exactLengthUnderflow => "ExactLengthUnderflow"
  | .exactLengthOverflow => "ExactLengthOverflow"
  | .other => "Other"

def authBodyReadError (source : BodyError) : AuthError :=
  let kind := source.kind.debug
  .new .responseBody s!"auth response body read failed ({kind})"

/-- The loop of the authentication client over `chunk`, which passes over
frames without data: `none` while it still waits. -/
def authBody (mapBodyError : ε → BodyError) (limit : UInt64) :
    UInt64 → List UInt8 → List (Answer ε Frame) → Option (Except AuthError (List UInt8))
  | _, _, [] => none
  | seen, body, .pending :: answers => authBody mapBodyError limit seen body answers
  | _, body, .ready none :: _ => some (.ok body)
  | _, _, .ready (some (.error error)) :: _ => some (.error (authBodyReadError (mapBodyError error)))
  | seen, body, .ready (some (.ok (.trailers _))) :: answers =>
    authBody mapBodyError limit seen body answers
  | seen, body, .ready (some (.ok (.data chunk))) :: answers =>
    let actual := saturatingAdd seen (.ofNat chunk.len)
    if actual > limit then some (.error (authBodyLimitError (.limitExceeded limit actual)))
    else authBody mapBodyError limit actual (body ++ chunk.data) answers

/-! ## declared lengths -/

/-- `ExactLengthBody`. -/
structure ExactLengthBody where
  expected : UInt64
  seen : UInt64
  terminal : Bool

namespace ExactLengthBody

def new (expected : UInt64) : ExactLengthBody := ⟨expected, 0, false⟩

def pollFrame (fromProducer : ε → BodyError) (this : ExactLengthBody) (answer : Answer ε Frame) :
    ExactLengthBody × Answer BodyError Frame :=
  if this.terminal then (this, .ready none)
  else
    match answer with
    | .ready (some (.ok frame)) =>
      match frame.dataRef with
      | none => (this, .ready (some (.ok frame)))
      | some data =>
        let len := (u64TryFrom data.len).getD maxU64
        let observed := saturatingAdd this.seen len
        if observed > this.expected then
          ({ this with terminal := true },
            .ready (some (.error (.exactLengthOverflow this.expected observed))))
        else ({ this with seen := observed }, .ready (some (.ok frame)))
    | .ready (some (.error error)) =>
      ({ this with terminal := true }, .ready (some (.error (fromProducer error))))
    | .ready none =>
      if this.seen = this.expected then ({ this with terminal := true }, .ready none)
      else
        ({ this with terminal := true },
          .ready (some (.error (.exactLengthUnderflow this.expected this.seen))))
    | .pending => (this, .pending)

def isEndStream (this : ExactLengthBody) : Bool := this.terminal

/-- `size_hint`, which is always exact. -/
def sizeHint (this : ExactLengthBody) : UInt64 :=
  if this.terminal then 0 else .ofNat (this.expected.toNat - this.seen.toNat)

end ExactLengthBody

/-- `MultipartByteStream`. -/
structure MultipartByteStream where
  expected : Option UInt64
  seen : UInt64
  terminal : Bool

def MultipartByteStream.new (expected : Option UInt64) : MultipartByteStream := ⟨expected, 0, false⟩

def MultipartByteStream.pollNext (into : ε → BodyError) (this : MultipartByteStream)
    (answer : Answer ε Bytes) : MultipartByteStream × Answer BodyError Bytes :=
  if this.terminal then (this, .ready none)
  else
    match answer with
    | .ready (some (.ok bytes)) =>
      let len := (u64TryFrom bytes.len).getD maxU64
      let observed := saturatingAdd this.seen len
      match this.expected with
      | none => ({ this with seen := observed }, .ready (some (.ok bytes)))
      | some expected =>
        if observed > expected then
          ({ this with terminal := true },
            .ready (some (.error (.exactLengthOverflow expected observed))))
        else ({ this with seen := observed }, .ready (some (.ok bytes)))
    | .ready (some (.error error)) =>
      ({ this with terminal := true }, .ready (some (.error (into error))))
    | .ready none =>
      match this.expected with
      | none => ({ this with terminal := true }, .ready none)
      | some expected =>
        if this.seen ≠ expected then
          ({ this with terminal := true },
            .ready (some (.error (.exactLengthUnderflow expected this.seen))))
        else ({ this with terminal := true }, .ready none)
    | .pending => (this, .pending)

end Concord
