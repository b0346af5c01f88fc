import Concord.Lib.Checked

/-!
# Concord.Auth.Error

The error and reason types of the authentication layer
(`concord_core/src/auth/errors.rs`) and the clock its deadlines are read
from.

An `Instant` is a reading of the monotonic clock in nanoseconds.  A 64-bit
Unix target keeps the seconds of an instant in an `i64`, which is the only
bound `Instant::checked_add` checks.
-/

namespace Concord

open Checked

/-! ## clock -/

abbrev Instant := Nat

abbrev Duration := Nat

/-- The last instant the clock can represent: `i64::MAX` seconds and
`999_999_999` nanoseconds. -/
def instantMax : Instant := (2 ^ 63 - 1) * 1000000000 + 999999999

/-! ## errors -/

inductive AuthErrorKind where
  | missingCredential
  | acquireFailed
  | refreshFailed
  | rejectedCredential
  | unsupportedScheme
  | tlsCapabilityUnavailable
  | recursionDetected
  | providerRejected
  | responseTooLarge
  | responseBody
  | stateUnavailable
  | invalidConfiguration
  deriving DecidableEq, Repr

structure AuthError where
  kind : AuthErrorKind
  message : String
  retryAfter : Option Duration
  deriving DecidableEq, Repr

namespace AuthError

def new (kind : AuthErrorKind) (message : String) : AuthError := ⟨kind, message, none⟩

def withRetryAfter (error : AuthError) (retryAfter : Duration) : AuthError :=
  { error with retryAfter := some retryAfter }

def stateUnavailable (message : String) : AuthError := new .stateUnavailable message

end AuthError

/-! ## reasons -/

inductive CredentialRefreshReason where
  | missing
  | expired
  | expiringSoon
  | rejected
  | manual
  deriving DecidableEq, Repr

inductive InvalidateReason where
  | unauthorized
  | forbidden
  | manual
  | providerRejected
  deriving DecidableEq, Repr

/-! ## deadlines -/

/-- `base.checked_add(duration)`, with the overflow reported as a
configuration error. -/
def checkedAuthInstantAdd (base : Instant) (duration : Duration) (context : String) :
    Except AuthError Instant :=
  match checkedAdd instantMax base duration with
  | some instant => .ok instant
  | none => .error (AuthError.new .invalidConfiguration context)

end Concord
