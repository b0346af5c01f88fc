import Concord.Http
import Concord.Auth.Error

/-!
# Concord.Error

The errors of a client call (`concord_core/src/error.rs`), as far as the
modelled code builds them.
-/

namespace Concord

structure ErrorContext where
  endpoint : String
  method : Method
  deriving DecidableEq, Repr

inductive PaginationErrorKind where
  | runtimeAlreadyInitialized
  | runtimeNotInitialized
  | unsupportedPagination
  | invalidState
  | invalidSize
  | overflow
  | nonProgress
  | pageLimitExceeded
  | itemLimitExceeded
  deriving DecidableEq, Repr

structure PaginationError where
  kind : PaginationErrorKind
  msg : String
  deriving DecidableEq, Repr

/-- `ApiClientError`.  The headers and the rate-limit action of `HttpStatus`
are left out; nothing here depends on them. -/
inductive ApiClientError where
  | pagination (ctx : ErrorContext) (source : PaginationError)
  | paginationLimit (ctx : ErrorContext) (source : PaginationError)
  | auth (ctx : ErrorContext) (source : AuthError)
  | httpStatus (ctx : ErrorContext) (status : Nat)
  | policyViolation (ctx : ErrorContext) (msg : String)
  | responseTooLarge (ctx : ErrorContext) (limit actual : Nat)
  deriving DecidableEq, Repr

end Concord
