import Concord.Http

/-!
# Concord.HeaderOwnership

The headers that belong to the transport or to the client itself
(`concord_core/src/header_ownership.rs`), and those whose names look like
credentials (`concord_core/src/redaction.rs`).
-/

namespace Concord

def isProtocolOrReqwestOwned (name : HeaderName) : Bool :=
  [HeaderName.contentLength, "transfer-encoding", "accept-encoding", "host", "connection",
    "proxy-authorization", "cookie", "set-cookie"].contains name ||
  ["keep-alive", "proxy-connection", "te", "trailer", "upgrade", "proxy-authenticate",
    "proxy-authorization", "www-authenticate"].contains name

/-- `eq_ignore_ascii_case`. -/
def eqIgnoreAsciiCase (a b : String) : Bool := a.toLower = b.toLower

def requestIdentityHeaders : List String :=
  ["idempotency-key", "request-id", "request-idempotency-key", "x-request-id",
    "x-request-idempotency-key", "x-correlation-id", "correlation-id"]

def isRequestIdentityHeaderName (name : HeaderName) : Bool :=
  requestIdentityHeaders.any (eqIgnoreAsciiCase name)

def isForbiddenAuthPlacement (name : HeaderName) : Bool :=
  isProtocolOrReqwestOwned name || name = HeaderName.contentType ||
    name = HeaderName.userAgent || name = HeaderName.authorization ||
    name = HeaderName.contentLength || isRequestIdentityHeaderName name

/-! ## public headers -/

def containsIgnoreAsciiCase (haystack needle : String) : Bool :=
  (List.range (haystack.length + 1)).any fun start =>
    needle.toLower.toList.isPrefixOf (haystack.toLower.toList.drop start)

def endsWithIgnoreAsciiCase (haystack needle : String) : Bool :=
  needle.toLower.toList.isSuffixOf haystack.toLower.toList

def credentialHeaderNames : List String :=
  ["authorization", "proxy-authorization", "api-key", "access-token", "refresh-token",
    "session-token", "api-token", "x-api-key", "x-client-key", "x-subscription-key",
    "ocp-apim-subscription-key", "cookie"]

def isCredentialBearingHeaderName (name : HeaderName) : Bool :=
  if isRequestIdentityHeaderName name then false
  else if ["set-cookie", "www-authenticate", "proxy-authenticate"].any (eqIgnoreAsciiCase name) then
    false
  else
    credentialHeaderNames.any (eqIgnoreAsciiCase name) ||
      containsIgnoreAsciiCase name "authorization" ||
      containsIgnoreAsciiCase name "credential" ||
      containsIgnoreAsciiCase name "secret" ||
      containsIgnoreAsciiCase name "password" ||
      containsIgnoreAsciiCase name "token" ||
      containsIgnoreAsciiCase name "auth" ||
      (containsIgnoreAsciiCase name "api" &&
        (containsIgnoreAsciiCase name "key" || containsIgnoreAsciiCase name "token")) ||
      endsWithIgnoreAsciiCase name "_key" ||
      endsWithIgnoreAsciiCase name "-key"

def isForbiddenPublicHeader (name : HeaderName) : Bool :=
  isProtocolOrReqwestOwned name || name = HeaderName.userAgent ||
    isCredentialBearingHeaderName name

/-- The header a `HeaderOwnershipError` names, if there is one. -/
def validatePublicHeaders (headers : HeaderMap) : Option HeaderName :=
  (headers.entries.map Prod.fst).find? isForbiddenPublicHeader

end Concord
