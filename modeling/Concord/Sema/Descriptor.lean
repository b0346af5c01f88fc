import Concord.Host
import Concord.HeaderOwnership
import Concord.Sema.Facade

/-!
# Concord.Sema.Descriptor

The origins of endpoints and of an API
(`concord_macros/src/sema/descriptor.rs`).

The origin of an endpoint is fixed if its host has static labels only and the
authority that these make with the domain of the client is valid; the
authority is then known when the client is compiled.
-/

namespace Concord.Sema

variable {υ : Type*}

/-! ## descriptors -/

inductive OriginSchemeIr where
  | http
  | https
  deriving DecidableEq, Repr

structure FixedOriginIr where
  scheme : OriginSchemeIr
  authority : String
  deriving DecidableEq, Repr

inductive EndpointOriginIr where
  | fixed (origin : FixedOriginIr)
  | dynamic
  deriving DecidableEq, Repr

inductive ApiOriginIr where
  | fixedSingle (origin : FixedOriginIr)
  | dynamic
  | multi
  deriving DecidableEq, Repr

/-- `EndpointDescriptorIr`, as far as it is about origins. -/
structure EndpointDescriptorIr where
  origin : EndpointOriginIr
  paginationCanChangeOrigin : Bool
  deriving DecidableEq, Repr

def Scheme.text : Scheme → String
  | .http => "http"
  | .https => "https"

def Scheme.toOriginScheme : Scheme → OriginSchemeIr
  | .http => .http
  | .https => .https

/-! ## authorities -/

/-- A label of ASCII letters, digits and dashes; such a label has as many
bytes as characters. -/
def validDnsLabel (label : List Char) : Bool :=
  !label.isEmpty && label.length ≤ 63 && label.head? ≠ some '-' && label.getLast? ≠ some '-' &&
    label.all (fun c => c.isAlphanum || c = '-')

def validDnsName (domain : List Char) : Bool :=
  !domain.isEmpty && domain.length ≤ 253 && (splitLabels domain).all validDnsLabel

/-- `rsplit_once`. -/
def rsplitOnce (separator : Char) (text : List Char) : Option (List Char × List Char) :=
  match text.reverse.dropWhile (· ≠ separator) with
  | [] => none
  | _ :: before => some (before.reverse, (text.reverse.takeWhile (· ≠ separator)).reverse)

/-- A port is a `u16` in digits, with any number of zeros before it. -/
def validPort (port : List Char) : Bool :=
  !port.isEmpty && port.all Char.isDigit &&
    port.foldl (fun value c => 10 * value + (c.toNat - '0'.toNat)) 0 < 65536

/-- The host and the port of an authority, not checked yet. -/
def splitHostPort (authority : List Char) : Option (List Char × Option (List Char)) :=
  if authority.head? = some '[' then
    match authority.dropWhile (· ≠ ']') with
    | [] => none
    | close :: remainder =>
      let host := authority.takeWhile (· ≠ ']') ++ [close]
      match remainder with
      | [] => some (host, none)
      | c :: port => if c = ':' then some (host, some port) else none
  else
    match rsplitOnce ':' authority with
    | some (host, port) => if host.contains ':' then none else some (host, some port)
    | none => some (authority, none)

def splitAuthority (authority : List Char) : Option (List Char × Option (List Char)) :=
  (splitHostPort authority).filter fun (host, port) => !host.isEmpty && port.all validPort

def portSuffix : Option (List Char) → List Char
  | none => []
  | some port => ':' :: port

def validOriginUrl (urls : UrlReader υ) (url : Url) (expectedScheme : String) : Bool :=
  urls.scheme url = expectedScheme && urls.username url = "" && (urls.password url).isNone &&
    (urls.host url).isSome && urls.path url = "/" && url.query.isNone &&
    (urls.fragment url).isNone

/-- `strip_prefix('[')` and `strip_suffix(']')`. -/
def stripBrackets : List Char → Option (List Char)
  | '[' :: rest => if rest.getLast? = some ']' then some rest.dropLast else none
  | _ => none

/-- The text of the host of the base URL, if the host is written as it should
be.  An address takes no labels. -/
def baseHostText (host : UrlHost) (rawHost : List Char) (prefixLabels : List String) :
    Option String :=
  match host with
  | .domain domain =>
    if rawHost.all (·.toNat < 128) && eqIgnoreAsciiCase (String.ofList rawHost) domain &&
        validDnsName domain.toList then
      some domain
    else none
  | .ipv4 address =>
    if prefixLabels.isEmpty && Ip.Ipv4Addr.fromStr rawHost = some address then
      some (String.ofList address.display)
    else none
  | .ipv6 address =>
    if prefixLabels.isEmpty &&
        (stripBrackets rawHost).bind Ip.Ipv6Addr.fromStr = some address then
      some ("[" ++ String.ofList address.display ++ "]")
    else none

def combinedHost (prefixLabels : List String) (hostText : String) : String :=
  if prefixLabels.isEmpty then hostText else ".".intercalate prefixLabels ++ "." ++ hostText

/-- The characters that an authority must not have. -/
def forbiddenInAuthority (c : Char) : Bool :=
  isWhitespace c || isControl c || ['@', '/', '\\', '?', '#'].contains c

def validatedOriginAuthority (urls : UrlReader υ) (scheme : Scheme) (baseAuthority : String)
    (prefixLabels : List String) : Option String := do
  guard (!baseAuthority.toList.isEmpty && !baseAuthority.toList.any forbiddenInAuthority)
  let baseUrl ← (urls.parse (scheme.text ++ "://" ++ baseAuthority)).toOption
  guard (validOriginUrl urls baseUrl scheme.text)
  let (rawHost, port) ← splitAuthority baseAuthority.toList
  let host ← urls.host baseUrl
  let hostText ← baseHostText host rawHost prefixLabels
  let combined := combinedHost prefixLabels hostText
  guard (!host.isDomain || validDnsName combined.toList)
  let authority := combined ++ String.ofList (portSuffix port)
  let candidate ← (urls.parse (scheme.text ++ "://" ++ authority)).toOption
  guard (validOriginUrl urls candidate scheme.text)
  some authority

/-! ## endpoints -/

/-- The labels of a host that has static labels only. -/
def staticLabels : List PrefixPiece → Option (List String)
  | [] => some []
  | .static label :: pieces =>
    if validDnsLabel label.toList then (staticLabels pieces).map (label :: ·) else none
  | .cxVar _ _ :: _ | .epVar _ :: _ | .fmt _ :: _ => none

def classifyEndpointOrigin (urls : UrlReader υ) (scheme : Scheme) (domain : String)
    (prefixPieces : List PrefixPiece) : EndpointOriginIr :=
  match staticLabels prefixPieces with
  | none => .dynamic
  | some prefixLabels =>
    match validatedOriginAuthority urls scheme domain prefixLabels with
    | none => .dynamic
    | some authority => .fixed ⟨scheme.toOriginScheme, authority⟩

/-- The endpoint fields that a host label reads. -/
def PrefixPiece.hostFields : PrefixPiece → List Ident
  | .epVar field => [field]
  | .fmt format =>
    format.pieces.filterMap fun
      | .var .ep field _ => some field
      | .lit _ | .var .cx _ _ => none
  | .static _ | .cxVar _ _ => []

def paginationCanChangeOrigin (prefixPieces : List PrefixPiece) (pagination : PaginateResolved) :
    Bool :=
  pagination.bindings.any fun binding =>
    (prefixPieces.flatMap PrefixPiece.hostFields).contains binding.endpointRustField

/-- `resolve_endpoint_descriptor`. -/
def ResolvedEndpoint.descriptor (urls : UrlReader υ) (scheme : Scheme) (domain : String)
    (endpoint : ResolvedEndpoint) : EndpointDescriptorIr where
  origin := classifyEndpointOrigin urls scheme domain endpoint.prefixPieces
  paginationCanChangeOrigin :=
    endpoint.paginate.any (paginationCanChangeOrigin endpoint.prefixPieces)

/-! ## the API -/

/-- The origins of endpoints that are all fixed. -/
def fixedOrigins : List EndpointDescriptorIr → Option (List FixedOriginIr)
  | [] => some []
  | descriptor :: descriptors =>
    if descriptor.paginationCanChangeOrigin then none
    else
      match descriptor.origin with
      | .fixed origin => (fixedOrigins descriptors).map (origin :: ·)
      | .dynamic => none

/-- `classify_api_origin`; the set of origins is a list without repetitions. -/
def classifyApiOrigin (descriptors : List EndpointDescriptorIr) : ApiOriginIr :=
  match fixedOrigins descriptors with
  | none => .dynamic
  | some origins =>
    match Keyed.keepFirst id origins with
    | [] => .dynamic
    | [origin] => .fixedSingle origin
    | _ :: _ :: _ => .multi

def ResolvedApi.origin (urls : UrlReader υ) (api : ResolvedApi) : ApiOriginIr :=
  classifyApiOrigin (api.endpoints.map (·.descriptor urls api.scheme api.domain))

end Concord.Sema
