import Mathlib.Algebra.Group.Nat.Defs
import Concord.Lib.FormUrlencoded
import Concord.Lib.Multimap

/-!
# Concord.Http

The parts of HTTP the client's decisions read: methods, header maps and
URLs, as the `http` and `url` crates provide them.
-/

namespace Concord

/-- `http::Method`. -/
inductive Method where
  | get
  | post
  | put
  | delete
  | head
  | options
  | connect
  | patch
  | trace
  | extension (token : String)
  deriving DecidableEq, Repr

/-- `Method::as_str`. -/
def Method.asStr : Method → String
  | .get => "GET"
  | .post => "POST"
  | .put => "PUT"
  | .delete => "DELETE"
  | .head => "HEAD"
  | .options => "OPTIONS"
  | .connect => "CONNECT"
  | .patch => "PATCH"
  | .trace => "TRACE"
  | .extension token => token

/-! ## headers -/

theorem toList_toLower (text : String) : text.toLower.toList = text.toList.map Char.toLower := by
  show (text.map Char.toLower).toList = _
  exact String.toList_map

/-- A `HeaderName`: the name in the lower case the `http` crate stores it in. -/
abbrev HeaderName := String

/-- The bytes of a `HeaderValue`. -/
abbrev HeaderValue := List UInt8

abbrev HeaderMap := Multimap HeaderName HeaderValue

/-- The characters of a header name. -/
def isTokenChar (c : Char) : Bool :=
  c.isAlphanum || "!#$%&'*+-.^_`|~".toList.contains c

namespace HeaderName

/-- The longest name the `http` crate takes. -/
def maxLength : Nat := 2 ^ 16 - 1

/-- `HeaderName::from_bytes`: a token, in lower case. -/
def fromBytes (name : String) : Option HeaderName :=
  if name.toList ≠ [] ∧ name.length ≤ maxLength ∧ name.toList.all isTokenChar then
    some name.toLower
  else none

def authorization : HeaderName := "authorization"

def contentType : HeaderName := "content-type"

def contentLength : HeaderName := "content-length"

def userAgent : HeaderName := "user-agent"

def accept : HeaderName := "accept"

end HeaderName

/-! ## URLs -/

/-- A `url::Url`: what stands before the query, and the query. -/
structure Url where
  base : String
  query : Option (List UInt8)
  deriving DecidableEq, Repr

namespace Url

def queryPairs (url : Url) : List (String × String) :=
  FormUrlencoded.parse (url.query.getD [])

/-- `query_pairs_mut().append_pair(name, value)`. -/
def appendPair (url : Url) (name value : String) : Url :=
  { url with query := some (FormUrlencoded.appendPair (url.query.getD []) name value) }

@[simp] theorem queryPairs_appendPair (url : Url) (name value : String) :
    (url.appendPair name value).queryPairs = url.queryPairs ++ [(name, value)] :=
  FormUrlencoded.parse_appendPair _ name value

end Url

end Concord
