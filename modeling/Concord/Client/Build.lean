import Concord.Transport

/-!
# Concord.Client.Build

The head of a public request (`concord_core/src/client/build.rs`): checking it
against the placements of its authentication, and finishing it with a body.

What the HTTP library makes of a body and of a request is a parameter: a
multipart body brings a `Content-Type` with its boundary, and a
`Content-Length` if its length is known, and a request may fail to build.
-/

namespace Concord

variable {β : Type*}

/-- `PublicRequestHead`, with the method of its metadata; its rate-limit plan
is left out. -/
structure PublicRequestHead where
  method : Method
  url : Url
  headers : HeaderMap
  timeout : Option Nat
  authPlan : AuthPlacementPlan
  reservedHeaders : List HeaderName
  deriving DecidableEq, Repr

structure BuiltRequest (β : Type*) where
  message : Message β
  authPlan : AuthPlacementPlan

/-- What the HTTP library adds to a request for its body. -/
structure NativeBody where
  boundary : Option String
  contentLength : Option Nat
  deriving DecidableEq, Repr

/-- The HTTP library: `apply_to_reqwest`, `none` where it fails, and whether
the finished request builds. -/
structure Reqwest (β : Type*) where
  native : TerminalBody β → Option NativeBody
  builds : Message β → Bool

def NativeBody.headers (body : NativeBody) : HeaderMap :=
  ⟨body.boundary.toList.map (fun boundary => (HeaderName.contentType,
      FormUrlencoded.utf8Bytes ("multipart/form-data; boundary=" ++ boundary))) ++
    body.contentLength.toList.map (fun length => (HeaderName.contentLength,
      FormUrlencoded.utf8Bytes (toString length)))⟩

namespace PublicRequestHead

def applyAuthPreflight (head : PublicRequestHead) (authPlan : AuthPlacementPlan)
    (ctx : ErrorContext) : Except ApiClientError PublicRequestHead :=
  match authPlan.validatePublicRequestWithReservedHeaders head.headers head.url
      head.reservedHeaders with
  | .error source => .error (.auth ctx source)
  | .ok _ => .ok { head with authPlan := authPlan }

/-- `finish`: the public headers replace those the body brought. -/
def finish (head : PublicRequestHead) (reqwest : Reqwest β) (body : ProducedBody β)
    (ctx : ErrorContext) : Except ApiClientError (BuiltRequest β) :=
  match reqwest.native body.terminal with
  | none => .error (.policyViolation ctx "native request body materialization failed")
  | some native =>
    match applyExecutionMediaType head.headers body.mediaType with
    | none =>
      .error (.policyViolation ctx
        "request Content-Type conflicts with produced body media type")
    | some headers =>
      let message : Message β :=
        ⟨head.method, head.url, native.headers.override headers, head.timeout, body.terminal⟩
      if reqwest.builds message then .ok ⟨message, head.authPlan⟩
      else .error (.policyViolation ctx "native request construction failed")

end PublicRequestHead

/-! ## what is added to the public request -/

section added

variable {head head' : PublicRequestHead} {authPlan : AuthPlacementPlan} {ctx : ErrorContext}
  {reqwest : Reqwest β} {body : ProducedBody β} {built : BuiltRequest β}

theorem not_containsKey_native {name : HeaderName} (body : NativeBody)
    (htype : name ≠ HeaderName.contentType) (hlength : name ≠ HeaderName.contentLength) :
    body.headers.containsKey name = false := by
  rw [Multimap.containsKey, List.any_eq_false]
  intro entry hmem hkey
  rw [decide_eq_true_eq] at hkey
  cases List.mem_append.mp hmem with
  | inl hb =>
      obtain ⟨boundary, _, rfl⟩ := List.mem_map.mp hb
      exact htype hkey.symm
  | inr hl =>
      obtain ⟨length, _, rfl⟩ := List.mem_map.mp hl
      exact hlength hkey.symm

/-- What a finished request is. -/
theorem finished_of_finish (h : head.finish reqwest body ctx = .ok built) :
    ∃ native headers, reqwest.native body.terminal = some native ∧
      applyExecutionMediaType head.headers body.mediaType = some headers ∧
      built = ⟨⟨head.method, head.url, NativeBody.headers native |>.override headers,
        head.timeout, body.terminal⟩, head.authPlan⟩ := by
  simp only [PublicRequestHead.finish] at h
  split at h
  · contradiction
  · next native hnative =>
      split at h
      · contradiction
      · next headers hmedia =>
          split at h
          · exact ⟨native, headers, hnative, hmedia, (Except.ok.inj h).symm⟩
          · contradiction

/-- Finishing adds at most a content type and a content length. -/
theorem values_of_finish (h : head.finish reqwest body ctx = .ok built) {target : AuthTarget}
    (htype : target ≠ .header HeaderName.contentType)
    (hlength : target ≠ .header HeaderName.contentLength) :
    built.message.values target = valuesAt head.headers head.url target := by
  obtain ⟨native, headers, _, hmedia, rfl⟩ := finished_of_finish h
  cases target with
  | query key => rfl
  | header name =>
      have hname : name ≠ HeaderName.contentType := fun heq => htype (heq ▸ rfl)
      have hname' : name ≠ HeaderName.contentLength := fun heq => hlength (heq ▸ rfl)
      simp only [Message.values, valuesAt,
        Multimap.getAll_override_of_not_mem (not_containsKey_native native hname hname'),
        getAll_of_applyExecutionMediaType hmedia hname]

theorem validated_of_preflight (h : head.applyAuthPreflight authPlan ctx = .ok head') :
    validateSlots head.headers head.url head.reservedHeaders authPlan.slots = .ok () ∧
      head' = { head with authPlan := authPlan } := by
  unfold PublicRequestHead.applyAuthPreflight at h
  split at h
  · contradiction
  · next hvalid => exact ⟨hvalid, (Except.ok.inj h).symm⟩

end added

end Concord
