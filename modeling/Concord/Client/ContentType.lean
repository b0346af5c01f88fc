import Concord.Client.Head

/-!
# Concord.Client.ContentType

The `Content-Type` of a request: the media type of its body, the one of the
multipart encoder, or what the public headers say
(`apply_prepared_body_media_type` and `apply_execution_media_type` of
`concord_core/src/io.rs`, `concord_core/src/client/build.rs`).

The media type of a body is compared with the first public value only.  A
second value is not noticed, and is sent.
-/

namespace Concord

variable {ε β υ : Type*}

/-! ## bodies -/

/-- Whether the body is a form. -/
def TerminalBody.isMultipart : TerminalBody β → Bool
  | .multipartRecipe _ => true
  | _ => false

namespace PreparedBody

/-- The bodies there are: those of the constructors, and what is left of them
after an execution. -/
inductive Constructed : PreparedBody ε β → Prop
  | empty : Constructed ⟨.empty, none⟩
  | reusableBytes (bytes : List UInt8) (mediaType : Option HeaderValue) :
      Constructed ⟨.reusableBytes bytes, mediaType.map .fixed⟩
  | oneShot (body : β) (mediaType : Option HeaderValue) :
      Constructed ⟨.oneShotHttpBody (some body), mediaType.map .fixed⟩
  | fromStreamBody (stream : β) (mediaType : Option HeaderValue) :
      Constructed ⟨.oneShotByteStream (some stream), mediaType.map .fixed⟩
  | factory (factory : Nat → Except ε β) (mediaType : Option HeaderValue) :
      Constructed ⟨.requestBodyFactory (fun call => (factory call).map .oneShotHttpBody) 0,
        mediaType.map .fixed⟩
  | streamFactory (factory : Nat → Except ε β) (mediaType : Option HeaderValue) :
      Constructed ⟨.requestBodyFactory (fun call => (factory call).map .oneShotByteStream) 0,
        mediaType.map .fixed⟩
  | multipart (recipe : MultipartBody β) :
      Constructed ⟨.multipartRecipe (some recipe), some .dynamic⟩
  | multipartFactory (factory : Nat → Except ε (MultipartBody β)) :
      Constructed ⟨.requestBodyFactory (fun call => (factory call).map .multipartRecipe) 0,
        some .dynamic⟩
  | produced {body : PreparedBody ε β} (h : Constructed body) :
      Constructed body.produceForExecution.1

/-- A recipe that never gives a multipart body. -/
def PlainRecipe : RequestBodyRecipe ε β → Prop
  | .multipartRecipe _ => False
  | .requestBodyFactory factory _ =>
    ∀ call terminal, factory call = .ok terminal → terminal.isMultipart = false
  | _ => True

/-- A factory of bodies that are no forms is plain. -/
theorem plainRecipe_factory {γ : Type*} {factory : Nat → Except ε γ} {wrap : γ → TerminalBody β}
    (h : ∀ body, (wrap body).isMultipart = false) (calls : Nat) :
    PlainRecipe (.requestBodyFactory (fun call => (factory call).map wrap) calls) := by
  intro call terminal hcall
  cases hbody : factory call with
  | error error => simp [hbody, Except.map] at hcall
  | ok body =>
      simp only [hbody, Except.map, Except.ok.injEq] at hcall
      rw [← hcall]
      exact h body

/-- A production leaves the media type. -/
theorem mediaType_produceForExecution (body : PreparedBody ε β) :
    body.produceForExecution.1.mediaType = body.mediaType := by
  unfold produceForExecution
  split
  case h_9 => split <;> rfl
  all_goals rfl

/-- And the recipe plain. -/
theorem plainRecipe_produceForExecution {body : PreparedBody ε β} (h : PlainRecipe body.recipe) :
    PlainRecipe body.produceForExecution.1.recipe := by
  obtain ⟨recipe, mediaType⟩ := body
  cases recipe with
  | empty => exact h
  | reusableBytes bytes => exact h
  | oneShotByteStream body => cases body <;> trivial
  | oneShotHttpBody body => cases body <;> trivial
  | requestBodyFactory factory calls => exact h
  | multipartRecipe recipe => exact h.elim

/-- Only the multipart encoder has a media type of its own. -/
theorem Constructed.plainRecipe {body : PreparedBody ε β} (h : body.Constructed)
    (hmedia : body.mediaType ≠ some .dynamic) : PlainRecipe body.recipe := by
  induction h with
  | empty => trivial
  | reusableBytes bytes mediaType => trivial
  | oneShot body mediaType => trivial
  | fromStreamBody stream mediaType => trivial
  | factory factory mediaType => exact plainRecipe_factory (fun _ => rfl) 0
  | streamFactory factory mediaType => exact plainRecipe_factory (fun _ => rfl) 0
  | multipart recipe => contradiction
  | multipartFactory factory => contradiction
  | produced _ ih =>
      rw [mediaType_produceForExecution] at hmedia
      exact plainRecipe_produceForExecution (ih hmedia)

/-- What an execution gets of a body: a media type that comes with it is the
fixed one, and it is multipart only if the recipe may give that. -/
theorem produced_spec {body : PreparedBody ε β} {produced : ProducedBody β}
    (h : body.produceForExecution.2 = .ok produced) :
    (produced.mediaType = none ∨ produced.mediaType = body.fixedMediaType) ∧
      (PlainRecipe body.recipe → produced.terminal.isMultipart = false) := by
  obtain ⟨recipe, mediaType⟩ := body
  cases recipe with
  | empty =>
      obtain rfl := Except.ok.inj h
      exact ⟨.inl rfl, fun _ => rfl⟩
  | reusableBytes bytes =>
      obtain rfl := Except.ok.inj h
      exact ⟨.inr rfl, fun _ => rfl⟩
  | oneShotByteStream body =>
      cases body with
      | none => contradiction
      | some body =>
          obtain rfl := Except.ok.inj h
          exact ⟨.inr rfl, fun _ => rfl⟩
  | oneShotHttpBody body =>
      cases body with
      | none => contradiction
      | some body =>
          obtain rfl := Except.ok.inj h
          exact ⟨.inr rfl, fun _ => rfl⟩
  | requestBodyFactory factory calls =>
      simp only [produceForExecution] at h
      split at h
      · contradiction
      · next terminal hterminal =>
          obtain rfl := Except.ok.inj h
          exact ⟨.inr rfl, fun hplain => hplain calls terminal hterminal⟩
  | multipartRecipe recipe =>
      cases recipe with
      | none => contradiction
      | some recipe =>
          simp only [produceForExecution] at h
          split at h
          · obtain rfl := Except.ok.inj h
            exact ⟨.inl rfl, fun hplain => hplain.elim⟩
          · obtain rfl := Except.ok.inj h
            exact ⟨.inl rfl, fun hplain => hplain.elim⟩

end PreparedBody

/-! ## headers -/

/-- What `reqwest` does with a body: only a multipart form has a boundary. -/
structure LawfulReqwest (reqwest : Reqwest β) : Prop where
  boundary {terminal : TerminalBody β} {native : NativeBody}
    (h : reqwest.native terminal = some native) (hplain : terminal.isMultipart = false) :
    native.boundary = none

/-- The `Content-Type` values of the public headers. -/
def publicContentType (apiHeaders endpointHeaders : HeaderMap) : List HeaderValue :=
  if endpointHeaders.containsKey HeaderName.contentType then
    endpointHeaders.getAll HeaderName.contentType
  else apiHeaders.getAll HeaderName.contentType

/-- The public content types of a request. -/
theorem getAll_requestHeaders (apiHeaders : HeaderMap) (policy : ResolvedPolicy) :
    (requestHeaders apiHeaders policy).getAll HeaderName.contentType =
      publicContentType apiHeaders policy.headers := by
  have haccept : HeaderName.contentType ≠ HeaderName.accept := by decide
  have hagent : HeaderName.contentType ≠ HeaderName.userAgent := by decide
  simp only [requestHeaders]
  rw [Multimap.getAll_insert_of_ne hagent]
  split
  · rw [Multimap.getAll_override, publicContentType]
  · rw [Multimap.getAll_insert_of_ne haccept, Multimap.getAll_override, publicContentType]

/-- What the media type of a body makes of the public values. -/
inductive ContentTypeApplied (body : PreparedBody ε β) (values : List HeaderValue) :
    List HeaderValue → Prop
  | added {mediaType : HeaderValue} (hbody : body.mediaType = some (.fixed mediaType))
      (hvalues : values = []) : ContentTypeApplied body values [mediaType]
  | same {mediaType : HeaderValue} (hbody : body.mediaType = some (.fixed mediaType))
      (hvalues : values.head? = some mediaType) : ContentTypeApplied body values values
  | absent (hbody : body.mediaType = some .dynamic) (hvalues : values = []) :
      ContentTypeApplied body values []
  | free (hbody : body.mediaType = none) : ContentTypeApplied body values values

/-- The body's media type is applied to them. -/
theorem contentTypeApplied_of_prepared {headers headers' : HeaderMap} {body : PreparedBody ε β}
    (h : applyPreparedBodyMediaType headers body = some headers') :
    ContentTypeApplied body (headers.getAll HeaderName.contentType)
      (headers'.getAll HeaderName.contentType) := by
  unfold applyPreparedBodyMediaType at h
  split at h
  · next hbody =>
      obtain rfl := Option.some.inj h
      exact .free hbody
  · next mediaType hbody =>
      split at h
      · split at h
        · next hget =>
            obtain rfl := Option.some.inj h
            exact .same hbody hget
        · contradiction
      · next hcontains =>
          obtain rfl := Option.some.inj h
          rw [Bool.not_eq_true, Multimap.containsKey_eq_false_iff] at hcontains
          rw [Multimap.getAll_insert_self]
          exact .added hbody hcontains
  · next hbody =>
      split at h
      · contradiction
      · next hcontains =>
          obtain rfl := Option.some.inj h
          rw [Bool.not_eq_true, Multimap.containsKey_eq_false_iff] at hcontains
          rw [hcontains]
          exact .absent hbody rfl

/-- The media type of the produced body is there already. -/
theorem getAll_of_produced {headers headers' : HeaderMap} {mediaType : Option HeaderValue}
    (h : applyExecutionMediaType headers mediaType = some headers')
    (hmedia : mediaType = none ∨ headers.get HeaderName.contentType = mediaType) :
    headers' = headers := by
  unfold applyExecutionMediaType at h
  cases mediaType with
  | none => exact (Option.some.inj h).symm
  | some mediaType =>
      have hget : headers.get HeaderName.contentType = some mediaType := by simpa using hmedia
      simp only [hget, if_true, Option.some.injEq] at h
      exact h.symm

/-- A fixed media type comes first, and alone. -/
theorem head?_of_contentTypeApplied {body : PreparedBody ε β} {values applied : List HeaderValue}
    (h : ContentTypeApplied body values applied) {mediaType : HeaderValue}
    (hbody : body.fixedMediaType = some mediaType) : applied.head? = some mediaType := by
  cases h with
  | added hfixed hvalues => simpa [PreparedBody.fixedMediaType, hfixed] using hbody
  | same hfixed hvalues =>
      rw [hvalues]
      simpa [PreparedBody.fixedMediaType, hfixed] using hbody
  | absent hdynamic hvalues => simp [PreparedBody.fixedMediaType, hdynamic] at hbody
  | free hnone => simp [PreparedBody.fixedMediaType, hnone] at hbody

/-- A body that is no form brings no content type. -/
theorem getAll_native {native : NativeBody} (h : native.boundary = none) :
    native.headers.getAll HeaderName.contentType = [] := by
  have hlength : HeaderName.contentLength ≠ HeaderName.contentType := by decide
  cases native.contentLength <;> simp [Multimap.getAll, NativeBody.headers, h, hlength]

/-! ## the request -/

/-- A fixed media type is the one value, a form has that of its encoder, and
otherwise the values are the public ones. -/
structure ContentTypeCoherent (apiHeaders endpointHeaders : HeaderMap) (body : PreparedBody ε β)
    (native : Option NativeBody) (message : Message β) : Prop where
  fixed {mediaType : HeaderValue} (h : body.mediaType = some (.fixed mediaType)) :
    message.headers.getAll HeaderName.contentType = [mediaType]
  dynamic (h : body.mediaType = some .dynamic) :
    publicContentType apiHeaders endpointHeaders = [] ∧
      ∀ encoder, native = some encoder → message.headers.getAll HeaderName.contentType =
        encoder.headers.getAll HeaderName.contentType
  other (h : body.mediaType = none) : message.headers.getAll HeaderName.contentType =
    publicContentType apiHeaders endpointHeaders

/-- A fixed media type is coherent. -/
theorem coherent_of_fixed {apiHeaders endpointHeaders : HeaderMap} {body : PreparedBody ε β}
    {native : Option NativeBody} {message : Message β} {mediaType : HeaderValue}
    (hbody : body.mediaType = some (.fixed mediaType)) :
    ContentTypeCoherent apiHeaders endpointHeaders body native message ↔
      message.headers.getAll HeaderName.contentType = [mediaType] := by
  constructor
  · intro h
    exact h.fixed hbody
  · intro h
    refine ⟨fun hfixed => ?_, fun hdynamic => ?_, fun hnone => ?_⟩
    · rw [hbody, Option.some.injEq, PreparedBodyMediaType.fixed.injEq] at hfixed
      rw [h, hfixed]
    · simp [hbody] at hdynamic
    · simp [hbody] at hnone

section
variable {urls : UrlCrate υ} {apiHeaders : HeaderMap} {endpoint : EndpointPlan}
  {overrides : RequestOverrides} {body : PreparedBody ε β} {head : PublicRequestHead}
  {authPlan : AuthPlacementPlan} {reqwest : Reqwest β} {produced : ProducedBody β}
  {ctx : ErrorContext} {built : BuiltRequest β}

/-- The content type of a resolved head. -/
theorem contentTypeApplied_of_head
    (h : resolvePublicRequestHead urls apiHeaders endpoint overrides body = .ok head) :
    ContentTypeApplied body (publicContentType apiHeaders endpoint.policy.headers)
      (head.headers.getAll HeaderName.contentType) := by
  simp only [resolvePublicRequestHead] at h
  split at h
  · contradiction
  split at h
  · contradiction
  split at h
  · contradiction
  split at h
  · contradiction
  next headers hheaders =>
    obtain rfl := Except.ok.inj h
    have happlied := contentTypeApplied_of_prepared hheaders
    rwa [getAll_requestHeaders] at happlied

/-- The values of a built request: those of the head, or of the encoder. -/
theorem contentType_of_finish
    (hhead : resolvePublicRequestHead urls apiHeaders endpoint overrides body = .ok head)
    (hproduced : body.produceForExecution.2 = .ok produced)
    (hfinish : { head with authPlan := authPlan }.finish reqwest produced ctx = .ok built) :
    ∃ native, reqwest.native produced.terminal = some native ∧
      built.message.headers.getAll HeaderName.contentType =
        if head.headers.getAll HeaderName.contentType = [] then
          native.headers.getAll HeaderName.contentType
        else head.headers.getAll HeaderName.contentType := by
  obtain ⟨native, headers, hnative, hmedia, rfl⟩ := finished_of_finish hfinish
  have happlied := contentTypeApplied_of_head hhead
  have hsame : headers = head.headers := by
    apply getAll_of_produced hmedia
    rcases (PreparedBody.produced_spec hproduced).1 with hnone | hfixed
    · exact .inl hnone
    · cases hbody : body.fixedMediaType with
      | none => exact .inl (hfixed.trans hbody)
      | some mediaType =>
          right
          rw [hfixed, hbody]
          exact head?_of_contentTypeApplied happlied hbody
  refine ⟨native, hnative, ?_⟩
  rw [hsame, Multimap.getAll_override]
  cases hcontains : head.headers.containsKey HeaderName.contentType with
  | false => simp [Multimap.containsKey_eq_false_iff.mp hcontains]
  | true =>
      have hne : head.headers.getAll HeaderName.contentType ≠ [] := by
        intro hnil
        rw [Multimap.containsKey_eq_false_iff.mpr hnil] at hcontains
        contradiction
      simp [hne]

/-- A request has the `Content-Type` it should have, unless the body has a
media type of its own and the public headers have several. -/
theorem content_type_coherent_iff (hreqwest : LawfulReqwest reqwest) (hbody : body.Constructed)
    (hhead : resolvePublicRequestHead urls apiHeaders endpoint overrides body = .ok head)
    (hproduced : body.produceForExecution.2 = .ok produced)
    (hfinish : { head with authPlan := authPlan }.finish reqwest produced ctx = .ok built) :
    ContentTypeCoherent apiHeaders endpoint.policy.headers body
        (reqwest.native produced.terminal) built.message ↔
      (body.fixedMediaType.isSome = true →
        (publicContentType apiHeaders endpoint.policy.headers).length ≤ 1) := by
  obtain ⟨native, hnative, hvalues⟩ := contentType_of_finish hhead hproduced hfinish
  have happlied := contentTypeApplied_of_head hhead
  generalize hpublic : publicContentType apiHeaders endpoint.policy.headers = values at happlied ⊢
  generalize head.headers.getAll HeaderName.contentType = applied at happlied hvalues
  rw [hnative]
  cases happlied with
  | @added mediaType hfixed hnil =>
      rw [coherent_of_fixed hfixed]
      exact iff_of_true (by simpa using hvalues) fun _ => by simp [hnil]
  | @same mediaType hfixed hfirst =>
      have hne : values ≠ [] := by
        rintro rfl
        simp at hfirst
      rw [if_neg hne] at hvalues
      rw [coherent_of_fixed hfixed, hvalues]
      constructor
      · intro hone _
        simp [hone]
      · intro hlength
        have hle := hlength (by simp [PreparedBody.fixedMediaType, hfixed])
        cases values with
        | nil => contradiction
        | cons first rest =>
            have hrest : rest = [] := by
              rw [List.length_cons] at hle
              exact List.length_eq_zero_iff.mp (by omega)
            rw [List.head?_cons, Option.some.injEq] at hfirst
            rw [hrest, hfirst]
  | absent hdynamic hnil =>
      rw [if_pos rfl] at hvalues
      refine iff_of_true ⟨?_, ?_, ?_⟩ fun hsome => ?_
      · intro mediaType hfixed
        simp [hdynamic] at hfixed
      · intro _
        refine ⟨hpublic.trans hnil, fun encoder hencoder => ?_⟩
        rw [hvalues, Option.some.inj hencoder]
      · intro hnone
        simp [hdynamic] at hnone
      · simp [PreparedBody.fixedMediaType, hdynamic] at hsome
  | free hnone =>
      have hplain := hbody.plainRecipe (by simp [hnone])
      have hboundary := hreqwest.boundary hnative
        ((PreparedBody.produced_spec hproduced).2 hplain)
      refine iff_of_true ⟨?_, ?_, ?_⟩ fun hsome => ?_
      · intro mediaType hfixed
        simp [hnone] at hfixed
      · intro hdynamic
        simp [hnone] at hdynamic
      · intro _
        rw [hvalues, hpublic]
        split
        · next hnil => rw [getAll_native hboundary, hnil]
        · rfl
      · simp [PreparedBody.fixedMediaType, hnone] at hsome

end

/-! ### a body of JSON -/

/-- The media type of JSON. -/
def jsonType : HeaderValue := FormUrlencoded.utf8Bytes "application/json"

/-- The media type of plain text. -/
def textType : HeaderValue := FormUrlencoded.utf8Bytes "text/plain"

/-- An empty JSON object. -/
def jsonBody : PreparedBody Unit Unit := ⟨.reusableBytes [0x7B, 0x7D], some (.fixed jsonType)⟩

/-- An endpoint with nothing of its own. -/
def itemsEndpoint : EndpointPlan where
  name := "Items"
  method := .post
  route := ⟨"https", "api.test", "/items"⟩
  policy := ⟨.empty, [], none, ⟨[]⟩, ⟨[]⟩⟩
  response := ⟨none, false⟩
  pagination := false

/-- A library that reads a URL as far as is needed here. -/
def plainUrls : UrlCrate Unit where
  parse text := .ok ⟨text, none⟩
  setPath url path := { url with base := url.base ++ path }

/-- A library that gives forms a boundary. -/
def formReqwest : Reqwest Unit where
  native terminal := some ⟨if terminal.isMultipart then some "b" else none, none⟩
  builds _ := true

/-- The sample client crate is lawful. -/
theorem lawfulReqwest_formReqwest : LawfulReqwest formReqwest where
  boundary h hplain := by
    simp only [formReqwest, hplain, Option.some.injEq] at h
    rw [← h]
    rfl

/-- The URL of the endpoint. -/
def itemsUrl : Url := ⟨"https" ++ "://" ++ "api.test" ++ "/items", none⟩

/-- The head of a request with such a body, if the client-wide headers have
its media type first. -/
def itemsHead (apiHeaders : HeaderMap) : PublicRequestHead where
  method := .post
  url := itemsUrl
  headers := requestHeaders apiHeaders itemsEndpoint.policy
  timeout := none
  authPlan := .default
  reservedHeaders := [HeaderName.contentType]

/-- The request that is built for it. -/
def itemsBuilt (apiHeaders : HeaderMap) : BuiltRequest Unit where
  message := ⟨.post, itemsUrl, (NativeBody.headers ⟨none, none⟩).override
    (requestHeaders apiHeaders itemsEndpoint.policy), none, .reusableBytes [0x7B, 0x7D]⟩
  authPlan := .default

section
variable {apiHeaders : HeaderMap} (hget : (requestHeaders apiHeaders itemsEndpoint.policy).get
  HeaderName.contentType = some jsonType)
include hget

/-- Its head is resolved. -/
theorem resolved_itemsHead (hvalid : validatePublicHeaders apiHeaders = none) :
    resolvePublicRequestHead plainUrls apiHeaders itemsEndpoint RequestOverrides.default jsonBody =
      .ok (itemsHead apiHeaders) := by
  have hurl : requestUrl plainUrls itemsEndpoint = .ok itemsUrl := rfl
  have hendpoint : validatePublicHeaders itemsEndpoint.policy.headers = none := rfl
  have hcontains : (requestHeaders apiHeaders itemsEndpoint.policy).containsKey
      HeaderName.contentType = true := by
    by_contra hcontains
    rw [Bool.not_eq_true, Multimap.containsKey_eq_false_iff] at hcontains
    simp [Multimap.get, hcontains] at hget
  have hmedia : applyPreparedBodyMediaType (requestHeaders apiHeaders itemsEndpoint.policy)
      jsonBody = some (requestHeaders apiHeaders itemsEndpoint.policy) := by
    simp [applyPreparedBodyMediaType, jsonBody, hcontains, hget]
  simp only [resolvePublicRequestHead, hurl, hvalid, hendpoint, hmedia]
  rfl

/-- And finished. -/
theorem finished_itemsHead :
    (itemsHead apiHeaders).finish formReqwest ⟨.reusableBytes [0x7B, 0x7D], some jsonType⟩
      itemsEndpoint.errorContext = .ok (itemsBuilt apiHeaders) := by
  have hmedia : applyExecutionMediaType (requestHeaders apiHeaders itemsEndpoint.policy)
      (some jsonType) = some (requestHeaders apiHeaders itemsEndpoint.policy) := by
    simp [applyExecutionMediaType, hget]
  simp only [PublicRequestHead.finish, formReqwest, itemsHead, hmedia]
  rfl

end

/-- One public value, the media type of the body. -/
theorem content_type_coherent_json :
    ContentTypeCoherent ⟨[(HeaderName.contentType, jsonType)]⟩ .empty jsonBody
      (formReqwest.native (.reusableBytes [0x7B, 0x7D]))
      (itemsBuilt ⟨[(HeaderName.contentType, jsonType)]⟩).message := by
  have hget : (requestHeaders ⟨[(HeaderName.contentType, jsonType)]⟩ itemsEndpoint.policy).get
      HeaderName.contentType = some jsonType := by decide +kernel
  have hvalid : validatePublicHeaders ⟨[(HeaderName.contentType, jsonType)]⟩ = none := by
    decide +kernel
  have hfinish : { itemsHead ⟨[(HeaderName.contentType, jsonType)]⟩ with
      authPlan := AuthPlacementPlan.default }.finish formReqwest
        ⟨.reusableBytes [0x7B, 0x7D], some jsonType⟩ itemsEndpoint.errorContext =
      .ok (itemsBuilt ⟨[(HeaderName.contentType, jsonType)]⟩) := finished_itemsHead hget
  have hcoherent := content_type_coherent_iff lawfulReqwest_formReqwest
    (.reusableBytes [0x7B, 0x7D] (some jsonType)) (resolved_itemsHead hget hvalid) rfl hfinish
  exact hcoherent.mpr fun _ => by decide +kernel

/-- A second public value is sent after the media type of the body. -/
theorem content_type_second_value :
    ∃ head built, resolvePublicRequestHead plainUrls
        ⟨[(HeaderName.contentType, jsonType), (HeaderName.contentType, textType)]⟩ itemsEndpoint
        RequestOverrides.default jsonBody = .ok head ∧
      head.finish formReqwest ⟨.reusableBytes [0x7B, 0x7D], some jsonType⟩
        itemsEndpoint.errorContext = .ok built ∧
      jsonBody.produceForExecution.2 = .ok ⟨.reusableBytes [0x7B, 0x7D], some jsonType⟩ ∧
      built.message.headers.getAll HeaderName.contentType = [jsonType, textType] ∧
      ¬ ContentTypeCoherent
        ⟨[(HeaderName.contentType, jsonType), (HeaderName.contentType, textType)]⟩ .empty jsonBody
        (formReqwest.native (.reusableBytes [0x7B, 0x7D])) built.message := by
  have hget : (requestHeaders
      ⟨[(HeaderName.contentType, jsonType), (HeaderName.contentType, textType)]⟩
      itemsEndpoint.policy).get HeaderName.contentType = some jsonType := by decide +kernel
  have hvalid : validatePublicHeaders
      ⟨[(HeaderName.contentType, jsonType), (HeaderName.contentType, textType)]⟩ = none := by
    decide +kernel
  have hsent : (itemsBuilt ⟨[(HeaderName.contentType, jsonType),
      (HeaderName.contentType, textType)]⟩).message.headers.getAll HeaderName.contentType =
      [jsonType, textType] := by decide +kernel
  refine ⟨_, _, resolved_itemsHead hget hvalid, finished_itemsHead hget, rfl, hsent, ?_⟩
  intro hcoherent
  have hone := hcoherent.fixed rfl
  rw [hsent] at hone
  simp at hone

end Concord
