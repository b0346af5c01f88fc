import Concord.Error

/-!
# Concord.Io

Request bodies (`concord_core/src/io.rs`, `concord_core/src/multipart.rs`): a
prepared body is a recipe that produces one terminal body per visible
execution.  Some recipes can do so again and again, some only once.

`β` is what a stream or an opaque body is made of, which is never looked at
here, and `ε` the errors of a body factory.
-/

namespace Concord

variable {ε β : Type*}

/-! ## multipart -/

inductive RawPartBody (β : Type*) where
  | text (value : String)
  | bytes (value : List UInt8)
  | stream (stream : β)

structure RawPart (β : Type*) where
  name : String
  fileName : Option String
  contentType : Option HeaderValue
  body : RawPartBody β

structure MultipartBody (β : Type*) where
  parts : List (RawPart β)

def RawPartBody.cloneIfReconstructible : RawPartBody β → Option (RawPartBody β)
  | .text value => some (.text value)
  | .bytes value => some (.bytes value)
  | .stream _ => none

def RawPartBody.isStream : RawPartBody β → Bool
  | .stream _ => true
  | _ => false

namespace MultipartBody

def isReconstructible (body : MultipartBody β) : Bool := body.parts.all (!·.body.isStream)

def cloneParts : List (RawPart β) → Option (List (RawPart β))
  | [] => some []
  | part :: parts =>
    match part.body.cloneIfReconstructible with
    | none => none
    | some body =>
      match cloneParts parts with
      | none => none
      | some cloned => some ({ part with body := body } :: cloned)

def cloneIfReconstructible (body : MultipartBody β) : Option (MultipartBody β) :=
  match cloneParts body.parts with
  | none => none
  | some parts => some ⟨parts⟩

end MultipartBody

/-! ## recipes -/

/-- What is handed to the transport. -/
inductive TerminalBody (β : Type*) where
  | empty
  | reusableBytes (bytes : List UInt8)
  | oneShotByteStream (stream : β)
  | oneShotHttpBody (body : β)
  | multipartRecipe (recipe : MultipartBody β)

/-- A recipe.  The k-th call of a factory returns `factory k`; `calls` counts
the calls made so far. -/
inductive RequestBodyRecipe (ε β : Type*) where
  | empty
  | reusableBytes (bytes : List UInt8)
  | oneShotByteStream (body : Option β)
  | oneShotHttpBody (body : Option β)
  | requestBodyFactory (factory : Nat → Except ε (TerminalBody β)) (calls : Nat)
  | multipartRecipe (recipe : Option (MultipartBody β))

inductive PreparedBodyMediaType where
  | fixed (value : HeaderValue)
  | dynamic
  deriving DecidableEq, Repr

structure PreparedBody (ε β : Type*) where
  recipe : RequestBodyRecipe ε β
  mediaType : Option PreparedBodyMediaType

structure ProducedBody (β : Type*) where
  terminal : TerminalBody β
  mediaType : Option HeaderValue

/-- `BodyProductionError`: `body_error` is present exactly for a factory
failure. -/
inductive BodyProductionError (ε : Type*) where
  | alreadyConsumed
  | factoryFailure (bodyError : ε)
  deriving DecidableEq, Repr

namespace PreparedBody

/-- `media_type()`. -/
def fixedMediaType (body : PreparedBody ε β) : Option HeaderValue :=
  match body.mediaType with
  | some (.fixed value) => some value
  | _ => none

def reservesContentType (body : PreparedBody ε β) : Bool := body.mediaType = some .dynamic

def isReplayable (body : PreparedBody ε β) : Bool :=
  match body.recipe with
  | .empty | .reusableBytes _ | .requestBodyFactory _ _ => true
  | .multipartRecipe (some recipe) => recipe.isReconstructible
  | _ => false

/-- `produce_for_execution`: the terminal body of one execution, and the
recipe that is left. -/
def produceForExecution (body : PreparedBody ε β) :
    PreparedBody ε β × Except (BodyProductionError ε) (ProducedBody β) :=
  match body.recipe with
  | .empty => (body, .ok ⟨.empty, none⟩)
  | .reusableBytes bytes => (body, .ok ⟨.reusableBytes bytes, body.fixedMediaType⟩)
  | .oneShotByteStream none => (body, .error .alreadyConsumed)
  | .oneShotByteStream (some stream) =>
    ({ body with recipe := .oneShotByteStream none },
      .ok ⟨.oneShotByteStream stream, body.fixedMediaType⟩)
  | .oneShotHttpBody none => (body, .error .alreadyConsumed)
  | .oneShotHttpBody (some inner) =>
    ({ body with recipe := .oneShotHttpBody none },
      .ok ⟨.oneShotHttpBody inner, body.fixedMediaType⟩)
  | .requestBodyFactory factory calls =>
    ({ body with recipe := .requestBodyFactory factory (calls + 1) },
      match factory calls with
      | .error error => .error (.factoryFailure error)
      | .ok terminal => .ok ⟨terminal, body.fixedMediaType⟩)
  | .multipartRecipe none => (body, .error .alreadyConsumed)
  | .multipartRecipe (some recipe) =>
    match recipe.cloneIfReconstructible with
    | some cloned => (body, .ok ⟨.multipartRecipe cloned, none⟩)
    | none => ({ body with recipe := .multipartRecipe none }, .ok ⟨.multipartRecipe recipe, none⟩)

end PreparedBody

/-! ## replay -/

theorem RawPartBody.cloneIfReconstructible_eq (body : RawPartBody β) :
    body.cloneIfReconstructible = if body.isStream then none else some body := by
  cases body <;> rfl

namespace MultipartBody

/-- Cloning succeeds exactly on parts without a stream, and changes
nothing. -/
theorem cloneParts_eq (parts : List (RawPart β)) :
    cloneParts parts = if parts.all (!·.body.isStream) then some parts else none := by
  induction parts with
  | nil => rfl
  | cons part parts ih =>
      rw [cloneParts, part.body.cloneIfReconstructible_eq, ih, List.all_cons]
      cases part.body.isStream with
      | true => rfl
      | false =>
          cases parts.all (!·.body.isStream) with
          | true => rfl
          | false => rfl

theorem cloneIfReconstructible_eq (body : MultipartBody β) :
    body.cloneIfReconstructible = if body.isReconstructible then some body else none := by
  rw [cloneIfReconstructible, cloneParts_eq, isReconstructible]
  cases body.parts.all (!·.body.isStream) with
  | true => rfl
  | false => rfl

end MultipartBody

namespace PreparedBody

/-- The results of the next `n` calls of `produce_for_execution`. -/
def productions (body : PreparedBody ε β) :
    Nat → List (Except (BodyProductionError ε) (ProducedBody β))
  | 0 => []
  | n + 1 => body.produceForExecution.2 :: body.produceForExecution.1.productions n

/-- The application's factory, if the body has one, succeeds with the same
terminal body on every call from now on. -/
def FactoryRepeats (body : PreparedBody ε β) : Prop :=
  ∀ factory calls, body.recipe = .requestBodyFactory factory calls →
    ∃ terminal, ∀ call, calls ≤ call → factory call = .ok terminal

/-- A production that leaves the body as it was is repeated for ever. -/
theorem productions_of_fixed {body : PreparedBody ε β}
    {result : Except (BodyProductionError ε) (ProducedBody β)}
    (h : body.produceForExecution = (body, result)) (n : Nat) :
    body.productions n = List.replicate n result := by
  induction n with
  | zero => rfl
  | succ n ih => rw [productions, h, ih, List.replicate_succ]

/-- So is the production of a factory that repeats itself. -/
theorem productions_of_factory {factory : Nat → Except ε (TerminalBody β)}
    {mediaType : Option PreparedBodyMediaType} {terminal : TerminalBody β} {calls : Nat}
    (h : ∀ call, calls ≤ call → factory call = .ok terminal) (n : Nat) :
    productions ⟨.requestBodyFactory factory calls, mediaType⟩ n = List.replicate n
      (.ok ⟨terminal, fixedMediaType (⟨.empty, mediaType⟩ : PreparedBody ε β)⟩) := by
  induction n generalizing calls with
  | zero => rfl
  | succ n ih =>
      have hrest := @ih (calls + 1) (fun call hcall => h call (by omega))
      rw [productions, List.replicate_succ, ← hrest]
      simp only [produceForExecution, h calls (Nat.le_refl _), fixedMediaType]

/-- A body that can be replayed is produced again and again, unchanged. -/
theorem productions_of_replayable {body : PreparedBody ε β} (hfactory : body.FactoryRepeats)
    (h : body.isReplayable = true) :
    ∃ produced, ∀ n, body.productions n = List.replicate n (.ok produced) := by
  obtain ⟨recipe, mediaType⟩ := body
  cases recipe with
  | empty => exact ⟨_, productions_of_fixed rfl⟩
  | reusableBytes bytes => exact ⟨_, productions_of_fixed rfl⟩
  | requestBodyFactory factory calls =>
      obtain ⟨terminal, hterminal⟩ := hfactory factory calls rfl
      exact ⟨_, productions_of_factory hterminal⟩
  | oneShotByteStream body => simp [isReplayable] at h
  | oneShotHttpBody body => simp [isReplayable] at h
  | multipartRecipe recipe =>
      cases recipe with
      | none => simp [isReplayable] at h
      | some recipe =>
          have hr : recipe.isReconstructible = true := h
          have hclone : recipe.cloneIfReconstructible = some recipe := by
            rw [recipe.cloneIfReconstructible_eq, if_pos hr]
          exact ⟨⟨.multipartRecipe recipe, none⟩,
            productions_of_fixed (by simp only [produceForExecution, hclone])⟩

/-- A body that cannot be replayed is spent after one call. -/
theorem spent_of_not_replayable {body : PreparedBody ε β} (h : body.isReplayable = false) :
    body.produceForExecution.1.produceForExecution =
      (body.produceForExecution.1, .error .alreadyConsumed) := by
  obtain ⟨recipe, mediaType⟩ := body
  cases recipe with
  | empty => simp [isReplayable] at h
  | reusableBytes bytes => simp [isReplayable] at h
  | requestBodyFactory factory calls => simp [isReplayable] at h
  | oneShotByteStream body => cases body <;> rfl
  | oneShotHttpBody body => cases body <;> rfl
  | multipartRecipe recipe =>
      cases recipe with
      | none => rfl
      | some recipe =>
          have hr : recipe.isReconstructible = false := h
          have hclone : recipe.cloneIfReconstructible = none := by
            rw [recipe.cloneIfReconstructible_eq, hr]
            rfl
          simp only [produceForExecution, hclone]

/-- The content of a recipe. -/
inductive Content : RequestBodyRecipe ε β → TerminalBody β → Prop
  | empty : Content .empty .empty
  | reusableBytes (bytes : List UInt8) : Content (.reusableBytes bytes) (.reusableBytes bytes)
  | oneShotByteStream (stream : β) :
      Content (.oneShotByteStream (some stream)) (.oneShotByteStream stream)
  | oneShotHttpBody (inner : β) : Content (.oneShotHttpBody (some inner)) (.oneShotHttpBody inner)
  | requestBodyFactory {factory : Nat → Except ε (TerminalBody β)} {calls : Nat}
      {terminal : TerminalBody β} (h : factory calls = .ok terminal) :
      Content (.requestBodyFactory factory calls) terminal
  | multipartRecipe (recipe : MultipartBody β) :
      Content (.multipartRecipe (some recipe)) (.multipartRecipe recipe)

/-- The media type of what a body produces.  That of a multipart body has its
boundary and is known where it is sent. -/
def producedMediaType (body : PreparedBody ε β) : Option HeaderValue :=
  match body.recipe with
  | .empty | .multipartRecipe _ => none
  | _ => body.fixedMediaType

/-- What is produced has the content and the media type of the body. -/
def Makes (body : PreparedBody ε β) (produced : ProducedBody β) : Prop :=
  Content body.recipe produced.terminal ∧ produced.mediaType = body.producedMediaType

theorem makes_of_produce {body : PreparedBody ε β} {produced : ProducedBody β}
    (h : body.produceForExecution.2 = .ok produced) : body.Makes produced := by
  obtain ⟨recipe, mediaType⟩ := body
  cases recipe with
  | empty =>
      cases h
      exact ⟨.empty, rfl⟩
  | reusableBytes bytes =>
      cases h
      exact ⟨.reusableBytes bytes, rfl⟩
  | oneShotByteStream stream =>
      cases stream with
      | none => cases h
      | some stream =>
          cases h
          exact ⟨.oneShotByteStream stream, rfl⟩
  | oneShotHttpBody inner =>
      cases inner with
      | none => cases h
      | some inner =>
          cases h
          exact ⟨.oneShotHttpBody inner, rfl⟩
  | requestBodyFactory factory calls =>
      cases hcall : factory calls with
      | error error =>
          simp only [produceForExecution, hcall] at h
          cases h
      | ok terminal =>
          simp only [produceForExecution, hcall] at h
          cases h
          exact ⟨.requestBodyFactory hcall, rfl⟩
  | multipartRecipe recipe =>
      cases recipe with
      | none => cases h
      | some recipe =>
          have hproduced : produced = ⟨.multipartRecipe recipe, none⟩ := by
            have hclone := recipe.cloneIfReconstructible_eq
            cases hr : recipe.isReconstructible with
            | true =>
                rw [hr, if_pos rfl] at hclone
                simp only [produceForExecution, hclone] at h
                exact (Except.ok.inj h).symm
            | false =>
                rw [hr, if_neg Bool.false_ne_true] at hclone
                simp only [produceForExecution, hclone] at h
                exact (Except.ok.inj h).symm
          rw [hproduced]
          exact ⟨.multipartRecipe recipe, rfl⟩

end PreparedBody

/-- **Replay**: however often a body that says it can be replayed is produced,
every call succeeds with the content and the media type of the body; of a body
that says it cannot, no call after the first succeeds, and each reports that the
body has been consumed.  A multipart body says it can be rebuilt exactly when its
clone exists, and the clone has the same parts in the same order. -/
theorem body_replay_contract (body : PreparedBody ε β) (hfactory : body.FactoryRepeats) :
    (body.isReplayable = true →
      ∃ produced, body.Makes produced ∧
        ∀ n, body.productions n = List.replicate n (.ok produced)) ∧
    (body.isReplayable = false →
      ∃ first, (∀ produced, first = .ok produced → body.Makes produced) ∧
        ∀ n, body.productions (n + 1) =
          first :: List.replicate n (.error .alreadyConsumed)) ∧
    (∀ multipart : MultipartBody β,
      (multipart.isReconstructible = true ↔
        ∃ clone, multipart.cloneIfReconstructible = some clone) ∧
      ∀ clone, multipart.cloneIfReconstructible = some clone →
        clone.parts = multipart.parts) := by
  refine ⟨fun h => ?_, fun h => ?_, fun multipart => ?_⟩
  · obtain ⟨produced, hproduced⟩ := PreparedBody.productions_of_replayable hfactory h
    have hfirst : body.produceForExecution.2 = .ok produced := (List.cons.inj (hproduced 1)).1
    exact ⟨produced, PreparedBody.makes_of_produce hfirst, hproduced⟩
  · refine ⟨body.produceForExecution.2, fun _ => PreparedBody.makes_of_produce, fun n => ?_⟩
    rw [PreparedBody.productions,
      PreparedBody.productions_of_fixed (PreparedBody.spent_of_not_replayable h)]
  · rw [multipart.cloneIfReconstructible_eq]
    cases multipart.isReconstructible with
    | true =>
        refine ⟨iff_of_true rfl ⟨multipart, rfl⟩, fun clone hclone => ?_⟩
        rw [← Option.some.inj hclone]
    | false => exact ⟨iff_of_false (by simp) (by simp), by simp⟩

/-- A factory that returns the same two bytes on every call. -/
theorem body_replay_contract_factory :
    ∃ produced, (PreparedBody.mk (.requestBodyFactory
        (fun _ => .ok (.reusableBytes [1, 2])) 0) none : PreparedBody Unit Unit).Makes produced ∧
      ∀ n, (PreparedBody.mk (.requestBodyFactory
        (fun _ => .ok (.reusableBytes [1, 2])) 0) none :
          PreparedBody Unit Unit).productions n = List.replicate n (.ok produced) :=
  (body_replay_contract (PreparedBody.mk (.requestBodyFactory
      (fun _ => .ok (.reusableBytes [1, 2])) 0) none : PreparedBody Unit Unit)
    (fun factory calls h => by
      rw [RequestBodyRecipe.requestBodyFactory.injEq] at h
      exact ⟨.reusableBytes [1, 2], fun call _ => by rw [← h.1]⟩)).1 rfl

/-! ## media types -/

/-- `apply_execution_media_type`: the headers with the media type of the
produced body, `none` if they have another one. -/
def applyExecutionMediaType (headers : HeaderMap) (mediaType : Option HeaderValue) :
    Option HeaderMap :=
  match mediaType with
  | none => some headers
  | some mediaType =>
    match headers.get HeaderName.contentType with
    | some existing => if existing = mediaType then some headers else none
    | none => some (headers.insert HeaderName.contentType mediaType)

theorem getAll_of_applyExecutionMediaType {headers headers' : HeaderMap}
    {mediaType : Option HeaderValue} (h : applyExecutionMediaType headers mediaType = some headers')
    {name : HeaderName} (hname : name ≠ HeaderName.contentType) :
    headers'.getAll name = headers.getAll name := by
  unfold applyExecutionMediaType at h
  split at h
  · rw [← Option.some.inj h]
  · split at h
    · split at h
      · rw [← Option.some.inj h]
      · contradiction
    · rw [← Option.some.inj h, Multimap.getAll_insert_of_ne hname]

end Concord
