import Concord.Auth.Error

/-!
# Concord.Auth.Credentials

The credential slot (`concord_core/src/auth/credentials.rs`): a mutex around
`CredentialSlotInner`, read and written by any number of tasks.

Every function below is one *lock section* of the source — the code between
taking the mutex and releasing it — and maps the protected value to its
successor together with what the section returns.  The parts of an operation
that run outside the lock (awaiting the provider, waiting on a `Notify`,
issuing `notify_waiters`) belong to the tasks and are modelled in
`Concord.Auth.SlotWorld`.  `commit_slot_result` takes the lock twice and is
therefore two functions.

An `Arc<Notify>` is the number it was allocated under.
-/

namespace Concord

open Checked

/-! ## data -/

/-- `CredentialMaterial`: what the slot asks of a credential value. -/
class CredentialMaterial (T : Type*) where
  expiresAt : T → Option Instant

/-- `SecretCredential`: a credential with one secret string. -/
class SecretCredential (T : Type*) extends CredentialMaterial T where
  secretValue : T → String

/-- A bearer token and when it expires. -/
structure AccessToken where
  token : String
  expiresAt : Option Instant
  deriving DecidableEq, Repr

instance : SecretCredential AccessToken where
  expiresAt token := token.expiresAt
  secretValue token := token.token

/-- When a credential is renewed, and which answers reject it. -/
structure AuthStepPolicy where
  refreshSkew : Duration
  recoverOnUnauthorized : Bool
  recoverOnForbidden : Bool
  invalidateOnUnauthorized : Bool
  invalidateOnForbidden : Bool
  deriving DecidableEq, Repr

/-- `AuthStepPolicy::default()`: a skew of sixty seconds. -/
def AuthStepPolicy.default : AuthStepPolicy where
  refreshSkew := 60 * 1000000000
  recoverOnUnauthorized := true
  recoverOnForbidden := true
  invalidateOnUnauthorized := true
  invalidateOnForbidden := true

/-- A credential that is handed out, with its generation. -/
structure CredentialLease (T : Type*) where
  value : T
  generation : Nat
  deriving DecidableEq, Repr

/-- An allocated `Arc<Notify>`. -/
abbrev NotifyId := Nat

/-- The number of an attempt. -/
abbrev RefreshOwnerId := Nat

/-- What the slot held before an attempt. -/
inductive RefreshPrevious (T : Type*) where
  | empty
  | valid (value : T) (generation : Nat)
  | failed (error : AuthError) (retryAfter : Option Instant)
  deriving DecidableEq, Repr

/-- What a slot holds, or who is fetching it. -/
inductive CredentialSlotState (T : Type*) where
  | empty (generation : Nat)
  | valid (value : T) (generation : Nat)
  | refreshing (notify : NotifyId) (generation : Nat) (owner : RefreshOwnerId)
      (previous : RefreshPrevious T)
  | failed (generation : Nat) (error : AuthError) (retryAfter : Option Instant)
  deriving DecidableEq, Repr

/-- What is behind the slot's lock. -/
structure CredentialSlotInner (T : Type*) where
  state : CredentialSlotState T
  nextOwner : Nat
  deriving DecidableEq, Repr

/-- The guard of an attempt, which restores the slot unless it is disarmed. -/
structure RefreshGuard where
  owner : RefreshOwnerId
  disarmed : Bool
  deriving DecidableEq, Repr

/-- A guard that will not roll back. -/
def RefreshGuard.disarm (guard : RefreshGuard) : RefreshGuard := { guard with disarmed := true }

/-- What a caller does after it has looked at the slot. -/
inductive SlotAction (T : Type*) where
  | wait (notified : NotifyId)
  | acquire (generation : Nat) (guard : RefreshGuard)
  | refresh (current : T) (generation : Nat) (guard : RefreshGuard)
      (reason : CredentialRefreshReason)
  deriving DecidableEq, Repr

/-- What comes of an attempt. -/
inductive CommitOutcome (T : Type*) where
  | stored (lease : CredentialLease T)
  | failed (error : AuthError)
  | staleOwner
  deriving DecidableEq, Repr

/-- How one pass of the loop of `get_or_refresh` leaves its lock section:
by returning from the call, with an action to carry out outside the lock,
or by `continue`. -/
inductive GetOrRefreshPass (T : Type*) where
  | returned (result : Except AuthError (CredentialLease T))
  | action (action : SlotAction T)
  | again

/-- `CredentialSlot`, with `provider` reduced to whether it is present. -/
structure CredentialSlot (T : Type*) where
  provider : Bool
  initError : Option AuthError
  inner : CredentialSlotInner T

variable {T : Type*}

namespace CredentialSlotState

/-- The generation of a state. -/
def generation : CredentialSlotState T → Nat
  | .empty generation => generation
  | .valid _ generation => generation
  | .refreshing _ generation _ _ => generation
  | .failed generation _ _ => generation

/-- The attempt that holds the slot in flight. -/
def owner? : CredentialSlotState T → Option RefreshOwnerId
  | .refreshing _ _ owner _ => some owner
  | _ => none

/-- The handle of the attempt in flight. -/
def notify? : CredentialSlotState T → Option NotifyId
  | .refreshing notify _ _ _ => some notify
  | _ => none

/-- The credential the slot holds, as current or as the one an attempt in
flight would restore, with the generation it is held under. -/
def held? : CredentialSlotState T → Option (CredentialLease T)
  | .valid value generation => some ⟨value, generation⟩
  | .refreshing _ _ _ (.valid value generation) => some ⟨value, generation⟩
  | _ => none

section fields

variable (value : T) (notify generation owner g : Nat) (previous : RefreshPrevious T)
  (error : AuthError) (retryAfter : Option Instant)

@[simp] theorem generation_empty : (empty g : CredentialSlotState T).generation = g := rfl
@[simp] theorem generation_valid : (valid value g).generation = g := rfl
@[simp] theorem generation_refreshing : (refreshing notify g owner previous).generation = g := rfl
@[simp] theorem generation_failed :
    (failed g error retryAfter : CredentialSlotState T).generation = g := rfl

@[simp] theorem owner?_empty : (empty g : CredentialSlotState T).owner? = none := rfl
@[simp] theorem owner?_valid : (valid value g).owner? = none := rfl
@[simp] theorem owner?_refreshing :
    (refreshing notify g owner previous).owner? = some owner := rfl
@[simp] theorem owner?_failed :
    (failed g error retryAfter : CredentialSlotState T).owner? = none := rfl

@[simp] theorem notify?_empty : (empty g : CredentialSlotState T).notify? = none := rfl
@[simp] theorem notify?_valid : (valid value g).notify? = none := rfl
@[simp] theorem notify?_refreshing :
    (refreshing notify g owner previous).notify? = some notify := rfl
@[simp] theorem notify?_failed :
    (failed g error retryAfter : CredentialSlotState T).notify? = none := rfl

@[simp] theorem held?_empty : (empty g : CredentialSlotState T).held? = none := rfl
@[simp] theorem held?_valid : (valid value g).held? = some ⟨value, g⟩ := rfl
@[simp] theorem held?_refreshing_valid :
    (refreshing notify generation owner (.valid value g)).held? = some ⟨value, g⟩ := rfl
@[simp] theorem held?_refreshing_empty :
    (refreshing notify g owner (.empty : RefreshPrevious T)).held? = none := rfl
@[simp] theorem held?_refreshing_failed :
    (refreshing notify g owner (.failed error retryAfter : RefreshPrevious T)).held? = none := rfl
@[simp] theorem held?_failed :
    (failed g error retryAfter : CredentialSlotState T).held? = none := rfl

end fields

end CredentialSlotState

/-! ## counters -/

/-- No generation is left. -/
def generationOverflow : AuthError :=
  AuthError.new .acquireFailed "credential generation counter overflowed"

/-- No owner is left. -/
def ownerOverflow : AuthError :=
  AuthError.new .acquireFailed "credential refresh owner counter overflowed"

/-- `next_generation`: the next one, unless it overflows. -/
def nextGeneration (state : CredentialSlotState T) : Except AuthError Nat :=
  match checkedAdd u64Max state.generation 1 with
  | some generation => .ok generation
  | none => .error generationOverflow

/-- `next_refresh_owner`: hands out `next_owner` and advances it.  On
overflow the counter is left where it was. -/
def CredentialSlotInner.nextRefreshOwner (inner : CredentialSlotInner T) :
    Except AuthError (RefreshOwnerId × CredentialSlotInner T) :=
  match checkedAdd u64Max inner.nextOwner 1 with
  | some next => .ok (inner.nextOwner, { inner with nextOwner := next })
  | none => .error ownerOverflow

/-! ## expiry -/

/-- `credential_refresh_reason`: expired, about to expire, or neither. -/
def credentialRefreshReason [CredentialMaterial T] (value : T) (policy : AuthStepPolicy)
    (now : Instant) : Except AuthError (Option CredentialRefreshReason) :=
  match CredentialMaterial.expiresAt value with
  | none => .ok none
  | some expiresAt =>
    if expiresAt ≤ now then
      .ok (some .expired)
    else
      match checkedAuthInstantAdd now policy.refreshSkew "auth refresh_skew overflowed" with
      | .error error => .error error
      | .ok soon => if expiresAt ≤ soon then .ok (some .expiringSoon) else .ok none

/-! ## slot construction -/

namespace CredentialSlot

/-- A slot whose provider could not be made says so to every caller. -/
def newResult (provider : Except AuthError Unit) : CredentialSlot T :=
  match provider with
  | .ok _ => ⟨true, none, ⟨.empty 0, 1⟩⟩
  | .error error => ⟨false, some error, ⟨.empty 0, 1⟩⟩

/-- A slot with a provider and nothing in it. -/
def new : CredentialSlot T := ⟨true, none, ⟨.empty 0, 1⟩⟩

/-- `provider_ref`. -/
def providerRef (slot : CredentialSlot T) : Except AuthError Unit :=
  match slot.initError with
  | some error => .error error
  | none =>
    if slot.provider then .ok ()
    else .error (AuthError.stateUnavailable "credential slot provider missing")

end CredentialSlot

/-! ## get_or_refresh -/

/-- The lock section of one pass of `get_or_refresh`.  `notify` is the
handle a new attempt would allocate; `now` is the clock reading of the match
guard (and of the `retry_after` test) and `now'` the second reading, taken
when the refresh reason is computed again.

The empty arm draws the owner before the generation, the other two after:
an empty slot whose generation is exhausted still uses up an owner. -/
def getOrRefresh [CredentialMaterial T] (inner : CredentialSlotInner T)
    (policy : AuthStepPolicy) (notify : NotifyId) (now now' : Instant) :
    CredentialSlotInner T × GetOrRefreshPass T :=
  match inner.state with
  | .valid value previousGeneration =>
    match credentialRefreshReason value policy now with
    | .error error => (inner, .returned (.error error))
    | .ok none => (inner, .returned (.ok ⟨value, previousGeneration⟩))
    | .ok (some _) =>
      match nextGeneration inner.state with
      | .error error => (inner, .returned (.error error))
      | .ok generation =>
        match credentialRefreshReason value policy now' with
        | .error error => (inner, .returned (.error error))
        | .ok reason =>
          match inner.nextRefreshOwner with
          | .error error => (inner, .returned (.error error))
          | .ok (owner, inner) =>
            ({ inner with
                state := .refreshing notify generation owner (.valid value previousGeneration) },
              .action (.refresh value generation ⟨owner, false⟩ (reason.getD .expiringSoon)))
  | .refreshing notify _ owner _ =>
    -- The handle is enabled under the lock; the second look at the owner is
    -- made under the same lock and always succeeds.
    if inner.state.owner? = some owner then (inner, .action (.wait notify)) else (inner, .again)
  | .failed _ error retryAfter =>
    if retryAfter.any (now < ·) then
      (inner, .returned (.error error))
    else
      match nextGeneration inner.state with
      | .error error => (inner, .returned (.error error))
      | .ok generation =>
        match inner.nextRefreshOwner with
        | .error error => (inner, .returned (.error error))
        | .ok (owner, inner) =>
          ({ inner with state := .refreshing notify generation owner (.failed error retryAfter) },
            .action (.acquire generation ⟨owner, false⟩))
  | .empty _ =>
    match inner.nextRefreshOwner with
    | .error error => (inner, .returned (.error error))
    | .ok (owner, inner) =>
      match nextGeneration inner.state with
      | .error error => (inner, .returned (.error error))
      | .ok generation =>
        ({ inner with state := .refreshing notify generation owner .empty },
          .action (.acquire generation ⟨owner, false⟩))

/-! ## ending an attempt -/

/-- `RefreshPrevious::into_state_at`: the previous contents come back under
the attempt's generation, not under their own. -/
def RefreshPrevious.intoStateAt (previous : RefreshPrevious T) (generation : Nat) :
    CredentialSlotState T :=
  match previous with
  | .empty => .empty generation
  | .valid value _ => .valid value generation
  | .failed error retryAfter => .failed generation error retryAfter

/-- `RefreshGuard::drop`: rolls the slot back if the guard is armed and the
slot is still in flight under its owner, and names the handle to notify
after the lock is released. -/
def RefreshGuard.drop (guard : RefreshGuard) (inner : CredentialSlotInner T) :
    CredentialSlotInner T × Option NotifyId :=
  if guard.disarmed then
    (inner, none)
  else
    match inner.state with
    | .refreshing notify generation owner previous =>
      if owner = guard.owner then
        ({ inner with state := previous.intoStateAt generation }, some notify)
      else (inner, none)
    | _ => (inner, none)

/-- First lock section of `commit_slot_result`: the handle of the attempt if
it still owns the slot, `none` if it is stale. -/
def commitSlotResultCheck (inner : CredentialSlotInner T) (attemptGeneration : Nat)
    (guard : RefreshGuard) : Option NotifyId :=
  match inner.state with
  | .refreshing notify generation owner _ =>
    if owner = guard.owner ∧ generation = attemptGeneration then some notify else none
  | _ => none

/-- What the second lock section of `commit_slot_result` leaves behind:
`notified` says whether it issued `notify_waiters` before returning. -/
structure Committed (T : Type*) where
  inner : CredentialSlotInner T
  guard : RefreshGuard
  notified : Bool
  result : Except AuthError (CommitOutcome T)

/-- Second lock section of `commit_slot_result`.  A retry-after that cannot
be represented leaves through `?` before the assignment: the slot stays in
flight and the guard stays armed. -/
def commitSlotResultStore (inner : CredentialSlotInner T) (attemptGeneration : Nat)
    (guard : RefreshGuard) (result : Except AuthError T) (now : Instant) : Committed T :=
  match commitSlotResultCheck inner attemptGeneration guard with
  | none => ⟨inner, guard.disarm, false, .ok .staleOwner⟩
  | some _ =>
    match result with
    | .ok value =>
      ⟨{ inner with state := .valid value attemptGeneration }, guard.disarm,
        true, .ok (.stored ⟨value, attemptGeneration⟩)⟩
    | .error error =>
      match error.retryAfter with
      | none =>
        ⟨{ inner with state := .failed attemptGeneration error none },
          guard.disarm, true, .ok (.failed error)⟩
      | some wait =>
        match checkedAuthInstantAdd now wait "auth retry-after overflowed" with
        | .error overflow => ⟨inner, guard, false, .error overflow⟩
        | .ok retryAfter =>
          ⟨{ inner with state := .failed attemptGeneration error (some retryAfter) },
            guard.disarm, true, .ok (.failed error)⟩

/-! ## invalidation and manual control -/

/-- `invalidate_generation_state`: returns the credential it removed and the
generation the slot was at. -/
def invalidateGenerationState (inner : CredentialSlotInner T) (generation : Option Nat) :
    CredentialSlotInner T × Except AuthError (Option T × Option Nat) :=
  let currentGeneration := some inner.state.generation
  match inner.state with
  | .valid value current =>
    if generation.all (· = current) then
      match checkedAdd u64Max current 1 with
      | none => (inner, .error generationOverflow)
      | some next => ({ inner with state := .empty next }, .ok (some value, currentGeneration))
    else (inner, .ok (none, currentGeneration))
  | .refreshing notify attemptGeneration owner (.valid value previousGeneration) =>
    if generation.all (· = previousGeneration) then
      ({ inner with state := .refreshing notify attemptGeneration owner .empty },
        .ok (some value, currentGeneration))
    else (inner, .ok (none, currentGeneration))
  | _ => (inner, .ok (none, currentGeneration))

/-- The lock section of `set_manual`; the result names the handle to notify
after the lock is released. -/
def setManual (inner : CredentialSlotInner T) (value : T) :
    CredentialSlotInner T × Except AuthError (Option NotifyId) :=
  match nextGeneration inner.state with
  | .error error => (inner, .error error)
  | .ok generation =>
    ({ inner with state := .valid value generation }, .ok inner.state.notify?)

/-- The lock section of `clear_manual`. -/
def clearManual (inner : CredentialSlotInner T) :
    CredentialSlotInner T × Except AuthError (Option NotifyId) :=
  match nextGeneration inner.state with
  | .error error => (inner, .error error)
  | .ok generation => ({ inner with state := .empty generation }, .ok inner.state.notify?)

/-- `get_cached`: what the slot holds unless an attempt is under way. -/
def getCached (inner : CredentialSlotInner T) : Option (CredentialLease T) :=
  match inner.state with
  | .valid value generation => some ⟨value, generation⟩
  | _ => none

/-! ## what each section can do -/

/-- The contents an attempt started from a state would restore. -/
def CredentialSlotState.previous : CredentialSlotState T → RefreshPrevious T
  | .valid value generation => .valid value generation
  | .failed _ error retryAfter => .failed error retryAfter
  | _ => .empty

/-- A rollback is at the generation it is told. -/
@[simp] theorem intoStateAt_generation (previous : RefreshPrevious T) (generation : Nat) :
    (previous.intoStateAt generation).generation = generation := by
  cases previous <;> rfl

/-- And in nobody's hands. -/
@[simp] theorem intoStateAt_owner? (previous : RefreshPrevious T) (generation : Nat) :
    (previous.intoStateAt generation).owner? = none := by
  cases previous <;> rfl

/-- There is a next generation below `u64::MAX`. -/
theorem nextGeneration_eq_ok_iff {state : CredentialSlotState T} {generation : Nat} :
    nextGeneration state = .ok generation ↔
      state.generation + 1 ≤ u64Max ∧ state.generation + 1 = generation := by
  unfold nextGeneration
  cases h : checkedAdd u64Max state.generation 1 with
  | none => simp only [checkedAdd_eq_none_iff] at h; grind
  | some next => simp only [checkedAdd_eq_some_iff] at h; grind

/-- At the last generation no further one is handed out. -/
theorem nextGeneration_of_max {state : CredentialSlotState T}
    (h : state.generation = u64Max) : nextGeneration state = .error generationOverflow := by
  have hnone : checkedAdd u64Max state.generation 1 = none :=
    checkedAdd_eq_none_iff.mpr (by omega)
  simp only [nextGeneration, hnone]

/-- Owners are counted. -/
theorem nextRefreshOwner_eq_ok {inner inner' : CredentialSlotInner T} {owner : RefreshOwnerId}
    (h : inner.nextRefreshOwner = .ok (owner, inner')) :
    owner = inner.nextOwner ∧ inner' = ⟨inner.state, inner.nextOwner + 1⟩ := by
  unfold CredentialSlotInner.nextRefreshOwner at h
  cases hc : checkedAdd u64Max inner.nextOwner 1 with
  | none => simp only [hc] at h; contradiction
  | some next =>
      simp only [hc, Except.ok.injEq, Prod.mk.injEq] at h
      have hnext := (checkedAdd_eq_some_iff.mp hc).2
      grind

/-- The ways a pass of `get_or_refresh` leaves its lock section: it hands
out the current credential, joins the attempt in flight, starts an attempt
of its own, or returns an error.  Only a start changes the state. -/
inductive GetOrRefreshSpec [CredentialMaterial T] (inner : CredentialSlotInner T)
    (policy : AuthStepPolicy) (notify : NotifyId) (now : Instant) :
    CredentialSlotInner T × GetOrRefreshPass T → Prop
  | lease {value : T} {generation : Nat} (hs : inner.state = .valid value generation)
      (hr : credentialRefreshReason value policy now = .ok none) :
      GetOrRefreshSpec inner policy notify now (inner, .returned (.ok ⟨value, generation⟩))
  | join {joined generation owner : Nat} {previous : RefreshPrevious T}
      (hs : inner.state = .refreshing joined generation owner previous) :
      GetOrRefreshSpec inner policy notify now (inner, .action (.wait joined))
  | acquire (ho : inner.state.owner? = none) (hg : inner.state.generation + 1 ≤ u64Max) :
      GetOrRefreshSpec inner policy notify now
        (⟨.refreshing notify (inner.state.generation + 1) inner.nextOwner inner.state.previous,
          inner.nextOwner + 1⟩,
          .action (.acquire (inner.state.generation + 1) ⟨inner.nextOwner, false⟩))
  | refresh {current : T} {reason : CredentialRefreshReason} (ho : inner.state.owner? = none)
      (hg : inner.state.generation + 1 ≤ u64Max) :
      GetOrRefreshSpec inner policy notify now
        (⟨.refreshing notify (inner.state.generation + 1) inner.nextOwner inner.state.previous,
          inner.nextOwner + 1⟩,
          .action (.refresh current (inner.state.generation + 1) ⟨inner.nextOwner, false⟩ reason))
  | refused {error : AuthError} {nextOwner : Nat} (hn : inner.nextOwner ≤ nextOwner) :
      GetOrRefreshSpec inner policy notify now
        (⟨inner.state, nextOwner⟩, .returned (.error error))

/-- What `get_or_refresh` decides under the lock. -/
theorem getOrRefresh_spec [CredentialMaterial T] (inner : CredentialSlotInner T)
    (policy : AuthStepPolicy) (notify : NotifyId) (now now' : Instant) :
    GetOrRefreshSpec inner policy notify now (getOrRefresh inner policy notify now now') := by
  obtain ⟨state, next⟩ := inner
  cases state with
  | valid value generation =>
      simp only [getOrRefresh]
      split
      · exact .refused (Nat.le_refl _)
      · next hr => exact .lease rfl hr
      · split
        · exact .refused (Nat.le_refl _)
        · next generation' hg =>
            obtain ⟨hle, rfl⟩ := nextGeneration_eq_ok_iff.mp hg
            split
            · exact .refused (Nat.le_refl _)
            · split
              · exact .refused (Nat.le_refl _)
              · next owner inner' ho =>
                  obtain ⟨rfl, rfl⟩ := nextRefreshOwner_eq_ok ho
                  exact .refresh rfl hle
  | refreshing joined generation owner previous =>
      simp only [getOrRefresh, CredentialSlotState.owner?_refreshing, if_true]
      exact .join rfl
  | failed generation error retryAfter =>
      simp only [getOrRefresh]
      split
      · exact .refused (Nat.le_refl _)
      · split
        · exact .refused (Nat.le_refl _)
        · next generation' hg =>
            obtain ⟨hle, rfl⟩ := nextGeneration_eq_ok_iff.mp hg
            split
            · exact .refused (Nat.le_refl _)
            · next owner inner' ho =>
                obtain ⟨rfl, rfl⟩ := nextRefreshOwner_eq_ok ho
                exact .acquire rfl hle
  | empty generation =>
      simp only [getOrRefresh]
      split
      · exact .refused (Nat.le_refl _)
      · next owner inner' ho =>
          obtain ⟨rfl, rfl⟩ := nextRefreshOwner_eq_ok ho
          split
          · exact .refused (Nat.le_succ _)
          · next generation' hg =>
              obtain ⟨hle, rfl⟩ := nextGeneration_eq_ok_iff.mp hg
              exact .acquire rfl hle

/-- A dropped guard either finds the slot out of its hands and leaves it, or
rolls its own attempt back. -/
inductive DropSpec (guard : RefreshGuard) (inner : CredentialSlotInner T) :
    CredentialSlotInner T × Option NotifyId → Prop
  | kept (h : guard.disarmed = true ∨ inner.state.owner? ≠ some guard.owner) :
      DropSpec guard inner (inner, none)
  | rolledBack {notify generation : Nat} {previous : RefreshPrevious T}
      (hd : guard.disarmed = false)
      (hs : inner.state = .refreshing notify generation guard.owner previous) :
      DropSpec guard inner ({ inner with state := previous.intoStateAt generation }, some notify)

/-- A guard that is dropped restores the slot only if it is armed and its owner's. -/
theorem RefreshGuard.drop_spec (guard : RefreshGuard) (inner : CredentialSlotInner T) :
    DropSpec guard inner (guard.drop inner) := by
  unfold RefreshGuard.drop
  split
  · next hd => exact .kept (.inl hd)
  · next hd =>
      split
      · next notify generation owner previous hs =>
          split
          · next ho => exact .rolledBack (by simpa using hd) (ho ▸ hs)
          · next ho => exact .kept (.inr (by simp [hs, ho]))
      · next hs =>
          refine .kept (.inr ?_)
          cases hst : inner.state with
          | refreshing n g o p => exact absurd hst (hs n g o p)
          | _ => simp

/-- The check succeeds for the owner's attempt alone. -/
theorem commitSlotResultCheck_eq_some_iff {inner : CredentialSlotInner T} {generation : Nat}
    {guard : RefreshGuard} {notify : NotifyId} :
    commitSlotResultCheck inner generation guard = some notify ↔
      ∃ previous, inner.state = .refreshing notify generation guard.owner previous := by
  unfold commitSlotResultCheck
  split
  · next n g o p hs => split <;> grind
  · next hs =>
      constructor
      · intro h; contradiction
      · intro h
        obtain ⟨p, hp⟩ := h
        exact absurd hp (hs _ _ _ _)

/-- The second lock section of a commit: stale, stored, failed, or out
through `?` with the slot still in flight and the guard still armed. -/
inductive StoreSpec (inner : CredentialSlotInner T) (generation : Nat) (guard : RefreshGuard)
    (result : Except AuthError T) : Committed T → Prop
  | stale (h : commitSlotResultCheck inner generation guard = none) :
      StoreSpec inner generation guard result
        ⟨inner, guard.disarm, false, .ok .staleOwner⟩
  | stored {notify : NotifyId} {previous : RefreshPrevious T} {value : T}
      (hs : inner.state = .refreshing notify generation guard.owner previous)
      (hr : result = .ok value) :
      StoreSpec inner generation guard result
        ⟨{ inner with state := .valid value generation }, guard.disarm, true,
          .ok (.stored ⟨value, generation⟩)⟩
  | failed {notify : NotifyId} {previous : RefreshPrevious T} {error : AuthError}
      {retryAfter : Option Instant}
      (hs : inner.state = .refreshing notify generation guard.owner previous)
      (hr : result = .error error) :
      StoreSpec inner generation guard result
        ⟨{ inner with state := .failed generation error retryAfter },
          guard.disarm, true, .ok (.failed error)⟩
  | overflowed {overflow : AuthError} :
      StoreSpec inner generation guard result ⟨inner, guard, false, .error overflow⟩

/-- What an attempt stores. -/
theorem commitSlotResultStore_spec (inner : CredentialSlotInner T) (generation : Nat)
    (guard : RefreshGuard) (result : Except AuthError T) (now : Instant) :
    StoreSpec inner generation guard result
      (commitSlotResultStore inner generation guard result now) := by
  unfold commitSlotResultStore
  split
  · next h => exact .stale h
  · next notify h =>
      obtain ⟨previous, hs⟩ := commitSlotResultCheck_eq_some_iff.mp h
      cases result with
      | ok value => exact .stored hs rfl
      | error error =>
          simp only
          split
          · exact .failed hs rfl
          · split
            · exact .overflowed
            · exact .failed hs rfl

/-- An invalidation removes the credential the slot holds, or leaves the
slot as it is. -/
inductive InvalidateSpec (inner : CredentialSlotInner T) (generation : Option Nat) :
    CredentialSlotInner T × Except AuthError (Option T × Option Nat) → Prop
  | current {value : T} {g : Nat} (hs : inner.state = .valid value g)
      (hg : generation.all (· = g)) (hle : g + 1 ≤ u64Max) :
      InvalidateSpec inner generation
        ({ inner with state := .empty (g + 1) }, .ok (some value, some g))
  | previous {notify g owner : Nat} {value : T} {g' : Nat}
      (hs : inner.state = .refreshing notify g owner (.valid value g'))
      (hg : generation.all (· = g')) :
      InvalidateSpec inner generation
        ({ inner with state := .refreshing notify g owner .empty }, .ok (some value, some g))
  | exhausted {value : T} {g : Nat} (hs : inner.state = .valid value g)
      (hg : generation.all (· = g)) (hmax : u64Max < g + 1) :
      InvalidateSpec inner generation (inner, .error generationOverflow)
  | ignored (h : ∀ lease, inner.state.held? = some lease →
        ∃ g, generation = some g ∧ g ≠ lease.generation) :
      InvalidateSpec inner generation (inner, .ok (none, some inner.state.generation))

/-- What an invalidation does to each state of the slot. -/
theorem invalidateGenerationState_spec (inner : CredentialSlotInner T)
    (generation : Option Nat) :
    InvalidateSpec inner generation (invalidateGenerationState inner generation) := by
  obtain ⟨state, next⟩ := inner
  -- A failed match names the generation that was asked for.
  have hmiss : ∀ g : Nat, ¬ generation.all (· = g) = true →
      ∃ g', generation = some g' ∧ g' ≠ g := by
    intro g h
    cases generation with
    | none => simp at h
    | some g' => exact ⟨g', rfl, by simpa using h⟩
  cases state with
  | valid value g =>
      simp only [invalidateGenerationState]
      split
      · next hg =>
          split
          · next hc => exact .exhausted rfl hg (checkedAdd_eq_none_iff.mp hc)
          · next next' hc =>
              obtain ⟨hle, rfl⟩ := checkedAdd_eq_some_iff.mp hc
              exact .current rfl hg hle
      · next hg =>
          refine .ignored (fun lease hl => ?_)
          simp only [CredentialSlotState.held?_valid, Option.some.injEq] at hl
          exact hl ▸ hmiss g hg
  | refreshing notify g owner previous =>
      cases previous with
      | valid value g' =>
          simp only [invalidateGenerationState]
          split
          · next hg => exact .previous rfl hg
          · next hg =>
              refine .ignored (fun lease hl => ?_)
              simp only [CredentialSlotState.held?_refreshing_valid, Option.some.injEq] at hl
              exact hl ▸ hmiss g' hg
      | empty => exact .ignored (fun lease hl => by simp at hl)
      | failed e r => exact .ignored (fun lease hl => by simp at hl)
  | failed g e r => exact .ignored (fun lease hl => by simp at hl)
  | empty g => exact .ignored (fun lease hl => by simp at hl)

/-- `set_manual` and `clear_manual` replace the state by one of the next
generation, or refuse at the last one. -/
theorem setManual_spec (inner : CredentialSlotInner T) (value : T) :
    (inner.state.generation + 1 ≤ u64Max ∧ setManual inner value =
      ({ inner with state := .valid value (inner.state.generation + 1) },
        .ok inner.state.notify?)) ∨
    setManual inner value = (inner, .error generationOverflow) := by
  unfold setManual nextGeneration
  cases hc : checkedAdd u64Max inner.state.generation 1 with
  | none => exact .inr rfl
  | some next =>
      obtain ⟨hle, rfl⟩ := checkedAdd_eq_some_iff.mp hc
      exact .inl ⟨hle, rfl⟩

/-- Clearing empties the slot under a new generation, unless that overflows. -/
theorem clearManual_spec (inner : CredentialSlotInner T) :
    (inner.state.generation + 1 ≤ u64Max ∧ clearManual inner =
      ({ inner with state := .empty (inner.state.generation + 1) }, .ok inner.state.notify?)) ∨
    clearManual inner = (inner, .error generationOverflow) := by
  unfold clearManual nextGeneration
  cases hc : checkedAdd u64Max inner.state.generation 1 with
  | none => exact .inr rfl
  | some next =>
      obtain ⟨hle, rfl⟩ := checkedAdd_eq_some_iff.mp hc
      exact .inl ⟨hle, rfl⟩

end Concord
