import Concord.Lib.Transition
import Concord.Auth.Credentials

/-!
# Concord.Auth.SlotWorld

One credential slot and every task that uses it, as a transition system.

A task is inside `get_or_refresh` in one of three ways: between two passes
(it has no state of its own and is not recorded), as an *attempt* that
awaits its provider or commits the answer, or as a *waiter* on the handle of
somebody else's attempt.  A label is one atomic action: a lock section of
`Concord.Auth.Credentials`, a `notify_waiters` that a section left to be
issued after releasing the lock, or a waiter leaving its await.  Any label
may be taken whenever it is enabled, so a run is an arbitrary interleaving
of any number of tasks.

Two things are recorded that the code does not keep.  Each value put into
the slot is wrapped in `Stored` with a number of its own, so that two puts
of equal values stay apart; and handles are numbered in allocation order.

`Move` restates what an enabled label can do, one constructor per outcome,
and `World.step_move` shows that `World.step` does nothing else.  The
invariants of the slot are proved about `Move`.
-/

namespace Concord

open Checked Transition

/-! ## the parties -/

/-- A credential value together with the put it came from. -/
structure Stored (T : Type*) where
  object : Nat
  value : T
  deriving DecidableEq, Repr

instance {T : Type*} [CredentialMaterial T] : CredentialMaterial (Stored T) where
  expiresAt stored := CredentialMaterial.expiresAt stored.value

/-- Where an attempt is: awaiting its provider, between the two lock
sections of `commit_slot_result`, or on its way out with the guard still to
be dropped. -/
inductive Phase (T : Type*) where
  | awaiting
  | checked (result : Except AuthError (Stored T)) (notify : NotifyId)
  | returning

structure Attempt (T : Type*) where
  guard : RefreshGuard
  generation : Nat
  phase : Phase T

/-- A task that enabled a `Notified` future on `notify`. -/
structure Waiter where
  notify : NotifyId
  woken : Bool
  deriving DecidableEq, Repr

structure World (T : Type*) where
  slot : CredentialSlot (Stored T)
  attempts : List (Attempt T)
  waiters : List Waiter
  /-- Handles whose `notify_waiters` is the next action of a step that has
  already released the lock. -/
  pending : List NotifyId
  nextNotify : NotifyId
  nextObject : Nat

inductive Label (T : Type*) where
  | getOrRefresh (policy : AuthStepPolicy) (now now' : Instant)
  | commitCheck (owner : RefreshOwnerId) (result : Except AuthError T)
  | commitStore (owner : RefreshOwnerId) (now : Instant)
  | dropGuard (owner : RefreshOwnerId)
  | setManual (value : T)
  | clearManual
  | invalidateGeneration (generation : Option Nat)
  | invalidateGenerationLocal (generation : Option Nat)
  | getCached
  | notifyWaiters (notify : NotifyId)
  | resume (index : Nat)
  | abandon (index : Nat)

/-- What a step hands back to the task that took it. -/
inductive Outcome (T : Type*) where
  | leased (lease : CredentialLease (Stored T))
  | failed (error : AuthError)
  | done
  deriving DecidableEq, Repr

variable {T : Type*}

namespace World

/-- A slot nobody has used yet (`new` for `.ok ()`, else `new_result`). -/
def start (provider : Except AuthError Unit) : World T where
  slot := CredentialSlot.newResult provider
  attempts := []
  waiters := []
  pending := []
  nextNotify := 0
  nextObject := 0

/-- The fields behind the slot's lock. -/
def inner (w : World T) : CredentialSlotInner (Stored T) := w.slot.inner

/-- The state of the slot. -/
def state (w : World T) : CredentialSlotState (Stored T) := w.slot.inner.state

/-- The lock's fields written back. -/
def withInner (w : World T) (inner : CredentialSlotInner (Stored T)) : World T :=
  { w with slot := { w.slot with inner := inner } }

/-- The state written back. -/
def withState (w : World T) (state : CredentialSlotState (Stored T)) : World T :=
  w.withInner { w.inner with state := state }

/-- The task that started an attempt begins to await its provider. -/
def begin (w : World T) (generation : Nat) (guard : RefreshGuard) : World T :=
  { w with
    attempts := w.attempts ++ [⟨guard, generation, .awaiting⟩]
    nextNotify := w.nextNotify + 1 }

/-- The attempt of an owner. -/
def attempt? (w : World T) (owner : RefreshOwnerId) : Option (Attempt T) :=
  w.attempts.find? (·.guard.owner = owner)

/-- The attempt of an owner, written back. -/
def setAttempt (w : World T) (owner : RefreshOwnerId) (attempt : Attempt T) : World T :=
  { w with attempts := w.attempts.map fun a => if a.guard.owner = owner then attempt else a }

/-- The attempt of an owner, ended. -/
def removeAttempt (w : World T) (owner : RefreshOwnerId) : World T :=
  { w with attempts := w.attempts.filter fun a => a.guard.owner ≠ owner }

/-- `notify_waiters`: wakes every future enabled on the handle so far. -/
def wake (w : World T) (notify : NotifyId) : World T :=
  { w with
    waiters := w.waiters.map fun waiter =>
      if waiter.notify = notify then { waiter with woken := true } else waiter }

/-- Leave a `notify_waiters` to be issued after the lock is released. -/
def enqueue (w : World T) (notify : Option NotifyId) : World T :=
  { w with pending := w.pending ++ notify.toList }

/-- Take a `notify_waiters` off the queue and issue it. -/
def dequeue (w : World T) (notify : NotifyId) : World T :=
  { w.wake notify with pending := w.pending.erase notify }

/-- One more step waits on a handle. -/
def addWaiter (w : World T) (notify : NotifyId) : World T :=
  { w with waiters := w.waiters ++ [⟨notify, false⟩] }

/-- A waiting step is dropped. -/
def dropWaiter (w : World T) (index : Nat) : World T :=
  { w with waiters := w.waiters.eraseIdx index }

/-- The number for the next value put into the slot is used up. -/
def stamp (w : World T) : World T := { w with nextObject := w.nextObject + 1 }

section frame

variable (w : World T) (inner : CredentialSlotInner (Stored T))
  (state : CredentialSlotState (Stored T)) (generation : Nat) (guard : RefreshGuard)
  (owner : RefreshOwnerId) (attempt : Attempt T) (notify : NotifyId) (notify? : Option NotifyId)

@[simp] theorem state_withInner : (w.withInner inner).state = inner.state := rfl
@[simp] theorem state_withState : (w.withState state).state = state := rfl
@[simp] theorem state_begin : (w.begin generation guard).state = w.state := rfl
@[simp] theorem state_setAttempt : (w.setAttempt owner attempt).state = w.state := rfl
@[simp] theorem state_removeAttempt : (w.removeAttempt owner).state = w.state := rfl
@[simp] theorem state_wake : (w.wake notify).state = w.state := rfl
@[simp] theorem state_enqueue : (w.enqueue notify?).state = w.state := rfl
@[simp] theorem state_addWaiter : (w.addWaiter notify).state = w.state := rfl
@[simp] theorem state_stamp : w.stamp.state = w.state := rfl

/-- Writing the slot leaves the attempts. -/
@[simp] theorem attempts_withInner : (w.withInner inner).attempts = w.attempts := rfl
@[simp] theorem attempts_begin :
    (w.begin generation guard).attempts = w.attempts ++ [⟨guard, generation, .awaiting⟩] := rfl

/-- After a write an attempt is the one written or an older one of another owner. -/
theorem mem_setAttempt {w : World T} {owner : RefreshOwnerId} {attempt b : Attempt T}
    (h : b ∈ (w.setAttempt owner attempt).attempts) :
    b = attempt ∨ b ∈ w.attempts ∧ b.guard.owner ≠ owner := by
  obtain ⟨a, ha, hb⟩ := List.mem_map.mp h
  split at hb <;> grind

/-- After one has ended the attempts of the others are left. -/
theorem mem_removeAttempt {w : World T} {owner : RefreshOwnerId} {b : Attempt T} :
    b ∈ (w.removeAttempt owner).attempts ↔ b ∈ w.attempts ∧ b.guard.owner ≠ owner := by
  simp [removeAttempt]

end frame

end World

/-- What the caller of a commit sees: a stale owner goes round the loop. -/
def CommitOutcome.toOutcome : Except AuthError (CommitOutcome (Stored T)) → Outcome T
  | .ok (.stored lease) => .leased lease
  | .ok (.failed error) => .failed error
  | .ok .staleOwner => .done
  | .error error => .failed error

/-! ## steps -/

/-- One atomic action; `none` if the label is not enabled. -/
def World.step [CredentialMaterial T] (w : World T) : Label T → Option (World T × Outcome T)
  | .getOrRefresh policy now now' =>
    match w.slot.providerRef with
    | .error error => some (w, .failed error)
    | .ok _ =>
      match getOrRefresh w.inner policy w.nextNotify now now' with
      | (inner, .returned (.ok lease)) => some (w.withInner inner, .leased lease)
      | (inner, .returned (.error error)) => some (w.withInner inner, .failed error)
      | (inner, .action (.wait notify)) =>
        some ((w.withInner inner).addWaiter notify, .done)
      | (inner, .action (.acquire generation guard)) =>
        some ((w.withInner inner).begin generation guard, .done)
      | (inner, .action (.refresh _ generation guard _)) =>
        some ((w.withInner inner).begin generation guard, .done)
      | (inner, .again) => some (w.withInner inner, .done)
  | .commitCheck owner result =>
    match w.attempt? owner with
    | some ⟨guard, generation, .awaiting⟩ =>
      match commitSlotResultCheck w.inner generation guard with
      | none =>
        some (w.setAttempt owner ⟨guard.disarm, generation, .returning⟩, .done)
      | some notify =>
        some ((w.setAttempt owner
          ⟨guard, generation, .checked (result.map (⟨w.nextObject, ·⟩)) notify⟩).stamp, .done)
    | _ => none
  | .commitStore owner now =>
    match w.attempt? owner with
    | some ⟨guard, generation, .checked result notify⟩ =>
      let committed := commitSlotResultStore w.inner generation guard result now
      let w' := (w.withInner committed.inner).setAttempt owner
        ⟨committed.guard, generation, .returning⟩
      some (if committed.notified then w'.wake notify else w',
        CommitOutcome.toOutcome committed.result)
    | _ => none
  | .dropGuard owner =>
    match w.attempt? owner with
    | some ⟨_, _, .checked _ _⟩ => none
    | some ⟨guard, _, _⟩ =>
      let dropped := guard.drop w.inner
      some (((w.withInner dropped.1).removeAttempt owner).enqueue dropped.2, .done)
    | none => none
  | .setManual value =>
    match w.slot.initError with
    | some error => some (w, .failed error)
    | none =>
      match setManual w.inner ⟨w.nextObject, value⟩ with
      | (inner, .error error) => some (w.withInner inner, .failed error)
      | (inner, .ok notify) =>
        some (((w.withInner inner).enqueue notify).stamp, .done)
  | .clearManual =>
    match w.slot.initError with
    | some error => some (w, .failed error)
    | none =>
      match clearManual w.inner with
      | (inner, .error error) => some (w.withInner inner, .failed error)
      | (inner, .ok notify) => some ((w.withInner inner).enqueue notify, .done)
  | .invalidateGeneration generation =>
    match w.slot.providerRef with
    | .error error => some (w, .failed error)
    | .ok _ =>
      match invalidateGenerationState w.inner generation with
      | (inner, .error error) => some (w.withInner inner, .failed error)
      | (inner, .ok _) => some (w.withInner inner, .done)
  | .invalidateGenerationLocal generation =>
    match invalidateGenerationState w.inner generation with
    | (inner, .error error) => some (w.withInner inner, .failed error)
    | (inner, .ok _) => some (w.withInner inner, .done)
  | .getCached =>
    match w.slot.initError with
    | some _ => some (w, .done)
    | none =>
      match getCached w.inner with
      | some lease => some (w, .leased lease)
      | none => some (w, .done)
  | .notifyWaiters notify =>
    if notify ∈ w.pending then some (w.dequeue notify, .done) else none
  | .resume index =>
    match w.waiters[index]? with
    | some ⟨_, true⟩ => some (w.dropWaiter index, .done)
    | _ => none
  | .abandon index =>
    if index < w.waiters.length then some (w.dropWaiter index, .done) else none

/-! ## what a step can do -/

/-- The moves of the world.  A constructor names the outcome of one lock
section, or of one action outside the lock, and spells out the world it
leaves. -/
inductive Move (w : World T) : World T → Outcome T → Prop
  | refused {error : AuthError} {nextOwner : Nat} (hn : w.inner.nextOwner ≤ nextOwner) :
      Move w (w.withInner ⟨w.state, nextOwner⟩) (.failed error)
  | idle : Move w w .done
  | handedOut {value : Stored T} {generation : Nat} (hs : w.state = .valid value generation) :
      Move w w (.leased ⟨value, generation⟩)
  | registered {notify generation owner : Nat} {previous : RefreshPrevious (Stored T)}
      (hs : w.state = .refreshing notify generation owner previous) :
      Move w (w.addWaiter notify) .done
  | started (ho : w.state.owner? = none) (hg : w.state.generation + 1 ≤ u64Max) :
      Move w
        ((w.withInner ⟨.refreshing w.nextNotify (w.state.generation + 1) w.inner.nextOwner
            w.state.previous, w.inner.nextOwner + 1⟩).begin
          (w.state.generation + 1) ⟨w.inner.nextOwner, false⟩) .done
  | checked {a : Attempt T} {notify : NotifyId} {previous : RefreshPrevious (Stored T)}
      {result : Except AuthError T} (ha : a ∈ w.attempts) (hp : a.phase = .awaiting)
      (hs : w.state = .refreshing notify a.generation a.guard.owner previous) :
      Move w (w.setAttempt a.guard.owner
        ⟨a.guard, a.generation, .checked (result.map (⟨w.nextObject, ·⟩)) notify⟩).stamp .done
  | stale {a : Attempt T} (ha : a ∈ w.attempts)
      (hc : commitSlotResultCheck w.inner a.generation a.guard = none) :
      Move w (w.setAttempt a.guard.owner
        ⟨a.guard.disarm, a.generation, .returning⟩) .done
  | stored {a : Attempt T} {notify notify' : NotifyId} {previous : RefreshPrevious (Stored T)}
      {value : Stored T} (ha : a ∈ w.attempts) (hp : a.phase = .checked (.ok value) notify)
      (hs : w.state = .refreshing notify' a.generation a.guard.owner previous) :
      Move w (((w.withState (.valid value a.generation)).setAttempt a.guard.owner
          ⟨a.guard.disarm, a.generation, .returning⟩).wake notify)
        (.leased ⟨value, a.generation⟩)
  | storedFailure {a : Attempt T} {notify notify' : NotifyId}
      {previous : RefreshPrevious (Stored T)} {error : AuthError} {retryAfter : Option Instant}
      (ha : a ∈ w.attempts) (hp : a.phase = .checked (.error error) notify)
      (hs : w.state = .refreshing notify' a.generation a.guard.owner previous) :
      Move w (((w.withState (.failed a.generation error retryAfter)).setAttempt a.guard.owner
          ⟨a.guard.disarm, a.generation, .returning⟩).wake notify)
        (.failed error)
  | unwinding {a : Attempt T} {result : Except AuthError (Stored T)} {notify : NotifyId}
      {error : AuthError} (ha : a ∈ w.attempts) (hp : a.phase = .checked result notify) :
      Move w (w.setAttempt a.guard.owner ⟨a.guard, a.generation, .returning⟩) (.failed error)
  | dropped {a : Attempt T} (ha : a ∈ w.attempts)
      (hd : a.guard.disarmed = true ∨ w.state.owner? ≠ some a.guard.owner) :
      Move w (w.removeAttempt a.guard.owner) .done
  | rolledBack {a : Attempt T} {notify generation : Nat}
      {previous : RefreshPrevious (Stored T)} (ha : a ∈ w.attempts)
      (hd : a.guard.disarmed = false)
      (hs : w.state = .refreshing notify generation a.guard.owner previous) :
      Move w (((w.withState (previous.intoStateAt generation)).removeAttempt
        a.guard.owner).enqueue (some notify)) .done
  | manualSet {value : T} (hg : w.state.generation + 1 ≤ u64Max) :
      Move w ((w.withState (.valid ⟨w.nextObject, value⟩ (w.state.generation + 1))).enqueue
        w.state.notify?).stamp .done
  | manualCleared (hg : w.state.generation + 1 ≤ u64Max) :
      Move w ((w.withState (.empty (w.state.generation + 1))).enqueue w.state.notify?) .done
  | invalidated {value : Stored T} {generation : Nat} (hs : w.state = .valid value generation)
      (hg : generation + 1 ≤ u64Max) :
      Move w (w.withState (.empty (generation + 1))) .done
  | forgotten {notify generation owner : Nat} {value : Stored T} {generation' : Nat}
      (hs : w.state = .refreshing notify generation owner (.valid value generation')) :
      Move w (w.withState (.refreshing notify generation owner .empty)) .done
  | notified {notify : NotifyId} (hn : notify ∈ w.pending) :
      Move w (w.dequeue notify) .done
  | left {index : Nat} : Move w (w.dropWaiter index) .done

/-- An attempt that is found is the owner's. -/
theorem attempt?_eq_some {w : World T} {owner : RefreshOwnerId} {a : Attempt T}
    (h : w.attempt? owner = some a) : a ∈ w.attempts ∧ a.guard.owner = owner := by
  refine ⟨List.mem_of_find?_eq_some h, ?_⟩
  simpa using List.find?_some h

/-- The moves of an invalidation, shared by its two entry points. -/
theorem invalidate_move {w w' : World T} {generation : Option Nat} {o : Outcome T}
    (h : (match invalidateGenerationState w.inner generation with
      | (inner, .error error) => some (w.withInner inner, .failed error)
      | (inner, .ok _) => some (w.withInner inner, Outcome.done)) = some (w', o)) :
    Move w w' o := by
  have hspec := invalidateGenerationState_spec w.inner generation
  cases hi : invalidateGenerationState w.inner generation with
  | mk inner result =>
      rw [hi] at h hspec
      cases hspec with
      | current hs hg hle =>
          cases h
          exact .invalidated hs hle
      | previous hs hg =>
          cases h
          exact .forgotten hs
      | exhausted hs hg hmax =>
          cases h
          exact .refused (Nat.le_refl _)
      | ignored hm =>
          cases h
          exact .idle

/-- An invalidation finds the provider missing, or runs its lock section and
nothing else, through either of its entry points. -/
theorem eq_of_step_invalidate [CredentialMaterial T] {w w' : World T} {label : Label T}
    {generation : Option Nat} {o : Outcome T}
    (hl : label = .invalidateGeneration generation ∨ label = .invalidateGenerationLocal generation)
    (h : w.step label = some (w', o)) :
    (w' = w ∧ w.slot.providerRef ≠ .ok ()) ∨
      w' = w.withInner (invalidateGenerationState w.inner generation).1 := by
  cases hl with
  | inl hl =>
      subst hl
      simp only [World.step] at h
      split at h
      · next error hp =>
          cases h
          exact .inl ⟨rfl, by simp [hp]⟩
      · cases hi : invalidateGenerationState w.inner generation with
        | mk inner result =>
            rw [hi] at h
            cases result <;> cases h <;> exact .inr rfl
  | inr hl =>
      subst hl
      simp only [World.step] at h
      cases hi : invalidateGenerationState w.inner generation with
      | mk inner result =>
          rw [hi] at h
          cases result <;> cases h <;> exact .inr rfl

/-- What a read or refresh may do to the world. -/
theorem getOrRefresh_move [CredentialMaterial T] {w w' : World T} {policy : AuthStepPolicy}
    {now now' : Instant} {o : Outcome T}
    (h : w.step (.getOrRefresh policy now now') = some (w', o)) : Move w w' o := by
  simp only [World.step] at h
  split at h
  · cases h
    exact .refused (Nat.le_refl _)
  · have hspec := getOrRefresh_spec w.inner policy w.nextNotify now now'
    cases hp : getOrRefresh w.inner policy w.nextNotify now now' with
    | mk inner pass =>
        rw [hp] at h hspec
        cases hspec with
        | lease hs hr =>
            cases h
            exact .handedOut hs
        | join hs =>
            cases h
            exact .registered hs
        | acquire ho hg =>
            cases h
            exact .started ho hg
        | refresh ho hg =>
            cases h
            exact .started ho hg
        | refused hn =>
            cases h
            exact .refused hn

/-- What storing a value may do. -/
theorem commitStore_move [CredentialMaterial T] {w w' : World T} {owner : RefreshOwnerId}
    {now : Instant} {o : Outcome T}
    (h : w.step (.commitStore owner now) = some (w', o)) : Move w w' o := by
  simp only [World.step] at h
  split at h
  · next guard generation result notify hfind =>
      obtain ⟨ha, ho⟩ := attempt?_eq_some hfind
      simp only at ho
      subst ho
      have hspec := commitSlotResultStore_spec w.inner generation guard result now
      cases h
      cases hc : commitSlotResultStore w.inner generation guard result now with
      | mk inner' guard' notified' result' =>
          rw [hc] at hspec
          cases hspec with
          | stale hn => exact .stale ha hn
          | stored hs hr => subst hr; exact .stored ha rfl hs
          | failed hs hr => subst hr; exact .storedFailure ha rfl hs
          | overflowed => exact .unwinding ha rfl
  · contradiction

/-- What dropping a guard may do. -/
theorem dropGuard_move [CredentialMaterial T] {w w' : World T} {owner : RefreshOwnerId}
    {o : Outcome T} (h : w.step (.dropGuard owner) = some (w', o)) : Move w w' o := by
  simp only [World.step] at h
  split at h
  · contradiction
  · next guard generation phase hphase hfind =>
      obtain ⟨ha, ho⟩ := attempt?_eq_some hfind
      simp only at ho
      subst ho
      have hspec := guard.drop_spec w.inner
      cases h
      cases hd : guard.drop w.inner with
      | mk inner' notify' =>
          rw [hd] at hspec
          cases hspec with
          | kept hk =>
              have hm := Move.dropped (w := w) ha hk
              simpa [World.enqueue, World.removeAttempt, World.withInner, World.inner] using hm
          | rolledBack hd' hs => exact .rolledBack ha hd' hs
  · contradiction

/-- **Every enabled label is one of the moves.** -/
theorem World.step_move [CredentialMaterial T] {w w' : World T} {label : Label T}
    {o : Outcome T} (h : w.step label = some (w', o)) : Move w w' o := by
  cases label with
  | getOrRefresh policy now now' => exact getOrRefresh_move h
  | commitCheck owner result =>
      simp only [World.step] at h
      split at h
      · next guard generation hfind =>
          obtain ⟨ha, ho⟩ := attempt?_eq_some hfind
          simp only at ho
          subst ho
          split at h
          · next hc =>
              cases h
              exact .stale ha hc
          · next notify hc =>
              obtain ⟨previous, hs⟩ := commitSlotResultCheck_eq_some_iff.mp hc
              cases h
              exact .checked ha rfl hs
      · contradiction
  | commitStore owner now => exact commitStore_move h
  | dropGuard owner => exact dropGuard_move h
  | setManual value =>
      simp only [World.step] at h
      split at h
      · cases h
        exact .refused (Nat.le_refl _)
      · cases setManual_spec w.inner (⟨w.nextObject, value⟩ : Stored T) with
        | inl hok =>
            rw [hok.2] at h
            cases h
            exact .manualSet hok.1
        | inr herr =>
            rw [herr] at h
            cases h
            exact .refused (Nat.le_refl _)
  | clearManual =>
      simp only [World.step] at h
      split at h
      · cases h
        exact .refused (Nat.le_refl _)
      · cases clearManual_spec w.inner with
        | inl hok =>
            rw [hok.2] at h
            cases h
            exact .manualCleared hok.1
        | inr herr =>
            rw [herr] at h
            cases h
            exact .refused (Nat.le_refl _)
  | invalidateGeneration generation =>
      simp only [World.step] at h
      split at h
      · cases h
        exact .refused (Nat.le_refl _)
      · exact invalidate_move h
  | invalidateGenerationLocal generation => exact invalidate_move h
  | getCached =>
      simp only [World.step] at h
      split at h
      · cases h
        exact .idle
      · cases hs : w.state with
        | valid value generation =>
            have hc : getCached w.inner = some ⟨value, generation⟩ := by
              simp only [getCached, World.inner]; simp only [World.state] at hs; rw [hs]
            simp only [hc, Option.some.injEq, Prod.mk.injEq] at h
            obtain ⟨rfl, rfl⟩ := h
            exact .handedOut hs
        | _ =>
            simp only [World.state] at hs
            simp only [getCached, World.inner, hs, Option.some.injEq, Prod.mk.injEq] at h
            obtain ⟨rfl, rfl⟩ := h
            exact .idle
  | notifyWaiters notify =>
      simp only [World.step] at h
      split at h
      · next hn =>
          cases h
          exact .notified hn
      · contradiction
  | resume index =>
      simp only [World.step] at h
      split at h
      · cases h
        exact .left
      · contradiction
  | abandon index =>
      simp only [World.step] at h
      split at h
      · cases h
        exact .left
      · contradiction

end Concord
