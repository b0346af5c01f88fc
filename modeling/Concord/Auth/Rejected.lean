import Concord.Auth.Generations

/-!
# Concord.Auth.Rejected

What becomes of a credential after a request that carried it was rejected.

`invalidate_generation` is called with the generation of the lease.  It
removes the credential if the slot holds it under that generation, as the
current one or as the one an attempt in flight would restore.  A cancelled
attempt restores its credential under the attempt's own generation
(`RefreshPrevious.intoStateAt`), so a lease taken before the attempt names a
generation the slot no longer holds, and its invalidation passes the
credential by.  `rejected_not_served` is the guarantee for invalidations
that do reach the credential, `rejected_served_after_rollback` the run in
which one does not.

The proof follows objects, not values: `Apart` keeps the objects in the
slot, in flight and in the hands of callers below the next number and apart
from each other, and `Gone` says that an object is in none of the places it
could be served from.
-/

namespace Concord

open Checked Transition

variable {T : Type*}

/-! ## objects -/

/-- The object is carried by the attempt: a provider answer between the two
lock sections of its commit. -/
def Attempt.Carries (a : Attempt T) (x : Nat) : Prop :=
  ∃ value notify, a.phase = .checked (.ok value) notify ∧ value.object = x

/-- Where an object can be: held by the slot (`none`), or carried by the
attempt of an owner. -/
def World.At (w : World T) : Option RefreshOwnerId → Nat → Prop
  | none, x => ∃ held, w.state.held? = some held ∧ held.value.object = x
  | some owner, x => ∃ a ∈ w.attempts, a.guard.owner = owner ∧ a.Carries x

/-- An attempt that waits for its provider carries nothing. -/
theorem not_carries_awaiting {guard : RefreshGuard} {generation x : Nat} :
    ¬ (⟨guard, generation, .awaiting⟩ : Attempt T).Carries x := by
  rintro ⟨value, notify, hp, _⟩
  contradiction

/-- Nor does one that returns. -/
theorem not_carries_returning {guard : RefreshGuard} {generation x : Nat} :
    ¬ (⟨guard, generation, .returning⟩ : Attempt T).Carries x := by
  rintro ⟨value, notify, hp, _⟩
  contradiction

/-- An attempt that ends carries nothing. -/
theorem mem_of_carries_setAttempt {w : World T} {owner generation x : Nat}
    {guard : RefreshGuard} {a : Attempt T}
    (h : a ∈ (w.setAttempt owner ⟨guard, generation, .returning⟩).attempts)
    (hc : a.Carries x) : a ∈ w.attempts ∧ a.guard.owner ≠ owner := by
  obtain rfl | hm := World.mem_setAttempt h
  · exact absurd hc not_carries_returning
  · exact hm

/-- What an attempt restores is what the slot already held. -/
theorem held?_intoStateAt {previous : RefreshPrevious T} {notify generation owner : Nat}
    {held : CredentialLease T} (h : (previous.intoStateAt generation).held? = some held) :
    ∃ held', (CredentialSlotState.refreshing notify generation owner previous).held? =
      some held' ∧ held'.value = held.value := by
  cases previous with
  | valid value g =>
      simp only [RefreshPrevious.intoStateAt, CredentialSlotState.held?_valid,
        Option.some.injEq] at h
      subst h
      exact ⟨⟨value, g⟩, rfl, rfl⟩
  | empty => simp [RefreshPrevious.intoStateAt] at h
  | failed error retryAfter => simp [RefreshPrevious.intoStateAt] at h

/-- Starting an attempt keeps the credential as the one to restore. -/
theorem held?_of_previous {state : CredentialSlotState T} {notify generation owner : Nat}
    {held : CredentialLease T}
    (h : (CredentialSlotState.refreshing notify generation owner state.previous).held? =
      some held) : ∃ held', state.held? = some held' ∧ held'.value = held.value := by
  cases state with
  | valid value g =>
      simp only [CredentialSlotState.previous, CredentialSlotState.held?_refreshing_valid,
        Option.some.injEq] at h
      subst h
      exact ⟨⟨value, g⟩, rfl, rfl⟩
  | _ => simp [CredentialSlotState.previous] at h

/-- **Objects do not spread**: in the later world an object is where it
was, or it is new and at the one place it was put, or it left the attempt
that carried it for the slot. -/
def World.Spreads (w w' : World T) : Prop :=
  ∃ fresh, ∀ place x, w'.At place x →
    w.At place x ∨
    (place = fresh ∧ x = w.nextObject ∧ w.nextObject < w'.nextObject) ∨
    (place = none ∧ ∃ owner, w.At (some owner) x ∧ ¬ w'.At (some owner) x)

/-- Losing objects is no spreading. -/
theorem World.Spreads.of_fewer {w w' : World T}
    (hheld : ∀ held, w'.state.held? = some held →
      ∃ held', w.state.held? = some held' ∧ held'.value = held.value)
    (hcarried : ∀ a ∈ w'.attempts, ∀ x, a.Carries x → a ∈ w.attempts) : w.Spreads w' := by
  refine ⟨none, fun place x h => .inl ?_⟩
  cases place with
  | none =>
      obtain ⟨held, hh, hx⟩ := h
      obtain ⟨held', hh', hv⟩ := hheld held hh
      exact ⟨held', hh', by rw [hv, hx]⟩
  | some owner =>
      obtain ⟨a, ha, ho, hc⟩ := h
      exact ⟨a, hcarried a ha x hc, ho, hc⟩

/-- A checked answer is new, and only its own attempt carries it. -/
theorem spreads_checked {w : World T} {a : Attempt T} {notify : NotifyId}
    {result : Except AuthError T} :
    w.Spreads (w.setAttempt a.guard.owner
      ⟨a.guard, a.generation, .checked (result.map (⟨w.nextObject, ·⟩)) notify⟩).stamp := by
  refine ⟨some a.guard.owner, fun place x hx => ?_⟩
  cases place with
  | none => exact .inl hx
  | some owner =>
      obtain ⟨b, hb, hbo, hc⟩ := hx
      obtain rfl | hm := World.mem_setAttempt hb
      · obtain ⟨value, n, hph, hv⟩ := hc
        refine .inr (.inl ⟨by rw [← hbo], ?_, Nat.lt_succ_self _⟩)
        cases result with
        | error e => simp [Except.map] at hph
        | ok v =>
            simp only [Except.map, Phase.checked.injEq, Except.ok.injEq] at hph
            rw [← hv, ← hph.1]
      · exact .inl ⟨b, hm.1, hbo, hc⟩

/-- A committed answer leaves its attempt for the slot. -/
theorem spreads_stored {w : World T} {a : Attempt T} {notify : NotifyId} {value : Stored T}
    (ha : a ∈ w.attempts) (hp : a.phase = .checked (.ok value) notify) :
    w.Spreads (((w.withState (.valid value a.generation)).setAttempt a.guard.owner
      ⟨a.guard.disarm, a.generation, .returning⟩).wake notify) := by
  refine ⟨none, fun place x hx => ?_⟩
  cases place with
  | some owner =>
      obtain ⟨b, hb, hbo, hc⟩ := hx
      exact .inl ⟨b, (mem_of_carries_setAttempt hb hc).1, hbo, hc⟩
  | none =>
      obtain ⟨held, hh, hx⟩ := hx
      simp only [World.state_wake, World.state_setAttempt, World.state_withState,
        CredentialSlotState.held?_valid, Option.some.injEq] at hh
      subst hh
      refine .inr (.inr ⟨rfl, a.guard.owner, ⟨a, ha, rfl, value, notify, hp, hx⟩, ?_⟩)
      rintro ⟨b, hb, hbo, hc⟩
      exact (mem_of_carries_setAttempt hb hc).2 hbo

/-- A manual value is a new object in the slot. -/
theorem spreads_manualSet {w : World T} {value : T} :
    w.Spreads ((w.withState (.valid ⟨w.nextObject, value⟩ (w.state.generation + 1))).enqueue
      w.state.notify?).stamp := by
  refine ⟨none, fun place x hx => ?_⟩
  cases place with
  | some owner => exact .inl hx
  | none =>
      obtain ⟨held, hh, hx⟩ := hx
      simp only [World.state_stamp, World.state_enqueue, World.state_withState,
        CredentialSlotState.held?_valid, Option.some.injEq] at hh
      subst hh
      exact .inr (.inl ⟨rfl, hx.symm, Nat.lt_succ_self _⟩)

/-- No move spreads the objects. -/
theorem Move.spreads {w w' : World T} {o : Outcome T} (h : Move w w' o) : w.Spreads w' := by
  have hsame : ∀ held, w.state.held? = some held →
      ∃ held', w.state.held? = some held' ∧ held'.value = held.value :=
    fun held hh => ⟨held, hh, rfl⟩
  cases h with
  | started ho hg =>
      refine .of_fewer (fun held hh => held?_of_previous hh) (fun a ha x hc => ?_)
      cases List.mem_append.mp ha with
      | inl hm => exact hm
      | inr hm =>
          rw [List.mem_singleton] at hm
          exact absurd (hm ▸ hc) not_carries_awaiting
  | checked ha hp hs => exact spreads_checked
  | stored ha hp hs => exact spreads_stored ha hp
  | manualSet hg => exact spreads_manualSet
  | storedFailure ha hp hs =>
      exact .of_fewer (by simp) (fun b hb x hc => (mem_of_carries_setAttempt hb hc).1)
  | stale ha hc =>
      exact .of_fewer hsame (fun b hb x hc => (mem_of_carries_setAttempt hb hc).1)
  | unwinding ha hp =>
      exact .of_fewer hsame (fun b hb x hc => (mem_of_carries_setAttempt hb hc).1)
  | dropped ha hd =>
      exact .of_fewer hsame (fun b hb x hc => (World.mem_removeAttempt.mp hb).1)
  | rolledBack ha hd hs =>
      exact .of_fewer (fun held hh => by rw [hs]; exact held?_intoStateAt hh)
        (fun b hb x hc => (World.mem_removeAttempt.mp hb).1)
  | manualCleared hg => exact .of_fewer (by simp) (fun a ha x hc => ha)
  | invalidated hs hg => exact .of_fewer (by simp) (fun a ha x hc => ha)
  | forgotten hs => exact .of_fewer (by simp) (fun a ha x hc => ha)
  | _ => exact .of_fewer hsame (fun a ha x hc => ha)

/-- The objects are numbered upwards. -/
theorem Move.nextObject_le {w w' : World T} {o : Outcome T} (h : Move w w' o) :
    w.nextObject ≤ w'.nextObject := by
  cases h with
  | checked ha hp hs => exact Nat.le_succ _
  | manualSet hg => exact Nat.le_succ _
  | _ => exact Nat.le_refl _

/-- No move changes the provider. -/
theorem Move.provider_eq {w w' : World T} {o : Outcome T} (h : Move w w' o) :
    w'.slot.provider = w.slot.provider ∧ w'.slot.initError = w.slot.initError := by
  cases h <;> exact ⟨rfl, rfl⟩

/-- A leased object is in the slot. -/
theorem Move.at_of_leased {w w' : World T} {lease : CredentialLease (Stored T)}
    (h : Move w w' (.leased lease)) : w'.At none lease.value.object :=
  ⟨lease, by rw [h.state_of_leased, CredentialSlotState.held?_valid], rfl⟩

/-- The objects of a world are numbered below `nextObject`, each is at one
place, and no leased object is carried by an attempt. -/
structure Apart (w : World T) (history : List (Outcome T)) : Prop where
  fresh : ∀ place x, w.At place x → x < w.nextObject
  once : ∀ place place' x, w.At place x → w.At place' x → place = place'
  leasedFresh : ∀ lease, .leased lease ∈ history → lease.value.object < w.nextObject
  leasedOut : ∀ lease, .leased lease ∈ history → ∀ owner, ¬ w.At (some owner) lease.value.object

/-- At the start there are no objects. -/
theorem apart_start (provider : Except AuthError Unit) :
    Apart (World.start provider : World T) [] := by
  have hnowhere : ∀ place x, ¬ (World.start provider : World T).At place x := by
    intro place x h
    cases place with
    | none =>
        obtain ⟨held, hh, _⟩ := h
        cases provider <;> simp [World.start, World.state, CredentialSlot.newResult] at hh
    | some owner =>
        obtain ⟨a, ha, _⟩ := h
        simp [World.start] at ha
  exact ⟨fun place x h => absurd h (hnowhere place x),
    fun place place' x h => absurd h (hnowhere place x), by simp, by simp⟩

/-- Objects stay apart after any move. -/
theorem Apart.move {w w' : World T} {o : Outcome T} {history : List (Outcome T)}
    (ha : Apart w history) (h : Move w w' o) : Apart w' (history ++ [o]) := by
  obtain ⟨spot, hspread⟩ := h.spreads
  have hle := h.nextObject_le
  have hfresh : ∀ place x, w'.At place x → x < w'.nextObject := by
    intro place x hx
    obtain hold | ⟨_, rfl, hlt⟩ | ⟨_, owner, hold, _⟩ := hspread place x hx
    · exact Nat.lt_of_lt_of_le (ha.fresh place x hold) hle
    · exact hlt
    · exact Nat.lt_of_lt_of_le (ha.fresh _ x hold) hle
  have honce : ∀ place place' x, w'.At place x → w'.At place' x → place = place' := by
    intro place place' x hx hx'
    have hlt : ∀ p, w.At p x → x ≠ w.nextObject := fun p hp => Nat.ne_of_lt (ha.fresh p x hp)
    obtain hold | ⟨hp, hn, _⟩ | ⟨hp, owner, hold, hgone⟩ := hspread place x hx
    · obtain hold' | ⟨_, hn', _⟩ | ⟨hp', owner', hold', hgone'⟩ := hspread place' x hx'
      · exact ha.once place place' x hold hold'
      · exact absurd hn' (hlt place hold)
      · exact absurd (ha.once place _ x hold hold' ▸ hx) hgone'
    · obtain hold' | ⟨hp', _, _⟩ | ⟨_, owner', hold', _⟩ := hspread place' x hx'
      · exact absurd hn (hlt place' hold')
      · rw [hp, hp']
      · exact absurd hn (hlt _ hold')
    · obtain hold' | ⟨_, hn', _⟩ | ⟨hp', _, _, _⟩ := hspread place' x hx'
      · exact absurd (ha.once place' _ x hold' hold ▸ hx') hgone
      · exact absurd hn' (hlt _ hold)
      · rw [hp, hp']
  refine ⟨hfresh, honce, fun lease hl => ?_, fun lease hl owner hx => ?_⟩
  · cases List.mem_append.mp hl with
    | inl hold => exact Nat.lt_of_lt_of_le (ha.leasedFresh lease hold) hle
    | inr hnew =>
        rw [List.mem_singleton] at hnew
        subst hnew
        exact hfresh none _ h.at_of_leased
  · cases List.mem_append.mp hl with
    | inl hold =>
        obtain hat | ⟨_, hn, _⟩ | ⟨hp, _⟩ := hspread (some owner) _ hx
        · exact ha.leasedOut lease hold owner hat
        · exact absurd hn (Nat.ne_of_lt (ha.leasedFresh lease hold))
        · contradiction
    | inr hnew =>
        rw [List.mem_singleton] at hnew
        subst hnew
        have := honce none (some owner) _ h.at_of_leased hx
        contradiction

/-! ## objects that are gone -/

/-- The object has been in the slot and is nowhere it could be served
from. -/
structure Gone (w : World T) (x : Nat) : Prop where
  old : x < w.nextObject
  absent : ∀ place, ¬ w.At place x

/-- A gone object stays gone, and a step does not lease it. -/
theorem Gone.move {w w' : World T} {o : Outcome T} {x : Nat} (hg : Gone w x)
    (h : Move w w' o) : Gone w' x := by
  obtain ⟨spot, hspread⟩ := h.spreads
  refine ⟨Nat.lt_of_lt_of_le hg.old h.nextObject_le, fun place hx => ?_⟩
  obtain hold | ⟨_, hn, _⟩ | ⟨_, owner, hold, _⟩ := hspread place x hx
  · exact hg.absent place hold
  · exact absurd hn (Nat.ne_of_lt hg.old)
  · exact hg.absent _ hold

section runs

variable [CredentialMaterial T] {provider : Except AuthError Unit}

/-- So they are apart in every reachable world. -/
theorem apart_of_exec {labels : List (Label T)} {w : World T} {history : List (Outcome T)}
    (h : exec World.step (World.start provider) labels = some (w, history)) :
    Apart w history := by
  simpa using exec_history (I := Apart) (fun ha hs => ha.move (World.step_move hs)) h
    (apart_start provider)

/-- No run from a world where the object is gone leases it. -/
theorem not_leased_of_gone {labels : List (Label T)} {w w' : World T}
    {history : List (Outcome T)} {x : Nat} (hg : Gone w x)
    (h : exec World.step w labels = some (w', history)) :
    ∀ lease, .leased lease ∈ history → lease.value.object ≠ x := by
  have hstart : Gone w x ∧
      ∀ lease, .leased lease ∈ ([] : List (Outcome T)) → lease.value.object ≠ x :=
    ⟨hg, by simp⟩
  have hinv := exec_history
    (I := fun w hist => Gone w x ∧ ∀ lease, .leased lease ∈ hist → lease.value.object ≠ x)
    (fun hi hs => ?_) h hstart
  · exact hinv.2
  · have hm := World.step_move hs
    have hg' := hi.1.move hm
    refine ⟨hg', fun lease hl => ?_⟩
    cases List.mem_append.mp hl with
    | inl hold => exact hi.2 lease hold
    | inr hnew =>
        rw [List.mem_singleton] at hnew
        subst hnew
        exact fun hx => hg'.absent none (hx ▸ hm.at_of_leased)

/-- A slot whose provider could not be built, with no attempt on it. -/
structure Broken (w : World T) (error : AuthError) : Prop where
  slot : w.slot = .newResult (.error error)
  attempts : w.attempts = []

/-- Every operation on such a slot fails or does nothing to it. -/
theorem Broken.step {w w' : World T} {error : AuthError} {label : Label T} {o : Outcome T}
    (hb : Broken w error) (h : w.step label = some (w', o)) :
    Broken w' error ∧ ∀ lease, o ≠ .leased lease := by
  have hprovider : w.slot.providerRef = .error error := by rw [hb.slot]; rfl
  have hinit : w.slot.initError = some error := by rw [hb.slot]; rfl
  have hattempt : ∀ owner, w.attempt? owner = none := by simp [World.attempt?, hb.attempts]
  cases label with
  | getOrRefresh policy now now' =>
      simp only [World.step, hprovider, Option.some.injEq, Prod.mk.injEq] at h
      exact ⟨h.1 ▸ hb, by simp [← h.2]⟩
  | commitCheck owner result => simp [World.step, hattempt] at h
  | commitStore owner now => simp [World.step, hattempt] at h
  | dropGuard owner => simp [World.step, hattempt] at h
  | setManual value =>
      simp only [World.step, hinit, Option.some.injEq, Prod.mk.injEq] at h
      exact ⟨h.1 ▸ hb, by simp [← h.2]⟩
  | clearManual =>
      simp only [World.step, hinit, Option.some.injEq, Prod.mk.injEq] at h
      exact ⟨h.1 ▸ hb, by simp [← h.2]⟩
  | invalidateGeneration generation =>
      simp only [World.step, hprovider, Option.some.injEq, Prod.mk.injEq] at h
      exact ⟨h.1 ▸ hb, by simp [← h.2]⟩
  | invalidateGenerationLocal generation =>
      have hinner : w.inner = ⟨.empty 0, 1⟩ := by rw [World.inner, hb.slot]; rfl
      simp only [World.step, hinner, invalidateGenerationState, Option.some.injEq,
        Prod.mk.injEq] at h
      refine ⟨⟨?_, ?_⟩, by simp [← h.2]⟩
      · rw [← h.1, World.withInner, hb.slot]
        rfl
      · rw [← h.1, World.attempts_withInner, hb.attempts]
  | getCached =>
      simp only [World.step, hinit, Option.some.injEq, Prod.mk.injEq] at h
      exact ⟨h.1 ▸ hb, by simp [← h.2]⟩
  | notifyWaiters notify =>
      simp only [World.step, Option.ite_none_right_eq_some, Option.some.injEq,
        Prod.mk.injEq] at h
      obtain ⟨_, rfl, rfl⟩ := h
      exact ⟨⟨hb.slot, hb.attempts⟩, by simp⟩
  | resume index =>
      simp only [World.step] at h
      split at h
      · rw [Option.some.injEq, Prod.mk.injEq] at h
        obtain ⟨rfl, rfl⟩ := h
        exact ⟨⟨hb.slot, hb.attempts⟩, by simp⟩
      · contradiction
  | abandon index =>
      simp only [World.step, Option.ite_none_right_eq_some, Option.some.injEq,
        Prod.mk.injEq] at h
      obtain ⟨_, rfl, rfl⟩ := h
      exact ⟨⟨hb.slot, hb.attempts⟩, by simp⟩

/-- A slot whose provider could not be built hands out nothing. -/
theorem not_leased_of_initError {error : AuthError} {labels : List (Label T)} {w : World T}
    {history : List (Outcome T)}
    (h : exec World.step (World.start (.error error)) labels = some (w, history)) :
    ∀ lease, .leased lease ∉ history := by
  have hstart : Broken (World.start (.error error) : World T) error ∧
      ∀ lease, .leased lease ∉ ([] : List (Outcome T)) := ⟨⟨rfl, rfl⟩, by simp⟩
  have hinv := exec_history
    (I := fun w hist => Broken w error ∧ ∀ lease, .leased lease ∉ hist) (fun hi hs => ?_) h hstart
  · exact hinv.2
  · have hstep := hi.1.step hs
    refine ⟨hstep.1, fun lease hl => ?_⟩
    cases List.mem_append.mp hl with
    | inl hold => exact hi.2 lease hold
    | inr hnew =>
        rw [List.mem_singleton] at hnew
        exact hstep.2 lease hnew.symm

/-- A lease shows that there is a provider. -/
theorem provider_of_leased {labels : List (Label T)} {w : World T}
    {history : List (Outcome T)} {lease : CredentialLease (Stored T)}
    (h : exec World.step (World.start provider) labels = some (w, history))
    (hl : .leased lease ∈ history) : w.slot.providerRef = .ok () := by
  cases provider with
  | error error => exact absurd hl (not_leased_of_initError h lease)
  | ok _ =>
      have hkeep : w.slot.provider = true ∧ w.slot.initError = none :=
        exec_invariant (I := fun w => w.slot.provider = true ∧ w.slot.initError = none)
          (fun hi hs => by rwa [(World.step_move hs).provider_eq.1,
            (World.step_move hs).provider_eq.2]) h ⟨rfl, rfl⟩
      simp only [CredentialSlot.providerRef, hkeep.1, hkeep.2, if_true]

end runs

/-! ## invalidation -/

/-- An invalidation of the lease's generation meets the leased object where
the slot holds it: under the lease's own generation, and not as the current
credential of the last generation. -/
def CredentialSlotState.Reached (state : CredentialSlotState (Stored T))
    (lease : CredentialLease (Stored T)) : Prop :=
  ∀ held, state.held? = some held → held.value.object = lease.value.object →
    held.generation = lease.generation ∧ (state.owner? = none → lease.generation < u64Max)

/-- An invalidation that reaches the leased object leaves it nowhere. -/
theorem gone_of_invalidate {w : World T} {history : List (Outcome T)}
    {lease : CredentialLease (Stored T)} (ha : Apart w history)
    (hl : .leased lease ∈ history) (hr : w.state.Reached lease) :
    Gone (w.withInner (invalidateGenerationState w.inner (some lease.generation)).1)
      lease.value.object := by
  have hspec := invalidateGenerationState_spec w.inner (some lease.generation)
  refine ⟨ha.leasedFresh lease hl, fun place hx => ?_⟩
  cases place with
  | some owner => exact ha.leasedOut lease hl owner hx
  | none =>
      obtain ⟨held, hh, ho⟩ := hx
      rw [World.state_withInner] at hh
      cases hi : invalidateGenerationState w.inner (some lease.generation) with
      | mk inner result =>
          rw [hi] at hh hspec
          cases hspec with
          | current hs hg hle => simp at hh
          | previous hs hg => simp at hh
          | @exhausted value g hs hg hmax =>
              have hs' : w.state = .valid value g := hs
              obtain ⟨hgen, hlast⟩ := hr held hh ho
              have hlt := hlast (by rw [hs', CredentialSlotState.owner?_valid])
              have hheld : held = ⟨value, g⟩ := by
                have hv : w.state.held? = some ⟨value, g⟩ := by rw [hs']; rfl
                exact Option.some.inj (hh.symm.trans hv)
              subst hheld
              simp only at hgen
              omega
          | ignored hm =>
              obtain ⟨g, hg, hne⟩ := hm held hh
              rw [Option.some.injEq] at hg
              exact hne (hg ▸ (hr held hh ho).1.symm)

/-- An invalidation takes the rejected value out of the slot. -/
theorem invalidate_gone [CredentialMaterial T] {w w' : World T} {label : Label T}
    {o : Outcome T} {history : List (Outcome T)} {lease : CredentialLease (Stored T)}
    (hp : w.slot.providerRef = .ok ())
    (hlabel : label = .invalidateGeneration (some lease.generation) ∨
      label = .invalidateGenerationLocal (some lease.generation))
    (ha : Apart w history) (hl : .leased lease ∈ history) (hr : w.state.Reached lease)
    (hs : w.step label = some (w', o)) : Gone w' lease.value.object := by
  cases eq_of_step_invalidate hlabel hs with
  | inl hmissing => exact absurd hp hmissing.2
  | inr hw => exact hw ▸ gone_of_invalidate ha hl hr

/-- No later step leases the object the lease came from. -/
def NeverServed [CredentialMaterial T] (w : World T) (lease : CredentialLease (Stored T)) :
    Prop :=
  ∀ labels w' history, exec World.step w labels = some (w', history) →
    ∀ lease', .leased lease' ∈ history → lease'.value.object ≠ lease.value.object

/-- **A rejected credential is not served again**: once a lease has been
handed out and an invalidation of its generation reaches the object it came
from, no interleaving of further steps hands that object out. -/
theorem rejected_not_served [CredentialMaterial T] {provider : Except AuthError Unit}
    {labels : List (Label T)} {w w' : World T} {history : List (Outcome T)}
    {lease : CredentialLease (Stored T)} {label : Label T} {o : Outcome T}
    (hrun : exec World.step (World.start provider) labels = some (w, history))
    (hlease : .leased lease ∈ history)
    (hlabel : label = .invalidateGeneration (some lease.generation) ∨
      label = .invalidateGenerationLocal (some lease.generation))
    (hreach : w.state.Reached lease)
    (hstep : w.step label = some (w', o)) : NeverServed w' lease := by
  have hgone : Gone w' lease.value.object :=
    invalidate_gone (provider_of_leased hrun hlease) hlabel (apart_of_exec hrun) hlease hreach
      hstep
  exact fun labels' w'' history' hrun' => not_leased_of_gone hgone hrun'

/-- The invalidation finds the credential as the previous one of a refresh
in flight; the refresh is then cancelled. -/
theorem rejected_not_served_during_refresh :
    let token : Stored AccessToken := ⟨0, "t", some 100⟩
    let strict : AuthStepPolicy := { AuthStepPolicy.default with refreshSkew := 0 }
    ∃ w w' : World AccessToken,
      exec World.step (World.start (.ok ())) [.setManual token.value, .getOrRefresh strict 0 0,
        .getOrRefresh .default 0 0] = some (w, [.done, .leased ⟨token, 1⟩, .done]) ∧
      w.step (.invalidateGeneration (some 1)) = some (w', .done) ∧
      NeverServed w' ⟨token, 1⟩ := by
  intro token strict
  have hrun : exec World.step (World.start (.ok ())) [.setManual token.value,
      .getOrRefresh strict 0 0, .getOrRefresh .default 0 0] =
      some (⟨⟨true, none, .refreshing 0 2 1 (.valid token 1), 2⟩, [⟨⟨1, false⟩, 2, .awaiting⟩],
        [], [], 1, 1⟩, [.done, .leased ⟨token, 1⟩, .done]) := rfl
  refine ⟨_, _, hrun, rfl, rejected_not_served hrun (by simp) (.inl rfl) ?_ rfl⟩
  intro held hh _
  simp only [World.state, CredentialSlotState.held?_refreshing_valid, Option.some.injEq] at hh
  subst hh
  exact ⟨rfl, by simp [World.state]⟩

/-- A refresh is started and cancelled, which moves the credential from
generation 1 to generation 2.  The invalidation of generation 1 then finds
nothing, and the rejected credential is handed out to the next caller with a
narrower skew than the one that was cancelled or, with one policy for all
calls, to the next that asks for what is cached. -/
theorem rejected_served_after_rollback :
    (let token : Stored AccessToken := ⟨0, "t", some 100⟩
      let strict : AuthStepPolicy := { AuthStepPolicy.default with refreshSkew := 0 }
      ∃ w w' w'' : World AccessToken,
        exec World.step (World.start (.ok ())) [.setManual token.value, .getOrRefresh strict 1 1,
          .getOrRefresh .default 2 2, .dropGuard 1, .notifyWaiters 0] =
          some (w, [.done, .leased ⟨token, 1⟩, .done, .done, .done]) ∧
        w.step (.invalidateGeneration (some 1)) = some (w', .done) ∧
        exec World.step w' [.getOrRefresh strict 3 3] = some (w'', [.leased ⟨token, 2⟩]) ∧
        ¬ NeverServed w' ⟨token, 1⟩) ∧
    let token : Stored AccessToken := ⟨0, "t", some 100000000000⟩
    ∃ w w' w'' : World AccessToken,
      exec World.step (World.start (.ok ())) [.setManual token.value, .getOrRefresh .default 1 1,
        .getOrRefresh .default 50000000000 50000000000, .dropGuard 1, .notifyWaiters 0] =
        some (w, [.done, .leased ⟨token, 1⟩, .done, .done, .done]) ∧
      w.step (.invalidateGeneration (some 1)) = some (w', .done) ∧
      exec World.step w' [.getCached] = some (w'', [.leased ⟨token, 2⟩]) ∧
      ¬ NeverServed w' ⟨token, 1⟩ := by
  constructor
  · intro token strict
    have hrun : exec World.step ⟨⟨true, none, .valid token 2, 2⟩, [], [], [], 1, 1⟩
        [.getOrRefresh strict 3 3] =
        some (⟨⟨true, none, .valid token 2, 2⟩, [], [], [], 1, 1⟩, [.leased ⟨token, 2⟩]) := rfl
    refine ⟨_, _, _, rfl, rfl, hrun, fun hn => ?_⟩
    exact hn _ _ _ hrun ⟨token, 2⟩ (by simp) rfl
  · intro token
    have hrun : exec World.step ⟨⟨true, none, .valid token 2, 2⟩, [], [], [], 1, 1⟩ [.getCached] =
        some (⟨⟨true, none, .valid token 2, 2⟩, [], [], [], 1, 1⟩, [.leased ⟨token, 2⟩]) := rfl
    refine ⟨_, _, _, rfl, rfl, hrun, fun hn => ?_⟩
    exact hn _ _ _ hrun ⟨token, 2⟩ (by simp) rfl

end Concord
