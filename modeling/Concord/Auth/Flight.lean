import Mathlib.Data.List.Nodup
import Concord.Auth.SlotWorld

/-!
# Concord.Auth.Flight

Attempts and waiters of a credential slot over whole runs.

*Single flight*: an in-flight slot is owned by exactly one attempt that is
still alive and armed, so somebody is always left to finish it.  *No lost
wake-up*: a registered waiter is on the handle of the attempt in flight, or
its handle has been notified, or the notification is the next action of a
step that already took the slot out of flight.  *No stale write*: an attempt
that lost the slot, to a manual change or to a newer attempt, never touches
it again.

All three rest on one invariant, `Flight`: owners are drawn from a counter
and never reused, so the owner in the slot names one attempt, that attempt
knows the slot's generation, and the handle it kept between the two lock
sections of its commit is the slot's handle.
-/

namespace Concord

open Checked Transition

variable {T : Type*}

/-! ## the invariant -/

/-- The waiter will get its wake-up: it has been issued, or the attempt in
flight or a queued notification still owes it. -/
def World.Hears (w : World T) (waiter : Waiter) : Prop :=
  waiter.woken = true ∨ w.state.notify? = some waiter.notify ∨ waiter.notify ∈ w.pending

/-- What holds of the attempts and waiters in every reachable world. -/
structure Flight (w : World T) : Prop where
  fresh : ∀ a ∈ w.attempts, a.guard.owner < w.inner.nextOwner
  distinct : (w.attempts.map (·.guard.owner)).Nodup
  owned : ∀ {notify generation owner previous},
    w.state = .refreshing notify generation owner previous →
    ∃ a ∈ w.attempts, a.guard = ⟨owner, false⟩ ∧ a.generation = generation
  handle : ∀ a ∈ w.attempts, ∀ {result kept}, a.phase = .checked result kept →
    ∀ {notify generation previous},
    w.state = .refreshing notify generation a.guard.owner previous → kept = notify
  heard : ∀ waiter ∈ w.waiters, w.Hears waiter

/-- Attempts with one owner are one attempt. -/
theorem Flight.eq_of_owner {w : World T} (hf : Flight w) {a b : Attempt T}
    (ha : a ∈ w.attempts) (hb : b ∈ w.attempts) (h : a.guard.owner = b.guard.owner) : a = b :=
  List.inj_on_of_nodup_map hf.distinct ha hb h

/-- It holds at the start. -/
theorem flight_start (provider : Except AuthError Unit) :
    Flight (World.start provider : World T) := by
  refine ⟨by simp [World.start], by simp [World.start], fun {n g o p} h => ?_,
    by simp [World.start], by simp [World.start]⟩
  cases provider <;> simp [World.start, World.state, CredentialSlot.newResult] at h

/-! ### the attempts -/

/-- Writing an attempt brings in no owner. -/
theorem owners_setAttempt {w : World T} {owner : RefreshOwnerId} {attempt : Attempt T}
    (h : attempt.guard.owner = owner) :
    ((w.setAttempt owner attempt).attempts.map (·.guard.owner)).Sublist
      (w.attempts.map (·.guard.owner)) := by
  have heq : (w.setAttempt owner attempt).attempts.map (·.guard.owner) =
      w.attempts.map (·.guard.owner) := by
    simp only [World.setAttempt, List.map_map]
    refine List.map_congr_left (fun a _ => ?_)
    simp only [Function.comp_apply]
    split <;> simp_all
  rw [heq]

/-- Nor does ending one. -/
theorem owners_removeAttempt (w : World T) (owner : RefreshOwnerId) :
    ((w.removeAttempt owner).attempts.map (·.guard.owner)).Sublist
      (w.attempts.map (·.guard.owner)) :=
  (List.filter_sublist).map _

/-- A move draws at most one owner, the next of the counter, and gives it to
a new attempt and to the slot. -/
theorem Move.owners {w w' : World T} {o : Outcome T} (h : Move w w' o) :
    ((w'.attempts.map (·.guard.owner)).Sublist (w.attempts.map (·.guard.owner)) ∧
      w.inner.nextOwner ≤ w'.inner.nextOwner) ∨
    (w'.attempts.map (·.guard.owner) = w.attempts.map (·.guard.owner) ++ [w.inner.nextOwner] ∧
      w'.inner.nextOwner = w.inner.nextOwner + 1 ∧
      w'.state.owner? = some w.inner.nextOwner) := by
  cases h with
  | started ho hg => exact .inr ⟨by simp, rfl, rfl⟩
  | refused hn => exact .inl ⟨List.Sublist.refl _, hn⟩
  | checked ha hp hs => exact .inl ⟨owners_setAttempt rfl, Nat.le_refl _⟩
  | stale ha hc => exact .inl ⟨owners_setAttempt rfl, Nat.le_refl _⟩
  | stored ha hp hs => exact .inl ⟨owners_setAttempt rfl, Nat.le_refl _⟩
  | storedFailure ha hp hs => exact .inl ⟨owners_setAttempt rfl, Nat.le_refl _⟩
  | unwinding ha hp => exact .inl ⟨owners_setAttempt rfl, Nat.le_refl _⟩
  | dropped ha hd => exact .inl ⟨owners_removeAttempt w _, Nat.le_refl _⟩
  | rolledBack ha hd hs => exact .inl ⟨owners_removeAttempt _ _, Nat.le_refl _⟩
  | _ => exact .inl ⟨List.Sublist.refl _, Nat.le_refl _⟩

/-- The next owner is new. -/
theorem Flight.fresh_owner {w : World T} (hf : Flight w) {owner : RefreshOwnerId}
    (h : owner ∈ w.attempts.map (·.guard.owner)) : owner < w.inner.nextOwner := by
  obtain ⟨a, ha, rfl⟩ := List.mem_map.mp h
  exact hf.fresh a ha

/-- And stays so. -/
theorem Flight.fresh_move {w w' : World T} {o : Outcome T} (hf : Flight w) (h : Move w w' o) :
    ∀ a ∈ w'.attempts, a.guard.owner < w'.inner.nextOwner := by
  intro a ha
  have hmem : a.guard.owner ∈ w'.attempts.map (·.guard.owner) := List.mem_map_of_mem ha
  obtain ⟨hsub, hle⟩ | ⟨heq, hnext, _⟩ := h.owners
  · exact Nat.lt_of_lt_of_le (hf.fresh_owner (hsub.subset hmem)) hle
  · rw [heq, List.mem_append, List.mem_singleton] at hmem
    rw [hnext]
    cases hmem with
    | inl hold => exact Nat.lt_succ_of_lt (hf.fresh_owner hold)
    | inr hnew => exact hnew ▸ Nat.lt_succ_self _

/-- No two attempts have one owner. -/
theorem Flight.distinct_move {w w' : World T} {o : Outcome T} (hf : Flight w)
    (h : Move w w' o) : (w'.attempts.map (·.guard.owner)).Nodup := by
  obtain ⟨hsub, _⟩ | ⟨heq, _, _⟩ := h.owners
  · exact hf.distinct.sublist hsub
  · rw [heq, ← List.concat_eq_append]
    exact hf.distinct.concat (fun hmem => Nat.lt_irrefl _ (hf.fresh_owner hmem))

/-! ### the owner of the slot -/

/-- An attempt the slot is not in flight for is not the owning one. -/
theorem Flight.owned_setAttempt {w : World T} (hf : Flight w) {a : Attempt T}
    {guard : RefreshGuard} (phase : Phase T) (ha : a ∈ w.attempts)
    (hkeep : guard = a.guard ∨ ∀ notify previous,
      w.state ≠ .refreshing notify a.generation a.guard.owner previous)
    {notify generation owner : Nat} {previous : RefreshPrevious (Stored T)}
    (hs : w.state = .refreshing notify generation owner previous) :
    ∃ b ∈ (w.setAttempt a.guard.owner ⟨guard, a.generation, phase⟩).attempts,
      b.guard = ⟨owner, false⟩ ∧ b.generation = generation := by
  obtain ⟨b, hb, hguard, hgen⟩ := hf.owned hs
  by_cases hba : b.guard.owner = a.guard.owner
  · have hab : b = a := hf.eq_of_owner hb ha hba
    subst hab
    cases hkeep with
    | inl hkeep =>
        refine ⟨⟨guard, b.generation, phase⟩, ?_, hkeep.trans hguard, hgen⟩
        exact List.mem_map.mpr ⟨b, hb, by simp⟩
    | inr hother =>
        refine absurd ?_ (hother notify previous)
        rw [hs, hgen, hguard]
  · exact ⟨b, List.mem_map.mpr ⟨b, hb, by simp [hba]⟩, hguard, hgen⟩

/-- The state in flight belongs to an attempt. -/
theorem Flight.owned_move {w w' : World T} {o : Outcome T} (hf : Flight w) (h : Move w w' o)
    {notify generation owner : Nat} {previous : RefreshPrevious (Stored T)}
    (hs' : w'.state = .refreshing notify generation owner previous) :
    ∃ a ∈ w'.attempts, a.guard = ⟨owner, false⟩ ∧ a.generation = generation := by
  cases h with
  | started ho hg =>
      simp only [World.state_begin, World.state_withInner, CredentialSlotState.refreshing.injEq]
        at hs'
      obtain ⟨-, rfl, rfl, -⟩ := hs'
      exact ⟨⟨⟨w.inner.nextOwner, false⟩, w.state.generation + 1, .awaiting⟩, by simp, rfl, rfl⟩
  | checked ha hp hs =>
      exact hf.owned_setAttempt _ ha (.inl rfl) hs'
  | stale ha hc =>
      refine hf.owned_setAttempt _ ha (.inr (fun notify previous hs => ?_)) hs'
      have hsome := commitSlotResultCheck_eq_some_iff.mpr ⟨previous, hs⟩
      exact absurd (hc.symm.trans hsome) (by simp)
  | stored ha hp hs => simp at hs'
  | storedFailure ha hp hs => simp at hs'
  | unwinding ha hp => exact hf.owned_setAttempt _ ha (.inl rfl) hs'
  | @dropped a ha hd =>
      obtain ⟨b, hb, hguard, hgen⟩ := hf.owned hs'
      refine ⟨b, World.mem_removeAttempt.mpr ⟨hb, fun hba => ?_⟩, hguard, hgen⟩
      have hab : b = a := hf.eq_of_owner hb ha hba
      subst hab
      cases hd with
      | inl hd => simp [hguard] at hd
      | inr hd =>
          rw [World.state_removeAttempt] at hs'
          simp [hs', hguard] at hd
  | rolledBack ha hd hs =>
      have := congrArg CredentialSlotState.owner? hs'
      simp at this
  | manualSet hg => simp at hs'
  | manualCleared hg => simp at hs'
  | invalidated hs hg => simp at hs'
  | forgotten hs =>
      simp only [World.state_withState, CredentialSlotState.refreshing.injEq] at hs'
      obtain ⟨-, rfl, rfl, -⟩ := hs'
      exact hf.owned hs
  | _ => exact hf.owned hs'

/-! ### the handle of a commit -/

/-- A written attempt names the handle its waiters wait on. -/
theorem Flight.handle_setAttempt {w : World T} (hf : Flight w) {a b : Attempt T}
    {attempt : Attempt T} {result : Except AuthError (Stored T)} {kept notify generation : Nat}
    {previous : RefreshPrevious (Stored T)}
    (hnew : ∀ {result kept}, attempt.phase = .checked result kept →
      w.state.notify? = some kept)
    (hb : b ∈ (w.setAttempt a.guard.owner attempt).attempts)
    (hp : b.phase = .checked result kept)
    (hs : w.state = .refreshing notify generation b.guard.owner previous) : kept = notify := by
  obtain rfl | ⟨hold, _⟩ := World.mem_setAttempt hb
  · have hkept := hnew hp
    rw [hs, CredentialSlotState.notify?_refreshing, Option.some.injEq] at hkept
    exact hkept.symm
  · exact hf.handle b hold hp hs

/-- Every attempt that is about to store names that handle. -/
theorem Flight.handle_move {w w' : World T} {o : Outcome T} (hf : Flight w) (h : Move w w' o)
    {b : Attempt T} (hb : b ∈ w'.attempts) {result : Except AuthError (Stored T)}
    {kept notify generation : Nat} {previous : RefreshPrevious (Stored T)}
    (hphase : b.phase = .checked result kept)
    (hs' : w'.state = .refreshing notify generation b.guard.owner previous) : kept = notify := by
  cases h with
  | started ho hg =>
      simp only [World.state_begin, World.state_withInner, CredentialSlotState.refreshing.injEq]
        at hs'
      rw [World.attempts_begin, World.attempts_withInner, List.mem_append,
        List.mem_singleton] at hb
      obtain hold | rfl := hb
      · exact absurd (hf.fresh b hold) (hs'.2.2.1 ▸ Nat.lt_irrefl _)
      · contradiction
  | checked ha hp hs =>
      refine hf.handle_setAttempt (fun hc => ?_) hb hphase hs'
      rw [Phase.checked.injEq] at hc
      rw [hs, CredentialSlotState.notify?_refreshing, hc.2]
  | stale ha hc => exact hf.handle_setAttempt (fun hc => by contradiction) hb hphase hs'
  | stored ha hp hs => simp at hs'
  | storedFailure ha hp hs => simp at hs'
  | unwinding ha hp => exact hf.handle_setAttempt (fun hc => by contradiction) hb hphase hs'
  | dropped ha hd => exact hf.handle b (World.mem_removeAttempt.mp hb).1 hphase hs'
  | rolledBack ha hd hs =>
      have := congrArg CredentialSlotState.owner? hs'
      simp at this
  | manualSet hg => simp at hs'
  | manualCleared hg => simp at hs'
  | invalidated hs hg => simp at hs'
  | forgotten hs =>
      simp only [World.state_withState, CredentialSlotState.refreshing.injEq] at hs'
      obtain ⟨rfl, rfl, rfl, -⟩ := hs'
      exact hf.handle b hb hphase hs
  | _ => exact hf.handle b hb hphase hs'

/-! ### the waiters -/

/-- A step that leaves the waiters alone keeps their wake-ups if it keeps
the handle in flight or passes it to the queue. -/
theorem World.Hears.of_kept {w w' : World T} {waiter : Waiter} (h : w.Hears waiter)
    (hs : ∀ notify, w.state.notify? = some notify →
      w'.state.notify? = some notify ∨ notify ∈ w'.pending)
    (hp : ∀ notify ∈ w.pending, notify ∈ w'.pending) : w'.Hears waiter := by
  obtain hwoken | hflight | hqueued := h
  · exact .inl hwoken
  · exact .inr (hs _ hflight)
  · exact .inr (.inr (hp _ hqueued))

/-- A `notify_waiters` on the handle in flight makes up for the slot leaving
flight. -/
theorem Flight.heard_wake {w w' : World T} (hf : Flight w) {notify : NotifyId}
    (hw : w'.waiters = w.waiters) (hpend : w'.pending = w.pending)
    (hs : ∀ n, w.state.notify? = some n → n = notify) :
    ∀ waiter ∈ (w'.wake notify).waiters, (w'.wake notify).Hears waiter := by
  intro waiter hmem
  obtain ⟨old, hold, rfl⟩ := List.mem_map.mp hmem
  by_cases hn : old.notify = notify
  · exact .inl (by rw [if_pos hn])
  · rw [if_neg hn]
    obtain hwoken | hflight | hqueued := hf.heard old (hw ▸ hold)
    · exact .inl hwoken
    · exact absurd (hs _ hflight) hn
    · exact .inr (.inr (hpend ▸ hqueued))

/-- Every waiter is heard. -/
theorem Flight.heard_move {w w' : World T} {o : Outcome T} (hf : Flight w) (h : Move w w' o) :
    ∀ waiter ∈ w'.waiters, w'.Hears waiter := by
  -- A slot that is not in flight has no handle.
  have hidle : ∀ {notify}, w.state.owner? = none → w.state.notify? ≠ some notify := by
    intro notify ho
    cases hs : w.state <;> simp_all
  cases h with
  | registered hs =>
      intro waiter hmem
      cases List.mem_append.mp hmem with
      | inl hold => exact hf.heard waiter hold
      | inr hnew =>
          rw [List.mem_singleton] at hnew
          subst hnew
          exact .inr (.inl (by rw [World.state_addWaiter, hs]; rfl))
  | started ho hg =>
      intro waiter hmem
      exact (hf.heard waiter hmem).of_kept (fun n hn => absurd hn (hidle ho)) (fun _ hq => hq)
  | stored ha hp hs =>
      refine hf.heard_wake rfl rfl (fun n hn => ?_)
      rw [hs, CredentialSlotState.notify?_refreshing, Option.some.injEq] at hn
      rw [← hn, hf.handle _ ha hp hs]
  | storedFailure ha hp hs =>
      refine hf.heard_wake rfl rfl (fun n hn => ?_)
      rw [hs, CredentialSlotState.notify?_refreshing, Option.some.injEq] at hn
      rw [← hn, hf.handle _ ha hp hs]
  | rolledBack ha hd hs =>
      intro waiter hmem
      refine (hf.heard waiter hmem).of_kept (fun n hn => ?_) (fun _ => List.mem_append_left _)
      rw [hs, CredentialSlotState.notify?_refreshing] at hn
      exact .inr (List.mem_append_right _ (by simp [Option.some.inj hn]))
  | manualSet hg =>
      intro waiter hmem
      refine (hf.heard waiter hmem).of_kept (fun n hn => ?_) (fun _ => List.mem_append_left _)
      exact .inr (List.mem_append_right _ (by simp [hn]))
  | manualCleared hg =>
      intro waiter hmem
      refine (hf.heard waiter hmem).of_kept (fun n hn => ?_) (fun _ => List.mem_append_left _)
      exact .inr (List.mem_append_right _ (by simp [hn]))
  | invalidated hs hg =>
      intro waiter hmem
      refine (hf.heard waiter hmem).of_kept (fun n hn => ?_) (fun _ hq => hq)
      exact absurd hn (hidle (by rw [hs]; rfl))
  | forgotten hs =>
      intro waiter hmem
      refine (hf.heard waiter hmem).of_kept (fun n hn => .inl ?_) (fun _ hq => hq)
      rw [hs] at hn
      exact hn
  | @notified notify hn =>
      intro waiter hmem
      obtain ⟨old, hold, rfl⟩ := List.mem_map.mp hmem
      by_cases heq : old.notify = notify
      · exact .inl (by rw [if_pos heq])
      · rw [if_neg heq]
        obtain hwoken | hflight | hqueued := hf.heard old hold
        · exact .inl hwoken
        · exact .inr (.inl hflight)
        · exact .inr (.inr ((List.mem_erase_of_ne heq).mpr hqueued))
  | left =>
      intro waiter hmem
      exact hf.heard waiter (List.mem_of_mem_eraseIdx hmem)
  | _ => exact hf.heard

/-! ## whole runs -/

/-- So all of it holds after any move. -/
theorem Flight.move {w w' : World T} {o : Outcome T} (hf : Flight w) (h : Move w w' o) :
    Flight w' where
  fresh := hf.fresh_move h
  distinct := hf.distinct_move h
  owned := hf.owned_move h
  handle _ hb _ _ hp _ _ _ hs := hf.handle_move h hb hp hs
  heard := hf.heard_move h

/-- And in every reachable world. -/
theorem flight_of_exec [CredentialMaterial T] {provider : Except AuthError Unit}
    {labels : List (Label T)} {w : World T} {history : List (Outcome T)}
    (h : exec World.step (World.start provider) labels = some (w, history)) : Flight w :=
  exec_invariant (I := Flight) (fun hf hs => hf.move (World.step_move hs)) h
    (flight_start provider)

/-- The attempts that would still finish or roll back the slot for an
owner: those not yet dropped whose guard is armed. -/
def World.armed (w : World T) (owner : RefreshOwnerId) : List (Attempt T) :=
  w.attempts.filter fun a => a.guard = ⟨owner, false⟩

/-- An in-flight slot has one armed attempt. -/
theorem Flight.armed_length {w : World T} (hf : Flight w) {owner : RefreshOwnerId}
    (ho : w.state.owner? = some owner) : (w.armed owner).length = 1 := by
  obtain ⟨a, ha, hguard⟩ : ∃ a ∈ w.attempts, a.guard = ⟨owner, false⟩ := by
    cases hs : w.state with
    | refreshing notify generation owner' previous =>
        rw [hs, CredentialSlotState.owner?_refreshing, Option.some.injEq] at ho
        obtain ⟨a, ha, hguard, _⟩ := hf.owned hs
        exact ⟨a, ha, ho ▸ hguard⟩
    | _ => simp [hs] at ho
  have hall : ∀ b ∈ w.armed owner, b = a := by
    intro b hb
    obtain ⟨hb, hbg⟩ := List.mem_filter.mp hb
    exact hf.eq_of_owner hb ha (by rw [of_decide_eq_true hbg, hguard])
  have hnodup : (w.armed owner).Nodup := (hf.distinct.of_map _).filter _
  have hmem : a ∈ w.armed owner := List.mem_filter.mpr ⟨ha, decide_eq_true hguard⟩
  rw [List.eq_replicate_of_mem hall] at hnodup hmem ⊢
  rw [List.length_replicate]
  have hle := List.nodup_replicate.mp hnodup
  have hpos := List.length_pos_of_mem hmem
  rw [List.length_replicate] at hpos
  omega

/-- **Single flight, no lost wake-up**: in every reachable state an in-flight
slot is owned by exactly one live, armed attempt, and every registered waiter
has been woken, waits on the handle of the attempt in flight, or has its
notification queued by a step that took the slot out of flight. -/
theorem single_flight_no_lost_wakeup [CredentialMaterial T] {provider : Except AuthError Unit}
    {labels : List (Label T)} {w : World T} {history : List (Outcome T)}
    (hrun : exec World.step (World.start provider) labels = some (w, history)) :
    (∀ owner, w.state.owner? = some owner → (w.armed owner).length = 1) ∧
    (∀ waiter ∈ w.waiters, waiter.woken = true ∨ w.state.notify? = some waiter.notify ∨
      waiter.notify ∈ w.pending) :=
  ⟨fun _ => (flight_of_exec hrun).armed_length, (flight_of_exec hrun).heard⟩

/-- A waiter joins an attempt, the attempt is cancelled and a second one
starts before the first notification goes out. -/
theorem single_flight_no_lost_wakeup_cancelled :
    ∃ w : World AccessToken,
      exec World.step (World.start (.ok ()))
        [.getOrRefresh .default 0 0, .getOrRefresh .default 0 0, .dropGuard 1,
          .getOrRefresh .default 0 0] = some (w, [.done, .done, .done, .done]) ∧
      w.state.owner? = some 2 ∧ (w.armed 2).length = 1 := by
  have hrun : exec World.step (World.start (.ok ()))
      [.getOrRefresh .default 0 0, .getOrRefresh .default 0 0, .dropGuard 1,
        .getOrRefresh .default 0 0] =
      some ((⟨⟨true, none, .refreshing 1 2 2 .empty, 3⟩, [⟨⟨2, false⟩, 2, .awaiting⟩],
        [⟨0, false⟩], [0], 2, 0⟩ : World AccessToken), [.done, .done, .done, .done]) := rfl
  exact ⟨_, hrun, rfl, (single_flight_no_lost_wakeup hrun).1 2 rfl⟩

/-! ## stale steps -/

/-- The labels by which an attempt ends. -/
def Label.Ends (owner : RefreshOwnerId) : Label T → Prop
  | .commitCheck owner' _ => owner' = owner
  | .commitStore owner' _ => owner' = owner
  | .dropGuard owner' => owner' = owner
  | _ => False

/-- The step took the slot away from every attempt there was before: a
manual change, or the start of an attempt. -/
def Label.Supersedes (w w' : World T) (o : Outcome T) : Label T → Prop
  | .setManual _ => o = .done
  | .clearManual => o = .done
  | .getOrRefresh _ _ _ => w.attempts.length < w'.attempts.length
  | _ => False

/-- An owner that has been handed out and does not hold the slot. -/
structure Superseded (w : World T) (owner : RefreshOwnerId) : Prop where
  drawn : owner < w.inner.nextOwner
  lost : w.state.owner? ≠ some owner

/-- Owners are drawn once, so an owner that lost the slot never gets it
back. -/
theorem Superseded.move {w w' : World T} {o : Outcome T} {owner : RefreshOwnerId}
    (hl : Superseded w owner) (h : Move w w' o) : Superseded w' owner := by
  obtain ⟨hdrawn, hlost⟩ := hl
  refine ⟨?_, ?_⟩
  · obtain ⟨_, hle⟩ | ⟨_, hnext, _⟩ := h.owners
    · exact Nat.lt_of_lt_of_le hdrawn hle
    · exact hnext ▸ Nat.lt_succ_of_lt hdrawn
  · cases h with
    | started ho hg =>
        simp only [World.state_begin, World.state_withInner,
          CredentialSlotState.owner?_refreshing, ne_eq, Option.some.injEq]
        exact Nat.ne_of_gt hdrawn
    | stored ha hp hs => simp
    | storedFailure ha hp hs => simp
    | rolledBack ha hd hs => simp
    | manualSet hg => simp
    | manualCleared hg => simp
    | invalidated hs hg => simp
    | forgotten hs =>
        rw [hs] at hlost
        exact hlost
    | _ => exact hlost

section stale

variable [CredentialMaterial T] {w w' : World T} {label : Label T} {o : Outcome T}

/-- A commit or a drop that does not find its owner in the slot leaves the
slot as it is. -/
theorem slot_eq_of_ends {owner : RefreshOwnerId} (he : label.Ends owner)
    (ho : w.state.owner? ≠ some owner) (h : w.step label = some (w', o)) : w'.slot = w.slot := by
  cases label with
  | commitCheck owner' result =>
      simp only [World.step] at h
      split at h
      · split at h <;> cases h <;> rfl
      · contradiction
  | commitStore owner' now =>
      obtain rfl : owner' = owner := he
      simp only [World.step] at h
      split at h
      · next guard generation result notify hfind =>
          obtain ⟨_, hg⟩ := attempt?_eq_some hfind
          have hstale : commitSlotResultCheck w.inner generation guard = none := by
            cases hc : commitSlotResultCheck w.inner generation guard with
            | none => rfl
            | some n =>
                obtain ⟨previous, hs⟩ := commitSlotResultCheck_eq_some_iff.mp hc
                have hs : w.state = .refreshing n generation guard.owner previous := hs
                exact absurd (by rw [hs, ← hg]; rfl) ho
          simp only [commitSlotResultStore, hstale] at h
          cases h
          rfl
      · contradiction
  | dropGuard owner' =>
      obtain rfl : owner' = owner := he
      simp only [World.step] at h
      split at h
      · contradiction
      · next guard generation phase hphase hfind =>
          obtain ⟨_, hg⟩ := attempt?_eq_some hfind
          have hspec := guard.drop_spec w.inner
          cases hd : guard.drop w.inner with
          | mk inner' notify' =>
              rw [hd] at h hspec
              cases hspec with
              | kept hk =>
                  cases h
                  rfl
              | rolledBack hd' hs =>
                  have hs : w.state = _ := hs
                  exact absurd (by rw [hs, ← hg]; rfl) ho
      · contradiction
  | _ => exact absurd he id

/-- A superseding step leaves every earlier attempt without the slot. -/
theorem superseded_of_supersedes (hf : Flight w) (hsup : label.Supersedes w w' o)
    (h : w.step label = some (w', o)) {a : Attempt T} (ha : a ∈ w.attempts) :
    Superseded w' a.guard.owner := by
  have hdrawn := hf.fresh a ha
  cases label with
  | setManual value =>
      obtain rfl : o = .done := hsup
      simp only [World.step] at h
      split at h
      · simp at h
      · cases setManual_spec w.inner (⟨w.nextObject, value⟩ : Stored T) with
        | inl hok =>
            rw [hok.2] at h
            cases h
            exact ⟨hdrawn, by simp⟩
        | inr herr =>
            rw [herr] at h
            simp at h
  | clearManual =>
      obtain rfl : o = .done := hsup
      simp only [World.step] at h
      split at h
      · simp at h
      · cases clearManual_spec w.inner with
        | inl hok =>
            rw [hok.2] at h
            cases h
            exact ⟨hdrawn, by simp⟩
        | inr herr =>
            rw [herr] at h
            simp at h
  | getOrRefresh policy now now' =>
      have hlen : w.attempts.length < w'.attempts.length := hsup
      obtain ⟨hsub, _⟩ | ⟨_, hnext, howner⟩ := (World.step_move h).owners
      · have hle := hsub.length_le
        rw [List.length_map, List.length_map] at hle
        omega
      · refine ⟨hnext ▸ Nat.lt_succ_of_lt hdrawn, ?_⟩
        rw [howner, ne_eq, Option.some.injEq]
        exact Nat.ne_of_gt hdrawn
  | _ => exact absurd hsup id

/-- An invalidation that names another generation than the one the slot
holds a credential under leaves the slot as it is. -/
theorem slot_eq_of_invalidate {generation : Nat}
    (hl : label = .invalidateGeneration (some generation) ∨
      label = .invalidateGenerationLocal (some generation))
    (hheld : ∀ lease, w.state.held? = some lease → lease.generation ≠ generation)
    (h : w.step label = some (w', o)) : w'.slot = w.slot := by
  have hsection : (invalidateGenerationState w.inner (some generation)).1 = w.inner := by
    have hspec := invalidateGenerationState_spec w.inner (some generation)
    cases hi : invalidateGenerationState w.inner (some generation) with
    | mk inner result =>
        rw [hi] at hspec
        cases hspec with
        | current hs hg hle =>
            have hs : w.state = _ := hs
            refine absurd ?_ (hheld _ (by rw [hs]; rfl))
            simpa using Eq.symm (by simpa using hg)
        | previous hs hg =>
            have hs : w.state = _ := hs
            refine absurd ?_ (hheld _ (by rw [hs]; rfl))
            simpa using Eq.symm (by simpa using hg)
        | exhausted hs hg hmax => rfl
        | ignored hm => rfl
  cases eq_of_step_invalidate hl h with
  | inl hmissing => rw [hmissing.1]
  | inr hrun =>
      rw [hrun, hsection]
      rfl

end stale

/-- **No stale write**: along every run, a commit or a cancellation changes
the slot only if the slot is in flight under that attempt's own owner; once
a manual change or a newer attempt has taken the slot, no later commit or
cancellation of an older attempt changes it, whatever happens in between;
and an invalidation by a generation the slot does not hold a credential
under changes nothing. -/
theorem stale_steps_keep_slot [CredentialMaterial T] {provider : Except AuthError Unit}
    {labels : List (Label T)} {w : World T} {history : List (Outcome T)}
    (hrun : exec World.step (World.start provider) labels = some (w, history)) :
    (∀ owner label w' o, label.Ends owner → w.step label = some (w', o) → w'.slot ≠ w.slot →
      w.state.owner? = some owner) ∧
    (∀ a ∈ w.attempts, ∀ label w₁ o₁, w.step label = some (w₁, o₁) →
      label.Supersedes w w₁ o₁ → ∀ labels' w₂ history', exec World.step w₁ labels' =
        some (w₂, history') → ∀ label' w₃ o₃, label'.Ends a.guard.owner →
        w₂.step label' = some (w₃, o₃) → w₃.slot = w₂.slot) ∧
    (∀ generation, (∀ lease, w.state.held? = some lease → lease.generation ≠ generation) →
      ∀ label, label = .invalidateGeneration (some generation) ∨
        label = .invalidateGenerationLocal (some generation) →
      ∀ w' o, w.step label = some (w', o) → w'.slot = w.slot) := by
  refine ⟨fun owner label w' o he hs hne => ?_, ?_,
    fun generation hheld label hl w' o hs => slot_eq_of_invalidate hl hheld hs⟩
  · by_contra ho
    exact hne (slot_eq_of_ends he ho hs)
  · intro a ha label w₁ o₁ hs hsup labels' w₂ history' hrun' label' w₃ o₃ he hs'
    have hlost : Superseded w₁ a.guard.owner :=
      superseded_of_supersedes (flight_of_exec hrun) hsup hs ha
    have hlost' : Superseded w₂ a.guard.owner :=
      exec_invariant (I := fun w => Superseded w a.guard.owner)
        (fun hl hs => hl.move (World.step_move hs)) hrun' hlost
    exact slot_eq_of_ends he hlost'.lost hs'

/-- An attempt is overtaken by a manual credential and its provider answers
late: the commit finds the slot taken and leaves it. -/
theorem stale_steps_keep_slot_overtaken :
    let late : AccessToken := ⟨"late", none⟩
    ∃ w w₁ w₂ : World AccessToken,
      exec World.step (World.start (.ok ())) [.getOrRefresh .default 0 0] = some (w, [.done]) ∧
      w.step (.setManual ⟨"manual", none⟩) = some (w₁, .done) ∧
      w₁.step (.commitCheck 1 (.ok late)) = some (w₂, .done) ∧ w₂.slot = w₁.slot := by
  intro late
  have hrun : exec World.step (World.start (.ok ())) [.getOrRefresh .default 0 0] =
      some ((⟨⟨true, none, .refreshing 0 1 1 .empty, 2⟩, [⟨⟨1, false⟩, 1, .awaiting⟩],
        [], [], 1, 0⟩ : World AccessToken), [.done]) := rfl
  refine ⟨_, _, _, hrun, rfl, rfl, ?_⟩
  exact (stale_steps_keep_slot hrun).2.1 ⟨⟨1, false⟩, 1, .awaiting⟩ (by simp)
    (.setManual ⟨"manual", none⟩) _ .done rfl rfl [] _ [] rfl
    (.commitCheck 1 (.ok late)) _ .done rfl rfl

end Concord
