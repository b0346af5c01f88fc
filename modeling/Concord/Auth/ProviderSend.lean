import Concord.Auth.Error

/-!
# Concord.Auth.ProviderSend

The sends of authentication providers that run inside each other
(`concord_core/src/client/auth_http.rs`).

A send that authenticates itself asks a provider first, which may send in
turn.  The requirement ids of the sends that wait for a provider are on a
stack, one stack for each send that is not inside another one; a guard puts
an id there and takes it off when it is dropped.  Sends may be polled in one
task in any order, and a send ends when it returns or when its future is
dropped.  What a provider has started ends before the send that asked it:
its future owns theirs.
-/

namespace Concord

/-! ## ids -/

/-- The credential a send is for. -/
structure AuthRequirementId where
  nameSpace : String
  name : String
  deriving DecidableEq, Repr

namespace AuthRequirementId

/-- It as it is joined for the recursion check. -/
def safeFragment (id : AuthRequirementId) : String := id.nameSpace ++ ":" ++ id.name

/-- It as it is shown. -/
def display (id : AuthRequirementId) : String := id.nameSpace ++ "." ++ id.name

end AuthRequirementId

/-- `AuthMode`, less the requirement. -/
inductive AuthMode where
  | skipAuth
  | useAuth (id : AuthRequirementId)
  deriving DecidableEq, Repr

/-! ## the stack -/

/-- `rposition`. -/
def rposition (p : String → Bool) (stack : List String) : Option Nat :=
  (stack.reverse.findIdx? p).map fun index => stack.length - 1 - index

namespace AuthInternalStackGuard

/-- One more credential on the stack. -/
def push (stack : List String) (requirementKey : String) : List String := stack ++ [requirementKey]

/-- The `drop` of a guard. -/
def drop (stack : List String) (requirementKey : String) : List String :=
  if stack.getLast? = some requirementKey then stack.dropLast
  else
    match rposition (· = requirementKey) stack with
    | some index => stack.eraseIdx index
    | none => stack

end AuthInternalStackGuard

/-! ## sends -/

/-- How a send ends. -/
inductive SendEnd where
  | ok
  | failed (error : AuthError)
  | dropped
  deriving DecidableEq, Repr

/-- Where a send is: before the look at the stack, waiting for its provider
with a guard for the id, behind it, or at its end. -/
inductive SendPhase where
  | started
  | preparing (id : AuthRequirementId)
  | sending
  | ended (how : SendEnd)
  deriving DecidableEq, Repr

namespace SendPhase

/-- Whether a send still runs. -/
def running : SendPhase → Bool
  | .ended _ => false
  | .started | .preparing _ | .sending => true

/-- The id that a live guard is for. -/
def guard? : SendPhase → Option AuthRequirementId
  | .preparing id => some id
  | .started | .sending | .ended _ => none

/-- The phase of a send after one of its parts; `none` is a success. -/
def after (next : SendPhase) : Option AuthError → SendPhase
  | none => next
  | some error => .ended (.failed error)

end SendPhase

/-- A send: the one it runs inside, the stack it sees, its mode. -/
structure ProviderSend where
  parent : Option Nat
  scope : Nat
  mode : AuthMode
  phase : SendPhase
  deriving DecidableEq, Repr

/-- The sends of a task in the order in which they were started, and the
stacks.  A stack is named by the send that opened it. -/
structure AuthTask where
  sends : List ProviderSend
  stackOf : Nat → List String

namespace AuthTask

/-- A task without sends. -/
def new : AuthTask := ⟨[], fun _ => []⟩

/-- A send goes on. -/
def setPhase (task : AuthTask) (index : Nat) (send : ProviderSend) (phase : SendPhase) :
    AuthTask :=
  { task with sends := task.sends.set index { send with phase := phase } }

/-- The stack of a scope, written back. -/
def setStack (task : AuthTask) (scope : Nat) (stack : List String) : AuthTask :=
  { task with stackOf := fun other => if other = scope then stack else task.stackOf other }

/-- The sends that a send has started are at their end. -/
def childrenEnded (task : AuthTask) (index : Nat) : Bool :=
  task.sends.all fun send => send.parent ≠ some index || !send.phase.running

/-- The guard of a send is dropped, if it has one. -/
def dropGuard (task : AuthTask) (send : ProviderSend) : AuthTask :=
  match send.phase.guard? with
  | some id =>
    task.setStack send.scope
      (AuthInternalStackGuard.drop (task.stackOf send.scope) id.safeFragment)
  | none => task

/-- `AuthErrorKind::RecursionDetected`. -/
def recursionDetected (id : AuthRequirementId) : AuthError :=
  .new .recursionDetected
    ("internal auth recursion detected for requirement `" ++ id.display ++ "`")

/-- The look at the stack, with what comes after it up to the provider. -/
def enter (task : AuthTask) (index : Nat) (send : ProviderSend) (poisoned : Bool) : AuthTask :=
  match send.mode with
  | .skipAuth => task.setPhase index send .sending
  | .useAuth id =>
    let requirementKey := id.safeFragment
    if (task.stackOf send.scope).any (· = requirementKey) then
      task.setPhase index send (.ended (.failed (recursionDetected id)))
    else if poisoned then
      task.setPhase index send
        (.ended (.failed (.stateUnavailable "auth state lock poisoned")))
    else
      (task.setStack send.scope
        (AuthInternalStackGuard.push (task.stackOf send.scope) requirementKey)).setPhase index send
        (.preparing id)

end AuthTask

/-- What happens next in a task.  `refuse` is an error before the look at the
stack. -/
inductive SendEvent where
  | start (parent : Option Nat) (mode : AuthMode)
  | refuse (send : Nat) (error : AuthError)
  | enter (send : Nat) (poisoned : Bool)
  | prepared (send : Nat) (result : Option AuthError)
  | finish (send : Nat) (result : Option AuthError)
  | drop (send : Nat)
  deriving DecidableEq, Repr

namespace AuthTask

/-- `with_auth_internal_stack`: a send that is not inside another one opens a
stack. -/
def start (task : AuthTask) (parent : Option Nat) (mode : AuthMode) : Option AuthTask :=
  match parent with
  | none =>
    let scope := task.sends.length
    some { task.setStack scope [] with sends := task.sends ++ [⟨none, scope, mode, .started⟩] }
  | some index =>
    match task.sends[index]? with
    | none => none
    | some send =>
      if send.phase.guard?.isSome then
        some { task with sends := task.sends ++ [⟨some index, send.scope, mode, .started⟩] }
      else none

/-- A step on a send that is in one of the phases. -/
def onSend (task : AuthTask) (index : Nat) (allowed : SendPhase → Bool)
    (next : ProviderSend → AuthTask) : Option AuthTask :=
  match task.sends[index]? with
  | none => none
  | some send => if allowed send.phase then some (next send) else none

/-- One event of the task. -/
def step (task : AuthTask) : SendEvent → Option AuthTask
  | .start parent mode => task.start parent mode
  | .refuse index error =>
    task.onSend index (· = .started) fun send =>
      task.setPhase index send (.ended (.failed error))
  | .enter index poisoned =>
    task.onSend index (· = .started) fun send => task.enter index send poisoned
  | .prepared index result =>
    task.onSend index (fun phase => phase.guard?.isSome && task.childrenEnded index) fun send =>
      (task.dropGuard send).setPhase index send (SendPhase.after .sending result)
  | .finish index result =>
    task.onSend index (· = .sending) fun send =>
      task.setPhase index send (SendPhase.after (.ended .ok) result)
  | .drop index =>
    task.onSend index (fun phase => phase.running && task.childrenEnded index) fun send =>
      (task.dropGuard send).setPhase index send (.ended .dropped)

/-! ## one step -/

/-- What a step can do. -/
inductive Move (task : AuthTask) : SendEvent → AuthTask → Prop
  | opened (mode : AuthMode) :
      Move task (.start none mode) { task.setStack task.sends.length [] with
        sends := task.sends ++ [⟨none, task.sends.length, mode, .started⟩] }
  | nested {index : Nat} {send : ProviderSend} (hsend : task.sends[index]? = some send)
      {id : AuthRequirementId} (hguard : send.phase = .preparing id) (mode : AuthMode) :
      Move task (.start (some index) mode) { task with
        sends := task.sends ++ [⟨some index, send.scope, mode, .started⟩] }
  | moved {index : Nat} {send : ProviderSend} (hsend : task.sends[index]? = some send)
      (hrunning : send.phase.running = true) (hguard : send.phase.guard? = none)
      {phase : SendPhase} (hphase : phase.guard? = none) {event : SendEvent} :
      Move task event (task.setPhase index send phase)
  | pushed {index : Nat} {send : ProviderSend} (hsend : task.sends[index]? = some send)
      (hphase : send.phase = .started) {id : AuthRequirementId} (hmode : send.mode = .useAuth id)
      (hfresh : id.safeFragment ∉ task.stackOf send.scope) {event : SendEvent} :
      Move task event ((task.setStack send.scope
        (AuthInternalStackGuard.push (task.stackOf send.scope) id.safeFragment)).setPhase index send
        (.preparing id))
  | popped {index : Nat} {send : ProviderSend} (hsend : task.sends[index]? = some send)
      {id : AuthRequirementId} (hguard : send.phase = .preparing id)
      (hchildren : task.childrenEnded index = true) {phase : SendPhase}
      (hphase : phase.guard? = none) {event : SendEvent} :
      Move task event ((task.setStack send.scope
        (AuthInternalStackGuard.drop (task.stackOf send.scope) id.safeFragment)).setPhase index send
        phase)

/-- An event is taken only by a send in its phase. -/
theorem onSend_eq_some {task task' : AuthTask} {index : Nat} {allowed : SendPhase → Bool}
    {next : ProviderSend → AuthTask} (h : task.onSend index allowed next = some task') :
    ∃ send, task.sends[index]? = some send ∧ allowed send.phase = true ∧ task' = next send := by
  unfold onSend at h
  split at h
  · contradiction
  · next send hsend =>
      split at h
      · next hallowed => exact ⟨send, hsend, hallowed, (Option.some.inj h).symm⟩
      · contradiction

/-- Only a send that prepares holds a guard. -/
theorem phase_of_guard? {phase : SendPhase} {id : AuthRequirementId} (h : phase.guard? = some id) :
    phase = .preparing id := by
  cases phase with
  | preparing found => rw [Option.some.inj h]
  | started => contradiction
  | sending => contradiction
  | ended how => contradiction

/-- A send that holds none ends with none. -/
theorem guard?_after {phase : SendPhase} (h : phase.guard? = none) (result : Option AuthError) :
    (phase.after result).guard? = none := by
  cases result with
  | none => exact h
  | some error => rfl

/-- What entering may do to the task. -/
theorem move_of_enter {task : AuthTask} {index : Nat} {send : ProviderSend}
    (hsend : task.sends[index]? = some send) (hphase : send.phase = .started) (poisoned : Bool)
    (event : SendEvent) : Move task event (task.enter index send poisoned) := by
  have hrunning : send.phase.running = true := by rw [hphase]; rfl
  have hguard : send.phase.guard? = none := by rw [hphase]; rfl
  unfold enter
  split
  · exact .moved hsend hrunning hguard rfl
  · next id hmode =>
      dsimp only
      split
      · exact .moved hsend hrunning hguard rfl
      · next hfresh =>
          split
          · exact .moved hsend hrunning hguard rfl
          · refine .pushed hsend hphase hmode fun hmem => hfresh ?_
            exact List.any_eq_true.mpr ⟨_, hmem, decide_eq_true rfl⟩

/-- What dropping a guard may do. -/
theorem move_of_dropGuard {task : AuthTask} {index : Nat} {send : ProviderSend}
    (hsend : task.sends[index]? = some send) (hrunning : send.phase.running = true)
    (hchildren : task.childrenEnded index = true) {phase : SendPhase}
    (hphase : phase.guard? = none) (event : SendEvent) :
    Move task event ((task.dropGuard send).setPhase index send phase) := by
  unfold dropGuard
  split
  · next id hguard =>
      exact .popped hsend (phase_of_guard? hguard) hchildren hphase
  · next hguard => exact .moved hsend hrunning hguard hphase

/-- What a new send may do. -/
theorem move_of_start {task task' : AuthTask} {parent : Option Nat} {mode : AuthMode}
    (h : task.start parent mode = some task') : Move task (.start parent mode) task' := by
  unfold start at h
  split at h
  · rw [← Option.some.inj h]
    exact .opened mode
  · split at h
    · contradiction
    · next index send hsend =>
        split at h
        · next hguard =>
            obtain ⟨id, hid⟩ := Option.isSome_iff_exists.mp hguard
            rw [← Option.some.inj h]
            exact .nested hsend (phase_of_guard? hid) mode
        · contradiction

/-- Every step is one of the moves. -/
theorem step_cases {task task' : AuthTask} {event : SendEvent}
    (h : task.step event = some task') : Move task event task' := by
  have hstarted {send : ProviderSend} (hphase : send.phase = .started) :
      send.phase.running = true ∧ send.phase.guard? = none := by
    rw [hphase]
    exact ⟨rfl, rfl⟩
  cases event with
  | start parent mode => exact move_of_start h
  | refuse index error =>
      simp only [step] at h
      obtain ⟨send, hsend, hallowed, rfl⟩ := onSend_eq_some h
      obtain ⟨hrunning, hguard⟩ := hstarted (of_decide_eq_true hallowed)
      exact .moved hsend hrunning hguard rfl
  | enter index poisoned =>
      simp only [step] at h
      obtain ⟨send, hsend, hallowed, rfl⟩ := onSend_eq_some h
      exact move_of_enter hsend (of_decide_eq_true hallowed) poisoned _
  | prepared index result =>
      simp only [step] at h
      obtain ⟨send, hsend, hallowed, rfl⟩ := onSend_eq_some h
      obtain ⟨hguard, hchildren⟩ := Bool.and_eq_true_iff.mp hallowed
      obtain ⟨id, hid⟩ := Option.isSome_iff_exists.mp hguard
      have hrunning : send.phase.running = true := by
        rw [phase_of_guard? hid]
        rfl
      exact move_of_dropGuard hsend hrunning hchildren (guard?_after rfl result) _
  | finish index result =>
      simp only [step] at h
      obtain ⟨send, hsend, hallowed, rfl⟩ := onSend_eq_some h
      have hphase : send.phase = .sending := of_decide_eq_true hallowed
      exact .moved hsend (by rw [hphase]; rfl) (by rw [hphase]; rfl) (guard?_after rfl result)
  | drop index =>
      simp only [step] at h
      obtain ⟨send, hsend, hallowed, rfl⟩ := onSend_eq_some h
      obtain ⟨hrunning, hchildren⟩ := Bool.and_eq_true_iff.mp hallowed
      exact move_of_dropGuard hsend hrunning hchildren rfl _

end AuthTask

end Concord
