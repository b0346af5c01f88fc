import Mathlib.Data.List.Perm.Subperm
import Mathlib.Data.Set.Basic
import Concord.Auth.ProviderSend
import Concord.Lib.Held

/-!
# Concord.Auth.Recursion

Sends that are inside a send for the same requirement id
(`concord_core/src/client/auth_http.rs`).

In every state that a task can reach, the entries of a stack are those of the
guards that are live (`Stacked`), and a send runs inside one that waits for
its provider (`Nesting`).  So the look at the stack tells whether a guard for
a text is live.  An id stands on the stack as one text, and two ids may have
the same one: a send is refused exactly when a guard for its id is live if
the ids of the task differ in their texts (`auth_recursion_exact_iff`).
-/

namespace Concord

namespace AuthTask

/-! ## guards and stacks -/

/-- The key on a stack that a live guard of the send has put there. -/
def held (scope : Nat) (send : ProviderSend) : Option String :=
  if send.scope = scope then send.phase.guard?.map AuthRequirementId.safeFragment else none

/-- The keys of the live guards of a stack. -/
def guardKeys (task : AuthTask) (scope : Nat) : List String := task.sends.filterMap (held scope)

/-- A live guard of a stack is for the id. -/
def Guarded (task : AuthTask) (scope : Nat) (id : AuthRequirementId) : Prop :=
  ∃ send ∈ task.sends, send.scope = scope ∧ send.phase = .preparing id

/-- A stack has one entry for each live guard, and no entry twice. -/
structure Stacked (task : AuthTask) : Prop where
  perm (scope : Nat) : (task.stackOf scope).Perm (task.guardKeys scope)
  nodup (scope : Nat) : (task.stackOf scope).Nodup
  scope_lt {send : ProviderSend} (h : send ∈ task.sends) : send.scope < task.sends.length

/-- A send without a guard holds nothing. -/
theorem held_of_guard?_none {scope : Nat} {send : ProviderSend} (h : send.phase.guard? = none) :
    held scope send = none := by
  simp [held, h]

/-- A send that has started holds no guard yet. -/
theorem guardKeys_append (task : AuthTask) {send : ProviderSend} (h : send.phase = .started)
    (scope : Nat) : (task.sends ++ [send]).filterMap (held scope) = task.guardKeys scope := by
  have hnone : held scope send = none := held_of_guard?_none (by rw [h]; rfl)
  rw [List.filterMap_append, List.filterMap_cons_none hnone, List.filterMap_nil, List.append_nil]
  rfl

/-- A step on one send changes what is held on its stack. -/
theorem guardKeys_setPhase {task : AuthTask} {index : Nat} {send : ProviderSend}
    (hsend : task.sends[index]? = some send) (phase : SendPhase) (scope : Nat) :
    ∃ others, (task.guardKeys scope).Perm ((held scope send).toList ++ others) ∧
      ((task.setPhase index send phase).guardKeys scope).Perm
        ((held scope { send with phase := phase }).toList ++ others) := by
  obtain ⟨hindex, _⟩ := List.getElem?_eq_some_iff.mp hsend
  exact ⟨_, Held.filterMap_perm (held scope) hsend,
    Held.filterMap_set (held scope) hindex { send with phase := phase }⟩

/-- A guard that is dropped takes its key from the stack. -/
theorem drop_perm {stack : List String} {key : String} (h : key ∈ stack) :
    (key :: AuthInternalStackGuard.drop stack key).Perm stack := by
  unfold AuthInternalStackGuard.drop
  split
  · next hlast =>
      have hsplit : stack.dropLast ++ [key] = stack := List.dropLast_append_getLast? key hlast
      exact (List.perm_append_singleton key stack.dropLast).symm.trans (.of_eq hsplit)
  · unfold rposition
    cases hfind : stack.reverse.findIdx? (fun item => decide (item = key)) with
    | none =>
        rw [List.findIdx?_eq_none_iff] at hfind
        have hnot := hfind key (List.mem_reverse.mpr h)
        simp at hnot
    | some index =>
        obtain ⟨hindex, hkey, _⟩ := List.findIdx?_eq_some_iff_getElem.mp hfind
        rw [List.length_reverse] at hindex
        have hlt : stack.length - 1 - index < stack.length := by omega
        have hget : stack[stack.length - 1 - index] = key := by
          rw [List.getElem_reverse] at hkey
          exact of_decide_eq_true hkey
        have hperm := List.getElem_cons_eraseIdx_perm hlt
        rw [hget] at hperm
        exact hperm

/-- A phase changes no stack. -/
theorem setPhase_stackOf (task : AuthTask) (index : Nat) (send : ProviderSend)
    (phase : SendPhase) : (task.setPhase index send phase).stackOf = task.stackOf := rfl

theorem setStack_stackOf_self (task : AuthTask) (scope : Nat) (stack : List String) :
    (task.setStack scope stack).stackOf scope = stack := if_pos rfl

theorem setStack_stackOf_of_ne {task : AuthTask} {scope other : Nat} (h : other ≠ scope)
    {stack : List String} : (task.setStack scope stack).stackOf other = task.stackOf other :=
  if_neg h

theorem setStack_self (task : AuthTask) (scope : Nat) :
    task.setStack scope (task.stackOf scope) = task := by
  have hstack : (task.setStack scope (task.stackOf scope)).stackOf = task.stackOf := by
    funext other
    by_cases h : other = scope
    · rw [h, setStack_stackOf_self]
    · rw [setStack_stackOf_of_ne h]
  obtain ⟨sends, stackOf⟩ := task
  simp only [setStack, mk.injEq, true_and] at hstack ⊢
  exact hstack

/-- A new task has empty stacks. -/
theorem stacked_new : Stacked new where
  perm _ := List.Perm.refl _
  nodup _ := List.nodup_nil
  scope_lt h := absurd h List.not_mem_nil

/-- The stacks after a step on one send. -/
theorem Stacked.setPhase {task : AuthTask} (h : Stacked task) {index : Nat} {send : ProviderSend}
    (hsend : task.sends[index]? = some send) {phase : SendPhase} {stack : List String}
    (hstack : ∀ others, (task.stackOf send.scope).Perm ((held send.scope send).toList ++ others) →
      stack.Nodup ∧
        stack.Perm ((held send.scope { send with phase := phase }).toList ++ others)) :
    Stacked ((task.setStack send.scope stack).setPhase index send phase) := by
  constructor
  · intro scope
    obtain ⟨others, hbefore, hafter⟩ := guardKeys_setPhase hsend phase scope
    by_cases hscope : scope = send.scope
    · subst hscope
      have hperm := (hstack others ((h.perm _).trans hbefore)).2
      rw [setPhase_stackOf, setStack_stackOf_self]
      exact hperm.trans hafter.symm
    · have hnone (send' : ProviderSend) (hsame : send'.scope = send.scope) :
          held scope send' = none := if_neg fun heq => hscope (heq.symm.trans hsame)
      rw [hnone send rfl] at hbefore
      rw [hnone { send with phase := phase } rfl] at hafter
      rw [setPhase_stackOf, setStack_stackOf_of_ne hscope]
      exact (h.perm scope).trans (hbefore.trans hafter.symm)
  · intro scope
    obtain ⟨others, hbefore, _⟩ := guardKeys_setPhase hsend phase send.scope
    rw [setPhase_stackOf]
    by_cases hscope : scope = send.scope
    · subst hscope
      rw [setStack_stackOf_self]
      exact (hstack others ((h.perm _).trans hbefore)).1
    · rw [setStack_stackOf_of_ne hscope]
      exact h.nodup scope
  · intro other hmem
    have hlength : ((task.setStack send.scope stack).setPhase index send phase).sends.length =
        task.sends.length := List.length_set
    rw [hlength]
    rcases List.mem_or_eq_of_mem_set hmem with hold | rfl
    · exact h.scope_lt hold
    · have hlt : send.scope < task.sends.length := h.scope_lt (List.mem_of_getElem? hsend)
      exact hlt

/-- The scope of a send is one there is. -/
theorem Stacked.scope_lt_append {task : AuthTask} (h : Stacked task) {send : ProviderSend}
    (hscope : send.scope ≤ task.sends.length) {other : ProviderSend}
    (hmem : other ∈ task.sends ++ [send]) : other.scope < (task.sends ++ [send]).length := by
  rw [List.mem_append, List.mem_singleton] at hmem
  rw [List.length_append, List.length_singleton]
  rcases hmem with hold | rfl
  · have hlt := h.scope_lt hold
    omega
  · omega

/-- Every move keeps the stacks those of the live guards. -/
theorem Stacked.move {task task' : AuthTask} {event : SendEvent} (h : Stacked task)
    (hmove : Move task event task') : Stacked task' := by
  cases hmove with
  | opened mode =>
      have hfresh : task.guardKeys task.sends.length = [] := by
        rw [guardKeys, List.filterMap_eq_nil_iff]
        intro send hmem
        have hlt := h.scope_lt hmem
        exact if_neg (by omega)
      constructor
      · intro scope
        show ((task.setStack task.sends.length []).stackOf scope).Perm
          ((task.sends ++ [_]).filterMap (held scope))
        rw [task.guardKeys_append rfl]
        by_cases hscope : scope = task.sends.length
        · rw [hscope, setStack_stackOf_self, hfresh]
        · rw [setStack_stackOf_of_ne hscope]
          exact h.perm scope
      · intro scope
        show ((task.setStack task.sends.length []).stackOf scope).Nodup
        by_cases hscope : scope = task.sends.length
        · rw [hscope, setStack_stackOf_self]
          exact List.nodup_nil
        · rw [setStack_stackOf_of_ne hscope]
          exact h.nodup scope
      · exact h.scope_lt_append (Nat.le_refl _)
  | @nested index send hsend id hguard mode =>
      constructor
      · intro scope
        show (task.stackOf scope).Perm ((task.sends ++ [_]).filterMap (held scope))
        rw [task.guardKeys_append rfl]
        exact h.perm scope
      · exact h.nodup
      · intro other hmem
        have hlt := h.scope_lt (List.mem_of_getElem? hsend)
        have hscope : (⟨some index, send.scope, mode, .started⟩ : ProviderSend).scope ≤
            task.sends.length := Nat.le_of_lt hlt
        exact h.scope_lt_append hscope hmem
  | @moved index send hsend hrunning hguard phase hphase =>
      rw [← task.setStack_self send.scope]
      refine h.setPhase hsend fun others hperm => ⟨h.nodup _, ?_⟩
      rw [held_of_guard?_none hphase]
      rw [held_of_guard?_none hguard] at hperm
      exact hperm
  | @pushed index send hsend hphase id hmode hfresh =>
      refine h.setPhase hsend fun others hperm => ⟨?_, ?_⟩
      · have hperm' : (AuthInternalStackGuard.push (task.stackOf send.scope)
            id.safeFragment).Perm (id.safeFragment :: task.stackOf send.scope) :=
          List.perm_append_singleton _ _
        rw [hperm'.nodup_iff, List.nodup_cons]
        exact ⟨hfresh, h.nodup _⟩
      · rw [held_of_guard?_none (by rw [hphase]; rfl)] at hperm
        have hheld : held send.scope { send with phase := .preparing id } =
            some id.safeFragment := by simp [held, SendPhase.guard?]
        rw [hheld]
        exact (List.perm_append_singleton _ _).trans (hperm.cons _)
  | @popped index send hsend id hguard hchildren phase hphase =>
      have hheld : held send.scope send = some id.safeFragment := by
        simp [held, hguard, SendPhase.guard?]
      refine h.setPhase hsend fun others hperm => ?_
      rw [hheld] at hperm
      have hmem : id.safeFragment ∈ task.stackOf send.scope := hperm.symm.subset (by simp)
      have hdrop := drop_perm hmem
      refine ⟨(hdrop.nodup_iff.mpr (h.nodup _)).of_cons, ?_⟩
      rw [held_of_guard?_none hphase]
      exact (hdrop.trans hperm).cons_inv

/-! ## nesting -/

/-- What runs inside another send runs while that one waits for its provider,
and sees its stack. -/
structure Nesting (task : AuthTask) : Prop where
  outer {index : Nat} {send : ProviderSend} (hsend : task.sends[index]? = some send)
    (hrunning : send.phase.running = true) {parent : Nat} (hparent : send.parent = some parent) :
    parent < index ∧ ∃ outer id, task.sends[parent]? = some outer ∧
      outer.phase = .preparing id ∧ outer.scope = send.scope

/-- A new task has no sends. -/
theorem nesting_new : Nesting new where
  outer hsend := by simp [new] at hsend

/-- A send is nested in the one that prepares it. -/
theorem Nesting.append {task task' : AuthTask} (h : Nesting task) {send : ProviderSend}
    (hsends : task'.sends = task.sends ++ [send])
    (hsend : ∀ parent, send.parent = some parent → ∃ outer id, task.sends[parent]? = some outer ∧
      outer.phase = .preparing id ∧ outer.scope = send.scope) : Nesting task' := by
  have hold {index : Nat} {other : ProviderSend} (hget : task.sends[index]? = some other) :
      task'.sends[index]? = some other := by
    obtain ⟨hlt, _⟩ := List.getElem?_eq_some_iff.mp hget
    rw [hsends, List.getElem?_append_left hlt, hget]
  constructor
  intro index other hget hrunning parent hparent
  rw [hsends] at hget
  by_cases hlt : index < task.sends.length
  · rw [List.getElem?_append_left hlt] at hget
    obtain ⟨hbefore, outer, id, houter, hphase, hscope⟩ := h.outer hget hrunning hparent
    exact ⟨hbefore, outer, id, hold houter, hphase, hscope⟩
  · rw [List.getElem?_append_right (by omega), List.getElem?_singleton] at hget
    split at hget
    · next hzero =>
        obtain rfl : send = other := Option.some.inj hget
        obtain ⟨outer, id, houter, hphase, hscope⟩ := hsend parent hparent
        obtain ⟨hparentLt, _⟩ := List.getElem?_eq_some_iff.mp houter
        exact ⟨by omega, outer, id, hold houter, hphase, hscope⟩
    · contradiction

/-- A step on a send that no running send is inside of. -/
theorem Nesting.set {task task' : AuthTask} (h : Nesting task) {index : Nat} {send : ProviderSend}
    (hsend : task.sends[index]? = some send) (hrunning : send.phase.running = true)
    {phase : SendPhase} (hsends : task'.sends = task.sends.set index { send with phase := phase })
    (hchildren : ∀ other ∈ task.sends, other.phase.running = true → other.parent ≠ some index) :
    Nesting task' := by
  have hother {other : Nat} (hne : other ≠ index) :
      task'.sends[other]? = task.sends[other]? := by
    rw [hsends, List.getElem?_set_ne (Ne.symm hne)]
  constructor
  intro found other hget hrunning' parent hparent
  by_cases hfound : found = index
  · subst hfound
    obtain ⟨hlt, _⟩ := List.getElem?_eq_some_iff.mp hsend
    rw [hsends, List.getElem?_set_self hlt] at hget
    obtain rfl := Option.some.inj hget
    obtain ⟨hbefore, outer, id, houter, hphase, hscope⟩ := h.outer hsend hrunning hparent
    exact ⟨hbefore, outer, id, by rw [hother (by omega), houter], hphase, hscope⟩
  · rw [hother hfound] at hget
    obtain ⟨hbefore, outer, id, houter, hphase, hscope⟩ := h.outer hget hrunning' hparent
    have hparentNe : parent ≠ index := by
      rintro rfl
      exact hchildren other (List.mem_of_getElem? hget) hrunning' hparent
    exact ⟨hbefore, outer, id, by rw [hother hparentNe, houter], hphase, hscope⟩

/-- Nothing runs inside a send that does not wait for its provider. -/
theorem Nesting.no_children {task : AuthTask} (h : Nesting task) {index : Nat}
    {send : ProviderSend} (hsend : task.sends[index]? = some send)
    (hguard : send.phase.guard? = none) :
    ∀ other ∈ task.sends, other.phase.running = true → other.parent ≠ some index := by
  intro other hmem hrunning hparent
  obtain ⟨found, hget⟩ := List.getElem?_of_mem hmem
  obtain ⟨_, outer, id, houter, hphase, _⟩ := h.outer hget hrunning hparent
  rw [hsend, Option.some.injEq] at houter
  rw [houter, hphase] at hguard
  contradiction

/-- A send whose children have ended has none that runs. -/
theorem no_children_of_childrenEnded {task : AuthTask} {index : Nat}
    (h : task.childrenEnded index = true) :
    ∀ other ∈ task.sends, other.phase.running = true → other.parent ≠ some index := by
  intro other hmem hrunning hparent
  have hended := List.all_eq_true.mp h other hmem
  simp [hparent, hrunning] at hended

/-- Every move keeps the sends nested. -/
theorem Nesting.move {task task' : AuthTask} {event : SendEvent} (h : Nesting task)
    (hmove : Move task event task') : Nesting task' := by
  cases hmove with
  | opened mode => exact h.append rfl fun _ hparent => by contradiction
  | @nested index send hsend id hguard mode =>
      refine h.append rfl fun parent hparent => ?_
      obtain rfl := Option.some.inj hparent
      exact ⟨send, id, hsend, hguard, rfl⟩
  | moved hsend hrunning hguard hphase =>
      exact h.set hsend hrunning rfl (h.no_children hsend hguard)
  | pushed hsend hphase hmode hfresh =>
      exact h.set hsend (by rw [hphase]; rfl) rfl (h.no_children hsend (by rw [hphase]; rfl))
  | popped hsend hguard hchildren hphase =>
      exact h.set hsend (by rw [hguard]; rfl) rfl (no_children_of_childrenEnded hchildren)

/-! ## runs -/

end AuthTask

/-- The mode asks for no id, or for one of these. -/
def AuthMode.Among (ids : Set AuthRequirementId) : AuthMode → Prop
  | .skipAuth => True
  | .useAuth id => id ∈ ids

/-- The send that an event starts asks for one of these ids, if for any. -/
def SendEvent.Among (ids : Set AuthRequirementId) : SendEvent → Prop
  | .start _ mode => mode.Among ids
  | .refuse _ _ | .enter _ _ | .prepared _ _ | .finish _ _ | .drop _ => True

namespace AuthTask

variable {ids : Set AuthRequirementId}

/-- The states of a task whose sends ask for these ids, whatever is started,
polled or dropped next. -/
inductive Reachable (ids : Set AuthRequirementId) : AuthTask → Prop
  | new : Reachable ids new
  | step {task task' : AuthTask} {event : SendEvent} (h : Reachable ids task)
      (hevent : event.Among ids) (hstep : task.step event = some task') : Reachable ids task'

/-- The sends ask for these ids, and a live guard is for the id that its send
asks for. -/
structure Among (ids : Set AuthRequirementId) (task : AuthTask) : Prop where
  mode {send : ProviderSend} (h : send ∈ task.sends) : send.mode.Among ids
  guard {send : ProviderSend} (h : send ∈ task.sends) {id : AuthRequirementId}
    (hguard : send.phase = .preparing id) : send.mode = .useAuth id

/-- A new task asks for nothing. -/
theorem among_new : Among ids new where
  mode h := absurd h List.not_mem_nil
  guard h := absurd h List.not_mem_nil

/-- A send for a declared credential keeps the task among them. -/
theorem Among.append {task task' : AuthTask} (h : Among ids task) {send : ProviderSend}
    (hsends : task'.sends = task.sends ++ [send]) (hmode : send.mode.Among ids)
    (hphase : send.phase = .started) : Among ids task' := by
  have hcases {other : ProviderSend} (hmem : other ∈ task'.sends) :
      other ∈ task.sends ∨ other = send := by
    rw [hsends, List.mem_append, List.mem_singleton] at hmem
    exact hmem
  constructor
  · intro other hmem
    rcases hcases hmem with hold | rfl
    · exact h.mode hold
    · exact hmode
  · intro other hmem id hguard
    rcases hcases hmem with hold | rfl
    · exact h.guard hold hguard
    · rw [hphase] at hguard
      contradiction

/-- So does a phase. -/
theorem Among.set {task task' : AuthTask} (h : Among ids task) {index : Nat} {send : ProviderSend}
    (hsend : task.sends[index]? = some send) {phase : SendPhase}
    (hsends : task'.sends = task.sends.set index { send with phase := phase })
    (hphase : ∀ id, phase = .preparing id → send.mode = .useAuth id) : Among ids task' := by
  have hcases {other : ProviderSend} (hmem : other ∈ task'.sends) :
      other ∈ task.sends ∨ other = { send with phase := phase } := by
    rw [hsends] at hmem
    exact List.mem_or_eq_of_mem_set hmem
  constructor
  · intro other hmem
    rcases hcases hmem with hold | rfl
    · exact h.mode hold
    · have hmode : send.mode.Among ids := h.mode (List.mem_of_getElem? hsend)
      exact hmode
  · intro other hmem id hguard
    rcases hcases hmem with hold | rfl
    · exact h.guard hold hguard
    · exact hphase id hguard

/-- Every move keeps the task among the declared credentials. -/
theorem Among.move {task task' : AuthTask} {event : SendEvent} (h : Among ids task)
    (hevent : event.Among ids) (hmove : Move task event task') : Among ids task' := by
  have hnone {phase : SendPhase} (hphase : phase.guard? = none) {mode : AuthMode}
      (id : AuthRequirementId) (hguard : phase = .preparing id) : mode = .useAuth id := by
    rw [hguard] at hphase
    contradiction
  cases hmove with
  | opened mode => exact h.append rfl hevent rfl
  | nested hsend hguard mode => exact h.append rfl hevent rfl
  | moved hsend hrunning hguard hphase => exact h.set hsend rfl (hnone hphase)
  | pushed hsend hphase hmode hfresh =>
      refine h.set hsend rfl fun id hguard => ?_
      rw [hmode, SendPhase.preparing.inj hguard]
  | popped hsend hguard hchildren hphase => exact h.set hsend rfl (hnone hphase)

/-- Stacks are those of the live guards in every task reached. -/
theorem Reachable.stacked {task : AuthTask} (h : Reachable ids task) : Stacked task := by
  induction h with
  | new => exact stacked_new
  | step hbefore hevent hstep ih => exact ih.move (step_cases hstep)

/-- Sends are nested in every task reached. -/
theorem Reachable.nesting {task : AuthTask} (h : Reachable ids task) : Nesting task := by
  induction h with
  | new => exact nesting_new
  | step hbefore hevent hstep ih => exact ih.move (step_cases hstep)

/-- Tasks that are reached ask for declared credentials only. -/
theorem Reachable.among {task : AuthTask} (h : Reachable ids task) : Among ids task := by
  induction h with
  | new => exact among_new
  | step hbefore hevent hstep ih => exact ih.move hevent (step_cases hstep)

/-! ## the look at the stack -/

/-- A text is on a stack if a live guard has it. -/
theorem Stacked.mem_iff {task : AuthTask} (h : Stacked task) {scope : Nat} {key : String} :
    key ∈ task.stackOf scope ↔ ∃ id, task.Guarded scope id ∧ id.safeFragment = key := by
  rw [(h.perm scope).mem_iff, guardKeys, List.mem_filterMap]
  constructor
  · rintro ⟨send, hmem, hheld⟩
    unfold held at hheld
    split at hheld
    · next hscope =>
        obtain ⟨id, hguard, hkey⟩ := Option.map_eq_some_iff.mp hheld
        exact ⟨id, ⟨send, hmem, hscope, phase_of_guard? hguard⟩, hkey⟩
    · contradiction
  · rintro ⟨id, ⟨send, hmem, hscope, hguard⟩, hkey⟩
    have hheld : held scope send = some key := by
      simp [held, hscope, hguard, SendPhase.guard?, hkey]
    exact ⟨send, hmem, hheld⟩

/-- The look at the stack ends a send with `RecursionDetected`. -/
def Refuses (task : AuthTask) (index : Nat) (poisoned : Bool) : Prop :=
  ∃ task' send error, task.step (.enter index poisoned) = some task' ∧
    task'.sends[index]? = some send ∧ send.phase = .ended (.failed error) ∧
    error.kind = .recursionDetected

/-- A send that has started can enter. -/
theorem step_enter {task : AuthTask} {index : Nat} {send : ProviderSend}
    (hsend : task.sends[index]? = some send) (hphase : send.phase = .started) (poisoned : Bool) :
    task.step (.enter index poisoned) = some (task.enter index send poisoned) := by
  simp [step, onSend, hsend, hphase]

/-- The send whose phase is set. -/
theorem setPhase_getElem? {task : AuthTask} {index : Nat} {send : ProviderSend}
    (hsend : task.sends[index]? = some send) (phase : SendPhase) :
    (task.setPhase index send phase).sends[index]? = some { send with phase := phase } := by
  obtain ⟨hlt, _⟩ := List.getElem?_eq_some_iff.mp hsend
  exact List.getElem?_set_self hlt

/-- A send is refused if the text of its id is on the stack. -/
theorem refuses_iff_mem {task : AuthTask} {index : Nat} {send : ProviderSend}
    (hsend : task.sends[index]? = some send) (hphase : send.phase = .started)
    {id : AuthRequirementId} (hmode : send.mode = .useAuth id) (poisoned : Bool) :
    task.Refuses index poisoned ↔ id.safeFragment ∈ task.stackOf send.scope := by
  have hstep := step_enter hsend hphase poisoned
  have hany : (task.stackOf send.scope).any (· = id.safeFragment) = true ↔
      id.safeFragment ∈ task.stackOf send.scope := by simp
  constructor
  · rintro ⟨task', ended, error, htask', hended, herror, hkind⟩
    obtain rfl : task.enter index send poisoned = task' := Option.some.inj (hstep.symm.trans htask')
    rw [← hany]
    simp only [enter, hmode] at hended
    split at hended
    · assumption
    · split at hended
      · rw [setPhase_getElem? hsend, Option.some.injEq] at hended
        rw [← hended] at herror
        have heq := SendEnd.failed.inj (SendPhase.ended.inj herror)
        rw [← heq] at hkind
        contradiction
      · have hget : (task.setStack send.scope (AuthInternalStackGuard.push
            (task.stackOf send.scope) id.safeFragment)).sends[index]? = some send := hsend
        rw [setPhase_getElem? hget, Option.some.injEq] at hended
        rw [← hended] at herror
        contradiction
  · intro hmem
    have henter : task.enter index send poisoned =
        task.setPhase index send (.ended (.failed (recursionDetected id))) := by
      simp only [enter, hmode, hany.mpr hmem, if_true]
    rw [henter] at hstep
    exact ⟨_, _, recursionDetected id, hstep, setPhase_getElem? hsend _, rfl, rfl⟩

/-- A send that looks at the stack is refused if and only if a guard for its
id is live. -/
def ChecksExact (task : AuthTask) : Prop :=
  ∀ index send id poisoned, task.sends[index]? = some send → send.phase = .started →
    send.mode = .useAuth id → (task.Refuses index poisoned ↔ task.Guarded send.scope id)

/-- The ids are told apart by their texts. -/
def Distinct (ids : Set AuthRequirementId) : Prop :=
  ∀ a ∈ ids, ∀ b ∈ ids, a.safeFragment = b.safeFragment → a = b

/-- The check finds the recursions in every task reached if the joined texts differ. -/
theorem Reachable.checksExact {task : AuthTask} (h : Reachable ids task)
    (hdistinct : Distinct ids) : ChecksExact task := by
  intro index send id poisoned hsend hphase hmode
  rw [refuses_iff_mem hsend hphase hmode poisoned, h.stacked.mem_iff]
  constructor
  · rintro ⟨other, hguarded, hkey⟩
    have hid : id ∈ ids := by
      have hamong := h.among.mode (List.mem_of_getElem? hsend)
      rw [hmode] at hamong
      exact hamong
    have hother : other ∈ ids := by
      obtain ⟨holder, hmem, _, hguard⟩ := hguarded
      have hamong := h.among.mode hmem
      rw [h.among.guard hmem hguard] at hamong
      exact hamong
    rw [← hdistinct other hother id hid hkey]
    exact hguarded
  · intro hguarded
    exact ⟨id, hguarded, rfl⟩

/-- A send for an id whose provider has started a send for another one. -/
def nestedPair (a b : AuthRequirementId) : AuthTask where
  sends := [⟨none, 0, .useAuth a, .preparing a⟩, ⟨some 0, 0, .useAuth b, .started⟩]
  stackOf := ((new.setStack 0 []).setStack 0
    (AuthInternalStackGuard.push [] a.safeFragment)).stackOf

/-- One credential can be asked for while another is prepared. -/
theorem reachable_nestedPair {a b : AuthRequirementId} (ha : a ∈ ids) (hb : b ∈ ids) :
    Reachable ids (nestedPair a b) := by
  have hstart : SendEvent.Among ids (.start none (.useAuth a)) := ha
  have henter : SendEvent.Among ids (.enter 0 false) := trivial
  have hnested : SendEvent.Among ids (.start (some 0) (.useAuth b)) := hb
  exact ((Reachable.new.step hstart rfl).step henter rfl).step hnested rfl

/-- If the check is exact, the joined texts differ. -/
theorem distinct_of_checksExact (h : ∀ task, Reachable ids task → ChecksExact task) :
    Distinct ids := by
  intro a ha b hb hkey
  have hexact := h _ (reachable_nestedPair ha hb) 1 _ b false rfl rfl rfl
  have hmem : b.safeFragment ∈ (nestedPair a b).stackOf 0 := by
    rw [← hkey]
    exact List.mem_singleton_self _
  rw [refuses_iff_mem (by rfl) (by rfl) (by rfl) false] at hexact
  obtain ⟨send, hsend, _, hguard⟩ := hexact.mp hmem
  rcases List.mem_cons.mp hsend with rfl | hrest
  · exact SendPhase.preparing.inj hguard
  · rw [List.mem_singleton.mp hrest] at hguard
    contradiction

/-! ## depth -/

/-- Running sends inside each other, the innermost one first. -/
inductive Nested (task : AuthTask) : List Nat → Prop
  | single {index : Nat} {send : ProviderSend} (hsend : task.sends[index]? = some send)
      (hrunning : send.phase.running = true) : Nested task [index]
  | inside {index parent : Nat} {send : ProviderSend} {chain : List Nat}
      (hsend : task.sends[index]? = some send) (hrunning : send.phase.running = true)
      (hparent : send.parent = some parent) (h : Nested task (parent :: chain)) :
      Nested task (index :: parent :: chain)

/-- What a send runs inside of waits with different ids. -/
theorem Nested.outer_ids {task : AuthTask} (hstacked : Stacked task) (hnesting : Nesting task)
    {index : Nat} {chain : List Nat} (h : Nested task (index :: chain)) {send : ProviderSend}
    (hsend : task.sends[index]? = some send) :
    ∃ outer : List AuthRequirementId, outer.length = chain.length ∧ outer.Nodup ∧
      ∀ id ∈ outer, ∃ other holder, other < index ∧ task.sends[other]? = some holder ∧
        holder.scope = send.scope ∧ holder.phase = .preparing id := by
  induction chain generalizing index send with
  | nil => exact ⟨[], rfl, List.nodup_nil, fun _ hmem => absurd hmem List.not_mem_nil⟩
  | cons parent chain ih =>
      cases h with
      | inside hsend' hrunning hparent hchain =>
          obtain rfl := Option.some.inj (hsend'.symm.trans hsend)
          obtain ⟨hlt, holder, id, hholder, hguard, hscope⟩ :=
            hnesting.outer hsend' hrunning hparent
          obtain ⟨outer, hlength, hnodup, houter⟩ := ih hchain hholder
          have hheld {found : ProviderSend} (hfound : found.scope = holder.scope)
              (hphase : found.phase = .preparing id) :
              held holder.scope found = some id.safeFragment := by
            simp [held, hfound, hphase, SendPhase.guard?]
          have hfresh : id ∉ outer := by
            intro hmem
            obtain ⟨other, found, hbefore, hget, hfound, hphase⟩ := houter id hmem
            have hkeys : (task.guardKeys holder.scope).Nodup :=
              (hstacked.perm _).nodup_iff.mp (hstacked.nodup _)
            have hsame : other = parent := Held.index_unique (held holder.scope) hkeys hget hholder
              (hheld hfound hphase) (hheld rfl hguard)
            omega
          refine ⟨id :: outer, by simp [hlength], List.nodup_cons.mpr ⟨hfresh, hnodup⟩, ?_⟩
          intro other hmem
          rcases List.mem_cons.mp hmem with rfl | hrest
          · exact ⟨parent, holder, hlt, hholder, hscope, hguard⟩
          · obtain ⟨position, found, hbefore, hget, hfound, hphase⟩ := houter other hrest
            exact ⟨position, found, by omega, hget, hfound.trans hscope, hphase⟩

/-- Sends inside each other are at most one more than the ids. -/
theorem Reachable.depth_le {task : AuthTask} (h : Reachable ids task)
    {among : List AuthRequirementId} (hamong : ∀ id ∈ ids, id ∈ among) {chain : List Nat}
    (hchain : Nested task chain) : chain.length ≤ among.length + 1 := by
  cases chain with
  | nil => exact Nat.zero_le _
  | cons index chain =>
      obtain ⟨send, hsend⟩ : ∃ send, task.sends[index]? = some send := by
        cases hchain with
        | single hsend _ => exact ⟨_, hsend⟩
        | inside hsend _ _ _ => exact ⟨_, hsend⟩
      obtain ⟨outer, hlength, hnodup, houter⟩ := hchain.outer_ids h.stacked h.nesting hsend
      have hsubset : outer ⊆ among := by
        intro id hmem
        obtain ⟨other, holder, _, hget, _, hguard⟩ := houter id hmem
        have hholder := List.mem_of_getElem? hget
        have hmode := h.among.mode hholder
        rw [h.among.guard hholder hguard] at hmode
        exact hamong id hmode
      have hle := (List.subperm_of_subset hnodup hsubset).length_le
      rw [List.length_cons]
      omega

/-! ## detection -/

/-- A stack is empty when its sends have ended. -/
theorem Stacked.eq_nil_of_ended {task : AuthTask} (h : Stacked task) {scope : Nat}
    (hended : ∀ send ∈ task.sends, send.scope = scope → send.phase.running = false) :
    task.stackOf scope = [] := by
  have hkeys : task.guardKeys scope = [] := by
    rw [guardKeys, List.filterMap_eq_nil_iff]
    intro send hmem
    unfold held
    split
    · next hscope =>
        have hrunning := hended send hmem hscope
        cases hphase : send.phase with
        | ended how => rfl
        | started => simp [hphase, SendPhase.running] at hrunning
        | preparing id => simp [hphase, SendPhase.running] at hrunning
        | sending => simp [hphase, SendPhase.running] at hrunning
    · rfl
  have hperm := h.perm scope
  rw [hkeys] at hperm
  exact hperm.eq_nil

/-- Whatever the sends of a task do, a stack holds one entry for each live
guard, is empty at the end, and sends inside each other are bounded by their
ids.  A send is refused exactly when a guard for its id is live, as long as
the ids differ in their texts, and only then. -/
theorem auth_recursion_exact_iff (ids : Set AuthRequirementId) :
    (∀ task, Reachable ids task →
      (∀ scope, (task.stackOf scope).Perm (task.guardKeys scope)) ∧
      (∀ scope, (∀ send ∈ task.sends, send.scope = scope → send.phase.running = false) →
        task.stackOf scope = []) ∧
      ∀ among : List AuthRequirementId, (∀ id ∈ ids, id ∈ among) →
        ∀ chain, Nested task chain → chain.length ≤ among.length + 1) ∧
    ((∀ task, Reachable ids task → ChecksExact task) ↔ Distinct ids) := by
  constructor
  · intro task h
    refine ⟨h.stacked.perm, fun scope hended => h.stacked.eq_nil_of_ended hended, ?_⟩
    intro among hamong chain hchain
    exact h.depth_le hamong hchain
  · constructor
    · exact distinct_of_checksExact
    · intro hdistinct task h
      exact h.checksExact hdistinct

/-- A provider for `a:b` `c` cannot send for `a` `b:c`. -/
theorem recursion_detected_without_guard :
    ∃ task, Reachable {⟨"a:b", "c"⟩, ⟨"a", "b:c"⟩} task ∧
      task.sends[1]? = some ⟨some 0, 0, .useAuth ⟨"a", "b:c"⟩, .started⟩ ∧
      task.Refuses 1 false ∧ ¬ task.Guarded 0 ⟨"a", "b:c"⟩ := by
  refine ⟨nestedPair ⟨"a:b", "c"⟩ ⟨"a", "b:c"⟩, reachable_nestedPair (.inl rfl) (.inr rfl), rfl,
    (refuses_iff_mem (by rfl) (by rfl) (by rfl) false).mpr ?_, ?_⟩
  · decide +kernel
  · rintro ⟨send, hmem, _, hguard⟩
    rcases List.mem_cons.mp hmem with rfl | hrest
    · simp at hguard
    · rw [List.mem_singleton.mp hrest] at hguard
      contradiction

end AuthTask

end Concord
