import Concord.Lib.FirstMatch
import Concord.Lib.Pairs
import Concord.Auth.Orchestrator

/-!
# Concord.Client.Rejection

Classifying a challenged response and carrying out what it calls for
(`classify_auth_rejection` and `apply_auth_rejection_plan` of
`concord_core/src/client/execute.rs`).

Classification goes through the applied credentials in order and collects
one action for each; of the recover actions only the first is kept.
Carrying out a plan first finds the pair of every action again, by its
identity fields, and only then touches the slots.  `Classified` is what makes
the second search land where the first one started: two applied credentials
with one identity get equal actions, and of two equal actions either the
second is refused as a duplicate or neither it nor the first is new.
-/

namespace Concord

open FirstMatch

variable {T : Type*}

/-! ## classification -/

/-- A 401 or 403 answer to a request that needs a credential. -/
def isProtectedAuthRejection (requirements : List AuthRequirement) (status : StatusCode) :
    Bool :=
  (status = .unauthorized ∨ status = .forbidden) ∧ ¬ requirements.isEmpty

/-- A credential was applied that no requirement of the plan names. -/
def authPlanMismatch (message : String) : AuthError :=
  AuthError.new .invalidConfiguration message

/-- The requirement of an applied credential, with its position. -/
def findRequirement (requirements : List AuthRequirement) (applied : AuthAppliedCredential) :
    Option (AuthRequirement × Nat) :=
  requirements.zipIdx.find? fun requirement => requirement.1.names applied

/-- The loop of `classify_auth_rejection`. -/
def classifyApplied (bindings : AuthBindings) (requirements : List AuthRequirement)
    (status : StatusCode) :
    List (AuthAppliedCredential × Nat) → AuthRejectionPlan → Except AuthError AuthRejectionPlan
  | [], aggregate => .ok aggregate
  | (applied, appliedIndex) :: rest, aggregate =>
    match findRequirement requirements applied with
    | none => .error (authPlanMismatch "authentication requirement use was not applied")
    | some (requirement, requirementIndex) =>
      match planRejection bindings requirement applied status with
      | .error error => .error error
      | .ok action =>
        if ¬ action.matches requirement applied then
          .error (authPlanMismatch
            "authentication rejection action did not match its planning pair")
        else if aggregate.actions.any (·.matches requirement applied) then
          .error (authPlanMismatch
            "duplicate authentication rejection action for one applied use")
        else
          classifyApplied bindings requirements status rest
            (aggregate.appendValidated ⟨action, requirementIndex, appliedIndex⟩)

/-- The plan for a rejected request, if there is anything to do. -/
def classifyAuthRejection (bindings : AuthBindings) (requirements : List AuthRequirement)
    (applied : List AuthAppliedCredential) (status : StatusCode) :
    Except AuthError (Option AuthRejectionPlan) :=
  if ¬ isProtectedAuthRejection requirements status then .ok none
  else
    match classifyApplied bindings requirements status applied.zipIdx .default with
    | .error error => .error error
    | .ok aggregate => if aggregate.actions.isEmpty then .ok none else .ok (some aggregate)

/-! ## carrying out a plan -/

/-- Whether the providers take part, or the stored credentials are only invalidated. -/
inductive AuthRejectionApplication where
  | providerCapable
  | invalidationOnly
  deriving DecidableEq, Repr

/-- An action and the pair it was resolved to. -/
structure RejectionBinding where
  action : AuthRejectionAction
  requirement : AuthRequirement
  requirementIndex : Nat
  applied : AuthAppliedCredential
  appliedIndex : Nat
  deriving DecidableEq, Repr

/-- A rejection plan that fits no applied credential. -/
def rejectionPlanMismatch : AuthError :=
  AuthError.new .invalidConfiguration
    "authentication rejection plan does not match the applied credential"

/-- The first applied credential, and for it the first requirement, that the
action matches. -/
def resolveAction (requirements : List AuthRequirement) (applied : List AuthAppliedCredential)
    (action : AuthRejectionAction) : Option RejectionBinding :=
  applied.zipIdx.findSome? fun a =>
    (requirements.zipIdx.find? fun r => r.1.names a.1 && action.matches r.1 a.1).map fun r =>
      ⟨action, r.1, r.2, a.1, a.2⟩

/-- Every action is resolved before any of them is applied. -/
def resolveActions (requirements : List AuthRequirement)
    (applied : List AuthAppliedCredential) :
    List AuthRejectionAction → Except AuthError (List RejectionBinding)
  | [] => .ok []
  | action :: rest =>
    match resolveAction requirements applied action with
    | none => .error rejectionPlanMismatch
    | some binding =>
      match resolveActions requirements applied rest with
      | .error error => .error error
      | .ok bound => .ok (binding :: bound)

/-- Carry out one resolved action. -/
def applyBinding (bindings : AuthBindings) (application : AuthRejectionApplication)
    (status : StatusCode) (provider : Except AuthError Unit) (bound : RejectionBinding)
    (slots : Slots T) : Effect T :=
  match application with
  | .providerCapable =>
    applyRejection bindings provider bound.action bound.requirement bound.applied status slots
  | .invalidationOnly =>
    applyRejectionInvalidationOnly bindings bound.action bound.requirement bound.applied status
      slots

/-- Carry out resolved actions until one fails.  The k-th action's provider
answers `provider k`. -/
def applyBindings (bindings : AuthBindings) (application : AuthRejectionApplication)
    (status : StatusCode) (provider : Nat → Except AuthError Unit) :
    Nat → List RejectionBinding → Slots T → Effect T
  | _, [], slots => ⟨slots, [], .ok ()⟩
  | k, bound :: rest, slots =>
    let effect := applyBinding bindings application status (provider k) bound slots
    match effect.result with
    | .error _ => effect
    | .ok _ =>
      effect.andThen
        (applyBindings bindings application status provider (k + 1) rest effect.slots)

/-- The actions of a plan, applied one after the other once all are resolved. -/
def applyAuthRejectionPlan (bindings : AuthBindings) (requirements : List AuthRequirement)
    (applied : List AuthAppliedCredential) (actions : List AuthRejectionAction)
    (application : AuthRejectionApplication) (status : StatusCode)
    (provider : Nat → Except AuthError Unit) (slots : Slots T) : Effect T :=
  match resolveActions requirements applied actions with
  | .error error => ⟨slots, [], .error error⟩
  | .ok bound => applyBindings bindings application status provider 0 bound slots

/-! ## resolution -/

/-- The action can be resolved: it matches some pair. -/
def Resolvable (requirements : List AuthRequirement) (applied : List AuthAppliedCredential)
    (action : AuthRejectionAction) : Prop :=
  ∃ requirement ∈ requirements, ∃ a ∈ applied,
    requirement.names a = true ∧ action.matches requirement a = true

/-- The binding is a pair of the two lists that the action matches. -/
structure RejectionBinding.Resolves (bound : RejectionBinding)
    (requirements : List AuthRequirement) (applied : List AuthAppliedCredential)
    (action : AuthRejectionAction) : Prop where
  sameAction : bound.action = action
  requirementAt : requirements[bound.requirementIndex]? = some bound.requirement
  appliedAt : applied[bound.appliedIndex]? = some bound.applied
  isNamed : bound.requirement.names bound.applied = true
  isMatched : action.matches bound.requirement bound.applied = true

section resolution

variable {requirements : List AuthRequirement} {applied : List AuthAppliedCredential}

/-- An action that is resolved is bound to the pair it was made from. -/
theorem resolves_of_resolveAction {action : AuthRejectionAction} {bound : RejectionBinding}
    (h : resolveAction requirements applied action = some bound) :
    bound.Resolves requirements applied action := by
  obtain ⟨before, a, after, hsplit, hf, _⟩ := List.findSome?_eq_some_iff.mp h
  obtain ⟨r, hfind, rfl⟩ := Option.map_eq_some_iff.mp hf
  have ha : a ∈ applied.zipIdx := by simp [hsplit]
  have hr : r ∈ requirements.zipIdx := List.mem_of_find?_eq_some hfind
  have hp := List.find?_some hfind
  rw [Bool.and_eq_true] at hp
  exact ⟨rfl, List.mem_zipIdx_iff_getElem?.mp hr, List.mem_zipIdx_iff_getElem?.mp ha, hp.1, hp.2⟩

/-- One that is not resolved has no such pair. -/
theorem not_resolvable_of_resolveAction {action : AuthRejectionAction}
    (h : resolveAction requirements applied action = none) :
    ¬ Resolvable requirements applied action := by
  intro hr
  obtain ⟨requirement, hrmem, a, hamem, hnames, hmatch⟩ := hr
  obtain ⟨i, hi⟩ := List.getElem?_of_mem hrmem
  obtain ⟨j, hj⟩ := List.getElem?_of_mem hamem
  have hnone := List.findSome?_eq_none_iff.mp h (a, j) (List.mem_zipIdx_iff_getElem?.mpr hj)
  rw [Option.map_eq_none_iff, List.find?_eq_none] at hnone
  refine hnone (requirement, i) (List.mem_zipIdx_iff_getElem?.mpr hi) ?_
  rw [Bool.and_eq_true]
  exact ⟨hnames, hmatch⟩

/-- The same of all actions of a plan. -/
theorem resolves_of_resolveActions {actions : List AuthRejectionAction}
    {bound : List RejectionBinding}
    (h : resolveActions requirements applied actions = .ok bound) :
    List.Forall₂ (fun action b => b.Resolves requirements applied action) actions bound := by
  induction actions generalizing bound with
  | nil =>
      rw [resolveActions, Except.ok.injEq] at h
      exact h ▸ .nil
  | cons action rest ih =>
      rw [resolveActions] at h
      split at h
      · contradiction
      · next b hb =>
          split at h
          · contradiction
          · next bs hbs =>
              rw [Except.ok.injEq] at h
              exact h ▸ .cons (resolves_of_resolveAction hb) (ih hbs)

/-- Every binding is one of an action of the plan. -/
theorem resolves_of_mem {actions : List AuthRejectionAction} {bound : List RejectionBinding}
    (h : List.Forall₂ (fun action b => RejectionBinding.Resolves b requirements applied action)
      actions bound) {b : RejectionBinding} (hb : b ∈ bound) :
    b.action ∈ actions ∧ b.Resolves requirements applied b.action := by
  obtain ⟨action, hmem, hr⟩ := Pairs.exists_left h hb
  exact ⟨hr.sameAction ▸ hmem, hr.sameAction ▸ hr⟩

/-- So every binding fits its own action. -/
theorem matches_of_resolves {actions : List AuthRejectionAction} {bound : List RejectionBinding}
    (h : List.Forall₂ (fun action b => RejectionBinding.Resolves b requirements applied action)
      actions bound) : ∀ b ∈ bound, b.action.matches b.requirement b.applied = true :=
  fun _ hb => (resolves_of_mem h hb).2.isMatched

/-- Resolution fails only on an action that matches no pair. -/
theorem unresolved_of_resolveActions {actions : List AuthRejectionAction} {error : AuthError}
    (h : resolveActions requirements applied actions = .error error) :
    error = rejectionPlanMismatch ∧
      ∃ action ∈ actions, ¬ Resolvable requirements applied action := by
  induction actions with
  | nil => contradiction
  | cons action rest ih =>
      rw [resolveActions] at h
      split at h
      · next hb =>
          rw [Except.error.injEq] at h
          exact ⟨h.symm, action, List.mem_cons_self, not_resolvable_of_resolveAction hb⟩
      · split at h
        · next error' hbs =>
            rw [Except.error.injEq] at h
            subst h
            obtain ⟨he, action', hmem, hno⟩ := ih hbs
            exact ⟨he, action', List.mem_cons_of_mem _ hmem, hno⟩
        · contradiction

end resolution

/-! ## the invalidations of a plan -/

/-- The invalidation a resolved action stands for, if it carries one. -/
def RejectionBinding.op (status : StatusCode) (bound : RejectionBinding) : Option SlotOp :=
  if (rejectionInvalidationReason bound.action status).isSome then
    some ⟨bound.applied.credentialId, bound.applied.generation⟩
  else none

/-- A local invalidation writes at most the one generation it names. -/
theorem ops_invalidateLocal (slots : Slots T) (id : CredentialId) (generation : Option Nat) :
    let effect := slots.invalidateLocal id generation
    (effect.ops = [] ∨ effect.ops = [⟨id, generation⟩]) ∧
      (effect.result = .ok () → effect.ops = [⟨id, generation⟩]) := by
  simp only [Slots.invalidateLocal]
  split
  · exact ⟨.inl rfl, fun h => by contradiction⟩
  · exact ⟨.inr rfl, fun _ => rfl⟩

/-- So does an invalidation through the provider. -/
theorem ops_invalidate (slots : Slots T) (id : CredentialId) (generation : Option Nat)
    (provider : Except AuthError Unit) :
    let effect := slots.invalidate id generation provider
    (effect.ops = [] ∨ effect.ops = [⟨id, generation⟩]) ∧
      (effect.result = .ok () → effect.ops = [⟨id, generation⟩]) := by
  simp only [Slots.invalidate]
  split
  · exact ⟨.inl rfl, fun h => by contradiction⟩
  · split
    · exact ⟨.inl rfl, fun h => by contradiction⟩
    · exact ⟨.inr rfl, fun _ => rfl⟩

/-- A binding that is valid for a requirement has its credential's slot. -/
theorem slotId_of_validateRequirement {binding : AuthProviderBinding}
    {requirement : AuthRequirement}
    (h : binding.validateRequirement requirement = .ok ()) :
    binding.slotId = requirement.credential.id := by
  unfold AuthProviderBinding.validateRequirement at h
  split at h
  · contradiction
  · next hne => exact Decidable.not_not.mp hne

/-- A resolved action does at most its one invalidation, and does it if it
succeeds. -/
theorem ops_applyBinding (bindings : AuthBindings) (application : AuthRejectionApplication)
    (status : StatusCode) (provider : Except AuthError Unit) {bound : RejectionBinding}
    (hm : bound.action.matches bound.requirement bound.applied = true) (slots : Slots T) :
    let effect := applyBinding bindings application status provider bound slots
    (effect.ops = [] ∨ effect.ops = (bound.op status).toList) ∧
      (effect.result = .ok () → effect.ops = (bound.op status).toList) := by
  have hid := (matches_iff.mp hm).2
  cases application with
  | providerCapable =>
      simp only [applyBinding, applyRejection, hm, not_true_eq_false, if_false]
      split
      · exact ⟨.inl rfl, fun h => by contradiction⟩
      · split
        · exact ⟨.inl rfl, fun h => by contradiction⟩
        · next hv =>
            rw [slotId_of_validateRequirement hv, hid]
            split
            · next hr => simp [RejectionBinding.op, hr]
            · next reason hr =>
                have hop : (bound.op status).toList =
                    [⟨bound.applied.credentialId, bound.applied.generation⟩] := by
                  simp [RejectionBinding.op, hr]
                rw [hop]
                split
                · exact ops_invalidate slots _ _ provider
                · exact ops_invalidateLocal slots _ _
  | invalidationOnly =>
      simp only [applyBinding, applyRejectionInvalidationOnly, hm, not_true_eq_false, if_false]
      split
      · exact ⟨.inl rfl, fun h => by contradiction⟩
      · split
        · exact ⟨.inl rfl, fun h => by contradiction⟩
        · next hv =>
            rw [slotId_of_validateRequirement hv, hid]
            split
            · next hr =>
                have hop : (bound.op status).toList =
                    [⟨bound.applied.credentialId, bound.applied.generation⟩] := by
                  simp [RejectionBinding.op, hr]
                rw [hop]
                exact ops_invalidateLocal slots _ _
            · next hr => simp [RejectionBinding.op, hr]

/-- Resolved actions do their invalidations in order, up to the first that
fails. -/
theorem ops_applyBindings (bindings : AuthBindings) (application : AuthRejectionApplication)
    (status : StatusCode) (provider : Nat → Except AuthError Unit) {k : Nat}
    {bound : List RejectionBinding}
    (hm : ∀ b ∈ bound, b.action.matches b.requirement b.applied = true) (slots : Slots T) :
    let effect := applyBindings bindings application status provider k bound slots
    effect.ops <+: bound.filterMap (·.op status) ∧
      (effect.result = .ok () → effect.ops = bound.filterMap (·.op status)) := by
  induction bound generalizing k slots with
  | nil => exact ⟨List.prefix_refl _, fun _ => rfl⟩
  | cons b rest ih =>
      have hb := ops_applyBinding bindings application status (provider k)
        (hm b List.mem_cons_self) slots
      have hsplit : (b :: rest).filterMap (·.op status) =
          (b.op status).toList ++ rest.filterMap (·.op status) := by
        cases hop : b.op status <;> simp [hop]
      simp only [applyBindings]
      rw [hsplit]
      cases hr : (applyBinding bindings application status (provider k) b slots).result with
      | error error =>
          refine ⟨?_, fun h => by rw [hr] at h; contradiction⟩
          cases hb.1 with
          | inl h => rw [h]; exact List.nil_prefix
          | inr h => rw [h]; exact List.prefix_append _ _
      | ok _ =>
          have hops := hb.2 hr
          have hrest := ih (k := k + 1) (fun b' hb' => hm b' (List.mem_cons_of_mem _ hb'))
            (applyBinding bindings application status (provider k) b slots).slots
          simp only [Effect.ops_andThen, hops]
          refine ⟨(List.prefix_append_right_inj _).mpr hrest.1, fun h => ?_⟩
          rw [hrest.2 h]

/-! ### frame -/

/-- Only the slots of the invalidations carried out have changed. -/
def Effect.Frames (effect : Effect T) (slots : Slots T) : Prop :=
  ∀ id, (∀ op ∈ effect.ops, op.slot ≠ id) → effect.slots id = slots id

/-- The other slots stay. -/
theorem Slots.set_of_ne {slots : Slots T} {id id' : CredentialId} {inner : CredentialSlotInner T}
    (h : id ≠ id') : slots.set id inner id' = slots id' := by
  simp only [Slots.set]
  rw [if_neg (Ne.symm h)]

/-- A local invalidation leaves every other slot. -/
theorem frames_invalidateLocal (slots : Slots T) (id : CredentialId) (generation : Option Nat) :
    (slots.invalidateLocal id generation).Frames slots := by
  intro id' h
  unfold Slots.invalidateLocal at h ⊢
  split at h
  · rfl
  · exact Slots.set_of_ne (h _ List.mem_cons_self)

/-- So does one through the provider. -/
theorem frames_invalidate (slots : Slots T) (id : CredentialId) (generation : Option Nat)
    (provider : Except AuthError Unit) :
    (slots.invalidate id generation provider).Frames slots := by
  intro id' h
  unfold Slots.invalidate at h ⊢
  split at h
  · rfl
  · split at h
    · rfl
    · exact Slots.set_of_ne (h _ List.mem_cons_self)

/-- What a resolved action can do: nothing, invalidate locally, or invalidate
and ask the provider, which only recovery does. -/
theorem applyBinding_cases (bindings : AuthBindings) (application : AuthRejectionApplication)
    (status : StatusCode) (provider : Except AuthError Unit) (bound : RejectionBinding)
    (slots : Slots T) :
    let effect := applyBinding bindings application status provider bound slots
    (∃ result, effect = ⟨slots, [], result⟩) ∨
    (∃ id generation, effect = slots.invalidateLocal id generation) ∨
    (application = .providerCapable ∧ bound.action.requestsRecovery = true ∧
      ∃ id generation, effect = slots.invalidate id generation provider) := by
  cases application with
  | providerCapable =>
      simp only [applyBinding, applyRejection]
      split
      · exact .inl ⟨_, rfl⟩
      · split
        · exact .inl ⟨_, rfl⟩
        · split
          · exact .inl ⟨_, rfl⟩
          · split
            · exact .inl ⟨_, rfl⟩
            · split
              · next hr => exact .inr (.inr ⟨trivial, hr, _, _, rfl⟩)
              · exact .inr (.inl ⟨_, _, rfl⟩)
  | invalidationOnly =>
      simp only [applyBinding, applyRejectionInvalidationOnly]
      split
      · exact .inl ⟨_, rfl⟩
      · split
        · exact .inl ⟨_, rfl⟩
        · split
          · exact .inl ⟨_, rfl⟩
          · split
            · exact .inr (.inl ⟨_, _, rfl⟩)
            · exact .inl ⟨_, rfl⟩

/-- One bound action leaves every slot but its own. -/
theorem frames_applyBinding (bindings : AuthBindings) (application : AuthRejectionApplication)
    (status : StatusCode) (provider : Except AuthError Unit) (bound : RejectionBinding)
    (slots : Slots T) :
    (applyBinding bindings application status provider bound slots).Frames slots := by
  obtain ⟨result, h⟩ | ⟨id, generation, h⟩ | ⟨_, _, id, generation, h⟩ :=
    applyBinding_cases bindings application status provider bound slots
  · rw [h]
    exact fun _ _ => rfl
  · rw [h]
    exact frames_invalidateLocal slots _ _
  · rw [h]
    exact frames_invalidate slots _ _ provider

/-- All of them leave every slot they do not name. -/
theorem frames_applyBindings (bindings : AuthBindings) (application : AuthRejectionApplication)
    (status : StatusCode) (provider : Nat → Except AuthError Unit) {k : Nat}
    (bound : List RejectionBinding) (slots : Slots T) :
    (applyBindings bindings application status provider k bound slots).Frames slots := by
  induction bound generalizing k slots with
  | nil => exact fun _ _ => rfl
  | cons b rest ih =>
      have hb := frames_applyBinding bindings application status (provider k) b slots
      simp only [applyBindings]
      split
      · exact hb
      · intro id h
        rw [Effect.ops_andThen] at h
        have hrest := ih (k := k + 1)
          (applyBinding bindings application status (provider k) b slots).slots id
          (fun op hop => h op (List.mem_append_right _ hop))
        refine hrest.trans ?_
        exact hb id (fun op hop => h op (List.mem_append_left _ hop))

/-! ## what classification keeps -/

/-- The rejection decision for one applied credential. -/
def rejectionFor (bindings : AuthBindings) (requirements : List AuthRequirement)
    (status : StatusCode) (applied : AuthAppliedCredential) : Option AuthRejectionAction :=
  match findRequirement requirements applied with
  | none => none
  | some (requirement, _) =>
    match planRejection bindings requirement applied status with
    | .error _ => none
    | .ok action => some action

/-- Where a planned action comes from. -/
structure PlannedAction.Origin (bindings : AuthBindings) (requirements : List AuthRequirement)
    (applied : List AuthAppliedCredential) (status : StatusCode) (planned : PlannedAction)
    (requirement : AuthRequirement) (a : AuthAppliedCredential) : Prop where
  appliedAt : applied[planned.appliedIndex]? = some a
  found : findRequirement requirements a = some (requirement, planned.requirementIndex)
  planned : planRejection bindings requirement a status = .ok planned.action

/-- What the first `n` applied credentials have made of the aggregate: every
action has its origin among them, every one of them has its action or was
dropped as a further recover, no earlier credential could be taken for the
origin of an action, and a recover action is the first there was. -/
structure Classified (bindings : AuthBindings) (requirements : List AuthRequirement)
    (applied : List AuthAppliedCredential) (status : StatusCode) (n : Nat)
    (plan : AuthRejectionPlan) : Prop where
  origin : ∀ p ∈ plan.planned, p.appliedIndex < n ∧
    ∃ requirement a, p.Origin bindings requirements applied status requirement a
  covered : ∀ {k a}, k < n → applied[k]? = some a →
    ∃ action, rejectionFor bindings requirements status a = some action ∧
      ((∃ p ∈ plan.planned, p.appliedIndex = k) ∨
        (action.requestsRecovery = true ∧ plan.requestsRecovery = true))
  first : ∀ p ∈ plan.planned, ∀ {k a}, k < p.appliedIndex → applied[k]? = some a →
    ∀ requirement, p.action.matches requirement a = false
  recovery : ∀ p ∈ plan.planned, p.action.requestsRecovery = true →
    ∀ {k a action}, k < p.appliedIndex → applied[k]? = some a →
      rejectionFor bindings requirements status a = some action →
      action.requestsRecovery = false

section classification

variable {bindings : AuthBindings} {requirements : List AuthRequirement}
  {applied : List AuthAppliedCredential} {status : StatusCode} {n : Nat}
  {plan : AuthRejectionPlan}

/-- The requirement that is found names the credential. -/
theorem names_of_findRequirement {a : AuthAppliedCredential} {requirement : AuthRequirement}
    {i : Nat} (h : findRequirement requirements a = some (requirement, i)) :
    requirement.names a = true := by
  unfold findRequirement at h
  have hp := List.find?_some h
  exact hp

/-- What is planned for one applied credential, by the requirement found for it. -/
theorem rejectionFor_eq {a : AuthAppliedCredential} {requirement : AuthRequirement} {i : Nat}
    {action : AuthRejectionAction} (hf : findRequirement requirements a = some (requirement, i))
    (hp : planRejection bindings requirement a status = .ok action) :
    rejectionFor bindings requirements status a = some action := by
  simp only [rejectionFor, hf, hp]

/-- Credentials with one identity have one requirement. -/
theorem findRequirement_congr {a a' : AuthAppliedCredential}
    (hid : a.credentialId = a'.credentialId) (husage : a.usageId = a'.usageId)
    (hstep : a.stepId = a'.stepId) :
    findRequirement requirements a = findRequirement requirements a' := by
  simp only [findRequirement, AuthRequirement.names, hid, husage, hstep]

/-- A plan with an action that asks for recovery asks for it. -/
theorem requestsRecovery_of_mem {p : PlannedAction} (hp : p ∈ plan.planned)
    (h : p.action.requestsRecovery = true) : plan.requestsRecovery = true :=
  List.any_eq_true.mpr ⟨p.action, List.mem_map_of_mem hp, h⟩

/-- A planned action comes from its own credential. -/
theorem PlannedAction.Origin.rejectionFor {p : PlannedAction} {requirement : AuthRequirement}
    {a : AuthAppliedCredential} (h : p.Origin bindings requirements applied status requirement a) :
    Concord.rejectionFor bindings requirements status a = some p.action :=
  rejectionFor_eq h.found h.planned

/-- The origin of a planned action is the credential at its position. -/
theorem Classified.origin_at (hc : Classified bindings requirements applied status n plan)
    {p : PlannedAction} (hp : p ∈ plan.planned) {a : AuthAppliedCredential}
    (ha : applied[p.appliedIndex]? = some a) :
    ∃ requirement, p.Origin bindings requirements applied status requirement a := by
  obtain ⟨_, requirement, a', ho⟩ := hc.origin p hp
  have happlied := ho.appliedAt
  rw [ha, Option.some.injEq] at happlied
  exact ⟨requirement, happlied ▸ ho⟩

/-- Before any credential was looked at the plan is empty. -/
theorem classified_zero : Classified bindings requirements applied status 0 .default where
  origin := by simp [AuthRejectionPlan.default]
  covered h := absurd h (Nat.not_lt_zero _)
  first := by simp [AuthRejectionPlan.default]
  recovery := by simp [AuthRejectionPlan.default]

/-- A credential that an action could be taken for the action of, other than
its own, would have stood in the way of the action: as a duplicate, or as
the recover action that is kept. -/
theorem Classified.not_matches (hc : Classified bindings requirements applied status n plan)
    {a : AuthAppliedCredential} {requirement : AuthRequirement} {i : Nat}
    {action : AuthRejectionAction}
    (hfind : findRequirement requirements a = some (requirement, i))
    (hplan : planRejection bindings requirement a status = .ok action)
    (hdup : ∀ p ∈ plan.planned, p.action.matches requirement a = false)
    (hkeep : ¬ (plan.requestsRecovery = true ∧ action.requestsRecovery = true))
    {k : Nat} {a' : AuthAppliedCredential} (hk : k < n) (ha' : applied[k]? = some a')
    (requirement' : AuthRequirement) : action.matches requirement' a' = false := by
  cases hm : action.matches requirement' a' with
  | false => rfl
  | true =>
      obtain ⟨hkey', hid'⟩ := matches_iff.mp hm
      have hkey := key_of_planRejection hplan
      rw [hkey, Prod.mk.injEq, Prod.mk.injEq, Prod.mk.injEq] at hkey'
      obtain ⟨hcred, husage, hstep, hgen⟩ := hkey'
      have hid : requirement.credential.id = a.credentialId :=
        (names_iff.mp (names_of_findRequirement hfind)).1
      -- The two credentials have one identity, so they have one action.
      have hsame : a'.credentialId = a.credentialId := by rw [← hid', ← hcred, hid]
      have hfind' : findRequirement requirements a' = some (requirement, i) := by
        rw [findRequirement_congr hsame husage.symm hstep.symm, hfind]
      have hplan' : planRejection bindings requirement a' status = .ok action := by
        rw [planRejection_congr husage.symm hstep.symm hgen.symm, hplan]
      obtain ⟨action', haction', hkept⟩ := hc.covered hk ha'
      rw [rejectionFor_eq hfind' hplan', Option.some.injEq] at haction'
      subst haction'
      cases hkept with
      | inl hkept =>
          obtain ⟨p, hp, rfl⟩ := hkept
          obtain ⟨r, ho⟩ := hc.origin_at hp ha'
          have hpaction := ho.rejectionFor
          rw [rejectionFor_eq hfind' hplan', Option.some.injEq] at hpaction
          have hmatch : p.action.matches requirement a = true := by
            rw [← hpaction]
            exact matches_iff.mpr ⟨hkey, hid⟩
          rw [hdup p hp] at hmatch
          contradiction
      | inr hdropped => exact absurd ⟨hdropped.2, hdropped.1⟩ hkeep

/-- Before a recover action that is kept there was none. -/
theorem Classified.no_recovery (hc : Classified bindings requirements applied status n plan)
    (hnone : plan.requestsRecovery = false) {k : Nat} {a : AuthAppliedCredential}
    {action : AuthRejectionAction} (hk : k < n) (ha : applied[k]? = some a)
    (haction : rejectionFor bindings requirements status a = some action) :
    action.requestsRecovery = false := by
  obtain ⟨action', haction', hkept⟩ := hc.covered hk ha
  rw [haction, Option.some.injEq] at haction'
  subst haction'
  cases hkept with
  | inl hkept =>
      obtain ⟨p, hp, rfl⟩ := hkept
      obtain ⟨r, ho⟩ := hc.origin_at hp ha
      have hpaction := ho.rejectionFor
      rw [haction, Option.some.injEq] at hpaction
      cases hr : action.requestsRecovery with
      | false => rfl
      | true =>
          rw [hpaction] at hr
          rw [requestsRecovery_of_mem hp hr] at hnone
          contradiction
  | inr hdropped =>
      rw [hdropped.2] at hnone
      contradiction

/-- One applied credential extends the classification. -/
theorem Classified.step (hc : Classified bindings requirements applied status n plan)
    {a : AuthAppliedCredential} {requirement : AuthRequirement} {i : Nat}
    {action : AuthRejectionAction} (ha : applied[n]? = some a)
    (hfind : findRequirement requirements a = some (requirement, i))
    (hplan : planRejection bindings requirement a status = .ok action)
    (hdup : ∀ p ∈ plan.planned, p.action.matches requirement a = false) :
    Classified bindings requirements applied status (n + 1)
      (plan.appendValidated ⟨action, i, n⟩) := by
  have haction := rejectionFor_eq hfind hplan
  rw [appendValidated_eq]
  by_cases hdrop : plan.requestsRecovery = true ∧ action.requestsRecovery = true
  · rw [if_pos hdrop]
    refine ⟨fun p hp => ⟨Nat.lt_succ_of_lt (hc.origin p hp).1, (hc.origin p hp).2⟩,
      fun {k a'} hk ha' => ?_, hc.first, hc.recovery⟩
    by_cases hkn : k = n
    · subst hkn
      rw [ha, Option.some.injEq] at ha'
      exact ⟨action, ha' ▸ haction, .inr ⟨hdrop.2, hdrop.1⟩⟩
    · exact hc.covered (by omega) ha'
  · rw [if_neg hdrop]
    have hnew : ∀ {p}, p ∈ plan.planned ++ [⟨action, i, n⟩] →
        p ∈ plan.planned ∨ p = ⟨action, i, n⟩ := by
      intro p hp
      rw [List.mem_append, List.mem_singleton] at hp
      exact hp
    refine ⟨fun p hp => ?_, fun {k a'} hk ha' => ?_, fun p hp {k a'} hk ha' r => ?_,
      fun p hp hr {k a' action'} hk ha' haction' => ?_⟩
    · cases hnew hp with
      | inl hold => exact ⟨Nat.lt_succ_of_lt (hc.origin p hold).1, (hc.origin p hold).2⟩
      | inr heq =>
          subst heq
          exact ⟨Nat.lt_succ_self n, requirement, a, ha, hfind, hplan⟩
    · by_cases hkn : k = n
      · subst hkn
        rw [ha, Option.some.injEq] at ha'
        exact ⟨action, ha' ▸ haction, .inl ⟨⟨action, i, k⟩, by simp, rfl⟩⟩
      · obtain ⟨action', haction', hkept⟩ := hc.covered (by omega) ha'
        refine ⟨action', haction', ?_⟩
        cases hkept with
        | inl hkept =>
            obtain ⟨p, hp, hpk⟩ := hkept
            exact .inl ⟨p, List.mem_append_left _ hp, hpk⟩
        | inr hdropped =>
            refine .inr ⟨hdropped.1, ?_⟩
            obtain ⟨x, hx, hxr⟩ := List.any_eq_true.mp hdropped.2
            refine List.any_eq_true.mpr ⟨x, ?_, hxr⟩
            simp only [AuthRejectionPlan.actions, List.map_append]
            exact List.mem_append_left _ hx
    · cases hnew hp with
      | inl hold => exact hc.first p hold hk ha' r
      | inr heq =>
          subst heq
          exact hc.not_matches hfind hplan hdup hdrop hk ha' r
    · cases hnew hp with
      | inl hold => exact hc.recovery p hold hr hk ha' haction'
      | inr heq =>
          subst heq
          have hnone : plan.requestsRecovery = false := by
            cases hrec : plan.requestsRecovery with
            | false => rfl
            | true => exact absurd ⟨hrec, hr⟩ hdrop
          exact hc.no_recovery hnone hk ha' haction'

/-- What holds of the plan so far holds after the rest of the loop. -/
theorem Classified.loop {rest : List AuthAppliedCredential} {plan' : AuthRejectionPlan}
    (hc : Classified bindings requirements applied status n plan)
    (hrest : ∀ k a, rest[k]? = some a → applied[n + k]? = some a)
    (h : classifyApplied bindings requirements status (rest.zipIdx n) plan = .ok plan') :
    Classified bindings requirements applied status (n + rest.length) plan' := by
  induction rest generalizing n plan with
  | nil =>
      rw [List.zipIdx_nil, classifyApplied, Except.ok.injEq] at h
      exact h ▸ hc
  | cons a rest ih =>
      rw [List.zipIdx_cons, classifyApplied] at h
      split at h
      · contradiction
      · next requirement i hfind =>
          split at h
          · contradiction
          · next action hplan =>
              split at h
              · contradiction
              · split at h
                · contradiction
                · next hdup =>
                    have hdup' : ∀ p ∈ plan.planned,
                        p.action.matches requirement a = false := by
                      intro p hp
                      cases hm : p.action.matches requirement a with
                      | false => rfl
                      | true =>
                          refine absurd (List.any_eq_true.mpr ⟨p.action, ?_, hm⟩) hdup
                          exact List.mem_map_of_mem hp
                    have hstep := hc.step (hrest 0 a rfl) hfind hplan hdup'
                    have hnext := ih hstep (fun k a' hk => by
                      have hk' := hrest (k + 1) a' hk
                      rwa [show n + 1 + k = n + (k + 1) by omega]) h
                    rwa [show n + (a :: rest).length = n + 1 + rest.length by
                      rw [List.length_cons]; omega]

/-- The classification of a challenged response. -/
theorem classified_of_classify
    (h : classifyAuthRejection bindings requirements applied status = .ok (some plan)) :
    Classified bindings requirements applied status applied.length plan := by
  unfold classifyAuthRejection at h
  split at h
  · simp at h
  · split at h
    · contradiction
    · next aggregate hloop =>
        split at h
        · simp at h
        · rw [Except.ok.injEq, Option.some.injEq] at h
          subst h
          have hall := classified_zero.loop (fun k a hk => by rwa [Nat.zero_add]) hloop
          rwa [Nat.zero_add] at hall

/-- A kept action is resolved to the pair it was created from. -/
theorem Classified.resolveAction (hc : Classified bindings requirements applied status n plan)
    {p : PlannedAction} (hp : p ∈ plan.planned) :
    ∃ bound, Concord.resolveAction requirements applied p.action = some bound ∧
      (⟨bound.action, bound.requirementIndex, bound.appliedIndex⟩ : PlannedAction) = p := by
  obtain ⟨_, requirement, a, ho⟩ := hc.origin p hp
  have hnames := names_of_findRequirement ho.found
  have hmatch : p.action.matches requirement a = true :=
    matches_iff.mpr ⟨key_of_planRejection ho.planned, (names_iff.mp hnames).1⟩
  refine ⟨⟨p.action, requirement, p.requirementIndex, a, p.appliedIndex⟩, ?_, rfl⟩
  refine findSome?_zipIdx ho.appliedAt ?_ (fun k a' hk ha' => ?_)
  · -- The first requirement that names the credential also matches the action.
    have hfind : requirements.zipIdx.find? (fun r => r.1.names a && p.action.matches r.1 a) =
        some (requirement, p.requirementIndex) := by
      refine find?_of_imp ho.found ?_ (fun r hr => ?_)
      · rw [Bool.and_eq_true]
        exact ⟨hnames, hmatch⟩
      · rw [Bool.and_eq_true] at hr
        exact hr.1
    rw [hfind, Option.map_some]
  · rw [Option.map_eq_none_iff, List.find?_eq_none]
    intro r _ hr
    rw [Bool.and_eq_true, hc.first p hp hk ha' r.1] at hr
    exact absurd hr.2 (by simp)

/-- The actions of a classified plan are all resolved. -/
theorem Classified.resolveActions (hc : Classified bindings requirements applied status n plan)
    {planned : List PlannedAction} (hp : ∀ p ∈ planned, p ∈ plan.planned) :
    ∃ bound, Concord.resolveActions requirements applied (planned.map (·.action)) = .ok bound ∧
      bound.map (fun b => (⟨b.action, b.requirementIndex, b.appliedIndex⟩ : PlannedAction)) =
        planned := by
  induction planned with
  | nil => exact ⟨[], rfl, rfl⟩
  | cons p rest ih =>
      obtain ⟨b, hb, hbp⟩ := hc.resolveAction (hp p List.mem_cons_self)
      obtain ⟨bs, hbs, hbsp⟩ := ih (fun p' hp' => hp p' (List.mem_cons_of_mem _ hp'))
      refine ⟨b :: bs, ?_, ?_⟩
      · rw [List.map_cons, Concord.resolveActions, hb, hbs]
      · rw [List.map_cons, hbp, hbsp]

end classification

/-- **Rejection plans resolve before they act**: for any plan, requirements
and applied credentials, either every action is resolved to a pair it matches
and only slots of resolved actions are touched, in plan order, or some action
matches no pair and the plan fails with every slot as it was.  An action of a
plan that classification accepted is resolved to the very requirement and
applied credential it was created from. -/
theorem rejection_plans_resolve_first (bindings : AuthBindings)
    (requirements : List AuthRequirement) (applied : List AuthAppliedCredential)
    (status : StatusCode) :
    (∀ actions application provider (slots : Slots T),
      let effect := applyAuthRejectionPlan bindings requirements applied actions application
        status provider slots
      (∃ bound, List.Forall₂ (fun action b => RejectionBinding.Resolves b requirements applied
          action) actions bound ∧
        effect.ops <+: bound.filterMap (·.op status) ∧ effect.Frames slots) ∨
      ((∃ action ∈ actions, ¬ Resolvable requirements applied action) ∧
        effect.slots = slots ∧ effect.events = [] ∧
        effect.result = .error rejectionPlanMismatch)) ∧
    (∀ plan, classifyAuthRejection bindings requirements applied status = .ok (some plan) →
      ∃ bound, resolveActions requirements applied plan.actions = .ok bound ∧
        bound.map (fun b => (⟨b.action, b.requirementIndex, b.appliedIndex⟩ : PlannedAction)) =
          plan.planned) := by
  refine ⟨fun actions application provider slots => ?_, fun plan hplan => ?_⟩
  · simp only [applyAuthRejectionPlan]
    cases hr : resolveActions requirements applied actions with
    | error error =>
        obtain ⟨herror, hno⟩ := unresolved_of_resolveActions hr
        exact .inr ⟨hno, rfl, rfl, by rw [herror]⟩
    | ok bound =>
        have hall := resolves_of_resolveActions hr
        exact .inl ⟨bound, hall,
          (ops_applyBindings bindings application status provider (matches_of_resolves hall)
            slots).1,
          frames_applyBindings bindings application status provider bound slots⟩
  · exact (classified_of_classify hplan).resolveActions (fun p hp => hp)

end Concord
