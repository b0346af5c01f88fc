import Concord.Auth.Plan

/-!
# Concord.Auth.Orchestrator

The binding between requirements and credential slots
(`concord_core/src/auth/orchestrator.rs`): what a challenge plans for one
applied credential, and how a planned action is carried out on its slot.

A binding names its slot by the slot's own id, and a client's bindings are a
function of the credential id, so the slots a client reaches are a function
of that id too.  Carrying out an action returns the new slots together with
the invalidations it performed.
-/

namespace Concord

variable {T : Type*}

/-! ## bindings -/

/-- `AuthProviderBinding`: the id of the slot it borrows, and whether a
challenge may reacquire the credential. -/
structure AuthProviderBinding where
  slotId : CredentialId
  refreshOnChallenge : Bool
  deriving DecidableEq, Repr

/-- `ClientContext::auth_provider_binding` on one authentication state. -/
abbrev AuthBindings := CredentialId → Option AuthProviderBinding

/-- The credential slots of a client. -/
abbrev Slots (T : Type*) := CredentialId → CredentialSlot T

def noProviderBinding : AuthError :=
  AuthError.new .invalidConfiguration
    "authentication requirement has no generated provider binding"

def AuthProviderBinding.validateRequirement (binding : AuthProviderBinding)
    (requirement : AuthRequirement) : Except AuthError Unit :=
  if binding.slotId ≠ requirement.credential.id then
    .error (AuthError.new .invalidConfiguration
      "authentication provider binding does not match its requirement")
  else .ok ()

/-! ## planning -/

def planBindingRejection (binding : AuthProviderBinding) (requirement : AuthRequirement)
    (applied : AuthAppliedCredential) (status : StatusCode) :
    Except AuthError AuthRejectionAction :=
  match binding.validateRequirement requirement with
  | .error error => .error error
  | .ok _ =>
    match authDecisionForStatus status requirement .default with
    | none => .ok (.ofTerminal requirement applied none)
    | some decision =>
      match decision.recoveryReason with
      | some recoveryReason =>
        if binding.refreshOnChallenge then
          .ok (.ofRecover requirement applied recoveryReason decision.invalidateReason)
        else .ok (.ofTerminal requirement applied decision.invalidateReason)
      | none => .ok (.ofTerminal requirement applied decision.invalidateReason)

def planRejection (bindings : AuthBindings) (requirement : AuthRequirement)
    (applied : AuthAppliedCredential) (status : StatusCode) :
    Except AuthError AuthRejectionAction :=
  match bindings requirement.credential.id with
  | some binding => planBindingRejection binding requirement applied status
  | none => .error noProviderBinding

def rejectionInvalidationReason (action : AuthRejectionAction) (status : StatusCode) :
    Option InvalidateReason :=
  match action.invalidateReason with
  | some reason => some reason
  | none =>
    if action.requestsRecovery then
      some (if status = .forbidden then .forbidden else .unauthorized)
    else none

/-! ## carrying out -/

/-- An invalidation carried out: the slot and the generation it named. -/
structure SlotOp where
  slot : CredentialId
  generation : Option Nat
  deriving DecidableEq, Repr

/-- What is done to a slot and its provider. -/
inductive SlotEvent where
  | invalidated (op : SlotOp)
  | askedProvider (slot : CredentialId)
  deriving DecidableEq, Repr

def SlotEvent.op? : SlotEvent → Option SlotOp
  | .invalidated op => some op
  | .askedProvider _ => none

/-- What carrying out actions leaves behind. -/
structure Effect (T : Type*) where
  slots : Slots T
  events : List SlotEvent
  result : Except AuthError Unit

/-- The invalidations that were carried out. -/
def Effect.ops (effect : Effect T) : List SlotOp := effect.events.filterMap (·.op?)

/-- One effect after another. -/
def Effect.andThen (effect effect' : Effect T) : Effect T :=
  ⟨effect'.slots, effect.events ++ effect'.events, effect'.result⟩

@[simp] theorem Effect.ops_nil (slots : Slots T) (result : Except AuthError Unit) :
    (⟨slots, [], result⟩ : Effect T).ops = [] := rfl

@[simp] theorem Effect.ops_andThen (effect effect' : Effect T) :
    (effect.andThen effect').ops = effect.ops ++ effect'.ops :=
  List.filterMap_append

def Slots.set (slots : Slots T) (id : CredentialId) (inner : CredentialSlotInner T) : Slots T :=
  fun id' => if id' = id then { slots id with inner := inner } else slots id'

/-- `invalidate_generation_local`. -/
def Slots.invalidateLocal (slots : Slots T) (id : CredentialId) (generation : Option Nat) :
    Effect T :=
  match invalidateGenerationState (slots id).inner generation with
  | (_, .error error) => ⟨slots, [], .error error⟩
  | (inner, .ok _) => ⟨slots.set id inner, [.invalidated ⟨id, generation⟩], .ok ()⟩

/-- `invalidate_generation`: the local invalidation, then the provider, whose
answer is `provider`. -/
def Slots.invalidate (slots : Slots T) (id : CredentialId) (generation : Option Nat)
    (provider : Except AuthError Unit) : Effect T :=
  match (slots id).providerRef with
  | .error error => ⟨slots, [], .error error⟩
  | .ok _ =>
    match invalidateGenerationState (slots id).inner generation with
    | (_, .error error) => ⟨slots, [], .error error⟩
    | (inner, .ok _) =>
      ⟨slots.set id inner, [.invalidated ⟨id, generation⟩, .askedProvider id], provider⟩

def actionMismatch : AuthError :=
  AuthError.new .invalidConfiguration
    "authentication rejection action does not match its provider binding"

/-- `apply_rejection`. -/
def applyRejection (bindings : AuthBindings) (provider : Except AuthError Unit)
    (action : AuthRejectionAction) (requirement : AuthRequirement)
    (applied : AuthAppliedCredential) (status : StatusCode) (slots : Slots T) : Effect T :=
  match bindings requirement.credential.id with
  | none => ⟨slots, [], .error noProviderBinding⟩
  | some binding =>
    match binding.validateRequirement requirement with
    | .error error => ⟨slots, [], .error error⟩
    | .ok _ =>
      if ¬ action.matches requirement applied then ⟨slots, [], .error actionMismatch⟩
      else
        match rejectionInvalidationReason action status with
        | none => ⟨slots, [], .ok ()⟩
        | some _ =>
          if action.requestsRecovery then
            slots.invalidate binding.slotId applied.generation provider
          else slots.invalidateLocal binding.slotId applied.generation

/-- `apply_rejection_invalidation_only`. -/
def applyRejectionInvalidationOnly (bindings : AuthBindings) (action : AuthRejectionAction)
    (requirement : AuthRequirement) (applied : AuthAppliedCredential) (status : StatusCode)
    (slots : Slots T) : Effect T :=
  match bindings requirement.credential.id with
  | none => ⟨slots, [], .error noProviderBinding⟩
  | some binding =>
    match binding.validateRequirement requirement with
    | .error error => ⟨slots, [], .error error⟩
    | .ok _ =>
      if ¬ action.matches requirement applied then ⟨slots, [], .error actionMismatch⟩
      else if (rejectionInvalidationReason action status).isSome then
        slots.invalidateLocal binding.slotId applied.generation
      else ⟨slots, [], .ok ()⟩

/-! ## what planning and carrying out can do -/

/-- A planned action carries the identity of its pair. -/
theorem key_of_planRejection {bindings : AuthBindings} {requirement : AuthRequirement}
    {applied : AuthAppliedCredential} {status : StatusCode} {action : AuthRejectionAction}
    (h : planRejection bindings requirement applied status = .ok action) :
    action.key = (requirement.credential, applied.usageId, applied.stepId,
      applied.generation) := by
  unfold planRejection at h
  split at h
  · unfold planBindingRejection at h
    split at h
    · contradiction
    · split at h
      · exact Except.ok.inj h ▸ key_ofTerminal _ _ _
      · split at h
        · split at h
          · exact Except.ok.inj h ▸ key_ofRecover _ _ _ _
          · exact Except.ok.inj h ▸ key_ofTerminal _ _ _
        · exact Except.ok.inj h ▸ key_ofTerminal _ _ _
  · contradiction

/-- What is planned for an applied credential is decided by the requirement
and by the identity it shares with the action. -/
theorem planRejection_congr {bindings : AuthBindings} {requirement : AuthRequirement}
    {applied applied' : AuthAppliedCredential} {status : StatusCode}
    (husage : applied.usageId = applied'.usageId) (hstep : applied.stepId = applied'.stepId)
    (hgen : applied.generation = applied'.generation) :
    planRejection bindings requirement applied status =
      planRejection bindings requirement applied' status := by
  simp only [planRejection, planBindingRejection, AuthRejectionAction.ofTerminal,
    AuthRejectionAction.ofRecover, husage, hstep, hgen]

end Concord
