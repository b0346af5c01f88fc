import Concord.Auth.Credentials

/-!
# Concord.Auth.Plan

Authentication plans and rejection plans (`concord_core/src/auth/plan.rs`):
what a request has to authenticate with, what was applied to it, and what a
challenge makes of each applied credential.

`PlannedAction` carries, beside an action, the positions of the requirement
and of the applied credential it was created from.  The code does not keep
them; it finds the pair again by its identity fields.
-/

namespace Concord

/-! ## requirements -/

structure CredentialId where
  «namespace» : String
  name : String
  deriving DecidableEq, Repr

/-- `AuthUsageId`. -/
abbrev AuthUsageId := String

structure AuthProvenance where
  layer : String
  deriving DecidableEq, Repr

structure CredentialRef where
  id : CredentialId
  deriving DecidableEq, Repr

inductive AuthPlacement where
  | bearer
  | header (name : String)
  | query (key : String)
  | basic
  deriving DecidableEq, Repr

inductive AuthChallengePolicy where
  | unauthorized
  | unauthorizedOrForbidden
  | neverRecover
  deriving DecidableEq, Repr

structure AuthRequirement where
  credential : CredentialRef
  placement : AuthPlacement
  usageId : AuthUsageId
  stepId : Option String
  provenance : AuthProvenance
  challenge : AuthChallengePolicy
  deriving DecidableEq, Repr

structure AuthPlan where
  requirements : List AuthRequirement
  deriving DecidableEq, Repr

structure AuthAppliedCredential where
  credentialId : CredentialId
  usageId : AuthUsageId
  stepId : Option String
  generation : Option Nat
  provenance : AuthProvenance
  deriving DecidableEq, Repr

/-- The applied credential is one of this requirement's uses: the identity
fields that both searches of the client compare. -/
def AuthRequirement.names (requirement : AuthRequirement) (applied : AuthAppliedCredential) :
    Bool :=
  requirement.credential.id = applied.credentialId ∧ requirement.usageId = applied.usageId ∧
    requirement.stepId = applied.stepId

/-! ## decisions -/

/-- `http::StatusCode`. -/
abbrev StatusCode := Nat

def StatusCode.unauthorized : StatusCode := 401

def StatusCode.forbidden : StatusCode := 403

inductive AuthRecoveryReason where
  | unauthorized
  | forbidden
  deriving DecidableEq, Repr

structure AuthRejectionDecision where
  invalidateReason : Option InvalidateReason
  recoveryReason : Option AuthRecoveryReason
  deriving DecidableEq, Repr

def authDecisionForStatus (status : StatusCode) (requirement : AuthRequirement)
    (policy : AuthStepPolicy) : Option AuthRejectionDecision :=
  if requirement.challenge = .neverRecover then none
  else if status = .unauthorized ∧ (requirement.challenge = .unauthorized ∨
      requirement.challenge = .unauthorizedOrForbidden) then
    let recoveryReason :=
      if policy.recoverOnUnauthorized then some AuthRecoveryReason.unauthorized else none
    let invalidateReason :=
      if policy.invalidateOnUnauthorized then some InvalidateReason.unauthorized else none
    if recoveryReason.isSome ∨ invalidateReason.isSome then
      some ⟨invalidateReason, recoveryReason⟩
    else none
  else if status = .forbidden ∧ requirement.challenge = .unauthorizedOrForbidden then
    let recoveryReason :=
      if policy.recoverOnForbidden then some AuthRecoveryReason.forbidden else none
    let invalidateReason :=
      if policy.invalidateOnForbidden then some InvalidateReason.forbidden else none
    if recoveryReason.isSome ∨ invalidateReason.isSome then
      some ⟨invalidateReason, recoveryReason⟩
    else none
  else none

/-! ## actions -/

inductive AuthRejectionAction where
  | terminal (credential : CredentialRef) (usageId : AuthUsageId) (stepId : Option String)
      (generation : Option Nat) (invalidateReason : Option InvalidateReason)
  | recover (credential : CredentialRef) (usageId : AuthUsageId) (stepId : Option String)
      (generation : Option Nat) (reason : AuthRecoveryReason)
      (invalidateReason : Option InvalidateReason)
  deriving DecidableEq, Repr

namespace AuthRejectionAction

def ofTerminal (requirement : AuthRequirement) (applied : AuthAppliedCredential)
    (invalidateReason : Option InvalidateReason) : AuthRejectionAction :=
  .terminal requirement.credential applied.usageId applied.stepId applied.generation
    invalidateReason

def ofRecover (requirement : AuthRequirement) (applied : AuthAppliedCredential)
    (reason : AuthRecoveryReason) (invalidateReason : Option InvalidateReason) :
    AuthRejectionAction :=
  .recover requirement.credential applied.usageId applied.stepId applied.generation reason
    invalidateReason

def requestsRecovery : AuthRejectionAction → Bool
  | .recover _ _ _ _ _ _ => true
  | .terminal _ _ _ _ _ => false

def «matches» (action : AuthRejectionAction) (requirement : AuthRequirement)
    (applied : AuthAppliedCredential) : Bool :=
  match action with
  | .terminal credential usageId stepId generation _
  | .recover credential usageId stepId generation _ _ =>
    credential = requirement.credential ∧ credential.id = applied.credentialId ∧
      usageId = applied.usageId ∧ stepId = applied.stepId ∧ generation = applied.generation

def invalidateReason : AuthRejectionAction → Option InvalidateReason
  | .terminal _ _ _ _ invalidateReason => invalidateReason
  | .recover _ _ _ _ _ invalidateReason => invalidateReason

end AuthRejectionAction

/-- An action and the positions of the pair it was created from. -/
structure PlannedAction where
  action : AuthRejectionAction
  requirementIndex : Nat
  appliedIndex : Nat
  deriving DecidableEq, Repr

/-- `AuthRejectionPlan`. -/
structure AuthRejectionPlan where
  planned : List PlannedAction
  deriving DecidableEq, Repr

namespace AuthRejectionPlan

def default : AuthRejectionPlan := ⟨[]⟩

def actions (plan : AuthRejectionPlan) : List AuthRejectionAction := plan.planned.map (·.action)

def requestsRecovery (plan : AuthRejectionPlan) : Bool := plan.actions.any (·.requestsRecovery)

/-- `append_validated`: a terminal action is kept, a recover action only if
it is the first. -/
def appendValidated (plan : AuthRejectionPlan) (planned : PlannedAction) : AuthRejectionPlan :=
  match planned.action with
  | .terminal _ _ _ _ _ => ⟨plan.planned ++ [planned]⟩
  | .recover _ _ _ _ _ _ =>
    if plan.requestsRecovery then plan else ⟨plan.planned ++ [planned]⟩

end AuthRejectionPlan

/-! ## what an action matches -/

/-- The identity an action carries and matches an applied credential by. -/
def AuthRejectionAction.key : AuthRejectionAction →
    CredentialRef × AuthUsageId × Option String × Option Nat
  | .terminal credential usageId stepId generation _ => (credential, usageId, stepId, generation)
  | .recover credential usageId stepId generation _ _ => (credential, usageId, stepId, generation)

theorem matches_iff {action : AuthRejectionAction} {requirement : AuthRequirement}
    {applied : AuthAppliedCredential} :
    action.matches requirement applied = true ↔
      action.key = (requirement.credential, applied.usageId, applied.stepId,
        applied.generation) ∧ requirement.credential.id = applied.credentialId := by
  cases action <;>
    simp only [AuthRejectionAction.matches, AuthRejectionAction.key, decide_eq_true_eq,
      Prod.mk.injEq] <;> grind

theorem names_iff {requirement : AuthRequirement} {applied : AuthAppliedCredential} :
    requirement.names applied = true ↔ requirement.credential.id = applied.credentialId ∧
      requirement.usageId = applied.usageId ∧ requirement.stepId = applied.stepId := by
  simp [AuthRequirement.names]

@[simp] theorem key_ofTerminal (requirement : AuthRequirement) (applied : AuthAppliedCredential)
    (invalidateReason : Option InvalidateReason) :
    (AuthRejectionAction.ofTerminal requirement applied invalidateReason).key =
      (requirement.credential, applied.usageId, applied.stepId, applied.generation) := rfl

@[simp] theorem key_ofRecover (requirement : AuthRequirement) (applied : AuthAppliedCredential)
    (reason : AuthRecoveryReason) (invalidateReason : Option InvalidateReason) :
    (AuthRejectionAction.ofRecover requirement applied reason invalidateReason).key =
      (requirement.credential, applied.usageId, applied.stepId, applied.generation) := rfl

/-- What `append_validated` does, for either kind of action. -/
theorem appendValidated_eq (plan : AuthRejectionPlan) (planned : PlannedAction) :
    plan.appendValidated planned =
      if plan.requestsRecovery ∧ planned.action.requestsRecovery then plan
      else ⟨plan.planned ++ [planned]⟩ := by
  obtain ⟨action, i, j⟩ := planned
  cases action with
  | terminal credential usageId stepId generation reason =>
      simp [AuthRejectionPlan.appendValidated, AuthRejectionAction.requestsRecovery]
  | recover credential usageId stepId generation reason reason' =>
      simp [AuthRejectionPlan.appendValidated, AuthRejectionAction.requestsRecovery]

end Concord
