import Concord.Auth.Placement
import Concord.Sema.Inheritance

/-!
# Concord.Codegen.Auth

The authentication plan of generated endpoints
(`concord_macros/src/codegen/endpoints/auth.rs`), from the check on its
targets when the declaration is compiled to the check on its placements when
the endpoint is called.
-/

namespace Concord.Sema

open Checked

/-! ## generated plans -/

/-- `emit_auth_placement` and `GeneratedAuthBuilder::require`. -/
def emitAuthPlacement : AuthPlacementIr → AuthPlacement
  | .bearer => .bearer
  | .header name => .header name
  | .query key => .query key
  | .basic => .basic

/-- The challenge policy is kept. -/
def emitAuthChallenge : AuthChallengePolicyIr → AuthChallengePolicy
  | .unauthorized => .unauthorized
  | .unauthorizedOrForbidden => .unauthorizedOrForbidden
  | .neverRecover => .neverRecover

/-- `emit_auth_requirement`. -/
def emitAuthRequirement (api : ResolvedApi) (requirement : AuthRequirementIr) :
    AuthRequirement where
  credential := ⟨⟨api.clientName, requirement.credential⟩⟩
  placement := emitAuthPlacement requirement.placement
  usageId := requirement.usageId
  stepId := some requirement.stepId
  provenance := ⟨requirement.provenance⟩
  challenge := emitAuthChallenge requirement.challenge

/-- `emit_endpoint_auth_plan`. -/
def emitEndpointAuthPlan (api : ResolvedApi) (ep : ResolvedEndpoint) : AuthPlan :=
  ⟨ep.policy.auth.map (emitAuthRequirement api)⟩

/-! ## targets -/

/-- What a materialization target stands for. -/
def AuthMaterializationTargetKey.target : AuthMaterializationTargetKey → AuthTarget
  | .header name => .header name
  | .query key => .query key
  | .authorization => .header HeaderName.authorization

/-- A header's target is its name in lower case. -/
theorem finalAuthMaterializationTarget_header (name : String) :
    finalAuthMaterializationTarget (.header name) =
      if name.toLower = HeaderName.authorization then .authorization else .header name.toLower := by
  have hlower : "authorization".toLower = HeaderName.authorization := by decide +kernel
  unfold finalAuthMaterializationTarget eqIgnoreAsciiCase
  simp only [hlower, decide_eq_true_eq]

/-- The planned target of a placement is that of the emitted one. -/
theorem target_finalAuthMaterializationTarget (placement : AuthPlacementIr) :
    (finalAuthMaterializationTarget placement).target = (emitAuthPlacement placement).target := by
  cases placement with
  | bearer => rfl
  | basic => rfl
  | query key => rfl
  | header name =>
      rw [finalAuthMaterializationTarget_header]
      by_cases h : name.toLower = HeaderName.authorization
      · rw [if_pos h]
        simp [AuthMaterializationTargetKey.target, emitAuthPlacement, AuthPlacement.target, h]
      · rw [if_neg h]
        rfl

/-- An `Authorization` header is not told from the other ways to write it. -/
theorem finalAuthMaterializationTarget_ne (placement : AuthPlacementIr) :
    finalAuthMaterializationTarget placement ≠ .header HeaderName.authorization := by
  cases placement with
  | bearer => exact AuthMaterializationTargetKey.noConfusion
  | basic => exact AuthMaterializationTargetKey.noConfusion
  | query key => exact AuthMaterializationTargetKey.noConfusion
  | header name =>
      rw [finalAuthMaterializationTarget_header]
      split
      · exact AuthMaterializationTargetKey.noConfusion
      · next h =>
          intro heq
          exact h (AuthMaterializationTargetKey.header.inj heq)

/-- Two targets are planned alike only if they are the same. -/
theorem target_injective {a b : AuthMaterializationTargetKey}
    (ha : a ≠ .header HeaderName.authorization) (hb : b ≠ .header HeaderName.authorization)
    (h : a.target = b.target) : a = b := by
  cases a <;> cases b <;> simp_all [AuthMaterializationTargetKey.target, eq_comm]

/-- Two requirements have one target when the declaration is compiled exactly
if their placements have one at run time. -/
theorem finalAuthMaterializationTarget_eq_iff (a b : AuthPlacementIr) :
    finalAuthMaterializationTarget a = finalAuthMaterializationTarget b ↔
      (emitAuthPlacement a).target = (emitAuthPlacement b).target := by
  rw [← target_finalAuthMaterializationTarget, ← target_finalAuthMaterializationTarget]
  constructor
  · intro h
    rw [h]
  · exact target_injective (finalAuthMaterializationTarget_ne a)
      (finalAuthMaterializationTarget_ne b)

/-- Targets are the same exactly if the placements collide. -/
theorem final_targets_eq_iff_collide {a b : AuthPlacementIr} {plannedA plannedB : PlannedAuthPlacement}
    (ha : plannedPlacement (emitAuthPlacement a) = .ok plannedA)
    (hb : plannedPlacement (emitAuthPlacement b) = .ok plannedB) :
    finalAuthMaterializationTarget a = finalAuthMaterializationTarget b ↔
      placementsCollide plannedA plannedB = true := by
  rw [placementsCollide_iff, target_of_plannedPlacement ha, target_of_plannedPlacement hb,
    finalAuthMaterializationTarget_eq_iff]

/-- Requirements that pass the check have targets of their own. -/
theorem validateFinalAuthMaterializationTargets_eq_ok {display : String}
    {seen : List (AuthMaterializationTargetKey × AuthRequirementIr)}
    {requirements : List AuthRequirementIr}
    (h : validateFinalAuthMaterializationTargets display seen requirements = .ok ()) :
    (∀ requirement ∈ requirements,
      seen.lookup (finalAuthMaterializationTarget requirement.placement) = none) ∧
    requirements.Pairwise (fun a b => finalAuthMaterializationTarget a.placement ≠
      finalAuthMaterializationTarget b.placement) := by
  induction requirements generalizing seen with
  | nil => exact ⟨fun _ hmem => absurd hmem List.not_mem_nil, .nil⟩
  | cons requirement requirements ih =>
      unfold validateFinalAuthMaterializationTargets at h
      simp only at h
      split at h
      · cases h
      · next hnone =>
          obtain ⟨hunseen, hpairwise⟩ := ih h
          have hboth : ∀ other ∈ requirements,
              finalAuthMaterializationTarget requirement.placement ≠
                finalAuthMaterializationTarget other.placement ∧
              seen.lookup (finalAuthMaterializationTarget other.placement) = none := by
            intro other hother
            have hlookup := hunseen other hother
            rw [List.lookup_cons] at hlookup
            split at hlookup
            · cases hlookup
            · next hne => exact ⟨fun heq => by simp [heq] at hne, hlookup⟩
          constructor
          · intro other hother
            cases List.mem_cons.mp hother with
            | inl heq =>
                rw [heq]
                exact hnone
            | inr hmem => exact (hboth other hmem).2
          · exact .cons (fun other hother => (hboth other hother).1) hpairwise

/-! ## planning -/

/-- Before each of the next `n` slots, from the `k`-th on, the counter has an
id left. -/
def slotIdsLeft (taken : Nat → Nat) : (k counter n : Nat) → Prop
  | _, _, 0 => True
  | k, counter, n + 1 =>
    counter + taken k < u64Max ∧ slotIdsLeft taken (k + 1) (counter + taken k + 1) n

/-- A slot number is given out as long as one is left. -/
theorem next_of_left {counter taken : Nat} (h : counter + taken < u64Max) :
    AuthSlotId.next counter taken = .ok (counter + taken, counter + taken + 1) := by
  have hmin : min (counter + taken) u64Max = counter + taken := Nat.min_eq_left (Nat.le_of_lt h)
  have hadd : checkedAdd u64Max (counter + taken) 1 = some (counter + taken + 1) :=
    checkedAdd_eq_some_iff.mpr ⟨h, rfl⟩
  unfold AuthSlotId.next
  rw [hmin, hadd]

/-- A placement that authentication may have. -/
def Allowed (placement : AuthPlacement) : Prop :=
  ∃ planned, plannedPlacement placement = .ok planned ∧ planned.forbiddenHeader = none

/-- Requirements with allowed placements and targets of their own are
planned. -/
theorem planSlots_of_allowed {taken : Nat → Nat} {counter : Nat} {rest : List AuthRequirement}
    {planned : AuthPlacementPlan} (hallowed : ∀ requirement ∈ rest, Allowed requirement.placement)
    (hfree : ∀ slot ∈ planned.slots, ∀ requirement ∈ rest,
      slot.placement.target ≠ requirement.placement.target)
    (htargets : rest.Pairwise (fun a b => a.placement.target ≠ b.placement.target))
    (hids : slotIdsLeft taken planned.slots.length counter rest.length) :
    ∃ planned', planSlots taken counter rest planned = .ok planned' := by
  induction rest generalizing counter planned with
  | nil => exact ⟨planned, rfl⟩
  | cons requirement rest ih =>
      rw [List.forall_mem_cons] at hallowed
      rw [List.pairwise_cons] at htargets
      obtain ⟨⟨placement, hplacement, howned⟩, hallowed⟩ := hallowed
      obtain ⟨hleft, hids⟩ := hids
      have htarget := target_of_plannedPlacement hplacement
      have hcollide : planned.slots.any (placementsCollide ·.placement placement) = false := by
        rw [List.any_eq_false]
        intro slot hslot hcollides
        rw [placementsCollide_iff, htarget] at hcollides
        exact hfree slot hslot requirement List.mem_cons_self hcollides
      simp only [planSlots, hplacement, howned, hcollide, Bool.false_eq_true, if_false,
        next_of_left hleft]
      refine ih hallowed ?_ htargets.2 ?_
      · intro slot hslot other hother
        cases List.mem_append.mp hslot with
        | inl hold => exact hfree slot hold other (List.mem_cons_of_mem _ hother)
        | inr hnew =>
            rw [List.mem_singleton.mp hnew, htarget]
            exact htargets.1 other hother
      · rw [List.length_append, List.length_singleton]
        exact hids

/-- A placement is refused as a configuration error. -/
theorem plannedPlacement_error {placement : AuthPlacement} {error : AuthError}
    (h : plannedPlacement placement = .error error) : error.kind = .invalidConfiguration := by
  unfold plannedPlacement at h
  split at h
  · cases h
  · cases h
  · split at h
    · cases h
      rfl
    · cases h
  · cases h

/-- Planning fails with errors of the configuration only. -/
theorem planSlots_error {taken : Nat → Nat} {counter : Nat} {rest : List AuthRequirement}
    {planned : AuthPlacementPlan} {error : AuthError}
    (h : planSlots taken counter rest planned = .error error) :
    error.kind = .invalidConfiguration := by
  induction rest generalizing counter planned with
  | nil => cases h
  | cons requirement rest ih =>
      simp only [planSlots] at h
      split at h
      · next hplacement =>
          cases h
          exact plannedPlacement_error hplacement
      · split at h
        · cases h
          rfl
        · split at h
          · cases h
            rfl
          · split at h
            · next hnext =>
                cases h
                unfold AuthSlotId.next at hnext
                split at hnext
                · cases hnext
                  rfl
                · cases hnext
            · exact ih h

/-- A plan with a placement that is not allowed is turned down. -/
theorem fromAuthPlan_of_not_allowed {plan : AuthPlan} {requirement : AuthRequirement}
    (hmem : requirement ∈ plan.requirements) (hnot : ¬ Allowed requirement.placement)
    (taken : Nat → Nat) (counter : Nat) :
    ∃ error, AuthPlacementPlan.fromAuthPlan taken counter plan = .error error ∧
      error.kind = .invalidConfiguration := by
  cases hplan : AuthPlacementPlan.fromAuthPlan taken counter plan with
  | error error => exact ⟨error, rfl, planSlots_error hplan⟩
  | ok planned =>
      have hplanned := slotsPlanned_of_fromAuthPlan hplan
      obtain ⟨slot, hslot, hserves⟩ := Pairs.exists_right hplanned.served hmem
      exact absurd ⟨slot.placement, hserves.placement, hplanned.owned slot hslot⟩ hnot

/-! ## accepted declarations -/

/-- The header literal of a placement. -/
def AuthPlacementIr.headerName : AuthPlacementIr → Option String
  | .header name => some name
  | _ => none

/-- A header literal is a header name that authentication may own. -/
def MayOwnHeader (name : String) : Prop :=
  ∃ header, HeaderName.fromBytes name = some header ∧ isForbiddenAuthPlacement header = false

/-- A header literal is no header name, or one that is reserved for something
other than authentication. -/
def RefusedHeader (name : String) : Prop :=
  HeaderName.fromBytes name = none ∨ ∃ header, HeaderName.fromBytes name = some header ∧
    header ≠ HeaderName.authorization ∧ isForbiddenAuthPlacement header = true

/-- A header is allowed if auth may own it. -/
theorem allowed_header_iff {name : String} : Allowed (.header name) ↔ MayOwnHeader name := by
  unfold Allowed MayOwnHeader
  cases hname : HeaderName.fromBytes name with
  | none => simp [plannedPlacement, hname]
  | some header =>
      have hplanned : plannedPlacement (.header name) = .ok (.header header) := by
        simp only [plannedPlacement, hname]
      rw [hplanned]
      simp [PlannedAuthPlacement.forbiddenHeader]

/-- So is its placement. -/
theorem allowed_of_mayOwnHeader {placement : AuthPlacementIr}
    (h : ∀ name ∈ placement.headerName, MayOwnHeader name) :
    Allowed (emitAuthPlacement placement) := by
  cases placement with
  | bearer => exact ⟨.bearer, rfl, rfl⟩
  | basic => exact ⟨.basic, rfl, rfl⟩
  | query key => exact ⟨.query key, rfl, rfl⟩
  | header name => exact allowed_header_iff.mpr (h name rfl)

/-- A refused header is not. -/
theorem not_allowed_of_refusedHeader {placement : AuthPlacementIr} {name : String}
    (hname : name ∈ placement.headerName) (h : RefusedHeader name) :
    ¬ Allowed (emitAuthPlacement placement) := by
  cases placement with
  | bearer | basic | query => cases hname
  | header literal =>
      cases hname
      intro hallowed
      obtain ⟨header, hheader, hfree⟩ := allowed_header_iff.mp hallowed
      cases h with
      | inl hnone =>
          rw [hnone] at hheader
          cases hheader
      | inr hreserved =>
          obtain ⟨other, hother, _, hforbidden⟩ := hreserved
          rw [hheader] at hother
          cases hother
          rw [hfree] at hforbidden
          cases hforbidden

/-- The requirements of an endpoint of an accepted API have targets of their
own. -/
theorem targets_of_accepted {toUppercase : Char → List Char} {ast : RawApi}
    {pipeline : ResolvedApiPipeline} (h : analyzePipeline toUppercase ast = .ok pipeline)
    {ep : ResolvedEndpoint} (hep : ep ∈ pipeline.api.endpoints) :
    (ep.policy.auth.map (emitAuthRequirement pipeline.api)).Pairwise
      (fun a b => a.placement.target ≠ b.placement.target) := by
  obtain ⟨cx, place, _, inh, _, hdirect⟩ := exists_place h hep
  obtain ⟨profile, _, hauth⟩ := (takenFrom_of_directEndpoint hdirect).auth
  obtain ⟨_, htargets, _⟩ := directEndpointAuth_eq_ok hauth
  obtain ⟨_, hpairwise⟩ := validateFinalAuthMaterializationTargets_eq_ok htargets
  rw [List.pairwise_map]
  refine hpairwise.imp ?_
  intro a b hne heq
  exact hne ((finalAuthMaterializationTarget_eq_iff _ _).mpr heq)

/-- The check on targets when a declaration is compiled agrees with the check
on placements at run time.  Two requirements have one target exactly if their
placements collide, and the requirements of an endpoint of an accepted API are
planned if their headers are ones that authentication may own and there are
slot ids left; one with a header that is refused is turned down as a
configuration error. -/
theorem auth_placements_agree {toUppercase : Char → List Char} {ast : RawApi}
    {pipeline : ResolvedApiPipeline} (h : analyzePipeline toUppercase ast = .ok pipeline) :
    (∀ a b plannedA plannedB, plannedPlacement (emitAuthPlacement a) = .ok plannedA →
      plannedPlacement (emitAuthPlacement b) = .ok plannedB →
      (finalAuthMaterializationTarget a = finalAuthMaterializationTarget b ↔
        placementsCollide plannedA plannedB = true)) ∧
    ∀ ep ∈ pipeline.api.endpoints, ∀ taken counter,
      ((∀ requirement ∈ ep.policy.auth, ∀ name ∈ requirement.placement.headerName,
          MayOwnHeader name) →
        slotIdsLeft taken 0 counter ep.policy.auth.length →
        ∃ planned, AuthPlacementPlan.fromAuthPlan taken counter
          (emitEndpointAuthPlan pipeline.api ep) = .ok planned) ∧
      ((∃ requirement ∈ ep.policy.auth, ∃ name ∈ requirement.placement.headerName,
          RefusedHeader name) →
        ∃ error, AuthPlacementPlan.fromAuthPlan taken counter
          (emitEndpointAuthPlan pipeline.api ep) = .error error ∧
          error.kind = .invalidConfiguration) := by
  refine ⟨fun a b _ _ ha hb => final_targets_eq_iff_collide ha hb, ?_⟩
  intro ep hep taken counter
  constructor
  · intro hheaders hids
    refine planSlots_of_allowed ?_ (fun _ hslot => absurd hslot List.not_mem_nil)
      (targets_of_accepted h hep) ?_
    · intro requirement hrequirement
      obtain ⟨resolved, hresolved, rfl⟩ := List.mem_map.mp hrequirement
      exact allowed_of_mayOwnHeader (hheaders resolved hresolved)
    · unfold emitEndpointAuthPlan
      rw [List.length_map]
      exact hids
  · intro hrefused
    obtain ⟨requirement, hrequirement, name, hname, hrefused⟩ := hrefused
    exact fromAuthPlan_of_not_allowed (List.mem_map_of_mem hrequirement)
      (not_allowed_of_refusedHeader hname hrefused) taken counter

/-! ## declarations with a key in a header -/

/-- `Show` sends the client's key in a header. -/
def headerKeyApi (header : String) : RawApi where
  client := { RawClient.bare "Api" with
    authVars := some [⟨"key", false, .other "String", none⟩]
    auth := some ⟨[⟨"key", .apiKey ⟨"key"⟩⟩]⟩ }
  items := .endpoint { RawEndpoint.bare "Show" with authUses := [.header header "key" none] } .nil

/-- The endpoints of `headerKeyApi` that have the key in the header. -/
def keyEndpoints (header : String) (pipeline : ResolvedApiPipeline) : List ResolvedEndpoint :=
  pipeline.api.endpoints.filter (fun ep =>
    ep.policy.auth.map AuthRequirementIr.placement = [.header header])

/-- A key in a header of its own. -/
theorem auth_placements_agree_key :
    ∃ pipeline ep, analyzePipeline asciiUppercase (headerKeyApi "X-Api-Key") = .ok pipeline ∧
      ep ∈ keyEndpoints "X-Api-Key" pipeline ∧
      ∃ planned, AuthPlacementPlan.fromAuthPlan (fun _ => 0) 1
        (emitEndpointAuthPlan pipeline.api ep) = .ok planned := by
  obtain ⟨pipeline, hok, hfound⟩ := Results.exists_ok_of_any
    (x := analyzePipeline asciiUppercase (headerKeyApi "X-Api-Key"))
    (p := fun pipeline => keyEndpoints "X-Api-Key" pipeline ≠ []) (by decide +kernel)
  obtain ⟨ep, hep⟩ := List.exists_mem_of_ne_nil _ (of_decide_eq_true hfound)
  obtain ⟨hmem, hplacements⟩ := List.mem_filter.mp hep
  have hplacements := of_decide_eq_true hplacements
  have howned : MayOwnHeader "X-Api-Key" := ⟨"x-api-key", by decide +kernel, by decide +kernel⟩
  refine ⟨pipeline, ep, hok, hep, ?_⟩
  refine (((auth_placements_agree hok).2 ep hmem (fun _ => 0) 1).1 ?_ ?_)
  · intro requirement hrequirement name hname
    have hplacement := List.mem_map_of_mem (f := AuthRequirementIr.placement) hrequirement
    rw [hplacements, List.mem_singleton] at hplacement
    rw [hplacement] at hname
    cases hname
    exact howned
  · have hlength : ep.policy.auth.length = 1 := by
      rw [← List.length_map (f := AuthRequirementIr.placement), hplacements]
      rfl
    rw [hlength]
    exact ⟨by decide, trivial⟩

/-- The endpoint of `headerKeyApi` is accepted and turned down in every call. -/
theorem every_call_refused {header : String} (hrefused : RefusedHeader header)
    {pipeline : ResolvedApiPipeline} {ep : ResolvedEndpoint}
    (hep : ep ∈ keyEndpoints header pipeline) (taken : Nat → Nat) (counter : Nat) :
    ∃ error, AuthPlacementPlan.fromAuthPlan taken counter
      (emitEndpointAuthPlan pipeline.api ep) = .error error := by
  have hplacements := of_decide_eq_true (List.mem_filter.mp hep).2
  have hplacement : AuthPlacementIr.header header ∈
      ep.policy.auth.map AuthRequirementIr.placement := by
    rw [hplacements]
    exact List.mem_singleton_self _
  obtain ⟨requirement, hrequirement, heq⟩ := List.mem_map.mp hplacement
  have hname : header ∈ requirement.placement.headerName := by
    rw [heq]
    rfl
  have hemitted : emitAuthRequirement pipeline.api requirement ∈
      (emitEndpointAuthPlan pipeline.api ep).requirements := List.mem_map_of_mem hrequirement
  obtain ⟨error, herror, _⟩ := fromAuthPlan_of_not_allowed hemitted
    (not_allowed_of_refusedHeader hname hrefused) taken counter
  exact ⟨error, herror⟩

/-- Accepted declarations whose endpoint is turned down in every call: the
header literal is no header name, or it is reserved.  A plan is also turned
down when no slot ids are left. -/
theorem auth_placements_refused :
    (∀ header ∈ ["X Api Key", "Cookie"], ∃ pipeline ep,
      analyzePipeline asciiUppercase (headerKeyApi header) = .ok pipeline ∧
      ep ∈ pipeline.api.endpoints ∧ ∀ taken counter, ∃ error,
        AuthPlacementPlan.fromAuthPlan taken counter (emitEndpointAuthPlan pipeline.api ep) =
          .error error) ∧
    ∃ pipeline ep, analyzePipeline asciiUppercase (headerKeyApi "X-Api-Key") = .ok pipeline ∧
      ep ∈ pipeline.api.endpoints ∧
      AuthPlacementPlan.fromAuthPlan (fun _ => 0) u64Max (emitEndpointAuthPlan pipeline.api ep) =
        .error slotIdOverflow := by
  constructor
  · intro header hheader
    have hrefused : RefusedHeader header := by
      cases List.mem_pair.mp hheader with
      | inl heq =>
          rw [heq]
          exact .inl (by decide +kernel)
      | inr heq =>
          rw [heq]
          exact .inr ⟨"cookie", by decide +kernel, by decide +kernel, by decide +kernel⟩
    have haccepted : (analyzePipeline asciiUppercase (headerKeyApi header)).toOption.any
        (fun pipeline => keyEndpoints header pipeline ≠ []) = true := by
      cases List.mem_pair.mp hheader with
      | inl heq =>
          rw [heq]
          decide +kernel
      | inr heq =>
          rw [heq]
          decide +kernel
    obtain ⟨pipeline, hok, hfound⟩ := Results.exists_ok_of_any haccepted
    obtain ⟨ep, hep⟩ := List.exists_mem_of_ne_nil _ (of_decide_eq_true hfound)
    exact ⟨pipeline, ep, hok, (List.mem_filter.mp hep).1, every_call_refused hrefused hep⟩
  · obtain ⟨pipeline, hok, hfound⟩ := Results.exists_ok_of_any
      (x := analyzePipeline asciiUppercase (headerKeyApi "X-Api-Key"))
      (p := fun pipeline => pipeline.api.endpoints.any fun ep =>
        AuthPlacementPlan.fromAuthPlan (fun _ => 0) u64Max
          (emitEndpointAuthPlan pipeline.api ep) = .error slotIdOverflow)
      (by decide +kernel)
    obtain ⟨ep, hep, herror⟩ := List.any_eq_true.mp hfound
    exact ⟨pipeline, ep, hok, hep, of_decide_eq_true herror⟩

end Concord.Sema
