import Concord.Lib.Pairs
import Concord.HeaderOwnership
import Concord.Auth.Plan

/-!
# Concord.Auth.Placement

Where credentials go in a request (`AuthPlacementPlan` of
`concord_core/src/auth/plan.rs`): planning the placements of a request, and
checking a public request against them.

A placement's target is the header or the query key it writes.  Two
placements collide exactly if they have one target, and a public request
passes if it has nothing at any target.
-/

namespace Concord

open Checked

/-! ## planning -/

/-- `AuthSlotId`. -/
abbrev AuthSlotId := Nat

def slotIdOverflow : AuthError :=
  AuthError.new .invalidConfiguration "auth slot id counter overflowed"

/-- `AuthSlotId::next` on the global counter, after other tasks have taken
`taken` ids from it. -/
def AuthSlotId.next (counter taken : Nat) : Except AuthError (AuthSlotId × Nat) :=
  match checkedAdd u64Max (min (counter + taken) u64Max) 1 with
  | none => .error slotIdOverflow
  | some next => .ok (min (counter + taken) u64Max, next)

inductive PlannedAuthPlacement where
  | bearer
  | header (name : HeaderName)
  | query (name : String)
  | basic
  deriving DecidableEq, Repr

structure PlannedAuthSlot where
  id : AuthSlotId
  credential : CredentialRef
  usageId : AuthUsageId
  stepId : Option String
  provenance : AuthProvenance
  placement : PlannedAuthPlacement
  deriving DecidableEq, Repr

structure AuthPlacementPlan where
  slots : List PlannedAuthSlot
  sensitiveQueryKeys : List String
  deriving DecidableEq, Repr

namespace AuthPlacementPlan

def default : AuthPlacementPlan := ⟨[], []⟩

end AuthPlacementPlan

def placementsCollide : PlannedAuthPlacement → PlannedAuthPlacement → Bool
  | .bearer, .bearer | .bearer, .basic | .basic, .bearer | .basic, .basic => true
  | .header name, .bearer | .header name, .basic
  | .bearer, .header name | .basic, .header name => name = HeaderName.authorization
  | .header a, .header b => a = b
  | .query a, .query b => a = b
  | _, _ => false

/-- The planned placement of a requirement. -/
def plannedPlacement : AuthPlacement → Except AuthError PlannedAuthPlacement
  | .bearer => .ok .bearer
  | .basic => .ok .basic
  | .header name =>
    match HeaderName.fromBytes name with
    | none => .error (AuthError.new .invalidConfiguration "invalid auth header name")
    | some name => .ok (.header name)
  | .query name => .ok (.query name)

/-- The keys to redact, with the one of this placement unless it is there in
some case. -/
def sensitiveKeys (keys : List String) : AuthPlacement → List String
  | .query name => if keys.any (eqIgnoreAsciiCase name) then keys else keys ++ [name]
  | _ => keys

/-- The header of a placement that authentication may not own. -/
def PlannedAuthPlacement.forbiddenHeader : PlannedAuthPlacement → Option HeaderName
  | .header name => if isForbiddenAuthPlacement name then some name else none
  | _ => none

/-- The loop of `from_auth_plan`.  Before the k-th slot other tasks have taken
`taken k` slot ids. -/
def planSlots (taken : Nat → Nat) :
    Nat → List AuthRequirement → AuthPlacementPlan → Except AuthError AuthPlacementPlan
  | _, [], planned => .ok planned
  | counter, requirement :: rest, planned =>
    match plannedPlacement requirement.placement with
    | .error error => .error error
    | .ok placement =>
      match placement.forbiddenHeader with
      | some name =>
        .error (AuthError.new .invalidConfiguration
          ("authentication may not own reserved header `" ++ name ++ "`"))
      | none =>
        if planned.slots.any (placementsCollide ·.placement placement) then
          .error (AuthError.new .invalidConfiguration
            "duplicate authentication placement target")
        else
          match AuthSlotId.next counter (taken planned.slots.length) with
          | .error error => .error error
          | .ok (id, counter) =>
            planSlots taken counter rest
              { slots := planned.slots ++ [⟨id, requirement.credential, requirement.usageId,
                  requirement.stepId, requirement.provenance, placement⟩]
                sensitiveQueryKeys := sensitiveKeys planned.sensitiveQueryKeys
                  requirement.placement }

/-- `from_auth_plan`. -/
def AuthPlacementPlan.fromAuthPlan (taken : Nat → Nat) (counter : Nat) (plan : AuthPlan) :
    Except AuthError AuthPlacementPlan :=
  planSlots taken counter plan.requirements .default

/-! ## preflight -/

/-- The check of `validate_public_request_with_reserved_headers` for one
slot. -/
def validateSlot (headers : HeaderMap) (url : Url) (reservedHeaders : List HeaderName)
    (slot : PlannedAuthSlot) : Except AuthError Unit :=
  match slot.placement with
  | .bearer =>
    if headers.containsKey HeaderName.authorization then
      .error (AuthError.new .invalidConfiguration
        "bearer auth collides with an existing public Authorization header")
    else .ok ()
  | .basic =>
    if headers.containsKey HeaderName.authorization then
      .error (AuthError.new .invalidConfiguration
        "basic auth collides with an existing public Authorization header")
    else .ok ()
  | .header name =>
    if headers.containsKey name ∨ reservedHeaders.contains name then
      .error (AuthError.new .invalidConfiguration
        ("header auth key `" ++ name ++ "` collides with an existing public header"))
    else .ok ()
  | .query name =>
    if url.queryPairs.any (·.1 = name) then
      .error (AuthError.new .invalidConfiguration
        ("query auth key `" ++ name ++ "` collides with an existing public query parameter"))
    else .ok ()

def validateSlots (headers : HeaderMap) (url : Url) (reservedHeaders : List HeaderName) :
    List PlannedAuthSlot → Except AuthError Unit
  | [] => .ok ()
  | slot :: rest =>
    match validateSlot headers url reservedHeaders slot with
    | .error error => .error error
    | .ok _ => validateSlots headers url reservedHeaders rest

def AuthPlacementPlan.validatePublicRequestWithReservedHeaders (planned : AuthPlacementPlan)
    (headers : HeaderMap) (url : Url) (reservedHeaders : List HeaderName) :
    Except AuthError Unit :=
  validateSlots headers url reservedHeaders planned.slots

/-! ## material -/

/-- `AuthTransportMaterial`. -/
inductive AuthTransportMaterial where
  | secret (slotId : AuthSlotId) (secret : String)
  | basic (slotId : AuthSlotId) (username password : String)
  deriving DecidableEq, Repr

def AuthTransportMaterial.slotId : AuthTransportMaterial → AuthSlotId
  | .secret slotId _ => slotId
  | .basic slotId _ _ => slotId

def materialMatchesSlot (material : AuthTransportMaterial) (slot : PlannedAuthSlot) : Bool :=
  match material, slot.placement with
  | .secret _ _, .bearer | .secret _ _, .header _ | .secret _ _, .query _ => true
  | .basic _ _ _, .basic => true
  | _, _ => false

/-- `validate_binding`, for the material of a prepared credential. -/
def validateMaterial (material : AuthTransportMaterial) (slot : PlannedAuthSlot) :
    Except AuthError Unit :=
  if material.slotId ≠ slot.id ∨ ¬ materialMatchesSlot material slot then
    .error (AuthError.new .invalidConfiguration
      "credential material does not match the preplanned authentication slot")
  else .ok ()

/-! ## targets -/

/-- What a placement writes. -/
inductive AuthTarget where
  | header (name : HeaderName)
  | query (key : String)
  deriving DecidableEq, Repr

/-- The target a requirement asks for; header names are compared without
case. -/
def AuthPlacement.target : AuthPlacement → AuthTarget
  | .bearer | .basic => .header HeaderName.authorization
  | .header name => .header name.toLower
  | .query key => .query key

def PlannedAuthPlacement.target : PlannedAuthPlacement → AuthTarget
  | .bearer | .basic => .header HeaderName.authorization
  | .header name => .header name
  | .query key => .query key

/-- What a request has at a target. -/
def valuesAt (headers : HeaderMap) (url : Url) : AuthTarget → List (HeaderValue ⊕ String)
  | .header name => (headers.getAll name).map .inl
  | .query key => (url.queryPairs.filter (·.1 = key)).map fun pair => .inr pair.2

/-- Two placements collide exactly if they have one target. -/
theorem placementsCollide_iff (a b : PlannedAuthPlacement) :
    placementsCollide a b = true ↔ a.target = b.target := by
  cases a <;> cases b <;>
    simp [placementsCollide, PlannedAuthPlacement.target, eq_comm]

theorem target_of_plannedPlacement {placement : AuthPlacement} {planned : PlannedAuthPlacement}
    (h : plannedPlacement placement = .ok planned) : planned.target = placement.target := by
  cases placement with
  | bearer => exact Except.ok.inj h ▸ rfl
  | basic => exact Except.ok.inj h ▸ rfl
  | query name => exact Except.ok.inj h ▸ rfl
  | header name =>
      simp only [plannedPlacement, HeaderName.fromBytes] at h
      split at h
      · contradiction
      · next lower hlower =>
          split at hlower
          · rw [Except.ok.injEq] at h
            rw [← h, ← Option.some.inj hlower]
            rfl
          · contradiction

/-! ## accepted plans -/

/-- The slot was planned for the requirement. -/
structure PlannedAuthSlot.Serves (slot : PlannedAuthSlot) (requirement : AuthRequirement) :
    Prop where
  placement : plannedPlacement requirement.placement = .ok slot.placement
  credential : slot.credential = requirement.credential
  usageId : slot.usageId = requirement.usageId
  stepId : slot.stepId = requirement.stepId
  provenance : slot.provenance = requirement.provenance

/-- What planning has made of requirements: one slot for each, with targets
and ids of its own, and no header that authentication may not own. -/
structure SlotsPlanned (requirements : List AuthRequirement) (slots : List PlannedAuthSlot) :
    Prop where
  served : List.Forall₂ (fun requirement slot => PlannedAuthSlot.Serves slot requirement)
    requirements slots
  targets : slots.Pairwise fun a b => a.placement.target ≠ b.placement.target
  ids : slots.Pairwise fun a b => a.id < b.id
  owned : ∀ slot ∈ slots, slot.placement.forbiddenHeader = none

theorem next_of_ok {counter taken counter' : Nat} {id : AuthSlotId}
    (h : AuthSlotId.next counter taken = .ok (id, counter')) :
    counter ≤ id ∧ counter' = id + 1 := by
  unfold AuthSlotId.next at h
  split at h
  · contradiction
  · next next hnext =>
      rw [Except.ok.injEq, Prod.mk.injEq] at h
      obtain ⟨rfl, rfl⟩ := h
      have hsum := checkedAdd_eq_some_iff.mp hnext
      omega

theorem pairwise_concat {α : Type*} {R : α → α → Prop} {xs : List α} {x : α}
    (h : xs.Pairwise R) (hx : ∀ y ∈ xs, R y x) : (xs ++ [x]).Pairwise R := by
  rw [List.pairwise_append]
  refine ⟨h, List.pairwise_singleton R x, fun y hy z hz => ?_⟩
  rw [List.mem_singleton.mp hz]
  exact hx y hy

/-- One more requirement keeps what planning has made of the others. -/
theorem SlotsPlanned.concat {requirements : List AuthRequirement}
    {slots : List PlannedAuthSlot} (h : SlotsPlanned requirements slots)
    {requirement : AuthRequirement} {slot : PlannedAuthSlot} (hserves : slot.Serves requirement)
    (htarget : slots.any (placementsCollide ·.placement slot.placement) = false)
    (hid : ∀ s ∈ slots, s.id < slot.id) (howned : slot.placement.forbiddenHeader = none) :
    SlotsPlanned (requirements ++ [requirement]) (slots ++ [slot]) where
  served := List.rel_append h.served (.cons hserves .nil)
  targets := pairwise_concat h.targets fun s hs heq => by
    have hcollide := List.any_eq_false.mp htarget s hs
    exact hcollide ((placementsCollide_iff _ _).mpr heq)
  ids := pairwise_concat h.ids hid
  owned s hs := by
    cases List.mem_append.mp hs with
    | inl hold => exact h.owned s hold
    | inr hnew => exact List.mem_singleton.mp hnew ▸ howned

theorem SlotsPlanned.loop {taken : Nat → Nat} {counter : Nat}
    {before rest : List AuthRequirement} {planned planned' : AuthPlacementPlan}
    (h : SlotsPlanned before planned.slots) (hid : ∀ s ∈ planned.slots, s.id < counter)
    (hloop : planSlots taken counter rest planned = .ok planned') :
    SlotsPlanned (before ++ rest) planned'.slots := by
  induction rest generalizing counter before planned with
  | nil =>
      rw [planSlots, Except.ok.injEq] at hloop
      rw [List.append_nil, ← hloop]
      exact h
  | cons requirement rest ih =>
      simp only [planSlots] at hloop
      split at hloop
      · contradiction
      · next placement hplacement =>
          split at hloop
          · contradiction
          · next howned =>
              split at hloop
              · contradiction
              · next hfree =>
                  split at hloop
                  · contradiction
                  · next id counter' hnext =>
                      obtain ⟨hle, hcounter⟩ := next_of_ok hnext
                      have hserves : PlannedAuthSlot.Serves ⟨id, requirement.credential,
                          requirement.usageId, requirement.stepId, requirement.provenance,
                          placement⟩ requirement := ⟨hplacement, rfl, rfl, rfl, rfl⟩
                      have hstep := h.concat hserves (by simpa using hfree)
                        (fun s hs => Nat.lt_of_lt_of_le (hid s hs) hle) howned
                      have hbound : ∀ s ∈ planned.slots ++ [⟨id, requirement.credential,
                          requirement.usageId, requirement.stepId, requirement.provenance,
                          placement⟩], s.id < counter' := by
                        intro s hs
                        cases List.mem_append.mp hs with
                        | inl hold =>
                            rw [hcounter]
                            exact Nat.lt_succ_of_lt (Nat.lt_of_lt_of_le (hid s hold) hle)
                        | inr hnew =>
                            rw [List.mem_singleton.mp hnew, hcounter]
                            exact Nat.lt_succ_self id
                      have hrest := ih hstep hbound hloop
                      rwa [List.append_assoc] at hrest

/-- What an accepted plan is. -/
theorem slotsPlanned_of_fromAuthPlan {taken : Nat → Nat} {counter : Nat} {plan : AuthPlan}
    {planned : AuthPlacementPlan}
    (h : AuthPlacementPlan.fromAuthPlan taken counter plan = .ok planned) :
    SlotsPlanned plan.requirements planned.slots := by
  have hstart : SlotsPlanned [] AuthPlacementPlan.default.slots :=
    ⟨.nil, .nil, .nil, by simp [AuthPlacementPlan.default]⟩
  exact hstart.loop (by simp [AuthPlacementPlan.default]) h

/-- The requirements of an accepted plan have targets of their own. -/
theorem targets_of_fromAuthPlan {taken : Nat → Nat} {counter : Nat} {plan : AuthPlan}
    {planned : AuthPlacementPlan}
    (h : AuthPlacementPlan.fromAuthPlan taken counter plan = .ok planned) :
    plan.requirements.Pairwise fun a b => a.placement.target ≠ b.placement.target := by
  have hplanned := slotsPlanned_of_fromAuthPlan h
  have hsame : planned.slots.map (·.placement.target) =
      plan.requirements.map (·.placement.target) :=
    Pairs.map_eq_map (fun hserves => target_of_plannedPlacement hserves.placement)
      hplanned.served.flip
  have htargets := List.pairwise_map.mpr hplanned.targets
  rw [hsame, List.pairwise_map] at htargets
  exact htargets

/-! ## accepted requests -/

theorem valuesAt_header_of_not_contains {headers : HeaderMap} {name : HeaderName} (url : Url)
    (h : ¬ headers.containsKey name = true) : valuesAt headers url (.header name) = [] := by
  have hnone := Multimap.containsKey_eq_false_iff.mp (Bool.not_eq_true _ ▸ h)
  rw [valuesAt, hnone, List.map_nil]

/-- A slot's check passes only if the request has nothing at its target. -/
theorem valuesAt_of_validateSlot {headers : HeaderMap} {url : Url}
    {reservedHeaders : List HeaderName} {slot : PlannedAuthSlot}
    (h : validateSlot headers url reservedHeaders slot = .ok ()) :
    valuesAt headers url slot.placement.target = [] := by
  unfold validateSlot at h
  cases hp : slot.placement with
  | bearer =>
      simp only [hp] at h
      split at h
      · contradiction
      · next hno => exact valuesAt_header_of_not_contains url hno
  | basic =>
      simp only [hp] at h
      split at h
      · contradiction
      · next hno => exact valuesAt_header_of_not_contains url hno
  | header name =>
      simp only [hp] at h
      split at h
      · contradiction
      · next hno => exact valuesAt_header_of_not_contains url (fun hc => hno (.inl hc))
  | query key =>
      simp only [hp] at h
      split at h
      · contradiction
      · next hno =>
          have hnone : url.queryPairs.filter (·.1 = key) = [] := by
            rw [List.filter_eq_nil_iff]
            exact fun pair hmem hkey => hno (List.any_eq_true.mpr ⟨pair, hmem, hkey⟩)
          rw [PlannedAuthPlacement.target, valuesAt, hnone, List.map_nil]

/-- **Preflight**: a public request passes only if it has nothing at any
target of the plan. -/
theorem valuesAt_of_validateSlots {headers : HeaderMap} {url : Url}
    {reservedHeaders : List HeaderName} {slots : List PlannedAuthSlot}
    (h : validateSlots headers url reservedHeaders slots = .ok ()) :
    ∀ slot ∈ slots, valuesAt headers url slot.placement.target = [] := by
  induction slots with
  | nil => simp
  | cons slot rest ih =>
      rw [validateSlots] at h
      split at h
      · contradiction
      · next hslot =>
          intro s hs
          cases List.mem_cons.mp hs with
          | inl heq => exact heq ▸ valuesAt_of_validateSlot hslot
          | inr hrest => exact ih h s hrest

end Concord
