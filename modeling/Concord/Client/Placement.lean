import Concord.Client.Build
import Concord.Client.Recovery

/-!
# Concord.Client.Placement

Authentication goes where it was planned and nowhere else: in a request that
was planned, checked, finished and materialized, every placement's target
holds its credential alone, and everything else is as it was in the public
request.  Plans and public requests that collide are turned down before
anything happens.
-/

namespace Concord

open Loop

variable {ε β T : Type*}

/-! ## placed credentials -/

/-- Every slot's target holds its credential and nothing else, where there was
nothing before, and the rest of the message is the public one. -/
structure Placed (fromStr : String → Option HeaderValue) (encode : String → String)
    (materials : List AuthTransportMaterial) (slots : List PlannedAuthSlot)
    (original message : Message β) : Prop where
  free : ∀ slot ∈ slots, original.values slot.placement.target = []
  placed : ∀ slot ∈ slots, ∃ material write, materialFor materials slot.id = some material ∧
    authWrite fromStr encode slot material = .ok write ∧
    message.values slot.placement.target = [write.value]
  headers : ∀ name, (∀ slot ∈ slots, slot.placement.target ≠ .header name) →
    message.headers.getAll name = original.headers.getAll name
  query : message.url.queryPairs.filter
    (fun pair => ∀ slot ∈ slots, slot.placement.target ≠ .query pair.1) =
      original.url.queryPairs
  method : message.method = original.method
  base : message.url.base = original.url.base
  timeout : message.timeout = original.timeout
  body : message.body = original.body

/-- Materialization places every slot of an accepted plan in a message that has
nothing at their targets. -/
theorem placed_of_materialize {fromStr : String → Option HeaderValue} {encode : String → String}
    {materials : List AuthTransportMaterial} {requirements : List AuthRequirement}
    {slots : List PlannedAuthSlot} {original message : Message β}
    (hplanned : SlotsPlanned requirements slots)
    (hfree : ∀ slot ∈ slots, original.values slot.placement.target = [])
    (h : materializeSlots fromStr encode materials slots original = .ok message) :
    Placed fromStr encode materials slots original message := by
  obtain ⟨writes, hwrites, rfl⟩ := materializeSlots_eq_ok_iff.mp h
  have htargets : writes.map (·.target) = slots.map (·.placement.target) :=
    Pairs.map_eq_map target_of_slotWrite hwrites.flip
  have hown : writes.Pairwise fun a b => a.target ≠ b.target := by
    have hslots := List.pairwise_map.mpr hplanned.targets
    rwa [← htargets, List.pairwise_map] at hslots
  have hslot : ∀ {write}, write ∈ writes → ∃ slot ∈ slots, write.target = slot.placement.target := by
    intro write hmem
    obtain ⟨slot, hs, hw⟩ := Pairs.exists_left hwrites hmem
    exact ⟨slot, hs, target_of_slotWrite hw⟩
  have hwfree : ∀ write ∈ writes, original.values write.target = [] := by
    intro write hmem
    obtain ⟨slot, hs, htarget⟩ := hslot hmem
    rw [htarget]
    exact hfree slot hs
  obtain ⟨hmethod, hbase, htimeout, hbody⟩ := frame_foldl original writes
  refine ⟨hfree, fun slot hs => ?_, fun name hname => ?_, ?_, hmethod, hbase, htimeout, hbody⟩
  · obtain ⟨write, hmem, hw⟩ := Pairs.exists_right hwrites hs
    have hvalue := values_foldl_of_mem hown hwfree hmem
    rw [target_of_slotWrite hw] at hvalue
    unfold slotWrite at hw
    split at hw
    · contradiction
    · next material hmaterial => exact ⟨material, write, hmaterial, hw, hvalue⟩
  · have hkeep : (writes.foldl Message.write original).values (.header name) =
        original.values (.header name) := by
      refine values_foldl_of_not_mem fun write hmem heq => ?_
      obtain ⟨slot, hs, htarget⟩ := hslot hmem
      exact hname slot hs (htarget.symm.trans heq.symm)
    simp only [Message.values, valuesAt] at hkeep
    exact List.map_injective_iff.mpr (fun _ _ hv => Sum.inl.inj hv) hkeep
  · have hpublic : ∀ pair ∈ original.url.queryPairs, ∀ slot ∈ slots,
        slot.placement.target ≠ .query pair.1 := by
      intro pair hpair slot hs htarget
      have hnone := hfree slot hs
      rw [htarget, Message.values, valuesAt, List.map_eq_nil_iff, List.filter_eq_nil_iff] at hnone
      exact hnone pair hpair (decide_eq_true rfl)
    have hwritten : ∀ pair ∈ writes.filterMap (·.pair?), ¬ ∀ slot ∈ slots,
        slot.placement.target ≠ .query pair.1 := by
      intro pair hpair hall
      obtain ⟨write, hmem, hp⟩ := List.mem_filterMap.mp hpair
      obtain ⟨slot, hs, htarget⟩ := hslot hmem
      cases write with
      | header name value => contradiction
      | query key secret => exact hall slot hs (htarget.symm.trans (Option.some.inj hp ▸ rfl))
    rw [queryPairs_foldl, List.filter_append,
      List.filter_eq_self.mpr (fun pair hpair => decide_eq_true (hpublic pair hpair)),
      List.filter_eq_nil_iff.mpr (fun pair hpair hall =>
        hwritten pair hpair (of_decide_eq_true hall)), List.append_nil]

/-- The targets of an accepted plan are not the headers that finishing adds. -/
theorem target_ne_of_owned {slot : PlannedAuthSlot} (h : slot.placement.forbiddenHeader = none) :
    slot.placement.target ≠ .header HeaderName.contentType ∧
      slot.placement.target ≠ .header HeaderName.contentLength := by
  cases hp : slot.placement with
  | bearer => decide
  | basic => decide
  | query key => simp [PlannedAuthPlacement.target]
  | header name =>
      have hallowed : isForbiddenAuthPlacement name = false := by
        rw [hp, PlannedAuthPlacement.forbiddenHeader] at h
        split at h
        · contradiction
        · next hno => simpa using hno
      refine ⟨fun heq => ?_, fun heq => ?_⟩
      · rw [AuthTarget.header.inj heq] at hallowed
        exact absurd hallowed (by decide)
      · rw [AuthTarget.header.inj heq] at hallowed
        exact absurd hallowed (by decide)

/-! ## collisions -/

/-- The surroundings of a run that plans and checks placements: every turn
checks its public head against the one placement plan. -/
def ExecutionEnv.placing (env : ExecutionEnv ε T) (lift : ApiClientError → ε)
    (ctx : ErrorContext) (planned : Except AuthError AuthPlacementPlan)
    (head : Nat → PublicRequestHead) : ExecutionEnv ε T :=
  { env with
    fromAuthPlan := planned.map fun _ => ()
    applyAuthPreflight := fun turn =>
      match planned with
      | .error _ => .ok ()
      | .ok planned =>
        match (head turn).applyAuthPreflight planned ctx with
        | .error error => .error (lift error)
        | .ok _ => .ok () }

/-- A run that does not get past its preflight does nothing. -/
theorem nothing_of_preflight {env : ExecutionEnv ε T} {ctx : ErrorContext}
    {family : ExecutionFamily} {turns : Nat} {body : PreparedBody ε β} {slots : Slots T}
    {driven : Driven ε T} {error : ExecuteError ε}
    (h : preflight env ctx (DriveState.start body slots) = .error error)
    (hrun : driveExecutions env ctx family turns body slots = some driven) :
    driven.events = [] ∧ driven.slots = slots ∧ driven.result = .error error := by
  have hturn : driveTurn env ctx body.isReplayable family (.start body slots) =
      .inr ((DriveState.start body slots).fail error) := by
    simp only [driveTurn, h]
  rw [run_eq_of_reaches .refl hrun hturn]
  exact ⟨rfl, rfl, rfl⟩

/-- A plan whose requirements share a target, or a public request with
something at a target, stops at the preflight. -/
theorem preflight_of_collision {taken : Nat → Nat} {counter : Nat} {plan : AuthPlan}
    {head : Nat → PublicRequestHead} {ctx : ErrorContext} (env : ExecutionEnv ε T)
    (lift : ApiClientError → ε) (body : PreparedBody ε β) (slots : Slots T)
    (h : (¬ plan.requirements.Pairwise fun a b => a.placement.target ≠ b.placement.target) ∨
      ∃ planned, AuthPlacementPlan.fromAuthPlan taken counter plan = .ok planned ∧
        ∃ slot ∈ planned.slots,
          valuesAt (head 0).headers (head 0).url slot.placement.target ≠ []) :
    ∃ error, preflight (env.placing lift ctx
      (AuthPlacementPlan.fromAuthPlan taken counter plan) head) ctx
      (DriveState.start body slots) = .error error := by
  simp only [preflight, ExecutionEnv.placing, DriveState.start]
  cases env.resolvePublicRequestHead 0 with
  | error error => exact ⟨_, rfl⟩
  | ok _ =>
      cases hplan : AuthPlacementPlan.fromAuthPlan taken counter plan with
      | error error => exact ⟨_, rfl⟩
      | ok planned =>
          cases hpre : (head 0).applyAuthPreflight planned ctx with
          | error error => exact ⟨.passed (lift error), by simp [Except.map, hpre]⟩
          | ok head' =>
              -- A request that passes has no collision.
              cases h with
              | inl hshare => exact absurd (targets_of_fromAuthPlan hplan) hshare
              | inr huse =>
                  obtain ⟨planned', hplan', slot, hs, hvalues⟩ := huse
                  rw [hplan, Except.ok.injEq] at hplan'
                  subst hplan'
                  have hvalid := (validated_of_preflight hpre).1
                  exact absurd (valuesAt_of_validateSlots hvalid slot hs) hvalues

/-- **Placement integrity**: a request that is planned, passes the preflight
and is finished is materialized so that every placement's target holds its
credential alone and everything else is as in the public request; with the
materials that were validated for the slots, each slot gets its own, and only
an invalid header value makes it fail.  A plan with two placements on one
target, and a public request that uses a target, is turned down before
anything is prepared or sent. -/
theorem auth_placement_integrity (fromStr : String → Option HeaderValue)
    (encode : String → String) (reqwest : Reqwest β) (ctx : ErrorContext) (taken : Nat → Nat)
    (counter : Nat) (plan : AuthPlan) :
    (∀ planned head head' body built materials,
      AuthPlacementPlan.fromAuthPlan taken counter plan = .ok planned →
      PublicRequestHead.applyAuthPreflight head planned ctx = .ok head' →
      head'.finish reqwest body ctx = .ok built →
      (∀ message, materializeAuthentication fromStr encode built.message built.authPlan
          materials = .ok message →
        Placed fromStr encode materials planned.slots built.message message) ∧
      (List.Forall₂ (fun slot material => validateMaterial material slot = .ok ())
          planned.slots materials →
        List.Forall₂ (fun slot material => materialFor materials slot.id = some material)
          planned.slots materials ∧
        ((∃ message, materializeAuthentication fromStr encode built.message built.authPlan
            materials = .ok message) ↔
          List.Forall₂ (fun slot material =>
            ∃ write, authWrite fromStr encode slot material = .ok write)
            planned.slots materials))) ∧
    (∀ (env : ExecutionEnv ε T) lift head family turns (body : PreparedBody ε β) slots driven,
      ((¬ plan.requirements.Pairwise fun a b => a.placement.target ≠ b.placement.target) ∨
        ∃ planned, AuthPlacementPlan.fromAuthPlan taken counter plan = .ok planned ∧
          ∃ slot ∈ planned.slots,
            valuesAt (head 0).headers (head 0).url slot.placement.target ≠ []) →
      driveExecutions (env.placing lift ctx (AuthPlacementPlan.fromAuthPlan taken counter plan)
        head) ctx family turns body slots = some driven →
      driven.events = [] ∧ driven.slots = slots ∧ ∃ error, driven.result = .error error) := by
  refine ⟨fun planned head head' body built materials hplan hpre hfinish => ?_,
    fun env lift head family turns body slots driven hcollide hrun => ?_⟩
  · have hplanned := slotsPlanned_of_fromAuthPlan hplan
    obtain ⟨hvalid, rfl⟩ := validated_of_preflight hpre
    obtain ⟨native, headers, _, _, hbuilt⟩ := finished_of_finish hfinish
    have hauth : built.authPlan = planned := by rw [hbuilt]
    have hfree : ∀ slot ∈ planned.slots, built.message.values slot.placement.target = [] := by
      intro slot hs
      obtain ⟨htype, hlength⟩ := target_ne_of_owned (hplanned.owned slot hs)
      rw [values_of_finish hfinish htype hlength]
      exact valuesAt_of_validateSlots hvalid slot hs
    rw [hauth]
    refine ⟨fun message hmessage => placed_of_materialize hplanned hfree hmessage,
      fun hmaterials => ?_⟩
    have hown := materialFor_of_validated hplanned.ids hmaterials
    exact ⟨hown, materializeSlots_isOk_iff built.message hown⟩
  · obtain ⟨error, hpre⟩ := preflight_of_collision env lift body slots hcollide
    obtain ⟨hevents, hslots, hresult⟩ := nothing_of_preflight hpre hrun
    exact ⟨hevents, hslots, error, hresult⟩

/-! ### a request with a session token and a key -/

def keyedPlan : AuthPlan :=
  ⟨[⟨⟨⟨"api", "session"⟩⟩, .bearer, "session", none, ⟨"client"⟩, .unauthorized⟩,
    ⟨⟨⟨"api", "key"⟩⟩, .query "api_key", "key", none, ⟨"endpoint"⟩, .unauthorized⟩]⟩

def keyedHead : PublicRequestHead where
  method := .get
  url := ⟨"https://api.test/items", none⟩
  headers := ⟨[("accept", FormUrlencoded.utf8Bytes "*/*")]⟩
  timeout := none
  authPlan := .default
  reservedHeaders := []

def keyedSlots : AuthPlacementPlan :=
  ⟨[⟨1, ⟨⟨"api", "session"⟩⟩, "session", none, ⟨"client"⟩, .bearer⟩,
    ⟨2, ⟨⟨"api", "key"⟩⟩, "key", none, ⟨"endpoint"⟩, .query "api_key"⟩], ["api_key"]⟩

def keyedMaterials : List AuthTransportMaterial := [.secret 1 "token", .secret 2 "k&y"]

/-- A library that takes every body and every request. -/
def plainReqwest : Reqwest Unit := ⟨fun _ => some ⟨none, none⟩, fun _ => true⟩

theorem auth_placement_integrity_keyed :
    ∃ built message, PublicRequestHead.finish { keyedHead with authPlan := keyedSlots }
        plainReqwest ⟨.empty, none⟩ ⟨"Items", .get⟩ = .ok built ∧
      materializeAuthentication (fun value => some (FormUrlencoded.utf8Bytes value)) id
        built.message built.authPlan keyedMaterials = .ok message ∧
      Placed (fun value => some (FormUrlencoded.utf8Bytes value)) id keyedMaterials
        keyedSlots.slots built.message message := by
  have hintegrity := (auth_placement_integrity (ε := Unit) (T := Unit)
    (fun value => some (FormUrlencoded.utf8Bytes value)) id plainReqwest ⟨"Items", .get⟩
    (fun _ => 0) 1 keyedPlan).1
  have hplan : AuthPlacementPlan.fromAuthPlan (fun _ => 0) 1 keyedPlan = .ok keyedSlots := by
    decide
  have hpre : keyedHead.applyAuthPreflight keyedSlots ⟨"Items", .get⟩ =
      .ok { keyedHead with authPlan := keyedSlots } := by decide
  have hfinish := hintegrity keyedSlots keyedHead _ ⟨.empty, none⟩ _ keyedMaterials hplan hpre rfl
  obtain ⟨hplaced, hvalid⟩ := hfinish
  have hok := (hvalid (.cons (by decide) (.cons (by decide) .nil))).2.mpr
    (.cons ⟨_, rfl⟩ (.cons ⟨_, rfl⟩ .nil))
  obtain ⟨message, hmessage⟩ := hok
  exact ⟨_, message, rfl, hmessage, hplaced message hmessage⟩

end Concord
