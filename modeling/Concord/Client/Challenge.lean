import Concord.Client.Recovery

/-!
# Concord.Client.Challenge

Which credentials a terminal challenge invalidates.  Of the applied
credentials whose rejection decision carries an invalidation, those with a
terminal decision and the first with a recover decision are invalidated;
`append_validated` drops every further recover action, and its invalidation
with it.
-/

namespace Concord

open FirstMatch Loop

variable {ε β T : Type*}

/-! ## decisions -/

section decisions

variable (bindings : AuthBindings) (requirements : List AuthRequirement) (status : StatusCode)

/-- The decision for the credential carries an invalidation. -/
def carriesInvalidation (a : AuthAppliedCredential) : Bool :=
  (rejectionFor bindings requirements status a).any fun action =>
    (rejectionInvalidationReason action status).isSome

/-- The decision for the credential is to recover it. -/
def recovers (a : AuthAppliedCredential) : Bool :=
  (rejectionFor bindings requirements status a).any (·.requestsRecovery)

/-- The credential's decision is in the merged plan with an invalidation: it is
terminal, or it is the first recover decision. -/
def Kept (applied : List AuthAppliedCredential) (a : AuthAppliedCredential) : Prop :=
  carriesInvalidation bindings requirements status a = true ∧
      recovers bindings requirements status a = false ∨
    applied.find? (recovers bindings requirements status) = some a

end decisions

section merged

variable {bindings : AuthBindings} {requirements : List AuthRequirement}
  {applied : List AuthAppliedCredential} {status : StatusCode} {n : Nat}
  {plan : AuthRejectionPlan}

/-- A recover decision always carries an invalidation. -/
theorem isSome_of_requestsRecovery {action : AuthRejectionAction}
    (h : action.requestsRecovery = true) :
    (rejectionInvalidationReason action status).isSome = true := by
  unfold rejectionInvalidationReason
  cases action.invalidateReason with
  | some reason => rfl
  | none => simp only [h, if_true, Option.isSome_some]

/-- What recovers invalidates first. -/
theorem carriesInvalidation_of_recovers {a : AuthAppliedCredential}
    (h : recovers bindings requirements status a = true) :
    carriesInvalidation bindings requirements status a = true := by
  unfold recovers at h
  unfold carriesInvalidation
  cases hr : rejectionFor bindings requirements status a with
  | none => simp [hr] at h
  | some action =>
      simp only [hr, Option.any_some] at h ⊢
      exact isSome_of_requestsRecovery h

/-- The recover action that is kept belongs to the first credential with a
recover decision. -/
theorem Classified.find?_recovers
    (hc : Classified bindings requirements applied status n plan) {p : PlannedAction}
    (hp : p ∈ plan.planned) (hr : p.action.requestsRecovery = true)
    {requirement : AuthRequirement} {a : AuthAppliedCredential}
    (ho : p.Origin bindings requirements applied status requirement a) :
    applied.find? (recovers bindings requirements status) = some a := by
  refine find?_of_first ho.appliedAt ?_ (fun k a' hk ha' => ?_)
  · simp only [recovers, ho.rejectionFor, Option.any_some, hr]
  · unfold recovers
    cases haction : rejectionFor bindings requirements status a' with
    | none => rfl
    | some action => exact hc.recovery p hp hr hk ha' haction

/-- The planned actions that invalidate something are those of the kept
credentials. -/
theorem Classified.kept_iff (hc : Classified bindings requirements applied status
    applied.length plan) (op : SlotOp) :
    (∃ p ∈ plan.planned, ∃ requirement a,
      p.Origin bindings requirements applied status requirement a ∧
      (rejectionInvalidationReason p.action status).isSome = true ∧
      op = ⟨a.credentialId, a.generation⟩) ↔
    ∃ a ∈ applied, Kept bindings requirements status applied a ∧
      op = ⟨a.credentialId, a.generation⟩ := by
  constructor
  · intro h
    obtain ⟨p, hp, requirement, a, ho, hsome, hop⟩ := h
    refine ⟨a, List.mem_of_getElem? ho.appliedAt, ?_, hop⟩
    cases hr : p.action.requestsRecovery with
    | true => exact .inr (hc.find?_recovers hp hr ho)
    | false =>
        refine .inl ⟨?_, ?_⟩
        · simp only [carriesInvalidation, ho.rejectionFor, Option.any_some, hsome]
        · simp only [recovers, ho.rejectionFor, Option.any_some, hr]
  · intro h
    obtain ⟨a, ha, hkept, hop⟩ := h
    obtain ⟨k, hk⟩ := List.getElem?_of_mem ha
    obtain ⟨action, haction, hcovered⟩ :=
      hc.covered (List.getElem?_eq_some_iff.mp hk).1 hk
    cases hkept with
    | inl hterminal =>
        -- A terminal decision is not dropped.
        have hno : action.requestsRecovery = false := by
          simpa only [recovers, haction, Option.any_some] using hterminal.2
        have hsome : (rejectionInvalidationReason action status).isSome = true := by
          simpa only [carriesInvalidation, haction, Option.any_some] using hterminal.1
        cases hcovered with
        | inl hplanned =>
            obtain ⟨p, hp, rfl⟩ := hplanned
            obtain ⟨requirement, ho⟩ := hc.origin_at hp hk
            have hsame := ho.rejectionFor
            rw [haction, Option.some.injEq] at hsame
            exact ⟨p, hp, requirement, a, ho, hsame ▸ hsome, hop⟩
        | inr hdropped =>
            rw [hno] at hdropped
            exact absurd hdropped.1 Bool.false_ne_true
    | inr hfirst =>
        -- The plan has a recover action, and that is the one of this credential.
        have hplan : plan.requestsRecovery = true := by
          cases hcovered with
          | inl hplanned =>
              obtain ⟨p, hp, rfl⟩ := hplanned
              obtain ⟨requirement, ho⟩ := hc.origin_at hp hk
              have hr := List.find?_some hfirst
              simp only [recovers, ho.rejectionFor, Option.any_some] at hr
              exact requestsRecovery_of_mem hp hr
          | inr hdropped => exact hdropped.2
        obtain ⟨action', hmem, hr⟩ := List.any_eq_true.mp hplan
        obtain ⟨p, hp, rfl⟩ := List.mem_map.mp hmem
        obtain ⟨_, requirement, a', ho⟩ := hc.origin p hp
        have hfound := hc.find?_recovers hp hr ho
        rw [hfirst, Option.some.injEq] at hfound
        subst hfound
        exact ⟨p, hp, requirement, a, ho, isSome_of_requestsRecovery hr, hop⟩

/-- What a plan that succeeds has invalidated. -/
theorem mem_ops_iff
    (hclassify : classifyAuthRejection bindings requirements applied status = .ok (some plan))
    {application : AuthRejectionApplication} {provider : Nat → Except AuthError Unit}
    {slots : Slots T}
    (hok : (applyAuthRejectionPlan bindings requirements applied plan.actions application status
      provider slots).result = .ok ()) (op : SlotOp) :
    op ∈ (applyAuthRejectionPlan bindings requirements applied plan.actions application status
      provider slots).ops ↔
    ∃ a ∈ applied, Kept bindings requirements status applied a ∧
      op = ⟨a.credentialId, a.generation⟩ := by
  have hc := classified_of_classify hclassify
  obtain ⟨bound, hbound, hplanned⟩ := hc.resolveActions (fun p hp => hp)
  have hactions : resolveActions requirements applied plan.actions = .ok bound := hbound
  have hresolves := resolves_of_resolveActions hactions
  simp only [applyAuthRejectionPlan, hactions] at hok ⊢
  rw [(ops_applyBindings bindings application status provider (matches_of_resolves hresolves)
    slots).2 hok, ← hc.kept_iff op, List.mem_filterMap]
  constructor
  · intro h
    obtain ⟨b, hb, hop⟩ := h
    have hp : (⟨b.action, b.requirementIndex, b.appliedIndex⟩ : PlannedAction) ∈ plan.planned :=
      hplanned ▸ List.mem_map_of_mem hb
    obtain ⟨requirement, ho⟩ := hc.origin_at hp (resolves_of_mem hresolves hb).2.appliedAt
    unfold RejectionBinding.op at hop
    split at hop
    · next hsome => exact ⟨_, hp, requirement, b.applied, ho, hsome, (Option.some.inj hop).symm⟩
    · contradiction
  · intro h
    obtain ⟨p, hp, requirement, a, ho, hsome, hop⟩ := h
    rw [← hplanned] at hp
    obtain ⟨b, hb, rfl⟩ := List.mem_map.mp hp
    have happlied := (resolves_of_mem hresolves hb).2.appliedAt
    rw [ho.appliedAt, Option.some.injEq] at happlied
    subst happlied
    exact ⟨b, hb, by simp only [RejectionBinding.op, hsome, if_true, hop]⟩

end merged

/-! ## what is left in the slots -/

/-- The slot holds a credential of this generation. -/
def Slots.Holds (slots : Slots T) (id : CredentialId) (generation : Nat) : Prop :=
  ∃ lease, (slots id).inner.state.held? = some lease ∧ lease.generation = generation

/-- A generation that is held afterwards was held before, and nothing that was
invalidated names it. -/
def Effect.Drops (effect : Effect T) (slots : Slots T) : Prop :=
  ∀ id generation, effect.slots.Holds id generation →
    slots.Holds id generation ∧ (⟨id, some generation⟩ : SlotOp) ∉ effect.ops

/-- Nothing is dropped by no operation. -/
theorem drops_nil (slots : Slots T) (result : Except AuthError Unit) :
    (⟨slots, [], result⟩ : Effect T).Drops slots :=
  fun _ _ h => ⟨h, by simp⟩

/-- Two effects that drop what they invalidate do so together. -/
theorem Effect.Drops.andThen {effect effect' : Effect T} {slots : Slots T}
    (h : effect.Drops slots) (h' : effect'.Drops effect.slots) :
    (effect.andThen effect').Drops slots := by
  intro id generation hh
  have hlater := h' id generation hh
  have hearlier := h id generation hlater.1
  refine ⟨hearlier.1, ?_⟩
  rw [Effect.ops_andThen, List.mem_append]
  exact fun hmem => hmem.elim hearlier.2 hlater.2

/-- An invalidation that goes through leaves the slot without a credential of
the generation it names. -/
theorem holds_of_invalidate {slots : Slots T} {id id' : CredentialId} {generation : Option Nat}
    {g : Nat} {inner : CredentialSlotInner T} {cleared : Option T × Option Nat}
    (hi : invalidateGenerationState (slots id).inner generation = (inner, .ok cleared))
    (h : (slots.set id inner).Holds id' g) :
    slots.Holds id' g ∧ (⟨id', some g⟩ : SlotOp) ≠ ⟨id, generation⟩ := by
  by_cases hid : id' = id
  · subst hid
    have hspec := invalidateGenerationState_spec (slots id').inner generation
    rw [hi] at hspec
    obtain ⟨lease, hl, hg⟩ := h
    simp only [Slots.set, if_true] at hl
    cases hspec with
    | current hs hgen hle => simp at hl
    | previous hs hgen => simp at hl
    | ignored hm =>
        obtain ⟨g', hg', hne⟩ := hm lease hl
        refine ⟨⟨lease, hl, hg⟩, fun heq => ?_⟩
        rw [SlotOp.mk.injEq, hg', Option.some.injEq] at heq
        exact hne (heq.2.symm.trans hg.symm)
  · refine ⟨?_, fun heq => hid (congrArg SlotOp.slot heq)⟩
    unfold Slots.Holds at h
    rwa [Slots.set_of_ne (Ne.symm hid)] at h

/-- A local invalidation drops what it names. -/
theorem drops_invalidateLocal (slots : Slots T) (id : CredentialId) (generation : Option Nat) :
    (slots.invalidateLocal id generation).Drops slots := by
  unfold Slots.invalidateLocal
  split
  · exact drops_nil _ _
  · next hi =>
      intro id' g h
      obtain ⟨hbefore, hne⟩ := holds_of_invalidate hi h
      exact ⟨hbefore, by simpa [Effect.ops, SlotEvent.op?] using hne⟩

/-- So does one through the provider. -/
theorem drops_invalidate (slots : Slots T) (id : CredentialId) (generation : Option Nat)
    (provider : Except AuthError Unit) :
    (slots.invalidate id generation provider).Drops slots := by
  unfold Slots.invalidate
  split
  · exact drops_nil _ _
  · split
    · exact drops_nil _ _
    · next hi =>
        intro id' g h
        obtain ⟨hbefore, hne⟩ := holds_of_invalidate hi h
        exact ⟨hbefore, by simpa [Effect.ops, SlotEvent.op?] using hne⟩

/-- So does a bound action. -/
theorem drops_applyBinding (bindings : AuthBindings) (application : AuthRejectionApplication)
    (status : StatusCode) (provider : Except AuthError Unit) (bound : RejectionBinding)
    (slots : Slots T) :
    (applyBinding bindings application status provider bound slots).Drops slots := by
  obtain ⟨result, h⟩ | ⟨id, generation, h⟩ | ⟨_, _, id, generation, h⟩ :=
    applyBinding_cases bindings application status provider bound slots
  · rw [h]
    exact drops_nil _ _
  · rw [h]
    exact drops_invalidateLocal slots _ _
  · rw [h]
    exact drops_invalidate slots _ _ provider

/-- And all of them. -/
theorem drops_applyBindings (bindings : AuthBindings) (application : AuthRejectionApplication)
    (status : StatusCode) (provider : Nat → Except AuthError Unit) {k : Nat}
    (bound : List RejectionBinding) (slots : Slots T) :
    (applyBindings bindings application status provider k bound slots).Drops slots := by
  induction bound generalizing k slots with
  | nil => exact drops_nil _ _
  | cons b rest ih =>
      have hb := drops_applyBinding bindings application status (provider k) b slots
      simp only [applyBindings]
      split
      · exact hb
      · exact hb.andThen (ih _)

/-- And a whole plan. -/
theorem drops_applyAuthRejectionPlan (bindings : AuthBindings)
    (requirements : List AuthRequirement) (applied : List AuthAppliedCredential)
    (actions : List AuthRejectionAction) (application : AuthRejectionApplication)
    (status : StatusCode) (provider : Nat → Except AuthError Unit) (slots : Slots T) :
    (applyAuthRejectionPlan bindings requirements applied actions application status provider
      slots).Drops slots := by
  unfold applyAuthRejectionPlan
  split
  · exact drops_nil _ _
  · exact drops_applyBindings bindings application status provider _ slots

/-- The events of an effect are its operations. -/
theorem Effect.mem_events_iff {effect : Effect T} {op : SlotOp} :
    SlotEvent.invalidated op ∈ effect.events ↔ op ∈ effect.ops := by
  rw [Effect.ops, List.mem_filterMap]
  constructor
  · exact fun h => ⟨_, h, rfl⟩
  · intro h
    obtain ⟨event, hmem, hop⟩ := h
    cases event with
    | invalidated op' => exact Option.some.inj hop ▸ hmem
    | askedProvider id => contradiction

/-! ## terminal challenges -/

/-- What a run that returns an error for a challenged response has done: the
answer to the execution of this turn was rejected, and after it only the slots
were touched, by these events. -/
structure Driven.Challenged (env : ExecutionEnv ε T) (driven : Driven ε T) (turn : Nat)
    (preparation : AuthPreparation) (response : Response) (events : List SlotEvent) : Prop where
  prepared : env.prepareAuth turn = .ok preparation
  executed : env.execute turn = .ok response
  log : ∃ before, driven.events = before ++ .respond response.status :: events.map .slot ∧
    stages before = (List.replicate (turn + 1) execution).flatten
  released : ∀ id generation, SlotEvent.invalidated ⟨id, some generation⟩ ∈ events →
    ¬ driven.slots.Holds id generation

/-- An error for a challenged response comes from a rejection plan that was
carried out. -/
theorem rejected_of_challenged {env : ExecutionEnv ε T} {ctx : ErrorContext}
    {authRebuildable : Bool} {s : DriveState ε β T} {driven : Driven ε T}
    {error : ApiClientError} (h : Turned env ctx authRebuildable s (.inr driven))
    (herror : driven.result = .error (.challenged error)) :
    ∃ s' preparation response plan application,
      s.Answered env s' preparation response ∧
      classifyAuthRejection env.bindings env.requirements preparation.applied response.status =
        .ok (some plan) ∧
      (error = authChallengeRejected ctx ∨
        authRebuildable = false ∧ error = .httpStatus ctx response.status) ∧
      (s'.effect env ⟨plan, response.status, preparation.applied⟩ application).result = .ok () ∧
      driven = s'.close (.error (.challenged error))
        (s'.effect env ⟨plan, response.status, preparation.applied⟩ application) := by
  cases h with
  | stopped taken hno hevents htaken => exact absurd (Except.error.inj herror) (hno error)
  | unanswered hno hevents hexecute => exact absurd (Except.error.inj herror) (hno error)
  | unobserved hno ha => exact absurd (Except.error.inj herror) (hno error)
  | handled ha hh =>
      cases hh with
      | rejected hc hlocal hkind hok =>
          obtain rfl := ExecuteError.challenged.inj (Except.error.inj herror)
          exact ⟨_, _, _, _, _, ha, hc, hkind, hok, rfl⟩
      | failed hc hlocal => exact absurd (Except.error.inj herror) (notChallenged_raised _ error)
      | ended hc hresult => exact absurd rfl (hresult _ herror error)

/-- At the head of the loop the log shows one execution for each turn before. -/
theorem AtHead.stages_eq {env : ExecutionEnv ε T} {body : PreparedBody ε β}
    {s : DriveState ε β T} (h : AtHead env body s) :
    stages s.events ++ execution = (List.replicate (s.turn + 1) execution).flatten := by
  cases h with
  | first slots => rfl
  | second hturn hbudget hpending hintent hlog hrecover =>
      rw [hlog, hturn]
      rfl

/-- **Terminal challenges and the credentials they reject**: when the loop
returns an error for a challenged response, every applied credential whose
rejection decision carries an invalidation has been invalidated exactly if
every credential with a recover decision shares its slot and generation with
one whose decision was kept. -/
theorem terminal_challenge_invalidates {env : ExecutionEnv ε T} {ctx : ErrorContext}
    {family : ExecutionFamily} {turns : Nat} {body : PreparedBody ε β} {slots : Slots T}
    {driven : Driven ε T} {error : ApiClientError}
    (hrun : driveExecutions env ctx family turns body slots = some driven)
    (herror : driven.result = .error (.challenged error)) :
    ∃ turn preparation response events,
      driven.Challenged env turn preparation response events ∧
      (error = authChallengeRejected ctx ∨
        body.isReplayable = false ∧ error = .httpStatus ctx response.status) ∧
      ((∀ a ∈ preparation.applied,
          carriesInvalidation env.bindings env.requirements response.status a = true →
          SlotEvent.invalidated ⟨a.credentialId, a.generation⟩ ∈ events) ↔
        (∀ a ∈ preparation.applied,
          recovers env.bindings env.requirements response.status a = true →
          ∃ b ∈ preparation.applied, b.credentialId = a.credentialId ∧
            b.generation = a.generation ∧
            Kept env.bindings env.requirements response.status preparation.applied b)) := by
  obtain ⟨s, hreach, hleave⟩ := reaches_of_run hrun
  have hhead : AtHead env body s :=
    hreach.invariant (fun h ht => (atHead_driveTurn ctx family h ht).2.2.2) (.first slots)
  have hturned := turned_driveTurn ctx family hhead
  rw [hleave] at hturned
  obtain ⟨s', preparation, response, plan, application, ha, hc, hkind, hok, rfl⟩ :=
    rejected_of_challenged hturned herror
  obtain ⟨before, hlog, hbefore⟩ := ha.log
  have hdrops := drops_applyAuthRejectionPlan env.bindings env.requirements preparation.applied
    plan.actions application response.status (env.provider s'.events.length)
    (env.others s'.events.length s'.slots)
  have hmem := fun op => Effect.mem_events_iff.trans (mem_ops_iff hc hok op)
  refine ⟨s.turn, preparation, response, _, ⟨ha.prepared, ha.executed,
    ⟨before, DriveState.close_events hlog _ _, hbefore.trans hhead.stages_eq⟩,
    fun id generation hop hholds => ?_⟩, hkind, ?_, ?_⟩
  · exact (hdrops id generation hholds).2 (Effect.mem_events_iff.mp hop)
  · intro hall a hmema hrecovers
    have hop := hall a hmema (carriesInvalidation_of_recovers hrecovers)
    obtain ⟨b, hmemb, hkept, heq⟩ := (hmem _).mp hop
    rw [SlotOp.mk.injEq] at heq
    exact ⟨b, hmemb, heq.1.symm, heq.2.symm, hkept⟩
  · intro hall a hmema hcarries
    refine (hmem _).mpr ?_
    cases hrecovers : recovers env.bindings env.requirements response.status a with
    | false => exact ⟨a, hmema, .inl ⟨hcarries, hrecovers⟩, rfl⟩
    | true =>
        obtain ⟨b, hmemb, hid, hgen, hkept⟩ := hall a hmema hrecovers
        exact ⟨b, hmemb, hkept, by rw [hid, hgen]⟩

/-! ### requests with refreshable tokens -/

/-- A credential of the API. -/
def tokenId (name : String) : CredentialId := ⟨"api", name⟩

/-- It is sent in a header of its name. -/
def tokenRequirement (name : String) : AuthRequirement :=
  ⟨⟨tokenId name⟩, .header name, name, none, ⟨"endpoint"⟩, .unauthorized⟩

/-- And was applied at its first generation. -/
def tokenApplied (name : String) : AuthAppliedCredential :=
  ⟨tokenId name, name, none, some 1, ⟨"endpoint"⟩⟩

/-- A request with one refreshable token for each name; the server rejects it
with 401 every time. -/
def tokenEnv (names : List String) : ExecutionEnv String Nat where
  requirements := names.map tokenRequirement
  bindings id := some ⟨id, true⟩
  resolvePublicRequestHead _ := .ok ()
  fromAuthPlan := .ok ()
  applyAuthPreflight _ := .ok ()
  preflightUrl _ := .ok ()
  tryAuthState := .ok ()
  prepareAuth _ := .ok ⟨names.map tokenApplied, .never⟩
  finish _ := .ok ()
  acquire _ := .ok ()
  preSend _ := .ok ()
  execute _ := .ok ⟨401, none⟩
  observe _ := .ok ()
  provider _ _ := .ok ()
  others _ slots := slots

/-- Every slot holds a token of generation 1. -/
def tokenSlots : Slots Nat := fun _ => ⟨true, none, ⟨.valid 0 1, 1⟩⟩

/-- The endpoint named in errors. -/
def tokenContext : ErrorContext := ⟨"Upload", .post⟩

/-- A body that can be produced once. -/
def uploadBody : PreparedBody String Unit := ⟨.oneShotByteStream (some ()), none⟩

/-- One refreshable token and a body that cannot be sent again. -/
theorem terminal_challenge_invalidates_token :
    ∃ driven, driveExecutions (tokenEnv ["primary"]) tokenContext (.buffered false none) 2
        uploadBody tokenSlots = some driven ∧
      driven.result = .error (.challenged (.httpStatus tokenContext 401)) ∧
      ∃ turn preparation response events,
        driven.Challenged (tokenEnv ["primary"]) turn preparation response events ∧
        ∀ a ∈ preparation.applied,
          carriesInvalidation (tokenEnv ["primary"]).bindings (tokenEnv ["primary"]).requirements
            response.status a = true →
          SlotEvent.invalidated ⟨a.credentialId, a.generation⟩ ∈ events := by
  have hrun : ∃ driven, driveExecutions (tokenEnv ["primary"]) tokenContext (.buffered false none)
      2 uploadBody tokenSlots = some driven ∧
      driven.result = .error (.challenged (.httpStatus tokenContext 401)) := ⟨_, rfl, rfl⟩
  obtain ⟨driven, hrun, herror⟩ := hrun
  obtain ⟨turn, preparation, response, events, hchallenged, _, hiff⟩ :=
    terminal_challenge_invalidates hrun herror
  refine ⟨driven, hrun, herror, turn, preparation, response, events, hchallenged,
    hiff.mpr (fun a ha hrecovers => ⟨a, ha, rfl, rfl, .inr ?_⟩)⟩
  -- The only applied credential is the first one with a recover decision.
  have happlied : preparation = ⟨[tokenApplied "primary"], .never⟩ :=
    (Except.ok.inj hchallenged.prepared).symm
  rw [happlied] at ha ⊢
  rw [List.mem_singleton.mp ha] at hrecovers ⊢
  simp only [List.find?_cons, hrecovers]

/-- Of two refreshable tokens that a server rejects, the second stays in its
slot. -/
theorem second_token_survives_terminal_challenge :
    ∃ driven, driveExecutions (tokenEnv ["primary", "secondary"]) tokenContext
        (.buffered false none) 2 uploadBody tokenSlots = some driven ∧
      driven.result = .error (.challenged (.httpStatus tokenContext 401)) ∧
      (tokenEnv ["primary", "secondary"]).prepareAuth 0 =
        .ok ⟨[tokenApplied "primary", tokenApplied "secondary"], .never⟩ ∧
      carriesInvalidation (tokenEnv ["primary", "secondary"]).bindings
        (tokenEnv ["primary", "secondary"]).requirements 401 (tokenApplied "secondary") = true ∧
      ExecutionEvent.slot (.invalidated ⟨tokenId "primary", some 1⟩) ∈ driven.events ∧
      ExecutionEvent.slot (.invalidated ⟨tokenId "secondary", some 1⟩) ∉ driven.events ∧
      driven.slots.Holds (tokenId "secondary") 1 := by
  refine ⟨_, rfl, rfl, rfl, ?_, ?_, ?_, ⟨0, 1⟩, ?_, rfl⟩
  · decide
  · decide
  · decide
  · rfl

end Concord
