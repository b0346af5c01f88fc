import Concord.Client.Call
import Concord.Lib.Results

/-!
# Concord.Client.CallOutcome

What a call comes to.  The families of executions run the same loop and differ in
what they make of the announced length of the body (`driveExecutions_family`), so
that a call that is streamed and one that is buffered send the same requests.
-/

namespace Concord

open Checked Polled

variable {ε β δ T V : Type*}

/-! ## families -/

/-- The limit that the announced length of a body is compared to. -/
def ExecutionFamily.limit : ExecutionFamily → Option Nat
  | .buffered skipBody responseLimit => if skipBody then none else responseLimit
  | .stream responseLimit => responseLimit

/-- A response is an error by its status first, and then by the length it announces. -/
theorem classifyResponse_eq (family : ExecutionFamily) (ctx : ErrorContext) (response : Response) :
    classifyResponse family ctx response =
      if ¬ response.status.isSuccess then .error (.httpStatus ctx response.status)
      else limitResponseBody response family.limit ctx := by
  cases family with
  | buffered skipBody responseLimit => rfl
  | stream responseLimit => rfl

/-- A run whose response is compared to a limit. -/
def Driven.limited (ctx : ErrorContext) (limit : Option Nat) (driven : Driven ε T) : Driven ε T :=
  { driven with
    result := driven.result.bind fun response =>
      (limitResponseBody response limit ctx).mapError .raised }

/-- A loop that ended in an error is left as it is. -/
theorem Driven.limited_of_error {driven : Driven ε T} {error : ExecuteError ε}
    (h : driven.result = .error error) (ctx : ErrorContext) (limit : Option Nat) :
    driven.limited ctx limit = driven := by
  obtain ⟨result, slots, events⟩ := driven
  cases h
  rfl

section turn

variable (env : ExecutionEnv ε T) (ctx : ErrorContext) (authRebuildable : Bool)
  (family : ExecutionFamily) (s : DriveState ε β T)

/-- A buffered call takes a response as a streamed one does, with the limit checked after it. -/
theorem handleResponse_family (applied : List AuthAppliedCredential) (response : Response) :
    handleResponse env ctx authRebuildable family s applied response =
      (handleResponse env ctx authRebuildable (.stream none) s applied response).map id
        (Driven.limited ctx family.limit) := by
  unfold handleResponse
  cases classifyAuthRejection env.bindings env.requirements applied response.status with
  | error source => rfl
  | ok classification =>
      cases classification with
      | none =>
          simp only [classifyResponse_eq]
          cases response.status.isSuccess with
          | false => rfl
          | true =>
              have hplain : limitResponseBody response (ExecutionFamily.stream none).limit ctx =
                  .ok response := rfl
              simp only [hplain, not_true_eq_false, if_false, Sum.map_inr, Driven.limited, Except.bind]
              cases limitResponseBody response family.limit ctx with
              | error error => rfl
              | ok response' => rfl
      | some plan =>
          simp only
          split
          · split
            · split <;> rfl
            · split
              · rfl
              · split <;> rfl
          · split <;> rfl

/-- The same of one execution. -/
theorem visibleExecution_family (preparation : AuthPreparation) :
    visibleExecution env ctx authRebuildable family s preparation =
      (visibleExecution env ctx authRebuildable (.stream none) s preparation).map id
        (Driven.limited ctx family.limit) := by
  simp only [visibleExecution]
  cases s.body.produceForExecution.2 with
  | error error => rfl
  | ok produced =>
      cases env.finish s.turn with
      | error error => rfl
      | ok _ =>
          cases h : (sendAndObserveOnce env s.turn).2 with
          | error error => rfl
          | ok response =>
              simp only
              exact handleResponse_family env ctx authRebuildable family _ _ _

/-- A recovery that leaves the loop has failed. -/
theorem resumeRecovery_fails {driven : Driven ε T}
    (h : resumeRecovery env ctx authRebuildable s = .inr driven) :
    ∃ error, driven.result = .error error := by
  unfold resumeRecovery at h
  split at h
  · contradiction
  · split at h
    · cases h
      exact ⟨_, rfl⟩
    · contradiction
    · cases h
      exact ⟨_, rfl⟩

/-- The same of one turn of the loop. -/
theorem driveTurn_family :
    driveTurn env ctx authRebuildable family s =
      (driveTurn env ctx authRebuildable (.stream none) s).map id
        (Driven.limited ctx family.limit) := by
  unfold driveTurn
  cases preflight env ctx s with
  | error error => rfl
  | ok _ =>
      simp only
      cases h : resumeRecovery env ctx authRebuildable
          { s with authPlacementPlan := true, authStateSnapshot := true } with
      | inr driven =>
          obtain ⟨error, herror⟩ := resumeRecovery_fails env ctx authRebuildable _ h
          simp [Driven.limited_of_error herror]
      | inl s' =>
          simp only
          obtain ⟨s'', attempt, hattempt⟩ : ∃ s'' attempt, authAttempt env s' = (s'', attempt) :=
            ⟨_, _, rfl⟩
          rw [hattempt]
          cases attempt with
          | error error => rfl
          | ok preparation =>
              exact visibleExecution_family env ctx authRebuildable family s'' preparation

end turn

/-- All families run the same loop. -/
theorem driveExecutions_family (env : ExecutionEnv ε T) (ctx : ErrorContext)
    (family : ExecutionFamily) (turns : Nat) (body : PreparedBody ε β) (slots : Slots T) :
    driveExecutions env ctx family turns body slots =
      (driveExecutions env ctx (.stream none) turns body slots).map
        (Driven.limited ctx family.limit) :=
  Loop.run_map (driveTurn_family env ctx body.isReplayable family) turns _

/-! ## the response of a run -/

/-- A response is returned only if its status is a success. -/
theorem ok_of_handleResponse {env : ExecutionEnv ε T} {ctx : ErrorContext} {authRebuildable : Bool}
    {s : DriveState ε β T} {applied : List AuthAppliedCredential} {response returned : Response}
    {driven : Driven ε T}
    (h : handleResponse env ctx authRebuildable (.stream none) s applied response = .inr driven)
    (hok : driven.result = .ok returned) :
    returned = response ∧ response.status.isSuccess = true := by
  unfold handleResponse at h
  split at h
  · cases h
    contradiction
  · simp only at h
    split at h
    · split at h
      · split at h
        · cases h
          contradiction
        · cases h
          contradiction
      · split at h
        · contradiction
        · split at h
          · cases h
            contradiction
          · cases h
            contradiction
    · split at h
      · cases h
        contradiction
      · cases h
        contradiction
      · cases h
        contradiction
  · split at h
    · cases h
      contradiction
    · next response' hclassify =>
        cases h
        cases hok
        rw [classifyResponse_eq] at hclassify
        split at hclassify
        · contradiction
        · next hsuccess =>
            have hplain : limitResponseBody response (ExecutionFamily.stream none).limit ctx =
                  .ok response := rfl
            rw [hplain] at hclassify
            cases hclassify
            exact ⟨rfl, by simpa using hsuccess⟩

/-- So the loop returns what its last execution received, and that is a success. -/
theorem ok_of_driveTurn {env : ExecutionEnv ε T} {ctx : ErrorContext} {authRebuildable : Bool}
    {s : DriveState ε β T} {response : Response} {driven : Driven ε T}
    (h : driveTurn env ctx authRebuildable (.stream none) s = .inr driven)
    (hok : driven.result = .ok response) :
    (sendAndObserveOnce env s.turn).2 = .ok response ∧ response.status.isSuccess = true := by
  unfold driveTurn at h
  split at h
  · cases h
    contradiction
  · split at h
    · next hresume =>
        cases h
        obtain ⟨error, herror⟩ := resumeRecovery_fails env ctx authRebuildable _ hresume
        rw [hok] at herror
        contradiction
    · next s' hresume =>
        have hresumed := unsent_resumeRecovery env ctx authRebuildable
          { s with authPlacementPlan := true, authStateSnapshot := true }
        rw [hresume] at hresumed
        have hturn : s'.turn = s.turn := hresumed.1
        have hprepared := (sendEvents_authAttempt env s').1
        split at h
        · cases h
          contradiction
        · next s'' preparation hattempt =>
            rw [hattempt] at hprepared
            have hturn' : s''.turn = s.turn := hprepared.trans hturn
            simp only [visibleExecution] at h
            split at h
            · cases h
              contradiction
            · split at h
              · cases h
                contradiction
              · rw [hturn'] at h
                split at h
                · cases h
                  contradiction
                · next observed hobserved =>
                    obtain ⟨rfl, hsuccess⟩ := ok_of_handleResponse h hok
                    exact ⟨hobserved, hsuccess⟩

/-- A success is no rejection of a credential. -/
theorem classifyAuthRejection_of_success {status : StatusCode} (h : status.isSuccess = true)
    (bindings : AuthBindings) (requirements : List AuthRequirement)
    (applied : List AuthAppliedCredential) :
    classifyAuthRejection bindings requirements applied status = .ok none := by
  have hunprotected : ¬ isProtectedAuthRejection requirements status = true := by
    intro hprotected
    obtain ⟨hlow, hhigh⟩ : 200 ≤ status ∧ status < 300 := of_decide_eq_true h
    obtain ⟨hstatus, _⟩ := of_decide_eq_true hprotected
    rcases hstatus with rfl | rfl
    · exact absurd hhigh (by decide)
    · exact absurd hhigh (by decide)
  rw [classifyAuthRejection, if_pos hunprotected]

/-- The response that an execution gives is the one the transport answered. -/
theorem executed_of_sendAndObserveOnce {env : ExecutionEnv ε T} {turn : Nat} {response : Response}
    (h : (sendAndObserveOnce env turn).2 = .ok response) : env.execute turn = .ok response := by
  unfold sendAndObserveOnce at h
  split at h
  · contradiction
  · split at h
    · contradiction
    · split at h
      · contradiction
      · next hexecute =>
          split at h
          · contradiction
          · rw [hexecute, ← h]

/-- A success is no rejection, and the turn returns it. -/
theorem handleResponse_of_success (env : ExecutionEnv ε T) (ctx : ErrorContext)
    (authRebuildable : Bool) (s : DriveState ε β T) (applied : List AuthAppliedCredential)
    {response : Response} (h : response.status.isSuccess = true) :
    handleResponse env ctx authRebuildable (.stream none) s applied response =
      .inr ⟨.ok response, s.slots, s.events⟩ := by
  have hplain : limitResponseBody response (ExecutionFamily.stream none).limit ctx =
      .ok response := rfl
  have hclassify : classifyResponse (.stream none) ctx response = .ok response := by
    rw [classifyResponse_eq, if_neg (by simp [h]), hplain]
  simp only [handleResponse, classifyAuthRejection_of_success h, hclassify]

/-- A turn that leaves the loop after it has sent, and to a success, returns
that. -/
theorem result_of_driveTurn {env : ExecutionEnv ε T} {ctx : ErrorContext}
    {authRebuildable : Bool} {s : DriveState ε β T} {response : Response} {driven : Driven ε T}
    (h : driveTurn env ctx authRebuildable (.stream none) s = .inr driven)
    (hsent : sendEvents driven.events ≠ sendEvents s.events)
    (hresponse : (sendAndObserveOnce env s.turn).2 = .ok response)
    (hsuccess : response.status.isSuccess = true) : driven.result = .ok response := by
  unfold driveTurn at h
  have hresumed := unsent_resumeRecovery env ctx authRebuildable
    { s with authPlacementPlan := true, authStateSnapshot := true }
  split at h
  · cases h
    exact absurd rfl hsent
  · split at h
    · next hresume =>
        cases h
        rw [hresume] at hresumed
        exact absurd hresumed hsent
    · next s' hresume =>
        rw [hresume] at hresumed
        obtain ⟨hturn, hevents⟩ := hresumed
        obtain ⟨hturn', hevents'⟩ := sendEvents_authAttempt env s'
        split at h
        · next s'' error hattempt =>
            cases h
            rw [hattempt] at hevents'
            exact absurd (hevents'.trans hevents) hsent
        · next s'' preparation hattempt =>
            rw [hattempt] at hturn' hevents'
            have hsame : sendEvents s''.events = sendEvents s.events := hevents'.trans hevents
            have hat : s''.turn = s.turn := hturn'.trans hturn
            have hproduced : sendEvents (s''.events ++ [.produceBody]) = sendEvents s.events := by
              rw [← hsame]
              simp [sendEvents, ExecutionEvent.isSend]
            simp only [visibleExecution, hat, hresponse, handleResponse_of_success _ _ _ _ _ hsuccess]
              at h
            split at h
            · cases h
              exact absurd hproduced hsent
            · split at h
              · cases h
                exact absurd hproduced hsent
              · cases h
                rfl

/-- Taking the stages of a run keeps its requests. -/
theorem sends_stages (events : List ExecutionEvent) : sends (stages events) = sends events := by
  unfold sends stages
  rw [List.countP_filter]
  refine List.countP_congr fun event _ => ?_
  cases event <;> simp [ExecutionEvent.isStage]

/-- A response that a run returns is that of its last execution, a success. -/
theorem received_of_ok {env : ExecutionEnv ε T} {ctx : ErrorContext} {body : PreparedBody ε β}
    {slots : Slots T} {driven : Driven ε T} {response : Response}
    (h : driveExecutions env ctx (.stream none) 2 body slots = some driven)
    (hok : driven.result = .ok response) :
    sends driven.events = driven.last + 1 ∧ driven.last ≤ 1 ∧
      (sendAndObserveOnce env driven.last).2 = .ok response ∧
      response.status.isSuccess = true := by
  obtain ⟨s, hreach, hleave⟩ := Loop.reaches_of_run h
  have hhead := hreach.invariant (I := AtHead env body)
    (fun hhead hturn => (atHead_driveTurn ctx (.stream none) hhead hturn).2.2.2) (.first slots)
  have hturned := turned_driveTurn ctx (.stream none) hhead
  rw [hleave] at hturned
  have hstages := (stages_of_turned hturned).2 response hok
  obtain ⟨hresponse, hsuccess⟩ := ok_of_driveTurn hleave hok
  have hsends : sends driven.events = s.turn + 1 ∧ s.turn ≤ 1 := by
    rw [← sends_stages, hstages]
    cases hhead with
    | first slots => simp [DriveState.start, stages, sends, execution]
    | second hturn hbudget hpending hintent hlog hrecover =>
        rw [hlog, hturn]
        simp [sends, execution]
  have hlast : driven.last = s.turn := by
    unfold Driven.last
    omega
  rw [hlast]
  exact ⟨hsends.1, hsends.2, hresponse, hsuccess⟩

/-- The events of sending keep the requests. -/
theorem sends_sendEvents (events : List ExecutionEvent) :
    sends (sendEvents events) = sends events := by
  unfold sends sendEvents
  rw [List.countP_filter]
  refine List.countP_congr fun event _ => ?_
  cases event <;> simp [ExecutionEvent.isSend]

/-- A success that the last execution of a run gave is what the run returns. -/
theorem ok_of_received {env : ExecutionEnv ε T} {ctx : ErrorContext} {body : PreparedBody ε β}
    {slots : Slots T} {driven : Driven ε T} {response : Response}
    (h : driveExecutions env ctx (.stream none) 2 body slots = some driven)
    (hsent : sends driven.events = driven.last + 1)
    (hresponse : (sendAndObserveOnce env driven.last).2 = .ok response)
    (hsuccess : response.status.isSuccess = true) : driven.result = .ok response := by
  obtain ⟨s, hreach, hleave⟩ := Loop.reaches_of_run h
  have hhead := hreach.invariant (I := AtHead env body)
    (fun hhead hturn => (atHead_driveTurn ctx (.stream none) hhead hturn).2.2.2) (.first slots)
  have hturned := turned_driveTurn ctx (.stream none) hhead
  rw [hleave] at hturned
  have hmost : sends driven.events ≤ sends s.events + 1 := by
    have hprefix := (stages_of_turned hturned).1.sublist.countP_le (p := (· = .send))
    rw [List.countP_append] at hprefix
    have hstages : sends (stages driven.events) ≤ sends (stages s.events) + 1 := hprefix
    rwa [sends_stages, sends_stages] at hstages
  -- The run leaves at a turn that sent, or at the second after the first was rejected.
  have hsends : sends s.events = s.turn := by
    rw [← sends_stages]
    cases hhead with
    | first slots => rfl
    | second hturn hbudget hpending hintent hlog hrecover =>
        rw [hlog, hturn]
        rfl
  by_cases hturn : driven.last = s.turn
  · rw [hturn] at hresponse
    refine result_of_driveTurn hleave (fun hsame => ?_) hresponse hsuccess
    have hcount := congrArg sends hsame
    rw [sends_sendEvents, sends_sendEvents] at hcount
    omega
  · cases hhead with
    | first slots =>
        have hzero : sends (DriveState.start body slots : DriveState ε β T).events = 0 := rfl
        have hstart : (DriveState.start body slots : DriveState ε β T).turn = 0 := rfl
        omega
    | second hone hbudget hpending hintent hlog hrecover =>
        obtain ⟨preparation, rejected, plan, _, hexecuted, hclassify, _⟩ := hrecover.challenged
        have hlast : driven.last = 0 := by omega
        rw [hlast] at hresponse
        have hsame : response = rejected := by
          have hfirst := executed_of_sendAndObserveOnce hresponse
          rw [hexecuted, Except.ok.injEq] at hfirst
          exact hfirst.symm
        rw [← hsame, classifyAuthRejection_of_success hsuccess] at hclassify
        cases hclassify

/-! ## bodies -/

/-- The data of a body that comes to a clean end. -/
def wholeBody : List (Answer δ Frame) → Option (List UInt8)
  | [] => none
  | .pending :: answers => wholeBody answers
  | .ready none :: _ => some []
  | .ready (some (.error _)) :: _ => none
  | .ready (some (.ok frame)) :: answers => (wholeBody answers).map (frame.bytes ++ ·)

/-- A count that a limit lets through; no count goes beyond `u64::MAX`. -/
def WithinLimit (limit : Option UInt64) (count : Nat) : Prop :=
  ∀ bound, limit = some bound → bound = maxU64 ∨ count ≤ bound.toNat

/-- A counter that stays at `u64::MAX` goes beyond a limit when the count does. -/
theorem withinLimit_saturated {limit : Option UInt64} {count : Nat} (more : Nat) :
    WithinLimit limit (min count u64Max + more) ↔ WithinLimit limit (count + more) := by
  have hone : ∀ bound : UInt64, (bound = maxU64 ∨ min count u64Max + more ≤ bound.toNat) ↔
      (bound = maxU64 ∨ count + more ≤ bound.toNat) := by
    intro bound
    by_cases hmax : bound = maxU64
    · simp [hmax]
    · have hlt := toNat_lt_of_ne hmax
      simp only [hmax, false_or]
      omega
  unfold WithinLimit
  simp only [hone]

/-- A stream passes data on as long as it stays within the limit. -/
theorem pollFrame_data_of_within {limit : Option UInt64} {seen : UInt64} {data : Bytes}
    (h : WithinLimit limit (seen.toNat + data.len)) (errorMapper : δ → BodyError) :
    BoundedResponseStream.pollFrame ⟨limit, seen, false, errorMapper⟩
        (.ready (some (.ok (.data data)))) =
      (⟨limit, .ofNat (min (seen.toNat + data.len) u64Max), false, errorMapper⟩,
        .ready (some (.ok (.data data)))) := by
  cases limit with
  | none => simp [BoundedResponseStream.pollFrame, Frame.dataRef, saturatingAdd_len]
  | some bound =>
      have hle : min (seen.toNat + data.len) u64Max ≤ bound.toNat := by
        rcases h bound rfl with rfl | hle
        · rw [toNat_maxU64]
          exact Nat.min_le_right _ _
        · omega
      rw [BoundedResponseStream.pollFrame_data, if_pos hle]

/-- A frame beyond the limit gives an error. -/
theorem pollFrame_data_of_beyond {limit : Option UInt64} {seen : UInt64} {data : Bytes}
    (h : ¬ WithinLimit limit (seen.toNat + data.len)) (errorMapper : δ → BodyError) :
    ∃ error, (BoundedResponseStream.pollFrame ⟨limit, seen, false, errorMapper⟩
      (.ready (some (.ok (.data data))))).2 = .ready (some (.error error)) := by
  cases limit with
  | none => exact absurd (fun bound hbound => by contradiction) h
  | some bound =>
      have hbeyond : ¬ min (seen.toNat + data.len) u64Max ≤ bound.toNat := by
        intro hle
        refine h ((withinLimit_saturated 0).mp fun other hother => ?_)
        cases hother
        exact .inr hle
      rw [BoundedResponseStream.pollFrame_data, if_neg hbeyond]
      exact ⟨_, rfl⟩

/-- What goes beyond the limit does so for good. -/
theorem not_withinLimit_more {limit : Option UInt64} {count : Nat} (h : ¬ WithinLimit limit count)
    (more : Nat) : ¬ WithinLimit limit (count + more) := by
  intro hmore
  refine h fun bound hbound => ?_
  rcases hmore bound hbound with hmax | hle
  · exact .inl hmax
  · exact .inr (by omega)

/-- What is collected under a limit is the whole body, within the limit, after a clean end. -/
theorem collectBytes_bounded {limit : Option UInt64} {seen : UInt64}
    (hseen : WithinLimit limit seen.toNat) (errorMapper : δ → BodyError)
    (answers : List (Answer δ Frame)) (collected result : List UInt8) :
    collectBytes collected (run BoundedResponseStream.pollFrame
        ⟨limit, seen, false, errorMapper⟩ answers) = some (.ok result) ↔
      ∃ bytes, wholeBody answers = some bytes ∧ WithinLimit limit (seen.toNat + bytes.length) ∧
        result = collected ++ bytes := by
  induction answers generalizing seen collected with
  | nil => simp [run, collectBytes, wholeBody]
  | cons answer answers ih =>
      rcases answer with _ | (_ | (error | (data | trailers)))
      · simpa [run, BoundedResponseStream.pollFrame, collectBytes, wholeBody] using
          ih hseen collected
      · simp [run, BoundedResponseStream.pollFrame, collectBytes, wholeBody, hseen, eq_comm]
      · simp [run, BoundedResponseStream.pollFrame, collectBytes, wholeBody]
      · have hlength : ∀ bytes : List UInt8, seen.toNat + (data.data ++ bytes).length =
            seen.toNat + data.len + bytes.length := by
          intro bytes
          rw [List.length_append, Bytes.len, Nat.add_assoc]
        by_cases hwithin : WithinLimit limit (seen.toNat + data.len)
        · have hcount : (UInt64.ofNat (min (seen.toNat + data.len) u64Max)).toNat =
              min (seen.toNat + data.len) u64Max :=
            toNat_ofNat_of_le (Nat.min_le_right _ _)
          have hseen' : WithinLimit limit
              (UInt64.ofNat (min (seen.toNat + data.len) u64Max)).toNat := by
            rw [hcount]
            exact (withinLimit_saturated 0).mpr hwithin
          have hrest := ih hseen' (collected ++ data.data)
          simp only [hcount, withinLimit_saturated] at hrest
          simp only [run, pollFrame_data_of_within hwithin, collectBytes, Frame.bytes, hrest,
            wholeBody, Option.map_eq_some_iff]
          constructor
          · rintro ⟨bytes, hwhole, hle, rfl⟩
            exact ⟨data.data ++ bytes, ⟨bytes, hwhole, rfl⟩, by rwa [hlength], by simp⟩
          · rintro ⟨_, ⟨bytes, hwhole, rfl⟩, hle, rfl⟩
            exact ⟨bytes, hwhole, by rwa [← hlength], by simp⟩
        · have hbeyond : ∀ bytes : List UInt8, ¬ WithinLimit limit
              (seen.toNat + (data.data ++ bytes).length) := by
            intro bytes
            rw [hlength]
            exact not_withinLimit_more hwithin bytes.length
          obtain ⟨error, herror⟩ := pollFrame_data_of_beyond hwithin errorMapper
          simp only [run, herror, collectBytes, Option.some.injEq, reduceCtorEq, false_iff,
            wholeBody, Option.map_eq_some_iff]
          rintro ⟨_, ⟨bytes, _, rfl⟩, hle, _⟩
          exact hbeyond bytes hle
      · simpa [run, BoundedResponseStream.pollFrame, collectBytes, wholeBody, Frame.dataRef,
          Frame.bytes] using ih hseen collected

/-- A body is buffered exactly if it ends cleanly within the limit. -/
theorem bufferResponse_eq_ok_iff (ctx : ErrorContext) (limit : Option UInt64)
    (errorMapper : δ → BodyError) (native : List (Answer δ Frame)) (bytes : List UInt8) :
    bufferResponse ctx (run BoundedResponseStream.pollFrame (.new limit errorMapper) native) =
        some (.ok bytes) ↔ wholeBody native = some bytes ∧ WithinLimit limit bytes.length := by
  have hzero : WithinLimit limit (0 : UInt64).toNat := fun bound _ => .inr (Nat.zero_le _)
  have hbounded := collectBytes_bounded hzero errorMapper native [] bytes
  have hnew : BoundedResponseStream.new limit errorMapper = ⟨limit, 0, false, errorMapper⟩ := rfl
  rw [bufferResponse_eq, hnew]
  constructor
  · intro h
    have hcollect : collectBytes [] (run BoundedResponseStream.pollFrame
        ⟨limit, 0, false, errorMapper⟩ native) = some (.ok bytes) := by
      revert h
      cases collectBytes [] (run BoundedResponseStream.pollFrame
          ⟨limit, 0, false, errorMapper⟩ native) with
      | none => simp [sanitized]
      | some result => cases result <;> simp [sanitized]
    obtain ⟨whole, hwhole, hle, rfl⟩ := hbounded.mp hcollect
    rw [UInt64.toNat_zero, Nat.zero_add] at hle
    exact ⟨hwhole, hle⟩
  · rintro ⟨hwhole, hle⟩
    have hcollect := hbounded.mpr ⟨bytes, hwhole, by simpa using hle, rfl⟩
    rw [hcollect, sanitized]

/-! ## what a call returns -/

/-- The announced length of a body, if there is one, is within the limit. -/
def Response.AnnouncedWithin (response : Response) (limit : Option UInt64) : Prop :=
  ∀ bound length, limit = some bound → response.contentLength = some length →
    length ≤ bound.toNat

/-- A response passes the limit check exactly if it announces no more than the limit. -/
theorem limitResponseBody_eq_ok_iff (ctx : ErrorContext) (limit : Option UInt64)
    (response returned : Response) :
    limitResponseBody response (limit.map UInt64.toNat) ctx = .ok returned ↔
      returned = response ∧ response.AnnouncedWithin limit := by
  cases limit with
  | none => simp [limitResponseBody, Response.AnnouncedWithin, eq_comm]
  | some bound =>
      cases hlength : response.contentLength with
      | none => simp [limitResponseBody, Response.AnnouncedWithin, hlength, eq_comm]
      | some length =>
          by_cases hbeyond : bound.toNat < length
          · simp [limitResponseBody, Response.AnnouncedWithin, hlength, hbeyond]
          · have hle : length ≤ bound.toNat := by omega
            simp [limitResponseBody, Response.AnnouncedWithin, hlength, hbeyond, hle, eq_comm]

/-- What a buffered call receives of a response: nothing if the body is skipped, or the whole
body, which is within the limit. -/
def Caller.Receives (client : Caller ε δ T) (skipBody : Bool) (response : Response)
    (exchange : Exchange δ) (bytes : List UInt8) : Prop :=
  if skipBody then bytes = []
  else response.AnnouncedWithin client.maxResponseBodyBytes ∧
    wholeBody exchange.native = some bytes ∧
    WithinLimit client.maxResponseBodyBytes bytes.length

/-- The response may have a body, or the call wants none. -/
def AllowsContent (codec : ResponseCodec V) (plan : FullRequestPlan ε β)
    (status : StatusCode) : Prop :=
  plan.endpoint.response.noContent = true ∨ codec.isNoContent = true ∨
    plan.endpoint.method ≠ .head ∧ status ≠ .noContent ∧ status ≠ .resetContent

/-- A response is decoded exactly if its content is allowed and the codec takes it. -/
theorem decodePlannedResponse_eq_ok_iff (codec : ResponseCodec V) (plan : FullRequestPlan ε β)
    (response : BuiltResponse) (decoded : DecodedResponse V) :
    (decodePlannedResponse codec plan response : Except (CallError ε) _) = .ok decoded ↔
      AllowsContent codec plan response.status ∧ decoded.status = response.status ∧
        decoded.contentType = response.contentType ∧
        codec.decode response.bytes ⟨plan.endpoint.name, plan.endpoint.method, response.status,
          response.contentType.bind HeaderValue.toStr⟩ = some decoded.value := by
  have hcontent : AllowsContent codec plan response.status ↔
      ¬ (plan.endpoint.method = .head ∧
        ¬ (plan.endpoint.response.noContent || codec.isNoContent) = true) ∧
      ¬ (response.status ∈ [StatusCode.noContent, StatusCode.resetContent] ∧
        ¬ (plan.endpoint.response.noContent || codec.isNoContent) = true) := by
    unfold AllowsContent
    simp only [Bool.or_eq_true, List.mem_cons, List.not_mem_nil, or_false]
    tauto
  rw [hcontent]
  unfold decodePlannedResponse
  have hctx : plan.endpoint.errorContext = ⟨plan.endpoint.name, plan.endpoint.method⟩ := rfl
  simp only [hctx]
  split
  · next hhead =>
      exact iff_of_false (fun h => by contradiction) fun h => h.1.1 hhead
  · next hhead =>
      split
      · next hstatus =>
          exact iff_of_false (fun h => by contradiction) fun h => h.1.2 hstatus
      · next hstatus =>
          split
          · next hnone =>
              refine iff_of_false (fun h => by contradiction) fun h => ?_
              rw [h.2.2.2] at hnone
              contradiction
          · next value hvalue =>
              obtain ⟨status, contentType, value'⟩ := decoded
              simp only [Except.ok.injEq, DecodedResponse.mk.injEq, hvalue, Option.some.injEq,
                hhead, hstatus, not_false_eq_true, and_self, true_and]
              exact ⟨fun ⟨h, h', h''⟩ => ⟨h.symm, h'.symm, h''⟩,
                fun ⟨h, h', h''⟩ => ⟨h.symm, h'.symm, h''⟩⟩

/-- The loop of a call, and what its family makes of it. -/
theorem Caller.drive_eq (client : Caller ε δ T) (plan : FullRequestPlan ε β) (slots : Slots T) :
    ∃ driven, client.drive plan (.stream none) slots = some driven ∧
      ∀ family, client.drive plan family slots =
        some (driven.limited plan.endpoint.errorContext family.limit) := by
  obtain ⟨driven, hdriven⟩ := driveExecutions_isSome
    (client.env plan.endpoint plan.overrides).execution plan.endpoint.errorContext (.stream none)
    plan.body slots
  refine ⟨driven, hdriven, fun family => ?_⟩
  unfold Caller.drive
  rw [driveExecutions_family, hdriven]
  rfl

/-- The limit does not change which exchange is the last. -/
theorem Caller.exchange_limited (client : Caller ε δ T) (plan : FullRequestPlan ε β)
    (driven : Driven ε T) (ctx : ErrorContext) (limit : Option Nat) :
    client.exchange plan (driven.limited ctx limit) = client.exchange plan driven := rfl

/-- A limited loop returns what the loop returns and the limit allows. -/
theorem Driven.limited_eq_ok_iff {driven : Driven ε T} {ctx : ErrorContext} {limit : Option UInt64}
    {response : Response} :
    (driven.limited ctx (limit.map UInt64.toNat)).result = .ok response ↔
      driven.result = .ok response ∧ response.AnnouncedWithin limit := by
  refine Results.bind_eq_ok_iff.trans ?_
  simp only [Results.mapError_eq_ok_iff, limitResponseBody_eq_ok_iff]
  constructor
  · rintro ⟨received, hreceived, rfl, hwithin⟩
    exact ⟨hreceived, hwithin⟩
  · rintro ⟨hreceived, hwithin⟩
    exact ⟨response, hreceived, rfl, hwithin⟩

/-- What it takes to receive a body, said with the limit of the call. -/
theorem Caller.receives_iff (client : Caller ε δ T) (ctx : ErrorContext) (skipBody : Bool)
    (response : Response) (exchange : Exchange δ) (bytes : List UInt8) :
    client.Receives skipBody response exchange bytes ↔
      response.AnnouncedWithin (if skipBody then none else client.maxResponseBodyBytes) ∧
        client.buffer ctx skipBody exchange = some (.ok bytes) := by
  cases skipBody with
  | true => simp [Caller.Receives, Caller.buffer, Response.AnnouncedWithin, eq_comm]
  | false => simp [Caller.Receives, Caller.buffer, bufferResponse_eq_ok_iff]

/-- What a buffered call returns, given what the loop came to. -/
structure Buffers (client : Caller ε δ T) (plan : FullRequestPlan ε β) (skipBody : Bool)
    (driven : Driven ε T) (called : CallRun ε T BuiltResponse) : Prop where
  slots : called.slots = driven.slots
  events : called.events = driven.events
  failed : ∀ error, driven.result = .error error → called.outcome = some (.error (.execute error))
  built : ∀ built, called.outcome = some (.ok built) ↔ ∃ response, driven.result = .ok response ∧
    client.Receives skipBody response (client.exchange plan driven) built.bytes ∧
    built.status = response.status ∧
    built.contentType = (client.exchange plan driven).contentType

/-- A buffered call ends with the body of the response its loop returned. -/
theorem buffers_executeBuffered {client : Caller ε δ T} {plan : FullRequestPlan ε β}
    {slots : Slots T} {driven : Driven ε T} (skipBody : Bool)
    (hdriven : ∀ family, client.drive plan family slots =
      some (driven.limited plan.endpoint.errorContext family.limit)) :
    ∃ called, client.executeBuffered plan skipBody slots = some called ∧
      Buffers client plan skipBody driven called := by
  have hlimit : (ExecutionFamily.buffered skipBody
      (client.maxResponseBodyBytes.map UInt64.toNat)).limit =
        (if skipBody then none else client.maxResponseBodyBytes).map UInt64.toNat := by
    cases skipBody with
    | true => rfl
    | false => rfl
  simp only [Caller.executeBuffered, hdriven, Option.map_some, hlimit]
  refine ⟨_, rfl, rfl, rfl, ?_, ?_⟩
  · intro error herror
    rw [Driven.limited_of_error herror, herror]
  · intro built
    simp only [client.receives_iff plan.endpoint.errorContext]
    cases hresult : (driven.limited plan.endpoint.errorContext
        ((if skipBody then none else client.maxResponseBodyBytes).map UInt64.toNat)).result with
    | error error =>
        refine iff_of_false (by simp) ?_
        rintro ⟨response, hresponse, ⟨hwithin, _⟩, _⟩
        rw [Driven.limited_eq_ok_iff.mpr ⟨hresponse, hwithin⟩] at hresult
        contradiction
    | ok response =>
        obtain ⟨hresponse, hwithin⟩ := Driven.limited_eq_ok_iff.mp hresult
        simp only [Caller.exchange_limited, hresponse, Except.ok.injEq, Option.map_eq_some_iff]
        constructor
        · rintro ⟨buffered, hbuffered, hbuilt⟩
          cases buffered with
          | error error => contradiction
          | ok bytes =>
              cases hbuilt
              exact ⟨response, rfl, ⟨hwithin, hbuffered⟩, rfl, rfl⟩
        · rintro ⟨_, rfl, ⟨_, hbuffered⟩, hstatus, hcontentType⟩
          obtain ⟨status, contentType, bytes⟩ := built
          cases hstatus
          cases hcontentType
          exact ⟨_, hbuffered, rfl⟩

/-- And a typed call with that body decoded. -/
theorem Caller.decodes_executePlan (client : Caller ε δ T) (codec : ResponseCodec V)
    {plan : FullRequestPlan ε β} {slots : Slots T} {buffered : CallRun ε T BuiltResponse}
    (h : client.executeBuffered plan.canonical plan.endpoint.response.noContent slots =
      some buffered) :
    ∃ called, client.executePlan codec plan slots = some called ∧
      called.slots = buffered.slots ∧ called.events = buffered.events ∧
      ∀ decoded, called.outcome = some (.ok decoded) ↔ ∃ built,
        buffered.outcome = some (.ok built) ∧
          (decodePlannedResponse codec plan.canonical built : Except (CallError ε) _) =
            .ok decoded := by
  have hplan : plan.canonical.endpoint.response.noContent =
      plan.endpoint.response.noContent := rfl
  simp only [Caller.executePlan, hplan, h, Option.map_some]
  refine ⟨_, rfl, rfl, rfl, fun decoded => ?_⟩
  simp only [Option.map_eq_some_iff]
  constructor
  · rintro ⟨outcome, houtcome, hdecoded⟩
    cases outcome with
    | error error => contradiction
    | ok built => exact ⟨built, houtcome, hdecoded⟩
  · rintro ⟨built, houtcome, hdecoded⟩
    exact ⟨.ok built, houtcome, hdecoded⟩

/-- **A call returns a value exactly when it has received one response in full.**
Two turns of the execution loop are enough; the response is that of the last
execution that was sent, and it is returned just if it is a success; its announced length and all of its body are within the
limit and the body came to a clean end, unless it is skipped; it may have a body,
or none is wanted; and the value is what the codec makes of just these bytes. -/
theorem call_value_iff (client : Caller ε δ T) (codec : ResponseCodec V)
    (plan : FullRequestPlan ε β) (slots : Slots T) :
    ∃ called driven, client.executePlan codec plan slots = some called ∧
      client.drive plan.canonical (.stream none) slots = some driven ∧
      called.slots = driven.slots ∧ called.events = driven.events ∧
      (∀ response, driven.result = .ok response →
        sends driven.events = driven.last + 1 ∧ driven.last ≤ 1 ∧
        (sendAndObserveOnce (client.env plan.canonical.endpoint plan.overrides).execution
          driven.last).2 = .ok response ∧ response.status.isSuccess = true) ∧
      (∀ response, sends driven.events = driven.last + 1 →
        (sendAndObserveOnce (client.env plan.canonical.endpoint plan.overrides).execution
          driven.last).2 = .ok response → response.status.isSuccess = true →
        driven.result = .ok response) ∧
      ∀ decoded, called.outcome = some (.ok decoded) ↔
        ∃ response bytes, driven.result = .ok response ∧
          client.Receives plan.endpoint.response.noContent response
            (client.exchange plan.canonical driven) bytes ∧
          AllowsContent codec plan response.status ∧ decoded.status = response.status ∧
          decoded.contentType = (client.exchange plan.canonical driven).contentType ∧
          codec.decode bytes ⟨plan.endpoint.name, plan.endpoint.method, response.status,
            decoded.contentType.bind HeaderValue.toStr⟩ = some decoded.value := by
  obtain ⟨driven, hdriven, hfamilies⟩ := client.drive_eq plan.canonical slots
  obtain ⟨buffered, hbuffered, hbuffers⟩ :=
    buffers_executeBuffered plan.endpoint.response.noContent hfamilies
  obtain ⟨called, hcalled, hslots, hevents, hdecodes⟩ := client.decodes_executePlan codec hbuffered
  refine ⟨called, driven, hcalled, hdriven, hslots.trans hbuffers.slots,
    hevents.trans hbuffers.events, fun response => received_of_ok hdriven,
    fun response => ok_of_received hdriven, fun decoded => ?_⟩
  simp only [hdecodes, hbuffers.built, decodePlannedResponse_eq_ok_iff]
  constructor
  · rintro ⟨built, ⟨response, hresponse, hreceives, hstatus, hcontentType⟩, hallows, hsame,
      htype, hdecode⟩
    refine ⟨response, built.bytes, hresponse, hreceives, ?_, hsame.trans hstatus,
      htype.trans hcontentType, ?_⟩
    · rwa [hstatus] at hallows
    · rwa [hstatus, ← htype] at hdecode
  · rintro ⟨response, bytes, hresponse, hreceives, hallows, hstatus, hcontentType, hdecode⟩
    rw [hcontentType] at hdecode
    exact ⟨⟨response.status, (client.exchange plan.canonical driven).contentType, bytes⟩,
      ⟨response, hresponse, hreceives, rfl, rfl⟩, hallows, hstatus, hcontentType, hdecode⟩

/-! ## calls that are streamed -/

/-- The client, whose buffered calls have the limit of those that are streamed. -/
def Caller.withStreamLimit (client : Caller ε δ T) : Caller ε δ T :=
  { client with maxResponseBodyBytes := client.maxStreamResponseBodyBytes }

/-- The body that a buffered call returns, or its error. -/
def CallRun.bytes (called : CallRun ε T BuiltResponse) : Option (Except (CallError ε) (List UInt8)) :=
  called.outcome.map (·.map BuiltResponse.bytes)

/-- However a response is read, its user concludes that its body is `whole`, at the latest with one
more full reading; only a user of whom a write lost a chunk may come to no conclusion. -/
def StreamResponse.TellsWhole (response : StreamResponse δ)
    (whole : Option (Except (CallError ε) (List UInt8))) : Prop :=
  ∀ calls, ∃ next results,
    Transition.exec StreamResponse.step response calls = some (next, results) ∧
    (∀ outcome, concluded (some []) results = some outcome →
      whole = some (outcome.mapError CallError.body)) ∧
    ((∀ call ∈ calls, call.WritesThrough) → ∀ result ∈ results, result.lost = []) ∧
    ∀ patience file, next.native.length ≤ patience → file.create = .done →
      (∀ k, file.write k = .done) → file.flush ≠ .dropped → ∃ last result,
        next.step (.writeToFile patience file) = some (last, result) ∧
        ((∀ result ∈ results, result.lost = []) →
          (concluded (some []) (results ++ [result])).map (·.mapError CallError.body) = whole)

/-- A call that is streamed, against one that is buffered: both fail with one error, or the media
type is not the expected one, or reading the stream tells what is buffered. -/
inductive StreamedAs (media : MediaType) (ctx : ErrorContext) (exchange : Exchange δ)
    (streamed : CallRun ε T (StreamResponse δ)) (raw : CallRun ε T BuiltResponse) : Prop
  | failed (error : ExecuteError ε) (hstreamed : streamed.outcome = some (.error (.execute error)))
      (hraw : raw.outcome = some (.error (.execute error)))
  | mismatched (hmedia : headerMatchesMediaType exchange.contentType media.contentType = false)
      (hstreamed : streamed.outcome = some (.error (mediaTypeMismatch ctx)))
      (hraw : ∀ error, raw.outcome ≠ some (.error (.execute error)))
  | opened (response : StreamResponse δ)
      (hmedia : headerMatchesMediaType exchange.contentType media.contentType = true)
      (hstreamed : streamed.outcome = some (.ok response))
      (htells : response.TellsWhole raw.bytes)

/-- Buffering tells the whole body or that it failed. -/
theorem tellsWhole_of_buffered {ctx : ErrorContext} {limit : Option UInt64}
    {errorMapper : δ → BodyError} {native : List (Answer δ Frame)}
    {whole : Option (Except (CallError ε) (List UInt8))}
    (h : whole = (bufferResponse ctx
      (run BoundedResponseStream.pollFrame (.new limit errorMapper) native)).map
        (·.mapError CallError.body)) :
    (StreamResponse.mk ctx (.new limit errorMapper) native).TellsWhole whole := by
  intro calls
  have hopen : (BoundedResponseStream.new limit errorMapper).terminal = false := rfl
  obtain ⟨next, results, hexec, hctx, hreads⟩ :=
    exec_reads ⟨ctx, .new limit errorMapper, native⟩ calls []
  rw [bufferResponse_eq, ← BoundedResponseStream.holds_of_open hopen] at h
  refine ⟨next, results, hexec, fun outcome houtcome => ?_,
    fun hwrites => lost_of_exec hwrites hexec,
    fun patience file hpatience hcreate hwrite hflush => ?_⟩
  · have hwhole := hreads.concludes (some []) (fun _ hbytes => (Option.some.inj hbytes).symm)
      outcome houtcome
    rw [hctx] at hwhole
    rw [h, hwhole, Option.map_some]
  · obtain ⟨last, result, hstep, hconcluded⟩ :=
      concluded_of_patient hreads hpatience hcreate hwrite hflush
    rw [hctx] at hconcluded
    exact ⟨last, result, hstep, fun hlost => by rw [hconcluded hlost, h]⟩

/-- A raw call whose run returned a response. -/
theorem raw_of_ok {client : Caller ε δ T} {plan : FullRequestPlan ε β} {slots : Slots T}
    {driven : Driven ε T} {response : Response}
    (hdrive : client.drive plan.canonical (.buffered false
      (client.maxResponseBodyBytes.map UInt64.toNat)) slots = some driven)
    (hresult : driven.result = .ok response) :
    ∃ raw, client.executePlanRaw plan false slots = some raw ∧ raw.slots = driven.slots ∧
      raw.events = driven.events ∧
      raw.bytes = (bufferResponse plan.canonical.endpoint.errorContext
        (run BoundedResponseStream.pollFrame (.new client.maxResponseBodyBytes client.errorMapper)
          (client.exchange plan.canonical driven).native)).map (·.mapError CallError.body) ∧
      ∀ error, raw.outcome ≠ some (.error (.execute error)) := by
  simp only [Caller.executePlanRaw, Caller.executeBuffered, hdrive, Option.map_some]
  refine ⟨_, rfl, rfl, rfl, ?_⟩
  simp only [CallRun.bytes, Caller.buffer, hresult, Bool.false_eq_true, if_false]
  cases bufferResponse plan.canonical.endpoint.errorContext
      (run BoundedResponseStream.pollFrame (.new client.maxResponseBodyBytes client.errorMapper)
        (client.exchange plan.canonical driven).native) with
  | none => simp
  | some buffered =>
      cases buffered with
      | error error => simp [Except.map, Except.mapError]
      | ok bytes => simp [Except.map, Except.mapError]

/-- The plan of a streamed call names the endpoint of the plan it is made from. -/
theorem errorContext_forStream {plan sent : FullRequestPlan ε β} {media : MediaType}
    (h : plan.forStream media = .ok sent) :
    sent.canonical.endpoint.errorContext = plan.endpoint.errorContext := by
  unfold FullRequestPlan.forStream at h
  simp only at h
  split at h
  · contradiction
  · split at h
    · contradiction
    · split at h
      · contradiction
      · cases h
        rfl

end Concord
