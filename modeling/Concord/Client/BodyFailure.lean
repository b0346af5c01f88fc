import Concord.Client.SendFlow

/-!
# Concord.Client.BodyFailure

What becomes of the error of a request body: which errors an observed body
records, and how a request that failed with one is reported.

An observed body records what fails below the limit.  The limit itself is
above it, so that its error is known from the chain of the transport's error
alone, and an explicit proxy takes that chain away.
-/

namespace Concord

open Checked Polled

variable {β : Type*}

/-! ## what is recorded -/

/-- The slot after an answer. -/
def RequestBodyErrorSlot.see (slot : RequestBodyErrorSlot) : Answer BodyError Frame →
    RequestBodyErrorSlot
  | .ready (some (.error error)) => slot.record error
  | _ => slot

/-- A frame leaves the slot as it is. -/
theorem see_of_goesOn (slot : RequestBodyErrorSlot) {answer : Answer BodyError Frame}
    (h : answer.goesOn = true) : slot.see answer = slot := by
  match answer, h with
  | .pending, _ | .ready (some (.ok _)), _ => rfl

/-- So do frames. -/
theorem foldl_see_of_goesOn (slot : RequestBodyErrorSlot) {answers : List (Answer BodyError Frame)}
    (h : ∀ answer ∈ answers, answer.goesOn = true) :
    answers.foldl RequestBodyErrorSlot.see slot = slot := by
  induction answers with
  | nil => rfl
  | cons answer answers ih =>
      obtain ⟨hfirst, hrest⟩ := List.forall_mem_cons.mp h
      rw [List.foldl_cons, see_of_goesOn slot hfirst]
      exact ih hrest

/-- The slot sees what the body answers. -/
theorem ObservedRequestBody.pollFrame_errors (this : ObservedRequestBody)
    (answer : Answer NativeError Frame) :
    (this.pollFrame answer).1.errors = this.errors.see (pollInner this.inner answer).2 := by
  obtain ⟨inner, answered, hpoll⟩ : ∃ inner answered, pollInner this.inner answer =
      (inner, answered) := ⟨_, _, rfl⟩
  match answered with
  | .pending | .ready none | .ready (some (.ok _)) | .ready (some (.error _)) =>
      simp [ObservedRequestBody.pollFrame, hpoll, RequestBodyErrorSlot.see]

/-- An observed body has recorded what the body in it answered. -/
theorem ObservedRequestBody.errors_after (this : ObservedRequestBody)
    (answers : List (Answer NativeError Frame)) :
    (after ObservedRequestBody.pollFrame this answers).errors =
      (run pollInner this.inner answers).foldl RequestBodyErrorSlot.see this.errors := by
  induction answers generalizing this with
  | nil => rfl
  | cons answer answers ih =>
      have hinner := (this.pollFrame_eq answer).2
      rw [after, ih, this.pollFrame_errors, hinner]
      rfl

/-- Without a limit only the observed body moves. -/
theorem NativeLayers.after_unlimited (observed : Option ObservedRequestBody)
    (answers : List (Answer NativeError Frame)) :
    after NativeLayers.pollFrame ⟨none, observed⟩ answers =
      ⟨none, after pollObserved observed answers⟩ := by
  induction answers generalizing observed with
  | nil => rfl
  | cons answer answers ih => simp [after, NativeLayers.pollFrame, ih]

/-- With one both do. -/
theorem NativeLayers.after_limited (state : LimitedBody × Option ObservedRequestBody)
    (answers : List (Answer NativeError Frame)) :
    after NativeLayers.pollFrame ⟨some state.1, state.2⟩ answers =
      ⟨some (after (layered LimitedBody.terminal (LimitedBody.pollFrame fromNative) pollObserved)
          state answers).1,
        (after (layered LimitedBody.terminal (LimitedBody.pollFrame fromNative) pollObserved)
          state answers).2⟩ := by
  induction answers generalizing state with
  | nil => rfl
  | cons answer answers ih => simp [after, NativeLayers.pollFrame, ih]

/-- An observed body stays observed. -/
theorem NativeLayers.after_observed (body : ObservedRequestBody)
    (answers : List (Answer NativeError Frame)) :
    after pollObserved (some body) answers =
      some (after ObservedRequestBody.pollFrame body answers) := by
  induction answers generalizing body with
  | nil => rfl
  | cons answer answers ih => simp [after, pollObserved, ih]

/-! ## up to the first error -/

/-- Below the limit the counted body stays open. -/
theorem LimitedBody.terminal_after {ε : Type*} (fromProducer : ε → BodyError) {limit : UInt64}
    {answers : List (Answer ε Frame)} (hgoes : ∀ answer ∈ answers, answer.goesOn = true)
    (hle : total Frame.len answers ≤ limit.toNat) :
    (after (LimitedBody.pollFrame fromProducer) (.new limit) answers).terminal = false := by
  have hplace := (LimitedBody.at_after fromProducer limit answers).place
  have hzero : 0 + total (limitGate limit fromProducer).size answers ≤
      (limitGate limit fromProducer).bound := by
    rw [Nat.zero_add]
    exact hle
  have hopen := (Gate.run_passed hgoes hzero).2
  rw [hplace.terminal_eq, Gate.init, hopen]

/-- One more answer of the body inside. -/
theorem run_pollInner_append (inner : Option ExactLengthBody)
    (before : List (Answer NativeError Frame)) (last : Answer NativeError Frame) :
    run ObservedRequestBody.pollInner inner (before ++ [last]) =
      run ObservedRequestBody.pollInner inner before ++
        [(ObservedRequestBody.pollInner (after ObservedRequestBody.pollInner inner before) last).2] :=
  run_append _ _ _ _

/-- Wrapped frames are frames. -/
theorem goesOn_wrapBody {answers : List (Answer BodyError Frame)}
    (h : ∀ answer ∈ answers, answer.goesOn = true) :
    ∀ answer ∈ answers.map wrapBody, answer.goesOn = true := by
  intro answer hmem
  obtain ⟨inner, hinner, rfl⟩ := List.mem_map.mp hmem
  rw [wrapBody, Answer.goesOn_mapError]
  exact h inner hinner

/-- If what is inside went on, within the limit, the last poll reached it. -/
theorem NativeLayers.errors_after {limit : Option UInt64} {inner : Option ExactLengthBody}
    {before : List (Answer NativeError Frame)} (last : Answer NativeError Frame)
    (hgoes : ∀ answer ∈ run ObservedRequestBody.pollInner inner before, answer.goesOn = true)
    (hle : ∀ bound ∈ limit,
      total Frame.len (run ObservedRequestBody.pollInner inner before) ≤ bound.toNat) :
    (after NativeLayers.pollFrame ⟨limit.map .new, some ⟨inner, none⟩⟩ (before ++ [last])).errors =
      RequestBodyErrorSlot.see none
        (ObservedRequestBody.pollInner (after ObservedRequestBody.pollInner inner before) last).2 := by
  have hobserved : (after ObservedRequestBody.pollFrame ⟨inner, none⟩ (before ++ [last])).errors =
      RequestBodyErrorSlot.see none
        (ObservedRequestBody.pollInner (after ObservedRequestBody.pollInner inner before) last).2 := by
    rw [ObservedRequestBody.errors_after, run_pollInner_append, List.foldl_append,
      foldl_see_of_goesOn none hgoes]
    rfl
  cases limit with
  | none =>
      rw [Option.map_none, after_unlimited, after_observed]
      exact hobserved
  | some bound =>
      have hopen : ∀ asked, asked <+: before →
          (after (LimitedBody.pollFrame fromNative) (.new bound)
            (run pollObserved (some ⟨inner, none⟩) asked)).terminal = false := by
        rintro asked ⟨rest, rfl⟩
        rw [run_append] at hgoes hle
        have htotal := hle bound rfl
        rw [total_append] at htotal
        rw [run_observed]
        apply LimitedBody.terminal_after fromNative
        · exact goesOn_wrapBody fun answer hmem => hgoes answer (List.mem_append_left _ hmem)
        · have hwrap : total Frame.len
              ((run ObservedRequestBody.pollInner inner asked).map wrapBody) =
              total Frame.len (run ObservedRequestBody.pollInner inner asked) :=
            total_mapError _ _ _
          exact Nat.le_trans (Nat.le_of_eq hwrap) (Nat.le_trans (Nat.le_add_right _ _) htotal)
      have hafter := after_layered (LimitedBody.pollFrame fromNative) pollObserved
        (LimitedBody.new bound, some ⟨inner, none⟩) before last hopen
      rw [Option.map_some, after_limited (.new bound, some ⟨inner, none⟩), hafter, after_observed]
      exact hobserved

/-! ## reports -/

/-- What a request is reported to fail with whose body failed. -/
def bodyFailure (ctx : ErrorContext) (error : BodyError) : SendError :=
  if error.kind = .limitExceeded then
    .requestBodyLimitExceeded ctx ⟨error.limit.getD 0, error.observed.getD 0⟩
  else .requestBody ctx error.kind

/-- What it is reported to fail with if nothing is known but what the transport
says. -/
def transportFailure (ctx : ErrorContext) (failure : NativeFailure) : SendError :=
  match classifyReqwestError failure with
  | .timeout => .timeout ctx
  | .connect => .connect ctx
  | _ => .requestExecution ctx

section reports

variable (ctx : ErrorContext) (failure : NativeFailure)

/-- Sanitizing leaves the body's error in the chain. -/
theorem firstBody_sanitize (sources : NativeError) :
    firstBody (sanitizeErrorChain [] sources) = firstBody sources := by
  induction sources with
  | nil => rfl
  | cons link sources ih =>
      cases link with
      | body error => rfl
      | stream kind => exact ih
      | other => exact ih

/-- Without a proxy the chain of the transport's error tells the body's. -/
theorem terminalError_kept {error : BodyError} (h : firstBody failure.sources = some error) :
    terminalError ctx [] none failure = bodyFailure ctx error := by
  have hbody : (ReqwestError.fromReqwest failure []).bodyError = some error := by
    rw [ReqwestError.bodyError, ReqwestError.fromReqwest, firstBody_sanitize]
    exact h
  simp only [terminalError, hbody, SendError.ofReqwest, bodyFailure]

/-- Behind a proxy it does not. -/
theorem terminalError_proxied (proxy : SafeProxy) (proxies : List SafeProxy) :
    terminalError ctx (proxy :: proxies) none failure = transportFailure ctx failure := by
  have hbody : (ReqwestError.fromReqwest failure (proxy :: proxies)).bodyError = none := rfl
  simp only [terminalError, hbody, SendError.ofReqwest, transportFailure]
  rfl

end reports

/-- The poll at which a body first fails, and its error. -/
def ReqwestBody.FailsAt (polls : Nat) (error : BodyError) : ReqwestBody → Prop
  | .streaming _ layers answers => ∃ passed,
      layers.answers (answers.take polls) = passed ++ [.ready (some (.error error))] ∧
        ∀ answer ∈ passed, answer.goesOn = true
  | _ => False

/-- A body that is not collected has a first error. -/
theorem exists_of_collectBytes_error {answers : List (Answer BodyError Frame)}
    {collected : List UInt8} {error : BodyError}
    (h : collectBytes collected answers = some (.error error)) :
    ∃ passed rest, answers = passed ++ .ready (some (.error error)) :: rest ∧
      ∀ answer ∈ passed, answer.goesOn = true := by
  induction answers generalizing collected with
  | nil => cases h
  | cons answer answers ih =>
      match answer with
      | .ready none => cases h
      | .ready (some (.error _)) =>
          cases h
          exact ⟨[], answers, rfl, by simp⟩
      | .pending =>
          obtain ⟨passed, rest, rfl, hgoes⟩ := ih h
          exact ⟨.pending :: passed, rest, rfl, List.forall_mem_cons.mpr ⟨rfl, hgoes⟩⟩
      | .ready (some (.ok frame)) =>
          obtain ⟨passed, rest, rfl, hgoes⟩ := ih h
          exact ⟨.ready (some (.ok frame)) :: passed, rest, rfl,
            List.forall_mem_cons.mpr ⟨rfl, hgoes⟩⟩

/-- The answer of a stream at which a gate, if there is one, fails. -/
def GateFails (gate : Option (Gate NativeError BodyError Frame))
    (before : List (Answer NativeError Frame)) (last : Answer NativeError Frame)
    (error : BodyError) : Prop :=
  match gate with
  | none => last.mapError fromNative = .ready (some (.error error))
  | some gate => total gate.size before ≤ gate.bound ∧
      gate.stop (total gate.size before) last = some (.ready (some (.error error)))

/-- An error of a gated stream comes from one of its answers, before which all
went on. -/
theorem exists_of_gated_error {gate : Option (Gate NativeError BodyError Frame)}
    {answers : List (Answer NativeError Frame)} {passed rest : List (Answer BodyError Frame)}
    {error : BodyError} (h : gated gate answers = passed ++ .ready (some (.error error)) :: rest)
    (hgoes : ∀ answer ∈ passed, answer.goesOn = true) :
    ∃ before last later, answers = before ++ last :: later ∧ before.length = passed.length ∧
      (∀ answer ∈ before, answer.goesOn = true) ∧ GateFails gate before last error := by
  cases gate with
  | none =>
      obtain ⟨before, tail, rfl, hbefore, htail⟩ := List.map_eq_append_iff.mp h
      obtain ⟨last, later, rfl, hlast, _⟩ := List.map_eq_cons_iff.mp htail
      refine ⟨before, last, later, rfl, ?_, ?_, hlast⟩
      · rw [← hbefore, List.length_map]
      · intro answer hmem
        have hmapped := hgoes (answer.mapError fromNative) (hbefore ▸ List.mem_map_of_mem hmem)
        rwa [Answer.goesOn_mapError] at hmapped
  | some gate =>
      simp only [gated] at h
      obtain ⟨hall, hle⟩ | ⟨before, last, stopped, later, rfl, hbefore, hle, hstop⟩ :=
        gate.passes_or_stops answers
      · have hzero : 0 + total gate.size answers ≤ gate.bound := by omega
        rw [Gate.init, (Gate.run_passed hall hzero).1] at h
        have herror := Gate.goesOn_pass hall (.ready (some (.error error)))
          (h ▸ List.mem_append_right _ List.mem_cons_self)
        cases herror
      · rw [Gate.run_shut hbefore hle hstop] at h
        obtain ⟨hpassed, hstopped, _⟩ := first_stop_unique (Gate.goesOn_pass hbefore) hgoes
          (Gate.goesOn_of_stop hstop) rfl h
        refine ⟨before, last, later, rfl, ?_, hbefore, hle, hstopped ▸ hstop⟩
        rw [← hpassed, List.length_map]

/-- The layers answer one part after the other. -/
theorem NativeLayers.answers_append (this : NativeLayers)
    (first second : List (Answer NativeError Frame)) :
    this.answers (first ++ second) = this.answers first ++
      (after NativeLayers.pollFrame this first).answers second := by
  simp only [NativeLayers.answers, run_append, List.map_append]

/-- As often as they are asked. -/
theorem NativeLayers.length_answers (this : NativeLayers)
    (answers : List (Answer NativeError Frame)) :
    (this.answers answers).length = answers.length := by
  rw [NativeLayers.answers, List.length_map, length_run]

/-- Mapped frames are frames. -/
theorem goesOn_mapError_fromNative {answers : List (Answer NativeError Frame)}
    (h : ∀ answer ∈ answers, answer.goesOn = true) :
    ∀ answer ∈ answers.map (Answer.mapError fromNative), answer.goesOn = true := by
  intro answer hmem
  obtain ⟨inner, hinner, rfl⟩ := List.mem_map.mp hmem
  rw [Answer.goesOn_mapError]
  exact h inner hinner

/-- An undeclared body records the error of its stream, but not that of the
limit above it. -/
theorem errors_undeclared (limit : Option UInt64) {before : List (Answer NativeError Frame)}
    {last : Answer NativeError Frame} {error : BodyError}
    (hgoes : ∀ answer ∈ before, answer.goesOn = true)
    (hfails : GateFails (requestGate none limit) before last error) :
    (after NativeLayers.pollFrame ⟨limit.map .new, (observeNativeRequestBody none).observed⟩
        (before ++ [last])).errors = if last.goesOn then none else some error := by
  have hpassed : ∀ answer ∈ run ObservedRequestBody.pollInner none before, answer.goesOn = true := by
    rw [ObservedRequestBody.run_undeclared]
    exact goesOn_mapError_fromNative hgoes
  have hle : ∀ bound ∈ limit,
      total Frame.len (run ObservedRequestBody.pollInner none before) ≤ bound.toNat := by
    rintro bound ⟨⟩
    rw [ObservedRequestBody.run_undeclared, total_mapError]
    exact hfails.1
  have herrors := NativeLayers.errors_after last hpassed hle
  have hinner : (ObservedRequestBody.pollInner
      (after ObservedRequestBody.pollInner none before) last).2 = last.mapError fromNative := by
    have hrun := run_pollInner_append none before last
    rw [ObservedRequestBody.run_undeclared, ObservedRequestBody.run_undeclared, List.map_append,
      List.append_cancel_left_eq, List.map_singleton, List.cons.injEq] at hrun
    exact hrun.1.symm
  have hobserved : (observeNativeRequestBody none).observed = some ⟨none, none⟩ := rfl
  rw [hobserved, herrors, hinner]
  match last with
  | .pending | .ready (some (.ok _)) => rfl
  | .ready none =>
      cases limit with
      | none => cases hfails
      | some bound => cases hfails.2
  | .ready (some (.error native)) =>
      have herror : fromNative native = error := by
        cases limit with
        | none =>
            simp only [GateFails, requestGate, Answer.mapError_error, Poll.ready.injEq,
              Option.some.injEq, Except.error.injEq] at hfails
            exact hfails
        | some bound =>
            have hstop := hfails.2
            simp only [limitGate, Gate.stop, Option.some.injEq, Poll.ready.injEq,
              Except.error.injEq] at hstop
            exact hstop
      simp [RequestBodyErrorSlot.see, RequestBodyErrorSlot.record, herror, Answer.goesOn]

/-- A body with a declared length records whatever it fails with. -/
theorem errors_declared {limit : Option UInt64} {expected : UInt64}
    {before : List (Answer NativeError Frame)} {last : Answer NativeError Frame}
    {error : BodyError} (hcount : Countable expected Frame.len (before ++ [last]))
    (hfits : ∀ bound ∈ limit, expected.toNat ≤ bound.toNat)
    (hgoes : ∀ answer ∈ before, answer.goesOn = true)
    (hfails : GateFails (requestGate (some expected) limit) before last error) :
    (after NativeLayers.pollFrame
        ⟨limit.map .new, (observeNativeRequestBody (some expected)).observed⟩
        (before ++ [last])).errors = some error := by
  obtain ⟨hle, hstop⟩ := hfails
  have hzero : 0 + total Frame.len before ≤ expected.toNat := by
    rw [Nat.zero_add]
    exact hle
  have hrun : run ObservedRequestBody.pollInner (some (.new expected)) (before ++ [last]) =
      before.map Answer.pass ++ [.ready (some (.error error))] := by
    rw [ObservedRequestBody.run_declared, ExactLengthBody.run_eq hcount,
      Gate.run_shut hgoes hle hstop]
    rfl
  rw [run_pollInner_append] at hrun
  obtain ⟨hbefore, hlast⟩ := List.append_inj' hrun rfl
  have hpassed : ∀ answer ∈ run ObservedRequestBody.pollInner (some (.new expected)) before,
      answer.goesOn = true := by
    rw [hbefore]
    exact Gate.goesOn_pass hgoes
  have hwithin : ∀ bound ∈ limit,
      total Frame.len (run ObservedRequestBody.pollInner (some (.new expected)) before) ≤
        bound.toNat := by
    intro bound hbound
    have hbound := hfits bound hbound
    rw [hbefore, total_pass]
    omega
  have herrors := NativeLayers.errors_after last hpassed hwithin
  have hanswer := (List.cons.inj hlast).1
  have hobserved : (observeNativeRequestBody (some expected)).observed =
      some ⟨some (.new expected), none⟩ := rfl
  rw [hobserved, herrors, hanswer]
  rfl

/-- A form records nothing. -/
theorem errors_form (limit : Option UInt64) (answers : List (Answer NativeError Frame)) :
    (after NativeLayers.pollFrame ⟨limit.map .new, none⟩ answers).errors = none := by
  have hnone : (after NativeLayers.pollFrame ⟨limit.map .new, none⟩ answers).observed = none := by
    refine after_invariant (I := fun layers : NativeLayers => layers.observed = none) ?_ rfl answers
    rintro ⟨limited, observed⟩ answer (rfl : observed = none)
    cases limited with
    | none => rfl
    | some limited =>
        cases hterminal : limited.terminal with
        | true => simp [NativeLayers.pollFrame, layered, hterminal]
        | false => simp [NativeLayers.pollFrame, layered, hterminal, NativeLayers.pollObserved]
  rw [NativeLayers.errors, hnone]
  rfl

/-- Nobody recorded the error with which a body failed at this answer of its
stream: it is a form, or the limit failed. -/
def TerminalBody.unrecorded (body : TerminalBody β) (exactLength : Option UInt64)
    (last : Answer NativeError Frame) : Bool :=
  match body with
  | .multipartRecipe _ => true
  | _ => exactLength.isNone && last.goesOn

section failure

variable {source : BodySource β} {body : TerminalBody β} {exactLength limit : Option UInt64}

/-- What a body has recorded when it fails. -/
theorem errors_prepared {before : List (Answer NativeError Frame)}
    {last : Answer NativeError Frame} {error : BodyError}
    (hcount : ∀ expected ∈ body.declared exactLength,
      Countable expected Frame.len (before ++ [last]))
    (hfits : ∀ expected ∈ body.declared exactLength, ∀ bound ∈ limit,
      expected.toNat ≤ bound.toNat)
    (hgoes : ∀ answer ∈ before, answer.goesOn = true)
    (hfails : GateFails (requestGate (body.declared exactLength) limit) before last error) :
    (after NativeLayers.pollFrame ⟨limit.map .new, body.observed exactLength⟩
        (before ++ [last])).errors =
      if body.unrecorded exactLength last then none else some error := by
  cases body with
  | multipartRecipe recipe => exact errors_form limit _
  | empty | reusableBytes _ | oneShotByteStream _ | oneShotHttpBody _ =>
      cases exactLength with
      | none =>
          exact errors_undeclared limit hgoes hfails
      | some expected =>
          exact errors_declared (hcount expected rfl) (hfits expected rfl) hgoes hfails

end failure

/-- Three bytes, and the end. -/
def threeBytes : List (Answer BodyError Frame) :=
  [.ready (some (.ok (.data ⟨[1, 2, 3], by decide⟩))), .ready none]

/-- What the transport says when a body failed: a request error, with that of the body among its
sources or without. -/
def failedRequest (sources : NativeError) : NativeFailure := ⟨false, false, true, sources⟩

end Concord
