import Concord.Body.Native

/-!
# Concord.Body.Wire

What the transport reads of a request body: the layers over a streaming body
against a single gate, and the whole way of a body from its producer to the
transport.

A declared length is within the limit by the time anything is read, so the
limit adds nothing to it; without one the limit is the only gate there is.
-/

namespace Concord

open Checked Polled

variable {ε β : Type*}

/-! ## layers as gates -/

/-- The gate on a body: the declared length, or the limit. -/
def requestGate (declared limit : Option UInt64) : Option (Gate NativeError BodyError Frame) :=
  match declared, limit with
  | some expected, _ => some (lengthGate expected fromNative)
  | none, some limit => some (limitGate limit fromNative)
  | none, none => none

/-- A stream behind a gate, if there is one. -/
def gated (gate : Option (Gate NativeError BodyError Frame)) (answers : List (Answer NativeError Frame)) :
    List (Answer BodyError Frame) :=
  match gate with
  | none => answers.map (Answer.mapError fromNative)
  | some gate => run gate.poll Gate.init answers

/-- A limiter that has stopped is shut. -/
theorem LimitedBody.shuts (fromProducer : ε → BodyError) :
    Shuts LimitedBody.terminal (LimitedBody.pollFrame fromProducer) := by
  intro body answer hterminal
  simp [LimitedBody.pollFrame, hterminal]

/-- To observe a body changes nothing of it. -/
theorem ObservedRequestBody.pollFrame_eq (this : ObservedRequestBody)
    (answer : Answer NativeError Frame) :
    (this.pollFrame answer).2 = (pollInner this.inner answer).2 ∧
      (this.pollFrame answer).1.inner = (pollInner this.inner answer).1 := by
  obtain ⟨inner, answered, hpoll⟩ : ∃ inner answered, pollInner this.inner answer =
      (inner, answered) := ⟨_, _, rfl⟩
  match answered with
  | .pending | .ready none | .ready (some (.ok _)) | .ready (some (.error _)) =>
      simp [ObservedRequestBody.pollFrame, hpoll]

/-- The same of a run. -/
theorem ObservedRequestBody.run_eq (this : ObservedRequestBody)
    (answers : List (Answer NativeError Frame)) :
    run ObservedRequestBody.pollFrame this answers = run pollInner this.inner answers := by
  induction answers generalizing this with
  | nil => rfl
  | cons answer answers ih =>
      obtain ⟨hanswer, hinner⟩ := this.pollFrame_eq answer
      have hrest := ih (this.pollFrame answer).1
      simp only [run, hanswer, hrest, hinner]

/-- A body without a declared length passes everything on. -/
theorem ObservedRequestBody.run_undeclared (answers : List (Answer NativeError Frame)) :
    run pollInner none answers = answers.map (Answer.mapError fromNative) := by
  induction answers with
  | nil => rfl
  | cons answer answers ih => simp [run, pollInner, ih]

/-- A body with a declared length is checked against it. -/
theorem ObservedRequestBody.run_declared (body : ExactLengthBody)
    (answers : List (Answer NativeError Frame)) :
    run pollInner (some body) answers = run (ExactLengthBody.pollFrame fromNative) body answers := by
  induction answers generalizing body with
  | nil => rfl
  | cons answer answers ih => simp [run, pollInner, ih]

/-- The layers over an observed body answer what it does. -/
theorem NativeLayers.run_observed (body : ObservedRequestBody)
    (answers : List (Answer NativeError Frame)) :
    run pollObserved (some body) answers =
      (run ObservedRequestBody.pollInner body.inner answers).map wrapBody := by
  have hrun : run pollObserved (some body) answers =
      (run ObservedRequestBody.pollFrame body answers).map wrapBody := by
    induction answers generalizing body with
    | nil => rfl
    | cons answer answers ih => simp [run, pollObserved, ih]
  rw [hrun, ObservedRequestBody.run_eq]

/-- A form is passed on. -/
theorem NativeLayers.run_form (answers : List (Answer NativeError Frame)) :
    run pollObserved none answers = answers := by
  induction answers with
  | nil => rfl
  | cons answer answers ih => simp [run, pollObserved, ih]

/-- Without a limit the layers answer what the body below does. -/
theorem NativeLayers.run_unlimited (observed : Option ObservedRequestBody)
    (answers : List (Answer NativeError Frame)) :
    run NativeLayers.pollFrame ⟨none, observed⟩ answers = run pollObserved observed answers := by
  induction answers generalizing observed with
  | nil => rfl
  | cons answer answers ih => simp [run, NativeLayers.pollFrame, ih]

/-- With a limit they answer what the limiter does. -/
theorem NativeLayers.run_limited (limited : LimitedBody) (observed : Option ObservedRequestBody)
    (answers : List (Answer NativeError Frame)) :
    run NativeLayers.pollFrame ⟨some limited, observed⟩ answers =
      (run (LimitedBody.pollFrame fromNative) limited (run pollObserved observed answers)).map
        wrapBody := by
  have hrun : ∀ state : LimitedBody × Option ObservedRequestBody,
      run NativeLayers.pollFrame ⟨some state.1, state.2⟩ answers =
        (run (layered LimitedBody.terminal (LimitedBody.pollFrame fromNative) pollObserved) state
          answers).map wrapBody := by
    induction answers with
    | nil => intro _; rfl
    | cons answer answers ih => intro state; simp [run, NativeLayers.pollFrame, ih]
  rw [hrun (limited, observed), run_layered (LimitedBody.shuts fromNative)]

/-- What the layers answer, with the errors of bodies taken out of those of
`reqwest`. -/
def NativeLayers.answers (this : NativeLayers) (answers : List (Answer NativeError Frame)) :
    List (Answer BodyError Frame) :=
  (run NativeLayers.pollFrame this answers).map (Answer.mapError fromNative)

/-- An error keeps what it is on its way through the transport. -/
theorem fromNative_wrapBody (answers : List (Answer BodyError Frame)) :
    (answers.map wrapBody).map (Answer.mapError fromNative) = answers := by
  induction answers with
  | nil => rfl
  | cons answer answers ih =>
      have hanswer : (wrapBody answer).mapError fromNative = answer := by
        match answer with
        | .pending | .ready none | .ready (some (.ok _)) | .ready (some (.error _)) => rfl
      simp only [List.map_cons, hanswer, ih]

/-- A limit over a body that already has its errors from `fromNative`. -/
theorem run_limitGate_wrapped (limit : UInt64) (answers : List (Answer NativeError Frame)) :
    run (limitGate limit fromNative).poll Gate.init
        ((answers.map (Answer.mapError fromNative)).map wrapBody) =
      run (limitGate limit fromNative).poll Gate.init answers := by
  have hmap : (answers.map (Answer.mapError fromNative)).map wrapBody =
      answers.map (Answer.mapError fun error => [.body (fromNative error)]) := by
    have hanswer : ∀ answer : Answer NativeError Frame,
        wrapBody (answer.mapError fromNative) =
          answer.mapError fun error => [.body (fromNative error)] :=
      fun answer => Answer.mapError_mapError _ _ answer
    simp [hanswer]
  rw [hmap, Gate.run_mapError]
  rfl

/-- A limit above the declared length stops nothing. -/
theorem limitGate_wider {expected limit : UInt64} (h : expected.toNat ≤ limit.toNat) :
    (limitGate limit fromNative).Wider (lengthGate expected fromNative)
      (fun error => [.body error]) where
  size_eq := rfl
  bound_le := h
  close_eq _ := rfl
  fail_eq _ := rfl

/-- The layers over an observed body are one gate. -/
theorem NativeLayers.answers_observed {declared limit : Option UInt64}
    {answers : List (Answer NativeError Frame)}
    (hcount : ∀ expected ∈ declared, Countable expected Frame.len answers)
    (hfits : ∀ expected ∈ declared, ∀ bound ∈ limit, expected.toNat ≤ bound.toNat) :
    NativeLayers.answers ⟨limit.map .new, (observeNativeRequestBody declared).observed⟩ answers =
      gated (requestGate declared limit) answers := by
  have hinner : run pollObserved (observeNativeRequestBody declared).observed answers =
      (run ObservedRequestBody.pollInner (declared.map .new) answers).map wrapBody :=
    run_observed _ answers
  cases declared with
  | none =>
      simp only [Option.map_none, ObservedRequestBody.run_undeclared] at hinner
      cases limit with
      | none =>
          simp only [NativeLayers.answers, Option.map_none, run_unlimited, hinner,
            fromNative_wrapBody]
          rfl
      | some bound =>
          simp only [NativeLayers.answers, Option.map_some, run_limited, hinner,
            fromNative_wrapBody, LimitedBody.run_eq]
          exact run_limitGate_wrapped bound answers
  | some expected =>
      have hlength := ExactLengthBody.run_eq (hcount expected rfl) fromNative
      simp only [Option.map_some, ObservedRequestBody.run_declared, hlength] at hinner
      cases limit with
      | none =>
          simp only [NativeLayers.answers, Option.map_none, run_unlimited, hinner,
            fromNative_wrapBody]
          rfl
      | some bound =>
          have hwider := limitGate_wider (hfits expected rfl bound rfl)
          simp only [NativeLayers.answers, Option.map_some, run_limited, hinner,
            fromNative_wrapBody, LimitedBody.run_eq]
          exact Gate.run_nested hwider (Nat.zero_le _) answers

/-- The layers over a form are the limit. -/
theorem NativeLayers.answers_form (limit : Option UInt64) (answers : List (Answer NativeError Frame)) :
    NativeLayers.answers ⟨limit.map .new, none⟩ answers = gated (requestGate none limit) answers := by
  cases limit with
  | none =>
      simp only [NativeLayers.answers, Option.map_none, run_unlimited, run_form]
      rfl
  | some bound =>
      simp only [NativeLayers.answers, Option.map_some, run_limited, run_form,
        fromNative_wrapBody, LimitedBody.run_eq]
      rfl

/-! ## whole bodies -/

/-- What a body holds is collected up to its first error or its end. -/
theorem length_le_of_collectBytes {answers : List (Answer BodyError Frame)}
    {collected bytes : List UInt8} (h : collectBytes collected answers = some (.ok bytes)) :
    collected.length ≤ bytes.length := by
  induction answers generalizing collected with
  | nil => cases h
  | cons answer answers ih =>
      match answer with
      | .pending => exact ih h
      | .ready none =>
          cases h
          exact Nat.le_refl _
      | .ready (some (.error _)) => cases h
      | .ready (some (.ok frame)) =>
          have hle := ih h
          rw [List.length_append] at hle
          omega

/-- A gate on a body lets through what fits it. -/
theorem collectBytes_gate (gate : Gate ε BodyError Frame) (hsize : gate.size = Frame.len)
    (into : ε → BodyError) (collected : List UInt8) (hle : collected.length ≤ gate.bound)
    (answers : List (Answer ε Frame)) (bytes : List UInt8) :
    collectBytes collected (run gate.poll ⟨collected.length, false⟩ answers) = some (.ok bytes) ↔
      collectBytes collected (answers.map (Answer.mapError into)) = some (.ok bytes) ∧
        bytes.length ≤ gate.bound ∧ gate.close bytes.length = none := by
  induction answers generalizing collected with
  | nil => simp [run, collectBytes]
  | cons answer answers ih =>
      rcases answer with _ | (_ | (error | frame))
      · exact ih collected hle
      · cases hclose : gate.close collected.length with
        | none =>
            simp only [run, Gate.poll, hclose, collectBytes, List.map_cons,
              Answer.mapError_none, Bool.false_eq_true, if_false, Option.map_none,
              Option.some.injEq, Except.ok.injEq]
            constructor
            · rintro rfl
              exact ⟨rfl, hle, hclose⟩
            · exact fun h => h.1
        | some error =>
            simp only [run, Gate.poll, hclose, collectBytes, List.map_cons,
              Answer.mapError_none, Bool.false_eq_true, if_false, Option.map_some,
              Option.some.injEq, Except.ok.injEq, reduceCtorEq, false_iff, not_and]
            rintro rfl _
            simp [hclose]
      · simp [run, Gate.poll, collectBytes]
      · have hlength : (collected ++ frame.bytes).length = collected.length + gate.size frame := by
          rw [List.length_append, hsize]
          rfl
        by_cases hfits : collected.length + gate.size frame ≤ gate.bound
        · have hle' : (collected ++ frame.bytes).length ≤ gate.bound := by omega
          have hrest := ih _ hle'
          rw [hlength] at hrest
          simp only [run, Gate.poll, hfits, collectBytes, List.map_cons, Answer.mapError_ok,
            Bool.false_eq_true, if_false, if_true]
          exact hrest
        · have hbeyond : ∀ answers : List (Answer BodyError Frame),
              collectBytes (collected ++ frame.bytes) answers = some (.ok bytes) →
              ¬ bytes.length ≤ gate.bound := by
            intro answers hok
            have hlonger := length_le_of_collectBytes hok
            omega
          simp only [run, Gate.poll, hfits, collectBytes, List.map_cons, Answer.mapError_ok,
            Bool.false_eq_true, if_false, Option.some.injEq, reduceCtorEq, false_iff, not_and]
          intro hok hshort
          exact absurd hshort (hbeyond _ hok)

/-- What a gated body holds is what it holds by itself, if that fits. -/
theorem collectBytes_gated (declared limit : Option UInt64)
    (hfits : ∀ expected ∈ declared, ∀ bound ∈ limit, expected.toNat ≤ bound.toNat)
    (answers : List (Answer NativeError Frame)) (bytes : List UInt8) :
    collectBytes [] (gated (requestGate declared limit) answers) = some (.ok bytes) ↔
      collectBytes [] (answers.map (Answer.mapError fromNative)) = some (.ok bytes) ∧
        (∀ expected ∈ declared, bytes.length = expected.toNat) ∧
        ∀ bound ∈ limit, bytes.length ≤ bound.toNat := by
  cases declared with
  | none =>
      cases limit with
      | none => simp [requestGate, gated]
      | some bound =>
          have hgate := collectBytes_gate (limitGate bound fromNative) rfl fromNative []
            (Nat.zero_le _) answers bytes
          simp only [requestGate, gated]
          rw [show Gate.init = ⟨([] : List UInt8).length, false⟩ from rfl, hgate]
          simp [limitGate]
  | some expected =>
      have hgate := collectBytes_gate (lengthGate expected fromNative) rfl fromNative [] (Nat.zero_le _)
        answers bytes
      simp only [requestGate, gated]
      rw [show Gate.init = ⟨([] : List UInt8).length, false⟩ from rfl, hgate, lengthGate_close]
      have hbound : (lengthGate expected fromNative).bound = expected.toNat := rfl
      rw [hbound]
      constructor
      · rintro ⟨hok, _, hlength⟩
        refine ⟨hok, ?_, ?_⟩
        · rintro _ ⟨⟩
          exact hlength
        · intro bound hbound
          have hle := hfits expected rfl bound hbound
          omega
      · rintro ⟨hok, hlength, _⟩
        have heq := hlength expected rfl
        exact ⟨hok, Nat.le_of_eq heq, heq⟩

/-! ## from the producer to the transport -/

/-- The declared length that counts: a form has none
(`terminal_exact_length`). -/
def TerminalBody.declared (body : TerminalBody β) (exactLength : Option UInt64) : Option UInt64 :=
  match body with
  | .multipartRecipe _ => none
  | _ => exactLength

/-- The stream under the layers, and its hint. -/
def TerminalBody.stream (source : BodySource β) :
    TerminalBody β → Option (SizeHint × List (Answer NativeError Frame))
  | .oneShotByteStream stream => some (.new, (source.chunks stream).map wrapStream)
  | .oneShotHttpBody body => some (source.hint body, (source.frames body).map wrapBody)
  | .multipartRecipe recipe => source.intoForm recipe
  | _ => none

/-- What a body holds, up to its first error or its end. -/
def TerminalBody.holds (source : BodySource β) (body : TerminalBody β) :
    Option (Except BodyError (List UInt8)) :=
  match body with
  | .empty => some (.ok [])
  | .reusableBytes bytes => some (.ok bytes)
  | _ => (body.stream source).bind fun stream =>
      collectBytes [] (stream.2.map (Answer.mapError fromNative))

/-- What the transport reads of a body, up to its first error or its end. -/
def ReqwestBody.read : ReqwestBody → Option (Except BodyError (List UInt8))
  | .empty => some (.ok [])
  | .bytes data => some (.ok data)
  | .streaming _ layers answers => collectBytes [] (layers.answers answers)

/-- The bytes that reach the transport, whether or not an error follows. -/
def ReqwestBody.handedOn : ReqwestBody → Nat
  | .empty => 0
  | .bytes data => data.length
  | .streaming _ layers answers => total Frame.len (layers.answers answers)

/-- The body of a request below the limit, if it is not refused. -/
def TerminalBody.prepare (source : BodySource β) (limit : Option UInt64) (body : TerminalBody β)
    (exactLength : Option UInt64) : Option ReqwestBody :=
  match body.applyToReqwest source exactLength with
  | .error _ => none
  | .ok native =>
    match limitRequestBody limit native with
    | .error _ => none
    | .ok limited => some limited

/-- A body has no more bytes than a `usize` can count, and a declared length
is `u64::MAX` only if its data can be counted. -/
structure TerminalBody.Counted (source : BodySource β) (body : TerminalBody β)
    (exactLength : Option UInt64) : Prop where
  bytes : ∀ bytes, body = .reusableBytes bytes → bytes.length ≤ usizeMax
  stream : ∀ stream ∈ body.stream source, ∀ expected ∈ body.declared exactLength,
    Countable expected Frame.len stream.2

/-- A body without a declared length holds as much as its hint says at
least. -/
def TerminalBody.Honest (source : BodySource β) (body : TerminalBody β)
    (exactLength : Option UInt64) : Prop :=
  body.declared exactLength = none → ∀ stream ∈ body.stream source, ∀ bytes,
    body.holds source = some (.ok bytes) → stream.1.lower.toNat ≤ bytes.length

/-- An exact hint is its lower bound. -/
theorem SizeHint.lower_of_exact {hint : SizeHint} {length : UInt64} (h : hint.exact = some length) :
    length = hint.lower := by
  unfold SizeHint.exact at h
  split at h
  · next heq =>
      rw [heq] at h
      exact (Option.some.inj h).symm
  · cases h

/-- The limit refuses a body by its lower bound. -/
theorem limitRequestBody_eq (limit : UInt64) (body : ReqwestBody) :
    limitRequestBody (some limit) body =
      if body.sizeHint.lower > limit then .error ⟨limit, body.sizeHint.lower⟩
      else .ok (body.limit limit) := by
  cases hexact : body.sizeHint.exact with
  | some length =>
      have hlower := SizeHint.lower_of_exact hexact
      subst hlower
      simp [limitRequestBody, knownOversize, hexact]
  | none =>
      by_cases hbeyond : body.sizeHint.lower > limit
      · simp [limitRequestBody, knownOversize, hexact, hbeyond]
      · simp [limitRequestBody, knownOversize, hexact, hbeyond]

/-- Bytes are refused if their length is not the declared one. -/
theorem validateReusableExactLength_eq (actual : UInt64) (exactLength : Option UInt64) :
    validateReusableExactLength actual exactLength = .ok () ↔
      ∀ expected ∈ exactLength, actual.toNat = expected.toNat := by
  cases exactLength with
  | none => simp [validateReusableExactLength]
  | some expected =>
      have hless := UInt64.lt_iff_toNat_lt (a := actual) (b := expected)
      have hgreater := UInt64.lt_iff_toNat_lt (a := expected) (b := actual)
      simp only [validateReusableExactLength, gt_iff_lt, hless, hgreater, Option.mem_def,
        Option.some.injEq, forall_eq']
      by_cases hlt : actual.toNat < expected.toNat
      · simp [hlt, Nat.ne_of_lt hlt]
      · by_cases hgt : expected.toNat < actual.toNat
        · simp [hlt, hgt, Nat.ne_of_gt hgt]
        · have heq : actual.toNat = expected.toNat := by omega
          simp [heq]

/-- What observes a body, which is nothing for a form. -/
def TerminalBody.observed (body : TerminalBody β) (exactLength : Option UInt64) :
    Option ObservedRequestBody :=
  match body with
  | .multipartRecipe _ => none
  | _ => (observeNativeRequestBody exactLength).observed

section prepare

variable {source : BodySource β} {body : TerminalBody β} {exactLength limit : Option UInt64}

/-- The length that a streaming body announces. -/
def TerminalBody.announced (body : TerminalBody β) (exactLength : Option UInt64)
    (hint : SizeHint) : UInt64 :=
  (body.declared exactLength).getD hint.lower

/-- A streamed body announces its lower bound. -/
theorem sizeHint_lower_streaming (body : TerminalBody β) (exactLength : Option UInt64)
    (hint : SizeHint) (answers : List (Answer NativeError Frame)) :
    (ReqwestBody.streaming hint ⟨none, body.observed exactLength⟩ answers).sizeHint.lower =
      body.announced exactLength hint := by
  have hnew : ∀ expected : UInt64, (ExactLengthBody.new expected).sizeHint = expected := by
    intro expected
    have hzero : (0 : UInt64).toNat = 0 := rfl
    simp [ExactLengthBody.sizeHint, ExactLengthBody.new, hzero]
  cases body with
  | multipartRecipe _ => rfl
  | empty | reusableBytes _ | oneShotByteStream _ | oneShotHttpBody _ =>
      cases exactLength with
      | none => rfl
      | some expected =>
          simp [TerminalBody.observed, observeNativeRequestBody, ReqwestBody.sizeHint,
            TerminalBody.announced, TerminalBody.declared, SizeHint.withExact, hnew]

/-- A streamed body is handed to the transport under its layers. -/
theorem applyToReqwest_stream {hint : SizeHint} {answers : List (Answer NativeError Frame)}
    (h : body.stream source = some (hint, answers)) :
    body.applyToReqwest source exactLength =
      .ok (.streaming hint ⟨none, body.observed exactLength⟩ answers) := by
  cases body with
  | empty => cases h
  | reusableBytes _ => cases h
  | oneShotByteStream _ =>
      cases h
      rfl
  | oneShotHttpBody _ =>
      cases h
      rfl
  | multipartRecipe recipe =>
      have hform : source.intoForm recipe = some (hint, answers) := h
      simp only [TerminalBody.applyToReqwest, hform]
      rfl

/-- A streaming body is refused by what it announces, and is streamed below the
limit otherwise. -/
theorem prepare_stream {hint : SizeHint} {answers : List (Answer NativeError Frame)}
    (h : body.stream source = some (hint, answers)) (native : ReqwestBody) :
    body.prepare source limit exactLength = some native ↔
      (∀ bound ∈ limit, body.announced exactLength hint ≤ bound) ∧
        native = .streaming hint ⟨limit.map .new, body.observed exactLength⟩ answers := by
  cases limit with
  | none => simp [TerminalBody.prepare, applyToReqwest_stream h, limitRequestBody, eq_comm]
  | some bound =>
      have hlower := sizeHint_lower_streaming body exactLength hint answers
      by_cases hle : body.announced exactLength hint ≤ bound
      · have hnot : ¬ body.announced exactLength hint > bound := UInt64.not_lt.mpr hle
        simp [TerminalBody.prepare, applyToReqwest_stream h, limitRequestBody_eq, hlower, hnot, hle,
          ReqwestBody.limit, eq_comm]
      · have hgt : body.announced exactLength hint > bound := UInt64.not_le.mp hle
        simp [TerminalBody.prepare, applyToReqwest_stream h, limitRequestBody_eq, hlower, hgt, hle]

/-- What the transport gets of a body is what a gate lets through. -/
theorem answers_prepared (limit : Option UInt64) {answers : List (Answer NativeError Frame)}
    (hcount : ∀ expected ∈ body.declared exactLength, Countable expected Frame.len answers)
    (hfits : ∀ expected ∈ body.declared exactLength, ∀ bound ∈ limit,
      expected.toNat ≤ bound.toNat) :
    NativeLayers.answers ⟨limit.map .new, body.observed exactLength⟩ answers =
      gated (requestGate (body.declared exactLength) limit) answers := by
  cases body with
  | multipartRecipe _ => exact NativeLayers.answers_form limit answers
  | empty | reusableBytes _ | oneShotByteStream _ | oneShotHttpBody _ =>
      exact NativeLayers.answers_observed hcount hfits

/-- The bytes of a body that is not streamed, and how the transport has them. -/
def TerminalBody.whole : TerminalBody β → Option (List UInt8 × ReqwestBody)
  | .empty => some ([], .empty)
  | .reusableBytes bytes => some (bytes, .bytes bytes)
  | .oneShotByteStream _ | .oneShotHttpBody _ | .multipartRecipe _ => none

/-- What is not streamed is sent as it is, or is a form that cannot be made. -/
theorem whole_or_refused (h : body.stream source = none) :
    (∃ bytes sent, body.whole = some (bytes, sent)) ∨
      (∀ limit exactLength, body.prepare source limit exactLength = none) ∧
        ∀ bytes, body.holds source ≠ some (.ok bytes) := by
  cases body with
  | empty => exact .inl ⟨_, _, rfl⟩
  | reusableBytes bytes => exact .inl ⟨_, _, rfl⟩
  | oneShotByteStream _ => cases h
  | oneShotHttpBody _ => cases h
  | multipartRecipe recipe =>
      have hform : source.intoForm recipe = none := h
      refine .inr ⟨?_, ?_⟩
      · simp [TerminalBody.prepare, TerminalBody.applyToReqwest, hform]
      · simp [TerminalBody.holds, TerminalBody.stream, hform]

section whole

variable {bytes : List UInt8} {sent : ReqwestBody}

/-- A body that is not streamed is read in full. -/
theorem read_whole (h : body.whole = some (bytes, sent)) :
    sent.read = some (.ok bytes) ∧ sent.handedOn = bytes.length := by
  cases body with
  | empty =>
      cases h
      exact ⟨rfl, rfl⟩
  | reusableBytes bytes =>
      cases h
      exact ⟨rfl, rfl⟩
  | oneShotByteStream _ | oneShotHttpBody _ | multipartRecipe _ => cases h

/-- It holds what is read. -/
theorem holds_whole (source : BodySource β) (exactLength : Option UInt64)
    (h : body.whole = some (bytes, sent)) :
    body.holds source = some (.ok bytes) ∧ body.declared exactLength = exactLength := by
  cases body with
  | empty =>
      cases h
      exact ⟨rfl, rfl⟩
  | reusableBytes bytes =>
      cases h
      exact ⟨rfl, rfl⟩
  | oneShotByteStream _ | oneShotHttpBody _ | multipartRecipe _ => cases h

/-- Its bytes can be counted. -/
theorem TerminalBody.Counted.whole (hcounted : body.Counted source exactLength)
    (h : body.whole = some (bytes, sent)) : bytes.length ≤ usizeMax := by
  cases body with
  | empty =>
      cases h
      exact Nat.zero_le _
  | reusableBytes bytes =>
      cases h
      exact hcounted.bytes bytes rfl
  | oneShotByteStream _ | oneShotHttpBody _ | multipartRecipe _ => cases h

/-- What the transport makes of bytes, before and below the limit. -/
theorem applyToReqwest_whole (source : BodySource β) (exactLength : Option UInt64)
    (h : body.whole = some (bytes, sent)) :
    body.applyToReqwest source exactLength =
        (validateReusableExactLength (.ofNat bytes.length) exactLength).map (fun _ => sent) ∧
      sent.sizeHint.lower = .ofNat bytes.length ∧ ∀ bound, sent.limit bound = sent := by
  cases body with
  | empty =>
      cases h
      exact ⟨rfl, rfl, fun _ => rfl⟩
  | reusableBytes bytes =>
      cases h
      exact ⟨rfl, rfl, fun _ => rfl⟩
  | oneShotByteStream _ | oneShotHttpBody _ | multipartRecipe _ => cases h

/-- Bytes are refused by their length alone. -/
theorem prepare_whole (h : body.whole = some (bytes, sent)) (hlen : bytes.length ≤ usizeMax)
    (native : ReqwestBody) :
    body.prepare source limit exactLength = some native ↔
      ((∀ expected ∈ exactLength, bytes.length = expected.toNat) ∧
        ∀ bound ∈ limit, bytes.length ≤ bound.toNat) ∧ native = sent := by
  obtain ⟨happly, hhint, hlimit⟩ := applyToReqwest_whole source exactLength h
  have hnat : (UInt64.ofNat bytes.length).toNat = bytes.length := toNat_ofNat_of_le hlen
  have hvalid := validateReusableExactLength_eq (.ofNat bytes.length) exactLength
  rw [hnat] at hvalid
  cases hcheck : validateReusableExactLength (.ofNat bytes.length) exactLength with
  | error error =>
      have hnot : ¬ ∀ expected ∈ exactLength, bytes.length = expected.toNat := by
        rw [← hvalid, hcheck]
        simp
      rw [hcheck] at happly
      rw [Except.map] at happly
      simp only [TerminalBody.prepare, happly, hnot, false_and, reduceCtorEq]
  | ok _ =>
      have hexact := hvalid.mp hcheck
      rw [hcheck, Except.map] at happly
      rw [and_iff_right hexact]
      cases limit with
      | none => simp [TerminalBody.prepare, happly, limitRequestBody, eq_comm]
      | some bound =>
          have hbeyond : sent.sizeHint.lower > bound ↔ ¬ bytes.length ≤ bound.toNat := by
            rw [hhint, gt_iff_lt, UInt64.lt_iff_toNat_lt, hnat, Nat.not_le]
          by_cases hle : bytes.length ≤ bound.toNat
          · have hnot : ¬ sent.sizeHint.lower > bound := fun hgt => hbeyond.mp hgt hle
            simp [TerminalBody.prepare, happly, limitRequestBody_eq, hlimit, hnot, hle, eq_comm]
          · have hgt := hbeyond.mpr hle
            simp [TerminalBody.prepare, happly, limitRequestBody_eq, hgt, hle]

end whole

/-- No layers let more through than the limit. -/
theorem total_answers_le (bound : UInt64) (observed : Option ObservedRequestBody)
    (answers : List (Answer NativeError Frame)) :
    total Frame.len (NativeLayers.answers ⟨some (.new bound), observed⟩ answers) ≤ bound.toNat := by
  rw [NativeLayers.answers, NativeLayers.run_limited, fromNative_wrapBody, LimitedBody.run_eq]
  exact (limitGate bound fromNative).total_run_le _

/-- What reaches the transport of a body that was not refused is within the
limit, whatever the body announces. -/
theorem handedOn_le {native : ReqwestBody} {bound : UInt64}
    (hcounted : body.Counted source exactLength)
    (h : body.prepare source (some bound) exactLength = some native) :
    native.handedOn ≤ bound.toNat := by
  cases hstream : body.stream source with
  | some stream =>
      have hprepared := ((prepare_stream hstream native).mp h).2
      subst hprepared
      exact total_answers_le bound _ _
  | none =>
      rcases whole_or_refused hstream with ⟨bytes, sent, hwhole⟩ | ⟨hrefused, _⟩
      · obtain ⟨⟨_, hle⟩, rfl⟩ := (prepare_whole hwhole (hcounted.whole hwhole) native).mp h
        rw [(read_whole hwhole).2]
        exact hle bound rfl
      · rw [hrefused] at h
        contradiction

/-- A streamed body holds what comes of its answers. -/
theorem holds_stream {hint : SizeHint} {answers : List (Answer NativeError Frame)}
    (h : body.stream source = some (hint, answers)) :
    body.holds source = collectBytes [] (answers.map (Answer.mapError fromNative)) := by
  cases body with
  | empty => cases h
  | reusableBytes _ => cases h
  | oneShotByteStream _ =>
      cases h
      rfl
  | oneShotHttpBody _ =>
      cases h
      rfl
  | multipartRecipe recipe =>
      have hform : source.intoForm recipe = some (hint, answers) := h
      simp [TerminalBody.holds, TerminalBody.stream, hform]

/-- A streaming body that is not refused is read through its gate. -/
theorem read_stream {hint : SizeHint} {answers : List (Answer NativeError Frame)}
    (hcounted : body.Counted source exactLength) (h : body.stream source = some (hint, answers))
    (hfits : ∀ bound ∈ limit, body.announced exactLength hint ≤ bound) (bytes : List UInt8) :
    (ReqwestBody.streaming hint ⟨limit.map .new, body.observed exactLength⟩ answers).read =
        some (.ok bytes) ↔
      body.holds source = some (.ok bytes) ∧
        (∀ expected ∈ body.declared exactLength, bytes.length = expected.toNat) ∧
        ∀ bound ∈ limit, bytes.length ≤ bound.toNat := by
  have hdeclared : ∀ expected ∈ body.declared exactLength, ∀ bound ∈ limit,
      expected.toNat ≤ bound.toNat := by
    intro expected hexpected bound hbound
    have hannounced : body.announced exactLength hint = expected := by
      rw [TerminalBody.announced, Option.mem_def.mp hexpected, Option.getD_some]
    have hle := hfits bound hbound
    rwa [hannounced, UInt64.le_iff_toNat_le] at hle
  have hanswers := answers_prepared limit (hcounted.stream _ h) hdeclared
  rw [ReqwestBody.read, hanswers, collectBytes_gated _ _ hdeclared, holds_stream h]

/-- An honest body is not refused if it holds no more than the limit. -/
theorem announced_le {hint : SizeHint} {answers : List (Answer NativeError Frame)}
    (hhonest : body.Honest source exactLength) (h : body.stream source = some (hint, answers))
    {bytes : List UInt8} (hholds : body.holds source = some (.ok bytes))
    (hlength : ∀ expected ∈ body.declared exactLength, bytes.length = expected.toNat)
    {bound : UInt64} (hle : bytes.length ≤ bound.toNat) :
    body.announced exactLength hint ≤ bound := by
  rw [UInt64.le_iff_toNat_le]
  cases hdeclared : body.declared exactLength with
  | some expected =>
      have heq := hlength expected hdeclared
      rw [TerminalBody.announced, hdeclared, Option.getD_some]
      omega
  | none =>
      have hlower := hhonest hdeclared _ h bytes hholds
      rw [TerminalBody.announced, hdeclared, Option.getD_none]
      exact Nat.le_trans hlower hle

/-- A streaming body is sent in full if it holds as much as it declares, and no more than the
limit. -/
theorem sent_stream {hint : SizeHint} {answers : List (Answer NativeError Frame)}
    (hcounted : body.Counted source exactLength) (hhonest : body.Honest source exactLength)
    (h : body.stream source = some (hint, answers)) (limit : Option UInt64) (bytes : List UInt8) :
    (∃ native, body.prepare source limit exactLength = some native ∧
        native.read = some (.ok bytes)) ↔
      body.holds source = some (.ok bytes) ∧
        (∀ expected ∈ body.declared exactLength, bytes.length = expected.toNat) ∧
        ∀ bound ∈ limit, bytes.length ≤ bound.toNat := by
  simp only [prepare_stream h]
  constructor
  · rintro ⟨native, ⟨hfits, rfl⟩, hread⟩
    exact (read_stream hcounted h hfits bytes).mp hread
  · rintro ⟨hholds, hlength, hle⟩
    have hannounced : ∀ bound ∈ limit, body.announced exactLength hint ≤ bound :=
      fun bound hbound => announced_le hhonest h hholds hlength (hle bound hbound)
    have hread := (read_stream hcounted h hannounced bytes).mpr ⟨hholds, hlength, hle⟩
    exact ⟨_, ⟨hannounced, rfl⟩, hread⟩

/-- **A body is sent in full exactly if it comes to its end without an error,
holds as many bytes as it declares, and no more than the limit.**  It does not
matter whether bytes, the announced length or the layers of a stream decide. -/
theorem request_body_limits (hcounted : body.Counted source exactLength)
    (limit : Option UInt64) :
    (∀ native, ∀ bound ∈ limit, body.prepare source limit exactLength = some native →
      native.handedOn ≤ bound.toNat) ∧
    (body.Honest source exactLength → ∀ bytes,
      (∃ native, body.prepare source limit exactLength = some native ∧
        native.read = some (.ok bytes)) ↔
      body.holds source = some (.ok bytes) ∧
        (∀ expected ∈ body.declared exactLength, bytes.length = expected.toNat) ∧
        ∀ bound ∈ limit, bytes.length ≤ bound.toNat) := by
  refine ⟨?_, ?_⟩
  · rintro native bound hbound h
    rw [Option.mem_def.mp hbound] at h
    exact handedOn_le hcounted h
  intro hhonest bytes
  cases hstream : body.stream source with
  | some stream => exact sent_stream hcounted hhonest hstream limit bytes
  | none =>
      rcases whole_or_refused hstream with ⟨data, sent, hwhole⟩ | ⟨hrefused, hholds⟩
      · obtain ⟨hread, _⟩ := read_whole hwhole
        obtain ⟨hheld, hdeclared⟩ := holds_whole source exactLength hwhole
        simp only [prepare_whole hwhole (hcounted.whole hwhole), hheld, hdeclared]
        constructor
        · rintro ⟨native, ⟨hfits, rfl⟩, hsame⟩
          rw [hread] at hsame
          cases hsame
          exact ⟨rfl, hfits⟩
        · rintro ⟨hsame, hfits⟩
          cases hsame
          exact ⟨sent, ⟨hfits, rfl⟩, hread⟩
      · simp [hrefused, hholds]

end prepare

/-- Bodies that are made of frames. -/
def frameSource : BodySource (List (Answer BodyError Frame)) where
  chunks _ := []
  hint _ := .new
  frames body := body
  intoForm _ := none

/-- Two bytes, and the end. -/
def twoBytes : List (Answer BodyError Frame) :=
  [.ready (some (.ok (.data ⟨[1, 2], by decide⟩))), .ready none]

/-- Two bytes that are declared, within a limit of two. -/
theorem request_body_limits_two :
    ∃ native, (TerminalBody.oneShotHttpBody twoBytes).prepare frameSource (some 2) (some 2) =
        some native ∧ native.read = some (.ok [1, 2]) := by
  have hcounted : (TerminalBody.oneShotHttpBody twoBytes).Counted frameSource (some 2) := by
    refine ⟨?_, ?_⟩
    · intro bytes h
      cases h
    · rintro _ ⟨⟩ _ ⟨⟩
      exact .inl (by decide)
  have hhonest : (TerminalBody.oneShotHttpBody twoBytes).Honest frameSource (some 2) := by
    intro h
    cases h
  have hlimits := (request_body_limits hcounted (some 2)).2 hhonest [1, 2]
  refine hlimits.mpr ⟨rfl, ?_, ?_⟩
  · rintro _ ⟨⟩
    rfl
  · rintro _ ⟨⟩
    decide

end Concord
