import Concord.Body.Frame

/-!
# Concord.Body.Limit

Byte limits of bodies: `BoundedResponseStream` and `LimitedBody` against a gate
that counts without a bound on its counter, and the loop of the authentication
client against both.

The counters are 64 bits wide.  `LimitedBody` stops when its counter would
overflow; the other two let it saturate, which is the same as long as there is
a count above the limit.
-/

namespace Concord

open Checked Polled

variable {ε φ : Type*}

/-- A limit as a gate. -/
def limitGate (limit : UInt64) (mapError : ε → BodyError) : Gate ε BodyError Frame where
  size := Frame.len
  bound := limit.toNat
  beyond total := .limitExceeded limit (.ofNat (min total u64Max))
  fail := mapError
  close _ := none

/-! ## counters -/

/-- The saturating sum of the bytes so far and those of a chunk. -/
theorem saturatingAdd_len (seen : UInt64) (data : Bytes) :
    saturatingAdd seen (.ofNat data.len) = .ofNat (min (seen.toNat + data.len) u64Max) := by
  rw [saturatingAdd, toNat_ofNat_of_le data.len_le_u64Max]

/-- The length of a chunk fits 64 bits. -/
theorem u64TryFrom_len (data : Bytes) : u64TryFrom data.len = some (.ofNat data.len) :=
  if_pos data.len_le_u64Max

/-- The checked sum of the bytes so far and those of a chunk. -/
theorem checkedAddU64_len (seen : UInt64) (data : Bytes) :
    checkedAddU64 seen (.ofNat data.len) =
      if seen.toNat + data.len ≤ u64Max then some (.ofNat (seen.toNat + data.len)) else none := by
  rw [checkedAddU64, toNat_ofNat_of_le data.len_le_u64Max, checkedAdd]
  split
  · rfl
  · rfl

/-- A saturated count is within a bound if the count is, as long as there is a
count above the bound or the count does not saturate. -/
theorem saturated_le_iff {bound : UInt64} {count : Nat}
    (h : bound.toNat < u64Max ∨ count ≤ u64Max) :
    min count u64Max ≤ bound.toNat ↔ count ≤ bound.toNat := by
  have hbound := toNat_le_u64Max bound
  omega

/-! ## one poll -/

/-- A counter and a gate are at the same place, within the bound. -/
structure SamePlace (bound seen : UInt64) (terminal : Bool) (state : Gate.State) : Prop where
  seen_eq : seen.toNat = state.seen
  terminal_eq : terminal = state.terminal
  within : seen.toNat ≤ bound.toNat

/-- A chunk passes the checked count if it stays within the limit. -/
theorem LimitedBody.pollFrame_data (fromProducer : ε → BodyError) (limit seen : UInt64)
    (data : Bytes) :
    LimitedBody.pollFrame fromProducer ⟨limit, seen, false⟩ (.ready (some (.ok (.data data)))) =
      if seen.toNat + data.len ≤ limit.toNat then
        (⟨limit, .ofNat (seen.toNat + data.len), false⟩, .ready (some (.ok (.data data))))
      else
        (⟨limit, seen, true⟩, .ready (some (.error
          (.limitExceeded limit (.ofNat (min (seen.toNat + data.len) u64Max)))))) := by
  have hlimit := toNat_le_u64Max limit
  simp only [LimitedBody.pollFrame, Bool.false_eq_true, if_false, Frame.dataRef, u64TryFrom_len,
    checkedAddU64_len]
  by_cases hfits : seen.toNat + data.len ≤ u64Max
  · simp only [hfits, if_true, Nat.min_eq_left hfits, gt_iff_lt, UInt64.lt_iff_toNat_lt,
      toNat_ofNat_of_le hfits]
    by_cases hle : seen.toNat + data.len ≤ limit.toNat
    · rw [if_neg (Nat.not_lt_of_le hle), if_pos hle]
    · rw [if_pos (Nat.lt_of_not_le hle), if_neg hle]
  · have hbeyond : ¬ seen.toNat + data.len ≤ limit.toNat := by omega
    simp only [hfits, if_false, hbeyond, Nat.min_eq_right (Nat.le_of_not_le hfits), maxU64]

/-- A chunk passes the saturating count if that stays within the limit. -/
theorem BoundedResponseStream.pollFrame_data (errorMapper : ε → BodyError) (limit seen : UInt64)
    (data : Bytes) :
    BoundedResponseStream.pollFrame ⟨some limit, seen, false, errorMapper⟩
        (.ready (some (.ok (.data data)))) =
      if min (seen.toNat + data.len) u64Max ≤ limit.toNat then
        (⟨some limit, .ofNat (min (seen.toNat + data.len) u64Max), false, errorMapper⟩,
          .ready (some (.ok (.data data))))
      else
        (⟨some limit, seen, true, errorMapper⟩, .ready (some (.error
          (.limitExceeded limit (.ofNat (min (seen.toNat + data.len) u64Max)))))) := by
  simp only [BoundedResponseStream.pollFrame, Bool.false_eq_true, if_false, Frame.dataRef,
    saturatingAdd_len, gt_iff_lt, UInt64.lt_iff_toNat_lt, toNat_ofNat_of_le (Nat.min_le_right _ _)]
  by_cases hle : min (seen.toNat + data.len) u64Max ≤ limit.toNat
  · rw [if_neg (Nat.not_lt_of_le hle), if_pos hle]
  · rw [if_pos (Nat.lt_of_not_le hle), if_neg hle]

/-- A chunk passes the gate if the sum stays within the limit. -/
theorem limitGate_poll_data (limit : UInt64) (mapError : ε → BodyError) (count : Nat)
    (data : Bytes) :
    (limitGate limit mapError).poll ⟨count, false⟩ (.ready (some (.ok (.data data)))) =
      if count + data.len ≤ limit.toNat then
        (⟨count + data.len, false⟩, .ready (some (.ok (.data data))))
      else
        (⟨count, true⟩, .ready (some (.error
          (.limitExceeded limit (.ofNat (min (count + data.len) u64Max)))))) := rfl

/-- Trailers pass the gate. -/
theorem limitGate_poll_trailers {limit : UInt64} (mapError : ε → BodyError) {count : Nat}
    (h : count ≤ limit.toNat) (trailers : HeaderMap) :
    (limitGate limit mapError).poll ⟨count, false⟩ (.ready (some (.ok (.trailers trailers)))) =
      (⟨count, false⟩, .ready (some (.ok (.trailers trailers)))) :=
  if_pos h

/-- The checked count does what the gate does, frame after frame. -/
theorem LimitedBody.pollFrame_gate (fromProducer : ε → BodyError) {this : LimitedBody}
    {state : Gate.State} (h : SamePlace this.limit this.seen this.terminal state)
    (answer : Answer ε Frame) :
    let next := LimitedBody.pollFrame fromProducer this answer
    let gated := (limitGate this.limit fromProducer).poll state answer
    next.2 = gated.2 ∧ next.1.limit = this.limit ∧
      SamePlace this.limit next.1.seen next.1.terminal gated.1 := by
  obtain ⟨limit, seen, terminal⟩ := this
  obtain ⟨count, stateTerminal⟩ := state
  obtain ⟨rfl, rfl, hwithin⟩ := h
  cases terminal with
  | true => exact ⟨rfl, rfl, rfl, rfl, hwithin⟩
  | false =>
      match answer with
      | .pending | .ready none | .ready (some (.error error)) =>
          exact ⟨rfl, rfl, rfl, rfl, hwithin⟩
      | .ready (some (.ok (.trailers trailers))) =>
          rw [limitGate_poll_trailers fromProducer hwithin]
          exact ⟨rfl, rfl, rfl, rfl, hwithin⟩
      | .ready (some (.ok (.data data))) =>
          intro next gated
          simp only [next, gated, LimitedBody.pollFrame_data, limitGate_poll_data]
          by_cases hle : seen.toNat + data.len ≤ limit.toNat
          · have hnat := toNat_ofNat_of_le (Nat.le_trans hle (toNat_le_u64Max limit))
            rw [if_pos hle, if_pos hle]
            exact ⟨rfl, rfl, hnat, rfl, hnat.symm ▸ hle⟩
          · rw [if_neg hle, if_neg hle]
            exact ⟨rfl, rfl, rfl, rfl, hwithin⟩

/-- The counter of `BoundedResponseStream` does as well as long as it does not
saturate at its own limit. -/
theorem BoundedResponseStream.pollFrame_gate {this : BoundedResponseStream ε} {limit : UInt64}
    {state : Gate.State} (hlimit : this.limit = some limit)
    (h : SamePlace limit this.seen this.terminal state) (answer : Answer ε Frame)
    (hfits : limit.toNat < u64Max ∨ this.terminal = true ∨
      this.seen.toNat + answer.weight Frame.len ≤ u64Max) :
    let next := this.pollFrame answer
    let gated := (limitGate limit this.errorMapper).poll state answer
    next.2 = gated.2 ∧ next.1.limit = some limit ∧ next.1.errorMapper = this.errorMapper ∧
      SamePlace limit next.1.seen next.1.terminal gated.1 := by
  obtain ⟨_, seen, terminal, errorMapper⟩ := this
  obtain ⟨count, stateTerminal⟩ := state
  obtain ⟨rfl, rfl, hwithin⟩ := h
  cases hlimit
  cases terminal with
  | true => exact ⟨rfl, rfl, rfl, rfl, rfl, hwithin⟩
  | false =>
      match answer with
      | .pending | .ready none | .ready (some (.error error)) =>
          exact ⟨rfl, rfl, rfl, rfl, rfl, hwithin⟩
      | .ready (some (.ok (.trailers trailers))) =>
          rw [limitGate_poll_trailers errorMapper hwithin]
          exact ⟨rfl, rfl, rfl, rfl, rfl, hwithin⟩
      | .ready (some (.ok (.data data))) =>
          intro next gated
          simp only [next, gated, BoundedResponseStream.pollFrame_data, limitGate_poll_data]
          have hsame := saturated_le_iff (hfits.imp_right (fun h => h.resolve_left
            Bool.false_ne_true))
          change min (seen.toNat + data.len) u64Max ≤ limit.toNat ↔
            seen.toNat + data.len ≤ limit.toNat at hsame
          by_cases hle : seen.toNat + data.len ≤ limit.toNat
          · have hfit := Nat.le_trans hle (toNat_le_u64Max limit)
            have hnat := toNat_ofNat_of_le hfit
            rw [if_pos hle, if_pos (hsame.mpr hle), Nat.min_eq_left hfit]
            exact ⟨rfl, rfl, rfl, hnat, rfl, hnat.symm ▸ hle⟩
          · rw [if_neg hle, if_neg (fun hmin => hle (hsame.mp hmin))]
            exact ⟨rfl, rfl, rfl, rfl, rfl, hwithin⟩

/-! ## whole bodies -/

/-- The condition under which a saturating counter is as good as one without a
bound: there is a count above the limit, or the data never gets beyond what can
be counted. -/
def Countable (bound : UInt64) (size : φ → Nat) (answers : List (Answer ε φ)) : Prop :=
  bound.toNat < u64Max ∨ total size (live answers) ≤ u64Max

/-- What is left can be counted. -/
def StillCountable (bound : UInt64) (size : φ → Nat) (seen : Nat) (terminal : Bool)
    (answers : List (Answer ε φ)) : Prop :=
  bound.toNat < u64Max ∨ terminal = true ∨ seen + total size (live answers) ≤ u64Max

/-- An answer that can still be counted is at the end, below the bound or fits. -/
theorem StillCountable.weight {bound : UInt64} {size : φ → Nat} {seen : Nat} {terminal : Bool}
    {answer : Answer ε φ} {answers : List (Answer ε φ)}
    (h : StillCountable bound size seen terminal (answer :: answers)) :
    bound.toNat < u64Max ∨ terminal = true ∨ seen + answer.weight size ≤ u64Max := by
  refine h.imp id (Or.imp id ?_)
  intro hle
  cases hgoes : answer.goesOn with
  | true =>
      rw [live_cons_of_goesOn hgoes, total_cons] at hle
      omega
  | false =>
      have hweight : answer.weight size = 0 := by
        match answer, hgoes with
        | .ready none, _ => rfl
        | .ready (some (.error _)), _ => rfl
      omega

/-- After a poll of a gate what is left can still be counted. -/
theorem StillCountable.poll {gate : Gate ε BodyError φ} {bound : UInt64} {state : Gate.State}
    {answer : Answer ε φ} {answers : List (Answer ε φ)}
    (h : StillCountable bound gate.size state.seen state.terminal (answer :: answers)) :
    StillCountable bound gate.size (gate.poll state answer).1.seen
      (gate.poll state answer).1.terminal answers := by
  obtain ⟨seen, terminal⟩ := state
  cases terminal with
  | true => exact .inr (.inl rfl)
  | false =>
      cases hstop : gate.stop seen answer with
      | some stopped =>
          rw [Gate.poll_stop hstop]
          exact .inr (.inl rfl)
      | none =>
          obtain ⟨hpoll, hgoes⟩ := Gate.poll_pass hstop
          rw [hpoll]
          unfold StillCountable at h ⊢
          rw [live_cons_of_goesOn hgoes, total_cons, ← Nat.add_assoc] at h
          exact h

/-- `LimitedBody` at a place of its gate. -/
structure LimitedBody.At (limit : UInt64) (this : LimitedBody) (state : Gate.State) : Prop where
  limit_eq : this.limit = limit
  place : SamePlace limit this.seen this.terminal state

/-- `BoundedResponseStream` at a place of its gate, with these polls to come. -/
structure BoundedResponseStream.At (limit : UInt64) (errorMapper : ε → BodyError)
    (answers : List (Answer ε Frame)) (this : BoundedResponseStream ε) (state : Gate.State) :
    Prop where
  limit_eq : this.limit = some limit
  mapper_eq : this.errorMapper = errorMapper
  place : SamePlace limit this.seen this.terminal state
  countable : StillCountable limit Frame.len state.seen state.terminal answers

/-- From the gate's place the checked count answers as the gate does. -/
theorem LimitedBody.At.poll (fromProducer : ε → BodyError) {limit : UInt64} {this : LimitedBody}
    {state : Gate.State} (h : this.At limit state) (answer : Answer ε Frame) :
    (LimitedBody.pollFrame fromProducer this answer).2 =
        ((limitGate limit fromProducer).poll state answer).2 ∧
      (LimitedBody.pollFrame fromProducer this answer).1.At limit
        ((limitGate limit fromProducer).poll state answer).1 := by
  obtain ⟨rfl, hplace⟩ := h
  obtain ⟨hanswer, hlimit, hnext⟩ := LimitedBody.pollFrame_gate fromProducer hplace answer
  exact ⟨hanswer, hlimit, hnext⟩

/-- So does the saturating count, as long as the body can be counted. -/
theorem BoundedResponseStream.At.poll {errorMapper : ε → BodyError} {limit : UInt64}
    {this : BoundedResponseStream ε} {state : Gate.State} {answer : Answer ε Frame}
    {answers : List (Answer ε Frame)} (h : this.At limit errorMapper (answer :: answers) state) :
    (this.pollFrame answer).2 = ((limitGate limit errorMapper).poll state answer).2 ∧
      (this.pollFrame answer).1.At limit errorMapper answers
        ((limitGate limit errorMapper).poll state answer).1 := by
  obtain ⟨hlimit, rfl, hplace, hcountable⟩ := h
  have hfits := hcountable.weight
  rw [← hplace.seen_eq, ← hplace.terminal_eq] at hfits
  obtain ⟨hanswer, hlimit', hmapper, hnext⟩ :=
    BoundedResponseStream.pollFrame_gate hlimit hplace answer hfits
  exact ⟨hanswer, hlimit', hmapper, hnext, hcountable.poll⟩

/-- A new body is at the gate's start. -/
theorem LimitedBody.at_new (limit : UInt64) : (LimitedBody.new limit).At limit Gate.init :=
  ⟨rfl, rfl, rfl, Nat.zero_le _⟩

/-- So is a new stream. -/
theorem BoundedResponseStream.at_new {limit : UInt64} {answers : List (Answer ε Frame)}
    (h : Countable limit Frame.len answers) (errorMapper : ε → BodyError) :
    (BoundedResponseStream.new (some limit) errorMapper).At limit errorMapper answers
      Gate.init := by
  refine ⟨rfl, rfl, ⟨rfl, rfl, Nat.zero_le _⟩, ?_⟩
  refine h.imp id ?_
  intro hle
  exact .inr (by rwa [Gate.init, Nat.zero_add])

/-- The whole run of the checked count is the gate's. -/
theorem LimitedBody.run_eq (fromProducer : ε → BodyError) (limit : UInt64)
    (answers : List (Answer ε Frame)) :
    run (LimitedBody.pollFrame fromProducer) (.new limit) answers =
      run (limitGate limit fromProducer).poll Gate.init answers :=
  run_eq_of_lockstep (R := fun _ this state => this.At limit state)
    (fun answer _ _ _ h => h.poll fromProducer answer) (LimitedBody.at_new limit)

/-- So is that of the saturating count, over a body that can be counted. -/
theorem BoundedResponseStream.run_eq {limit : UInt64} {answers : List (Answer ε Frame)}
    (h : Countable limit Frame.len answers) (errorMapper : ε → BodyError) :
    run BoundedResponseStream.pollFrame (.new (some limit) errorMapper) answers =
      run (limitGate limit errorMapper).poll Gate.init answers :=
  run_eq_of_lockstep
    (R := fun answers this state => this.At limit errorMapper answers state)
    (fun _ _ _ _ h => h.poll) (BoundedResponseStream.at_new h errorMapper)

/-- The counter of `LimitedBody` is what it has delivered. -/
theorem LimitedBody.seen_after (fromProducer : ε → BodyError) (limit : UInt64)
    (answers : List (Answer ε Frame)) :
    (after (LimitedBody.pollFrame fromProducer) (.new limit) answers).seen.toNat =
      total Frame.len (run (LimitedBody.pollFrame fromProducer) (.new limit) answers) := by
  have hplace : (after (LimitedBody.pollFrame fromProducer) (.new limit) answers).At limit
      (after (limitGate limit fromProducer).poll Gate.init answers) :=
    after_of_lockstep (R := fun _ (this : LimitedBody) state => this.At limit state)
      (fun answer _ _ _ h => h.poll fromProducer answer) answers [] (LimitedBody.at_new limit)
  rw [hplace.place.seen_eq, Gate.seen_after, LimitedBody.run_eq]
  exact Nat.zero_add _

/-- The saturating count has seen as many bytes as were let through. -/
theorem BoundedResponseStream.seen_after {limit : UInt64} {answers : List (Answer ε Frame)}
    (h : Countable limit Frame.len answers) (errorMapper : ε → BodyError) :
    (after BoundedResponseStream.pollFrame (.new (some limit) errorMapper) answers).seen.toNat =
      total Frame.len
        (run BoundedResponseStream.pollFrame (.new (some limit) errorMapper) answers) := by
  have hnew := BoundedResponseStream.at_new h errorMapper
  rw [← List.append_nil answers] at hnew
  have hplace : BoundedResponseStream.At limit errorMapper []
      (after BoundedResponseStream.pollFrame (.new (some limit) errorMapper) answers)
      (after (limitGate limit errorMapper).poll Gate.init answers) :=
    after_of_lockstep
      (R := fun answers (this : BoundedResponseStream ε) state =>
        this.At limit errorMapper answers state)
      (fun _ _ _ _ h => h.poll) answers [] hnew
  rw [hplace.place.seen_eq, Gate.seen_after, BoundedResponseStream.run_eq h]
  exact Nat.zero_add _

/-- Every start of a countable body is countable. -/
theorem Countable.before {bound : UInt64} {size : φ → Nat} {before answers : List (Answer ε φ)}
    (h : Countable bound size answers) (hbefore : before <+: answers) :
    Countable bound size before := by
  obtain ⟨rest, rfl⟩ := hbefore
  exact h.imp id (Nat.le_trans (total_live_le size before rest))

/-- With the largest limit there is, `BoundedResponseStream` passes everything
on. -/
theorem BoundedResponseStream.run_max {answers : List (Answer ε Frame)}
    (hgoes : ∀ answer ∈ answers, answer.goesOn = true) (errorMapper : ε → BodyError)
    (seen : UInt64) :
    run BoundedResponseStream.pollFrame ⟨some maxU64, seen, false, errorMapper⟩ answers =
        answers.map Answer.pass ∧
      ∃ seen', after BoundedResponseStream.pollFrame ⟨some maxU64, seen, false, errorMapper⟩
        answers = ⟨some maxU64, seen', false, errorMapper⟩ := by
  induction answers generalizing seen with
  | nil => exact ⟨rfl, seen, rfl⟩
  | cons answer answers ih =>
      obtain ⟨hfirst, hrest⟩ := List.forall_mem_cons.mp hgoes
      match answer, hfirst with
      | .pending, _ =>
          obtain ⟨hrun, hafter⟩ := ih hrest seen
          exact ⟨by rw [List.map_cons, ← hrun]; rfl, hafter⟩
      | .ready (some (.ok (.trailers trailers))), _ =>
          obtain ⟨hrun, hafter⟩ := ih hrest seen
          exact ⟨by rw [List.map_cons, ← hrun]; rfl, hafter⟩
      | .ready (some (.ok (.data data))), _ =>
          have hle : min (seen.toNat + data.len) u64Max ≤ maxU64.toNat := by
            rw [toNat_maxU64]
            exact Nat.min_le_right _ _
          obtain ⟨hrun, hafter⟩ := ih hrest (.ofNat (min (seen.toNat + data.len) u64Max))
          simp only [run, after, BoundedResponseStream.pollFrame_data, if_pos hle, hrun,
            List.map_cons]
          exact ⟨rfl, hafter⟩

/-! ## the loop of the authentication client -/

/-- The bytes of an answer. -/
def answerBytes : Answer ε Frame → List UInt8
  | .ready (some (.ok frame)) => frame.bytes
  | _ => []

/-- The loop accepts what `collect_bytes` of a bounded response accepts. -/
theorem authBody_eq_ok_iff (errorMapper : ε → BodyError) (limit : UInt64)
    (answers : List (Answer ε Frame)) (seen : UInt64) (body result : List UInt8) :
    authBody errorMapper limit seen body answers = some (.ok result) ↔
      collectBytes body (run BoundedResponseStream.pollFrame
        ⟨some limit, seen, false, errorMapper⟩ answers) = some (.ok result) := by
  induction answers generalizing seen body with
  | nil => simp only [authBody, run, collectBytes, reduceCtorEq]
  | cons answer answers ih =>
      cases answer with
      | pending => exact ih seen body
      | ready item =>
          rcases item with _ | error | frame
          · simp only [authBody, run, BoundedResponseStream.pollFrame, collectBytes,
              Bool.false_eq_true, if_false, Option.some.injEq, Except.ok.injEq]
          · simp only [authBody, run, BoundedResponseStream.pollFrame, collectBytes,
              Bool.false_eq_true, if_false, Option.some.injEq, reduceCtorEq]
          · cases frame with
            | trailers trailers =>
                simp only [authBody, run, BoundedResponseStream.pollFrame, collectBytes,
                  Frame.dataRef, Frame.bytes, Bool.false_eq_true, if_false, List.append_nil]
                exact ih seen body
            | data data =>
                simp only [authBody, run, BoundedResponseStream.pollFrame_data, saturatingAdd_len,
                  gt_iff_lt, UInt64.lt_iff_toNat_lt, toNat_ofNat_of_le (Nat.min_le_right _ _)]
                by_cases hle : min (seen.toNat + data.len) u64Max ≤ limit.toNat
                · rw [if_neg (Nat.not_lt_of_le hle), if_pos hle]
                  exact ih _ _
                · rw [if_pos (Nat.lt_of_not_le hle), if_neg hle]
                  simp only [collectBytes, Option.some.injEq, reduceCtorEq]

/-- What passed of a body is collected in front of what comes after it. -/
theorem collectBytes_passed {before : List (Answer ε Frame)}
    (hgoes : ∀ answer ∈ before, answer.goesOn = true) (rest : List (Answer BodyError Frame))
    (collected : List UInt8) :
    collectBytes collected (before.map Answer.pass ++ rest) =
      collectBytes (collected ++ before.flatMap answerBytes) rest := by
  induction before generalizing collected with
  | nil => rw [List.flatMap_nil, List.append_nil, List.map_nil, List.nil_append]
  | cons answer before ih =>
      obtain ⟨hfirst, hrest⟩ := List.forall_mem_cons.mp hgoes
      match answer, hfirst with
      | .pending, _ => exact ih hrest collected
      | .ready (some (.ok frame)), _ =>
          rw [List.flatMap_cons, ← List.append_assoc]
          exact ih hrest _

/-- `collect_bytes` of a limited body accepts the bodies that end within the
limit. -/
theorem collectBytes_limitGate (limit : UInt64) (mapError : ε → BodyError)
    (answers : List (Answer ε Frame)) (result : List UInt8) :
    collectBytes [] (run (limitGate limit mapError).poll Gate.init answers) = some (.ok result) ↔
      ∃ before rest, answers = before ++ .ready none :: rest ∧
        (∀ answer ∈ before, answer.goesOn = true) ∧ total Frame.len before ≤ limit.toNat ∧
        result = before.flatMap answerBytes := by
  constructor
  · intro h
    obtain ⟨hgoes, hle⟩ | ⟨before, last, stopped, rest, rfl, hgoes, hle, hstop⟩ :=
      (limitGate limit mapError).passes_or_stops answers
    · have hzero : 0 + total Frame.len answers ≤ limit.toNat := by rwa [Nat.zero_add]
      rw [Gate.init, (Gate.run_passed hgoes hzero).1, ← List.append_nil (answers.map _),
        collectBytes_passed hgoes] at h
      cases h
    · rw [Gate.run_shut hgoes hle hstop, collectBytes_passed hgoes, List.nil_append] at h
      cases last with
      | pending => cases hstop
      | ready item =>
          rcases item with _ | error | frame
          · cases hstop
            cases h
            exact ⟨before, rest, rfl, hgoes, hle, rfl⟩
          · cases hstop
            cases h
          · rw [Gate.stop] at hstop
            split at hstop
            · cases hstop
            · cases hstop
              cases h
  · rintro ⟨before, rest, rfl, hgoes, hle, rfl⟩
    have hstop : (limitGate limit mapError).stop (total Frame.len before) (.ready none) =
        some (.ready none) := rfl
    rw [Gate.run_shut hgoes hle hstop, collectBytes_passed hgoes]
    rfl

/-! ## the limit -/

/-- What is asked of the limits of a body: both adapters yield what the limit
gate yields, and so agree; their counters are what they have delivered; and the
loop of the authentication client accepts what they do. -/
structure LimitsExactly (limit : UInt64) (errorMapper fromProducer : ε → BodyError)
    (answers : List (Answer ε Frame)) : Prop where
  bounded : (limitGate limit errorMapper).Yields answers
    (run BoundedResponseStream.pollFrame (.new (some limit) errorMapper) answers)
  limited : (limitGate limit fromProducer).Yields answers
    (run (LimitedBody.pollFrame fromProducer) (.new limit) answers)
  agree : ∀ mapError : ε → BodyError,
    run BoundedResponseStream.pollFrame (.new (some limit) mapError) answers =
      run (LimitedBody.pollFrame mapError) (.new limit) answers
  counted : ∀ before, before <+: answers →
    (after BoundedResponseStream.pollFrame (.new (some limit) errorMapper) before).seen.toNat =
        total Frame.len
          (run BoundedResponseStream.pollFrame (.new (some limit) errorMapper) before) ∧
      (after (LimitedBody.pollFrame fromProducer) (.new limit) before).seen.toNat =
        total Frame.len (run (LimitedBody.pollFrame fromProducer) (.new limit) before)
  buffered : ∀ body, authBody errorMapper limit 0 [] answers = some (.ok body) ↔
    collectBytes [] (run (LimitedBody.pollFrame fromProducer) (.new limit) answers) =
      some (.ok body)
  accepted : ∀ body, authBody errorMapper limit 0 [] answers = some (.ok body) ↔
    ∃ before rest, answers = before ++ .ready none :: rest ∧
      (∀ answer ∈ before, answer.goesOn = true) ∧ total Frame.len before ≤ limit.toNat ∧
      body = before.flatMap answerBytes

/-- A countable body is limited exactly. -/
theorem limitsExactly_of_countable {limit : UInt64} {answers : List (Answer ε Frame)}
    (h : Countable limit Frame.len answers) (errorMapper fromProducer : ε → BodyError) :
    LimitsExactly limit errorMapper fromProducer answers where
  bounded := Gate.yields_iff.mpr (BoundedResponseStream.run_eq h errorMapper)
  limited := Gate.yields_iff.mpr (LimitedBody.run_eq fromProducer limit answers)
  agree mapError := by
    rw [BoundedResponseStream.run_eq h mapError, LimitedBody.run_eq mapError limit answers]
  counted before hbefore :=
    ⟨BoundedResponseStream.seen_after (h.before hbefore) errorMapper,
      LimitedBody.seen_after fromProducer limit before⟩
  buffered body := by
    rw [authBody_eq_ok_iff, LimitedBody.run_eq, collectBytes_limitGate]
    rw [← collectBytes_limitGate limit errorMapper, ← BoundedResponseStream.run_eq h errorMapper]
    rfl
  accepted body := by
    rw [authBody_eq_ok_iff, ← collectBytes_limitGate limit errorMapper,
      ← BoundedResponseStream.run_eq h errorMapper]
    rfl

/-- Beyond what can be counted `BoundedResponseStream` does not stop. -/
theorem not_yields_of_uncountable {limit : UInt64} {answers : List (Answer ε Frame)}
    (h : ¬ Countable limit Frame.len answers) (errorMapper : ε → BodyError) :
    ¬ (limitGate limit errorMapper).Yields answers
      (run BoundedResponseStream.pollFrame (.new (some limit) errorMapper) answers) := by
  unfold Countable at h
  rw [not_or, Nat.not_lt, Nat.not_le] at h
  obtain ⟨hlimit, htotal⟩ := h
  obtain rfl := eq_maxU64 hlimit
  intro hyields
  generalize hout : run BoundedResponseStream.pollFrame (.new (some maxU64) errorMapper) answers =
    out at hyields
  cases hyields with
  | passed hgoes hle =>
      rw [live_eq_self hgoes] at htotal
      exact absurd (Nat.le_trans hle (toNat_le_u64Max maxU64)) (Nat.not_le_of_lt htotal)
  | @shut before last answer hgoes hle hstop rest =>
      cases hlast : last.goesOn with
      | false =>
          rw [live_append hgoes, live_cons_of_not hlast, List.append_nil] at htotal
          exact absurd (Nat.le_trans hle (toNat_le_u64Max maxU64)) (Nat.not_le_of_lt htotal)
      | true =>
          -- the frame beyond the limit is passed on where the gate shuts
          have hboth : ∀ answer ∈ before ++ [last], answer.goesOn = true := by
            intro other hmem
            rw [List.mem_append, List.mem_singleton] at hmem
            obtain hmem | rfl := hmem
            · exact hgoes other hmem
            · exact hlast
          have hrun := (BoundedResponseStream.run_max hboth errorMapper 0).1
          have hsplit : before ++ last :: rest = (before ++ [last]) ++ rest := by
            rw [List.append_assoc, List.singleton_append]
          rw [hsplit, BoundedResponseStream.new, run_append, hrun, List.map_append,
            List.append_assoc, List.append_cancel_left_eq] at hout
          rw [List.map_singleton, List.singleton_append, List.cons.injEq] at hout
          match last, hlast with
          | .pending, _ => cases hstop
          | .ready (some (.ok frame)), _ =>
              rw [Gate.stop] at hstop
              split at hstop
              · cases hstop
              · cases hstop
                cases hout.1

/-- **The response limit is exact as long as there is a count above it.**  For
every limit, every body and every mapping of its errors: the adapters yield the
inner frames up to the first that takes their total beyond the limit, stop there
with the limit error and agree in everything, and the loop of the authentication
client accepts the same bodies, exactly if the limit is below `u64::MAX` or the
data that the body yields before its first error or its end is no more than
`u64::MAX` bytes. -/
theorem limit_exact_iff_countable (limit : UInt64) (errorMapper fromProducer : ε → BodyError)
    (answers : List (Answer ε Frame)) :
    LimitsExactly limit errorMapper fromProducer answers ↔ Countable limit Frame.len answers := by
  constructor
  · intro h
    by_contra hnot
    exact not_yields_of_uncountable hnot errorMapper h.bounded
  · intro h
    exact limitsExactly_of_countable h errorMapper fromProducer

/-- A chunk of zeros. -/
def zeros (n : Nat) (h : n ≤ usizeMax) : Bytes := ⟨List.replicate n 0, List.length_replicate ▸ h⟩

/-- Chunks of zeros, and the end. -/
def zeroBody (chunks n : Nat) (h : n ≤ usizeMax) : List (Answer BodyError Frame) :=
  List.replicate chunks (.ready (some (.ok (.data (zeros n h))))) ++ [.ready none]

/-- A body of equal chunks has their number times their length. -/
theorem total_live_zeroBody (chunks n : Nat) (h : n ≤ usizeMax) :
    total Frame.len (live (zeroBody chunks n h)) = chunks * n := by
  have hgoes : ∀ answer ∈ List.replicate chunks
      (.ready (some (.ok (.data (zeros n h)))) : Answer BodyError Frame),
        Answer.goesOn answer = true := by
    intro answer hmem
    rw [(List.mem_replicate.mp hmem).2]
    rfl
  have hlen : (Answer.weight Frame.len
      (.ready (some (.ok (.data (zeros n h)))) : Answer BodyError Frame)) = n :=
    List.length_replicate
  rw [zeroBody, live_append hgoes, live_cons_of_not rfl, List.append_nil, total_replicate, hlen]

/-- `2 ^ 64` bytes under a limit of `u64::MAX`. -/
theorem limit_not_exact_at_max :
    ¬ LimitsExactly maxU64 id id (zeroBody 4 (2 ^ 62) (by decide)) := by
  intro h
  have huncountable : ¬ Countable maxU64 Frame.len (zeroBody 4 (2 ^ 62) (by decide)) := by
    unfold Countable
    rw [total_live_zeroBody, toNat_maxU64]
    decide
  exact not_yields_of_uncountable huncountable id h.bounded

end Concord
