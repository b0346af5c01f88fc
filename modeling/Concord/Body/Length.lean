import Concord.Body.Limit

/-!
# Concord.Body.Length

Bodies with a declared length: `ExactLengthBody` against a gate that closes
only at its bound, and `MultipartByteStream` against `ExactLengthBody`.

A size hint is what is left of the declared length.  The inner body may still
end before it or fail, so it is what comes only if the body comes to a clean
end.
-/

namespace Concord

open Checked Polled

variable {ε : Type*}

/-- A declared length as a gate. -/
def lengthGate (expected : UInt64) (mapError : ε → BodyError) : Gate ε BodyError Frame where
  size := Frame.len
  bound := expected.toNat
  beyond total := .exactLengthOverflow expected (.ofNat (min total u64Max))
  fail := mapError
  close seen :=
    if seen = expected.toNat then none else some (.exactLengthUnderflow expected (.ofNat seen))

/-- The gate ends cleanly at the declared length. -/
theorem lengthGate_close (expected : UInt64) (mapError : ε → BodyError) (seen : Nat) :
    (lengthGate expected mapError).close seen = none ↔ seen = expected.toNat := by
  show (if seen = expected.toNat then none else some _) = none ↔ _
  by_cases heq : seen = expected.toNat
  · simp only [heq, if_true]
  · simp only [heq, if_false, reduceCtorEq]

/-! ## one poll -/

/-- The saturating sum of the bytes so far and those of a chunk. -/
theorem observed_eq (seen : UInt64) (data : Bytes) :
    saturatingAdd seen ((u64TryFrom data.len).getD maxU64) =
      .ofNat (min (seen.toNat + data.len) u64Max) := by
  rw [u64TryFrom_len, Option.getD_some, saturatingAdd_len]

/-- A chunk passes the counting body if the sum is within the length. -/
theorem ExactLengthBody.pollFrame_data (fromProducer : ε → BodyError) (expected seen : UInt64)
    (data : Bytes) :
    ExactLengthBody.pollFrame fromProducer ⟨expected, seen, false⟩
        (.ready (some (.ok (.data data)))) =
      if min (seen.toNat + data.len) u64Max ≤ expected.toNat then
        (⟨expected, .ofNat (min (seen.toNat + data.len) u64Max), false⟩,
          .ready (some (.ok (.data data))))
      else
        (⟨expected, seen, true⟩, .ready (some (.error
          (.exactLengthOverflow expected (.ofNat (min (seen.toNat + data.len) u64Max)))))) := by
  simp only [ExactLengthBody.pollFrame, Bool.false_eq_true, if_false, Frame.dataRef, observed_eq,
    gt_iff_lt, UInt64.lt_iff_toNat_lt, toNat_ofNat_of_le (Nat.min_le_right _ _)]
  by_cases hle : min (seen.toNat + data.len) u64Max ≤ expected.toNat
  · rw [if_neg (Nat.not_lt_of_le hle), if_pos hle]
  · rw [if_pos (Nat.lt_of_not_le hle), if_neg hle]

/-- And the gate if it is. -/
theorem lengthGate_poll_data (expected : UInt64) (mapError : ε → BodyError) (count : Nat)
    (data : Bytes) :
    (lengthGate expected mapError).poll ⟨count, false⟩ (.ready (some (.ok (.data data)))) =
      if count + data.len ≤ expected.toNat then
        (⟨count + data.len, false⟩, .ready (some (.ok (.data data))))
      else
        (⟨count, true⟩, .ready (some (.error
          (.exactLengthOverflow expected (.ofNat (min (count + data.len) u64Max)))))) := rfl

/-- Trailers pass the gate. -/
theorem lengthGate_poll_trailers {expected : UInt64} (mapError : ε → BodyError) {count : Nat}
    (h : count ≤ expected.toNat) (trailers : HeaderMap) :
    (lengthGate expected mapError).poll ⟨count, false⟩ (.ready (some (.ok (.trailers trailers)))) =
      (⟨count, false⟩, .ready (some (.ok (.trailers trailers)))) :=
  if_pos h

/-- The counting body does what the gate does, as long as it can count. -/
theorem ExactLengthBody.pollFrame_gate (fromProducer : ε → BodyError) {this : ExactLengthBody}
    {state : Gate.State} (h : SamePlace this.expected this.seen this.terminal state)
    (answer : Answer ε Frame)
    (hfits : this.expected.toNat < u64Max ∨ this.terminal = true ∨
      this.seen.toNat + answer.weight Frame.len ≤ u64Max) :
    let next := ExactLengthBody.pollFrame fromProducer this answer
    let gated := (lengthGate this.expected fromProducer).poll state answer
    next.2 = gated.2 ∧ next.1.expected = this.expected ∧
      SamePlace this.expected next.1.seen next.1.terminal gated.1 := by
  obtain ⟨expected, seen, terminal⟩ := this
  obtain ⟨count, stateTerminal⟩ := state
  obtain ⟨rfl, rfl, hwithin⟩ := h
  cases terminal with
  | true => exact ⟨rfl, rfl, rfl, rfl, hwithin⟩
  | false =>
      match answer with
      | .pending | .ready (some (.error error)) => exact ⟨rfl, rfl, rfl, rfl, hwithin⟩
      | .ready none =>
          intro next gated
          simp only [next, gated, ExactLengthBody.pollFrame, Gate.poll, lengthGate,
            Bool.false_eq_true, if_false]
          by_cases heq : seen = expected
          · rw [if_pos heq, if_pos (congrArg UInt64.toNat heq)]
            exact ⟨rfl, rfl, rfl, rfl, hwithin⟩
          · have hne : ¬ seen.toNat = expected.toNat := fun h => heq (UInt64.toNat_inj.mp h)
            rw [if_neg heq, if_neg hne, UInt64.ofNat_toNat]
            exact ⟨rfl, rfl, rfl, rfl, hwithin⟩
      | .ready (some (.ok (.trailers trailers))) =>
          rw [lengthGate_poll_trailers fromProducer hwithin]
          exact ⟨rfl, rfl, rfl, rfl, hwithin⟩
      | .ready (some (.ok (.data data))) =>
          intro next gated
          simp only [next, gated, ExactLengthBody.pollFrame_data, lengthGate_poll_data]
          have hsame := saturated_le_iff (hfits.imp_right (fun h => h.resolve_left
            Bool.false_ne_true))
          change min (seen.toNat + data.len) u64Max ≤ expected.toNat ↔
            seen.toNat + data.len ≤ expected.toNat at hsame
          by_cases hle : seen.toNat + data.len ≤ expected.toNat
          · have hfit := Nat.le_trans hle (toNat_le_u64Max expected)
            have hnat := toNat_ofNat_of_le hfit
            rw [if_pos hle, if_pos (hsame.mpr hle), Nat.min_eq_left hfit]
            exact ⟨rfl, rfl, hnat, rfl, hnat.symm ▸ hle⟩
          · rw [if_neg hle, if_neg (fun hmin => hle (hsame.mp hmin))]
            exact ⟨rfl, rfl, rfl, rfl, hwithin⟩

/-! ## whole bodies -/

/-- `ExactLengthBody` at a place of its gate, with these polls to come. -/
structure ExactLengthBody.At (expected : UInt64) (answers : List (Answer ε Frame))
    (this : ExactLengthBody) (state : Gate.State) : Prop where
  expected_eq : this.expected = expected
  place : SamePlace expected this.seen this.terminal state
  countable : StillCountable expected Frame.len state.seen state.terminal answers

/-- The same from the gate's place. -/
theorem ExactLengthBody.At.poll (fromProducer : ε → BodyError) {expected : UInt64}
    {this : ExactLengthBody} {state : Gate.State} {answer : Answer ε Frame}
    {answers : List (Answer ε Frame)} (h : this.At expected (answer :: answers) state) :
    (ExactLengthBody.pollFrame fromProducer this answer).2 =
        ((lengthGate expected fromProducer).poll state answer).2 ∧
      (ExactLengthBody.pollFrame fromProducer this answer).1.At expected answers
        ((lengthGate expected fromProducer).poll state answer).1 := by
  obtain ⟨rfl, hplace, hcountable⟩ := h
  have hfits := hcountable.weight
  rw [← hplace.seen_eq, ← hplace.terminal_eq] at hfits
  obtain ⟨hanswer, hexpected, hnext⟩ :=
    ExactLengthBody.pollFrame_gate fromProducer hplace answer hfits
  exact ⟨hanswer, hexpected, hnext, hcountable.poll⟩

/-- A new body is at the gate's start. -/
theorem ExactLengthBody.at_new {expected : UInt64} {answers : List (Answer ε Frame)}
    (h : Countable expected Frame.len answers) :
    (ExactLengthBody.new expected).At expected answers Gate.init := by
  refine ⟨rfl, ⟨rfl, rfl, Nat.zero_le _⟩, ?_⟩
  refine h.imp id ?_
  intro hle
  exact .inr (by rwa [Gate.init, Nat.zero_add])

/-- The whole run is the gate's. -/
theorem ExactLengthBody.run_eq {expected : UInt64} {answers : List (Answer ε Frame)}
    (h : Countable expected Frame.len answers) (fromProducer : ε → BodyError) :
    run (ExactLengthBody.pollFrame fromProducer) (.new expected) answers =
      run (lengthGate expected fromProducer).poll Gate.init answers :=
  run_eq_of_lockstep
    (R := fun answers (this : ExactLengthBody) state => this.At expected answers state)
    (fun _ _ _ _ h => h.poll fromProducer) (ExactLengthBody.at_new h)

/-- Where the body is after part of a run. -/
theorem ExactLengthBody.place_after {expected : UInt64} {before rest : List (Answer ε Frame)}
    (h : Countable expected Frame.len (before ++ rest)) (fromProducer : ε → BodyError) :
    (after (ExactLengthBody.pollFrame fromProducer) (.new expected) before).At expected rest
      (after (lengthGate expected fromProducer).poll Gate.init before) :=
  after_of_lockstep
    (R := fun answers (this : ExactLengthBody) state => this.At expected answers state)
    (fun _ _ _ _ h => h.poll fromProducer) before rest (ExactLengthBody.at_new h)

/-- The counter is what was delivered. -/
theorem ExactLengthBody.seen_after {expected : UInt64} {before rest : List (Answer ε Frame)}
    (h : Countable expected Frame.len (before ++ rest)) (fromProducer : ε → BodyError) :
    (after (ExactLengthBody.pollFrame fromProducer) (.new expected) before).seen.toNat =
      total Frame.len
        (run (ExactLengthBody.pollFrame fromProducer) (.new expected) before) := by
  have hbefore : Countable expected Frame.len before := h.before (List.prefix_append before rest)
  rw [(ExactLengthBody.place_after h fromProducer).place.seen_eq, Gate.seen_after,
    ExactLengthBody.run_eq hbefore]
  exact Nat.zero_add _

/-- A size hint is what is left of the declared length, or nothing after the
end. -/
theorem ExactLengthBody.sizeHint_eq (this : ExactLengthBody) :
    this.sizeHint.toNat =
      if this.isEndStream then 0 else this.expected.toNat - this.seen.toNat := by
  unfold ExactLengthBody.sizeHint ExactLengthBody.isEndStream
  split
  · rfl
  · exact toNat_ofNat_of_le (Nat.le_trans (Nat.sub_le _ _) (toNat_le_u64Max _))

/-! ## multipart streams -/

/-- Chunks as frames. -/
def asFrame {δ : Type*} : Answer δ Bytes → Answer δ Frame
  | .pending => .pending
  | .ready none => .ready none
  | .ready (some (.error error)) => .ready (some (.error error))
  | .ready (some (.ok bytes)) => .ready (some (.ok (.data bytes)))

/-- A part of a form counts its chunks as a body does its frames. -/
theorem MultipartByteStream.pollNext_eq (into : ε → BodyError) (expected seen : UInt64)
    (terminal : Bool) (answer : Answer ε Bytes) :
    let next := MultipartByteStream.pollNext into ⟨some expected, seen, terminal⟩ answer
    let exact := ExactLengthBody.pollFrame into ⟨expected, seen, terminal⟩ (asFrame answer)
    asFrame next.2 = exact.2 ∧
      next.1 = ⟨some exact.1.expected, exact.1.seen, exact.1.terminal⟩ := by
  cases terminal with
  | true => exact ⟨rfl, rfl⟩
  | false =>
      match answer with
      | .pending | .ready (some (.error error)) => exact ⟨rfl, rfl⟩
      | .ready none =>
          intro next exact
          simp only [next, exact, MultipartByteStream.pollNext, ExactLengthBody.pollFrame, asFrame,
            Bool.false_eq_true, if_false]
          by_cases heq : seen = expected
          · simp only [heq, ne_eq, not_true_eq_false, if_false, if_true, and_self]
          · simp only [heq, ne_eq, not_false_eq_true, if_true, if_false, and_self]
      | .ready (some (.ok bytes)) =>
          intro next exact
          simp only [next, exact, MultipartByteStream.pollNext, ExactLengthBody.pollFrame, asFrame,
            Frame.dataRef, Bool.false_eq_true, if_false]
          by_cases hbeyond : saturatingAdd seen ((u64TryFrom bytes.len).getD maxU64) > expected
          · simp only [hbeyond, if_true, and_self]
          · simp only [hbeyond, if_false, and_self]

/-- A multipart stream with a declared length is an `ExactLengthBody` of its
chunks. -/
theorem MultipartByteStream.run_eq (into : ε → BodyError) (expected seen : UInt64)
    (terminal : Bool) (answers : List (Answer ε Bytes)) :
    (run (MultipartByteStream.pollNext into) ⟨some expected, seen, terminal⟩ answers).map asFrame =
      run (ExactLengthBody.pollFrame into) ⟨expected, seen, terminal⟩ (answers.map asFrame) := by
  induction answers generalizing expected seen terminal with
  | nil => rfl
  | cons answer answers ih =>
      obtain ⟨hanswer, hnext⟩ := MultipartByteStream.pollNext_eq into expected seen terminal answer
      simp only [run, List.map_cons, hanswer, hnext, ih]

/-! ## declared lengths -/

section declared

variable {expected : UInt64} {answers : List (Answer ε Frame)}

/-- A run ends cleanly exactly if the body ends at the declared length. -/
theorem ExactLengthBody.endsCleanly_iff (h : Countable expected Frame.len answers)
    (fromProducer : ε → BodyError) :
    EndsCleanly (run (ExactLengthBody.pollFrame fromProducer) (.new expected) answers) ↔
      ∃ before rest, answers = before ++ .ready none :: rest ∧
        (∀ answer ∈ before, answer.goesOn = true) ∧ total Frame.len before = expected.toNat := by
  rw [ExactLengthBody.run_eq h, Gate.endsCleanly_run_iff]
  constructor
  · rintro ⟨before, rest, rfl, hgoes, _, hclose⟩
    exact ⟨before, rest, rfl, hgoes, (lengthGate_close _ _ _).mp hclose⟩
  · rintro ⟨before, rest, rfl, hgoes, htotal⟩
    exact ⟨before, rest, rfl, hgoes, Nat.le_of_eq htotal, (lengthGate_close _ _ _).mpr htotal⟩

/-- What a body delivers that comes to a clean end. -/
theorem ExactLengthBody.total_of_endsCleanly (h : Countable expected Frame.len answers)
    (fromProducer : ε → BodyError)
    (hclean : EndsCleanly (run (ExactLengthBody.pollFrame fromProducer) (.new expected) answers)) :
    total Frame.len (run (ExactLengthBody.pollFrame fromProducer) (.new expected) answers) =
      expected.toNat := by
  rw [ExactLengthBody.run_eq h] at hclean ⊢
  exact (lengthGate_close _ _ _).mp (Gate.close_of_endsCleanly hclean)

/-- A body that is closed has ended. -/
theorem ExactLengthBody.run_terminal (fromProducer : ε → BodyError) {this : ExactLengthBody}
    (h : this.terminal = true) (answers : List (Answer ε Frame)) :
    run (ExactLengthBody.pollFrame fromProducer) this answers = ended answers := by
  induction answers with
  | nil => rfl
  | cons answer answers ih =>
      simp only [run, ExactLengthBody.pollFrame, if_pos h, ih, ended, List.map_cons]

end declared

/-- What is asked of a body with a declared length. -/
structure DeclaredExactly (expected : UInt64) (fromProducer : ε → BodyError)
    (answers : List (Answer ε Frame)) : Prop where
  yields : (lengthGate expected fromProducer).Yields answers
    (run (ExactLengthBody.pollFrame fromProducer) (.new expected) answers)
  clean : EndsCleanly (run (ExactLengthBody.pollFrame fromProducer) (.new expected) answers) ↔
    ∃ before rest, answers = before ++ .ready none :: rest ∧
      (∀ answer ∈ before, answer.goesOn = true) ∧ total Frame.len before = expected.toNat
  atMost : total Frame.len
    (run (ExactLengthBody.pollFrame fromProducer) (.new expected) answers) ≤ expected.toNat
  oneError : ∀ before error rest,
    run (ExactLengthBody.pollFrame fromProducer) (.new expected) answers =
      before ++ .ready (some (.error error)) :: rest →
    (∀ answer ∈ before, answer.goesOn = true) ∧ ∀ answer ∈ rest, answer = .ready none
  hint : ∀ before rest, answers = before ++ rest →
    let this := after (ExactLengthBody.pollFrame fromProducer) (.new expected) before
    this.sizeHint.toNat =
      if this.isEndStream then 0
      else expected.toNat - total Frame.len
        (run (ExactLengthBody.pollFrame fromProducer) (.new expected) before)
  hintClean : ∀ before rest, answers = before ++ rest →
    EndsCleanly (run (ExactLengthBody.pollFrame fromProducer) (.new expected) answers) →
    let this := after (ExactLengthBody.pollFrame fromProducer) (.new expected) before
    this.sizeHint.toNat = total Frame.len (run (ExactLengthBody.pollFrame fromProducer) this rest)

/-- **Bodies with a declared length**, of which there is a count above the
length or whose data can be counted: they deliver the inner frames up to the
declared length, come to a clean end exactly if the inner body does with that
many bytes, and else fail once and then end.  The size hint is what is left of
the declared length, and is what comes if the end is clean.  A multipart stream
of the same chunks yields the same, whatever they are. -/
theorem declared_length_exact (expected : UInt64) (fromProducer : ε → BodyError) :
    (∀ answers : List (Answer ε Frame), Countable expected Frame.len answers →
      DeclaredExactly expected fromProducer answers) ∧
    ∀ chunks : List (Answer ε Bytes),
      (run (MultipartByteStream.pollNext fromProducer) (.new (some expected)) chunks).map asFrame =
        run (ExactLengthBody.pollFrame fromProducer) (.new expected) (chunks.map asFrame) := by
  refine ⟨?_, fun chunks => MultipartByteStream.run_eq fromProducer expected 0 false chunks⟩
  intro answers h
  have hrun := ExactLengthBody.run_eq h fromProducer
  refine ⟨Gate.yields_iff.mpr hrun, ExactLengthBody.endsCleanly_iff h fromProducer, ?_, ?_, ?_, ?_⟩
  · rw [hrun]
    exact (lengthGate expected fromProducer).total_run_le answers
  · intro before error rest herror
    rw [hrun] at herror
    exact Gate.run_error herror
  · rintro before rest rfl this
    have hexpected : this.expected = expected :=
      (ExactLengthBody.place_after h fromProducer).expected_eq
    rw [this.sizeHint_eq, hexpected, ExactLengthBody.seen_after h fromProducer]
  · rintro before rest rfl hclean this
    have hexpected : this.expected = expected :=
      (ExactLengthBody.place_after h fromProducer).expected_eq
    have htotal := ExactLengthBody.total_of_endsCleanly h fromProducer hclean
    have hseen : this.seen.toNat = _ := ExactLengthBody.seen_after h fromProducer
    rw [run_append, total_append, ← hseen] at htotal
    rw [this.sizeHint_eq, hexpected]
    cases hterminal : this.terminal with
    | true =>
        rw [ExactLengthBody.run_terminal fromProducer hterminal, total_ended,
          ExactLengthBody.isEndStream, if_pos hterminal]
    | false =>
        rw [ExactLengthBody.isEndStream, hterminal, if_neg Bool.false_ne_true, ← htotal]
        exact Nat.add_sub_cancel_left _ _

/-- Nothing comes of a byte that was declared if the body ends at once. -/
theorem size_hint_not_exact :
    (ExactLengthBody.new 1).isEndStream = false ∧ (ExactLengthBody.new 1).sizeHint.toNat = 1 ∧
      total Frame.len (run (ExactLengthBody.pollFrame id) (.new 1)
        ([.ready none] : List (Answer BodyError Frame))) = 0 := by
  decide

/-- Three bytes in two frames with trailers between them, of which the second is
waited for. -/
def threeBytesInFrames : List (Answer BodyError Frame) :=
  [.ready (some (.ok (.data ⟨[7], Nat.succ_le_of_lt (Nat.succ_pos _)⟩))),
    .ready (some (.ok (.trailers .empty))), .pending,
    .ready (some (.ok (.data ⟨[8, 9], Nat.succ_le_of_lt (by decide)⟩))), .ready none]

/-- The body comes to a clean end if three bytes were declared, and not if four
or two were: of the latter no more than two come. -/
theorem declared_length_exact_three :
    EndsCleanly (run (ExactLengthBody.pollFrame id) (.new 3) threeBytesInFrames) ∧
      ¬ EndsCleanly (run (ExactLengthBody.pollFrame id) (.new 4) threeBytesInFrames) ∧
      total Frame.len (run (ExactLengthBody.pollFrame id) (.new 2) threeBytesInFrames) ≤ 2 := by
  have hcountable (expected : UInt64) (h : expected.toNat < u64Max) :
      Countable expected Frame.len threeBytesInFrames := .inl h
  refine ⟨?_, ?_, ((declared_length_exact 2 id).1 threeBytesInFrames (hcountable 2 (by decide))).atMost⟩
  · rw [((declared_length_exact 3 id).1 threeBytesInFrames (hcountable 3 (by decide))).clean]
    exact ⟨threeBytesInFrames.take 4, [], rfl, by decide, by decide⟩
  · rw [((declared_length_exact 4 id).1 threeBytesInFrames (hcountable 4 (by decide))).clean]
    rintro ⟨before, rest, hsplit, hgoes, htotal⟩
    have hfirst : before = threeBytesInFrames.take 4 :=
      (first_stop_unique hgoes (by decide) rfl rfl (hsplit.symm.trans rfl)).1
    rw [hfirst] at htotal
    revert htotal
    decide

end Concord
