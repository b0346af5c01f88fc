import Mathlib.Data.List.TakeWhile
import Concord.Lib.Delivery
import Concord.Body.Limit

/-!
# Concord.Body.SizeHint

Size hints of the body adapters (`concord_core/src/transport.rs`,
`concord_core/src/body.rs`): what they say of the data that is still to come.

A limiter cannot promise what the inner body promises: the frame that goes
beyond the limit is dropped as a whole, so that less than the limit, and less
than the lower bound of the inner body, may be delivered.
-/

namespace Concord

open Checked Polled

variable {ε : Type*}

/-! ## hints -/

/-- `SizeHint` of the `http-body` crate. -/
structure SizeHint where
  lower : UInt64
  upper : Option UInt64
  le : upper.all (fun bound => decide (lower ≤ bound)) = true
  deriving DecidableEq

namespace SizeHint

/-- At least nothing, and no upper bound. -/
def new : SizeHint := ⟨0, none, rfl⟩

/-- Exactly this many bytes. -/
def withExact (value : UInt64) : SizeHint :=
  ⟨value, some value, decide_eq_true (UInt64.le_refl value)⟩

/-- `set_lower`, which panics if the upper bound is below the value. -/
def setLower (hint : SizeHint) (value : UInt64) : Option SizeHint :=
  if h : hint.upper.all (fun bound => decide (value ≤ bound)) = true then
    some ⟨value, hint.upper, h⟩
  else none

/-- `set_upper`, which panics if the value is below the lower bound. -/
def setUpper (hint : SizeHint) (value : UInt64) : Option SizeHint :=
  if h : decide (hint.lower ≤ value) = true then some ⟨hint.lower, some value, h⟩ else none

end SizeHint

/-- `exact_hint`. -/
def exactHint (length : UInt64) : Option SizeHint :=
  (SizeHint.new.setLower length).bind (·.setUpper length)

/-- `u64::min`. -/
def minU64 (a b : UInt64) : UInt64 := if a ≤ b then a else b

/-- `u64::saturating_sub`. -/
def saturatingSub (a b : UInt64) : UInt64 := .ofNat (a.toNat - b.toNat)

/-- `u64::checked_sub`. -/
def checkedSubU64 (a b : UInt64) : Option UInt64 := if b ≤ a then some (a - b) else none

/-! ## adapters -/

/-- `size_hint`, given that of the inner body; `none` is a panic. -/
def BoundedResponseStream.sizeHint (this : BoundedResponseStream ε) (inner : SizeHint) :
    Option SizeHint :=
  if this.terminal then some (.withExact 0)
  else
    match this.limit with
    | none => some inner
    | some limit =>
      let remaining := saturatingSub limit this.seen
      let hint :=
        if inner.lower ≤ remaining then SizeHint.new.setLower inner.lower else some SizeHint.new
      hint.bind (·.setUpper (minU64 (inner.upper.getD remaining) remaining))

/-- `size_hint`, given that of the inner body; `none` is a panic. -/
def LimitedBody.sizeHint (this : LimitedBody) (inner : SizeHint) : Option SizeHint :=
  if this.terminal then exactHint 0
  else
    let remaining := (checkedSubU64 this.limit this.seen).getD 0
    let hint := SizeHint.new.setLower (if inner.lower ≤ remaining then inner.lower else 0)
    let upper :=
      match inner.upper with
      | some upper => minU64 upper remaining
      | none => remaining
    hint.bind (·.setUpper upper)

/-- `HintedBody`: the hint is given with the body. -/
structure HintedBody where
  lower : UInt64
  upper : Option UInt64
  terminal : Bool
  deriving DecidableEq

namespace HintedBody

/-- `with_size_hint`. -/
def new (hint : SizeHint) : HintedBody := ⟨hint.lower, hint.upper, false⟩

/-- What is left of the hint after a data frame. -/
def consume (this : HintedBody) (data : Bytes) : HintedBody :=
  match u64TryFrom data.len with
  | some length =>
    { this with
      lower := saturatingSub this.lower length
      upper :=
        match this.upper with
        | some upper => if length ≤ upper then some (upper - length) else none
        | none => none }
  | none => { this with lower := 0, upper := none }

/-- `poll_frame`: the hint loses the bytes of every frame that is passed on. -/
def pollFrame (this : HintedBody) (answer : Answer BodyError Frame) :
    HintedBody × Answer BodyError Frame :=
  if this.terminal then (this, .ready none)
  else
    match answer with
    | .ready (some (.ok frame)) =>
      match frame.dataRef with
      | none => (this, .ready (some (.ok frame)))
      | some data => (this.consume data, .ready (some (.ok frame)))
    | .ready (some (.error error)) => (this, .ready (some (.error error)))
    | .ready none => (⟨0, some 0, true⟩, .ready none)
    | .pending => (this, .pending)

/-- `size_hint`; `none` is a panic. -/
def sizeHint (this : HintedBody) : Option SizeHint :=
  if this.terminal then exactHint 0
  else
    (SizeHint.new.setLower this.lower).bind fun hint =>
      match this.upper with
      | some upper => hint.setUpper upper
      | none => some hint

end HintedBody

/-! ## what a hint says -/

/-- The hint bounds what is delivered after `n` polls. -/
structure SizeHint.Bounds (hint : SizeHint) (data : Nat → Nat) (n : Nat) : Prop where
  lower : ∃ m, data n + hint.lower.toNat ≤ data (n + m)
  upper : ∀ bound ∈ hint.upper, ∀ m, data (n + m) ≤ data n + bound.toNat

/-- A body: what it answers to polls, and its hint after each number of
polls. -/
structure InnerBody (ε : Type*) where
  answers : Nat → Answer ε Frame
  hint : Nat → SizeHint

/-- The bytes that a body delivers before its first error or its end. -/
def InnerBody.data (body : InnerBody ε) (n : Nat) : Nat := delivered Frame.len body.answers n

/-- The hints of a body bound what it delivers. -/
def InnerBody.Truthful (body : InnerBody ε) : Prop := ∀ n, (body.hint n).Bounds body.data n

/-! ## the hint of a limiter -/

theorem toNat_saturatingSub (a b : UInt64) : (saturatingSub a b).toNat = a.toNat - b.toNat := by
  have hle := toNat_le_u64Max a
  exact toNat_ofNat_of_le (by omega)

theorem toNat_checkedSubU64 (a b : UInt64) :
    ((checkedSubU64 a b).getD 0).toNat = a.toNat - b.toNat := by
  unfold checkedSubU64
  split
  · next hle => exact UInt64.toNat_sub_of_le a b hle
  · next hle =>
      rw [UInt64.le_iff_toNat_le] at hle
      have hzero : (0 : UInt64).toNat = 0 := rfl
      rw [Option.getD_none, hzero]
      omega

/-- Setting both bounds to one length makes an exact hint. -/
@[simp] theorem exactHint_eq (length : UInt64) : exactHint length = some (.withExact length) := by
  simp [exactHint, SizeHint.setLower, SizeHint.setUpper, SizeHint.new, SizeHint.withExact]

/-- What both limiters make of the hint of the inner body. -/
def limitHint (inner : SizeHint) (remaining : UInt64) : Option SizeHint :=
  (SizeHint.new.setLower (if inner.lower ≤ remaining then inner.lower else 0)).bind
    (·.setUpper (minU64 (inner.upper.getD remaining) remaining))

/-- The hint of an open `LimitedBody` is the inner one, cut to what is left of the limit. -/
theorem LimitedBody.sizeHint_eq (limit seen : UInt64) (inner : SizeHint) :
    (⟨limit, seen, false⟩ : LimitedBody).sizeHint inner =
      limitHint inner ((checkedSubU64 limit seen).getD 0) := by
  simp only [LimitedBody.sizeHint, limitHint, Bool.false_eq_true, if_false]
  cases inner.upper with
  | some upper => rfl
  | none => simp [minU64]

/-- The same of `BoundedResponseStream`. -/
theorem BoundedResponseStream.sizeHint_eq (limit seen : UInt64) (errorMapper : ε → BodyError)
    (inner : SizeHint) :
    (⟨some limit, seen, false, errorMapper⟩ : BoundedResponseStream ε).sizeHint inner =
      limitHint inner (saturatingSub limit seen) := by
  simp only [BoundedResponseStream.sizeHint, limitHint, Bool.false_eq_true, if_false]
  split
  · rfl
  · rfl

/-- The lower bound that still fits and an upper bound, of the inner body or
of the limit. -/
structure LimitHint (inner : SizeHint) (remaining : Nat) (hint : SizeHint) : Prop where
  lower : hint.lower.toNat =
    if inner.lower.toNat ≤ remaining then inner.lower.toNat else 0
  upper : ∃ upper, hint.upper = some upper ∧
    (upper.toNat = remaining ∨ inner.upper = some upper)

/-- The bounds of a limiter are in order, so that no setter panics. -/
theorem exists_limitHint (inner : SizeHint) (remaining : UInt64) :
    ∃ hint, limitHint inner remaining = some hint ∧ LimitHint inner remaining.toNat hint := by
  have hlower : (if inner.lower ≤ remaining then inner.lower else 0).toNat =
      if inner.lower.toNat ≤ remaining.toNat then inner.lower.toNat else 0 := by
    simp only [UInt64.le_iff_toNat_le]
    split
    · rfl
    · rfl
  have hupper : (minU64 (inner.upper.getD remaining) remaining).toNat = remaining.toNat ∨
      inner.upper = some (minU64 (inner.upper.getD remaining) remaining) := by
    cases inner.upper with
    | none => simp [minU64]
    | some upper =>
        unfold minU64
        split
        · exact .inr rfl
        · exact .inl rfl
  have hle : (if inner.lower ≤ remaining then inner.lower else 0) ≤
      minU64 (inner.upper.getD remaining) remaining := by
    rw [UInt64.le_iff_toNat_le, hlower]
    split
    · next hfits =>
        rcases hupper with hremaining | hinner
        · omega
        · have hordered := inner.le
          rw [hinner, Option.all_some, decide_eq_true_eq, UInt64.le_iff_toNat_le] at hordered
          exact hordered
    · exact Nat.zero_le _
  refine ⟨⟨_, some _, decide_eq_true hle⟩, ?_, hlower, _, rfl, hupper⟩
  simp [limitHint, SizeHint.setLower, SizeHint.setUpper, SizeHint.new, hle]

/-! ## hints of gates -/

/-- A hint for a gate: nothing more comes once it is shut. -/
inductive GateHint (bound : Nat) (state : Gate.State) (inner hint : SizeHint) : Prop
  | shut (hterminal : state.terminal = true) (hlower : hint.lower = 0)
  | passing (hterminal : state.terminal = false)
      (hlimit : LimitHint inner (bound - state.seen) hint)

/-- The hint of an open gate is the inner one, cut to what is left. -/
theorem GateHint.limitHint {bound : Nat} {state : Gate.State} {inner hint : SizeHint}
    (h : GateHint bound state inner hint) (hterminal : state.terminal = false) :
    LimitHint inner (bound - state.seen) hint := by
  cases h with
  | shut hshut hlower =>
      rw [hterminal] at hshut
      contradiction
  | passing _ hlimit => exact hlimit

/-- A gate that is shut promises nothing. -/
theorem GateHint.lower_eq {bound : Nat} {state : Gate.State} {inner hint : SizeHint}
    (h : GateHint bound state inner hint) (hterminal : state.terminal = true) :
    hint.lower = 0 := by
  cases h with
  | shut _ hlower => exact hlower
  | passing hpassing _ =>
      rw [hterminal] at hpassing
      contradiction

/-- `LimitedBody` reports the hint of its gate. -/
theorem LimitedBody.exists_sizeHint {this : LimitedBody} {limit : UInt64} {state : Gate.State}
    (hlimited : this.limit = limit) (h : SamePlace limit this.seen this.terminal state)
    (inner : SizeHint) :
    ∃ hint, this.sizeHint inner = some hint ∧ GateHint limit.toNat state inner hint := by
  obtain ⟨limit, seen, terminal⟩ := this
  obtain ⟨hseen, hterminal, _⟩ := h
  subst hlimited
  cases terminal with
  | true => exact ⟨.withExact 0, by simp [LimitedBody.sizeHint], .shut hterminal.symm rfl⟩
  | false =>
      obtain ⟨hint, hhint, hlimit⟩ :=
        exists_limitHint inner ((checkedSubU64 limit seen).getD 0)
      rw [toNat_checkedSubU64, hseen] at hlimit
      exact ⟨hint, by rw [LimitedBody.sizeHint_eq, hhint], .passing hterminal.symm hlimit⟩

/-- `BoundedResponseStream` reports the hint of its gate. -/
theorem BoundedResponseStream.exists_sizeHint {this : BoundedResponseStream ε} {limit : UInt64}
    {state : Gate.State} (hlimited : this.limit = some limit)
    (h : SamePlace limit this.seen this.terminal state) (inner : SizeHint) :
    ∃ hint, this.sizeHint inner = some hint ∧ GateHint limit.toNat state inner hint := by
  obtain ⟨_, seen, terminal, errorMapper⟩ := this
  obtain ⟨hseen, hterminal, _⟩ := h
  cases hlimited
  cases terminal with
  | true =>
      exact ⟨.withExact 0, by simp [BoundedResponseStream.sizeHint], .shut hterminal.symm rfl⟩
  | false =>
      obtain ⟨hint, hhint, hlimit⟩ := exists_limitHint inner (saturatingSub limit seen)
      rw [toNat_saturatingSub, hseen] at hlimit
      exact ⟨hint, by rw [BoundedResponseStream.sizeHint_eq, hhint],
        .passing hterminal.symm hlimit⟩

/-- Wherever a lower bound of the body fits a limit, some number of its coming
frames makes that much and fits the limit too. -/
def InnerBody.Reaches (body : InnerBody ε) (limit : UInt64) : Prop :=
  ∀ n, body.data n + (body.hint n).lower.toNat ≤ limit.toNat →
    ∃ m, body.data n + (body.hint n).lower.toNat ≤ body.data (n + m) ∧
      body.data (n + m) ≤ limit.toNat

/-- **Hints of a limiter**: they are right just where the body reaches its
lower bounds within the limit. -/
theorem gateHints_bound_iff {body : InnerBody ε} (htruthful : body.Truthful) (limit : UInt64)
    (mapError : ε → BodyError) {hint : Nat → SizeHint}
    (hhint : ∀ n, GateHint limit.toNat
      (after (limitGate limit mapError).poll Gate.init (firsts body.answers n))
      (body.hint n) (hint n)) :
    (∀ n, (hint n).Bounds ((limitGate limit mapError).out body.answers) n) ↔
      body.Reaches limit := by
  constructor
  · intro hbounds n hfits
    cases (limitGate limit mapError).place body.answers n with
    | passing hstate hle hout =>
        have hlimit := (hhint n).limitHint (by rw [hstate])
        have hseen : (after (limitGate limit mapError).poll Gate.init
            (firsts body.answers n)).seen = body.data n := by
          rw [hstate]
          rfl
        have hlower : (hint n).lower.toNat = (body.hint n).lower.toNat := by
          rw [hlimit.lower, hseen, if_pos (by omega)]
        have hmore := (hbounds n).lower
        rw [hlower] at hmore
        exact (Gate.out_reaches_iff hout _).mp hmore
    | shut hterminal k hk hle hout hinner =>
        -- the limit has not been passed, so the inner body has stopped
        have hdata : body.data n ≤ limit.toNat := by omega
        rcases hinner with hbeyond | ⟨hstopped, _⟩
        · exact absurd hbeyond (Nat.not_lt_of_le hdata)
        · obtain ⟨m, hm⟩ := (htruthful n).lower
          have hconst : body.data (n + m) = body.data n := hstopped.delivered m
          exact ⟨m, hm, by omega⟩
  · intro hreaches n
    cases (limitGate limit mapError).place body.answers n with
    | passing hstate hle hout =>
        have hlimit := (hhint n).limitHint (by rw [hstate])
        have hseen : (after (limitGate limit mapError).poll Gate.init
            (firsts body.answers n)).seen = body.data n := by
          rw [hstate]
          rfl
        have hbound : body.data n ≤ limit.toNat := hle
        constructor
        · rw [hlimit.lower, hseen]
          split
          · exact (Gate.out_reaches_iff hout _).mpr (hreaches n (by omega))
          · exact ⟨0, Nat.le_refl _⟩
        · intro bound hupper m
          obtain ⟨k, hk, hout', hle'⟩ :=
            (limitGate limit mapError).out_le_delivered body.answers (n + m)
          have hwithin : body.data k ≤ limit.toNat := hle'
          have hmono : body.data k ≤ body.data (n + m) := delivered_le_of_le hk
          rw [hout, hout']
          show body.data k ≤ body.data n + bound.toNat
          obtain ⟨upper, heq, hcases⟩ := hlimit.upper
          obtain rfl : upper = bound := by simpa [heq] using hupper
          rcases hcases with hremaining | hinner
          · rw [hseen] at hremaining
            omega
          · have hdata := (htruthful n).upper upper hinner m
            omega
    | shut hterminal k hk hle hout hinner =>
        have hlower := (hhint n).lower_eq hterminal
        constructor
        · exact ⟨0, by simp [hlower]⟩
        · intro bound _ m
          rw [hout m, ← hout 0]
          exact Nat.le_add_right _ _

/-! ## adapters on a body -/

/-- Whatever has been polled, an adapter reports a hint, and it bounds what the
adapter will deliver. -/
def HintsBound {σ : Type*} (pollFrame : σ → Answer ε Frame → σ × Answer BodyError Frame)
    (sizeHint : σ → SizeHint → Option SizeHint) (init : σ) (body : InnerBody ε) : Prop :=
  ∀ n, ∃ hint, sizeHint (after pollFrame init (firsts body.answers n)) (body.hint n) = some hint ∧
    hint.Bounds (delivered Frame.len (answersOf pollFrame init body.answers)) n

/-- An adapter that does what a limit does, with hints of that limit. -/
theorem hintsBound_iff_of_gate {σ : Type*}
    {pollFrame : σ → Answer ε Frame → σ × Answer BodyError Frame}
    {sizeHint : σ → SizeHint → Option SizeHint} {init : σ} {body : InnerBody ε}
    (htruthful : body.Truthful) (limit : UInt64) (mapError : ε → BodyError)
    (hrun : ∀ n, run pollFrame init (firsts body.answers n) =
      run (limitGate limit mapError).poll Gate.init (firsts body.answers n))
    (hhint : ∀ n, ∃ hint,
      sizeHint (after pollFrame init (firsts body.answers n)) (body.hint n) = some hint ∧
        GateHint limit.toNat
          (after (limitGate limit mapError).poll Gate.init (firsts body.answers n))
          (body.hint n) hint) :
    HintsBound pollFrame sizeHint init body ↔ body.Reaches limit := by
  have hout (n : Nat) : delivered Frame.len (answersOf pollFrame init body.answers) n =
      (limitGate limit mapError).out body.answers n := by
    rw [Gate.out, delivered, delivered, firsts_answersOf, firsts_answersOf, hrun]
    rfl
  obtain ⟨hint, hhint⟩ := Classical.axiomOfChoice hhint
  have hfun : delivered Frame.len (answersOf pollFrame init body.answers) =
      (limitGate limit mapError).out body.answers := funext hout
  rw [← gateHints_bound_iff htruthful limit mapError fun n => (hhint n).2, HintsBound, hfun]
  constructor
  · intro h n
    obtain ⟨found, hfound, hbounds⟩ := h n
    rw [(hhint n).1, Option.some.injEq] at hfound
    rw [hfound]
    exact hbounds
  · intro h n
    exact ⟨hint n, (hhint n).1, h n⟩

/-- After any answers `LimitedBody` is where its gate is. -/
theorem LimitedBody.at_after (fromProducer : ε → BodyError) (limit : UInt64)
    (answers : List (Answer ε Frame)) :
    (after (LimitedBody.pollFrame fromProducer) (.new limit) answers).At limit
      (after (limitGate limit fromProducer).poll Gate.init answers) :=
  after_of_lockstep (R := fun _ this state => LimitedBody.At limit this state)
    (fun answer _ _ _ h => h.poll fromProducer answer) answers [] (LimitedBody.at_new limit)

/-- So is `BoundedResponseStream` if it can count the data. -/
theorem BoundedResponseStream.at_after {limit : UInt64} {answers : List (Answer ε Frame)}
    (h : Countable limit Frame.len answers) (errorMapper : ε → BodyError) :
    (after BoundedResponseStream.pollFrame (.new (some limit) errorMapper) answers).At limit
      errorMapper [] (after (limitGate limit errorMapper).poll Gate.init answers) := by
  have hat := BoundedResponseStream.at_new h errorMapper
  rw [← List.append_nil answers] at hat
  exact after_of_lockstep
    (R := fun answers this state => BoundedResponseStream.At limit errorMapper answers this state)
    (fun _ _ _ _ h => h.poll) answers [] hat

/-- The hints of `LimitedBody` are right just where the body reaches its lower bounds. -/
theorem LimitedBody.hintsBound_iff {body : InnerBody ε} (htruthful : body.Truthful)
    (limit : UInt64) (fromProducer : ε → BodyError) :
    HintsBound (LimitedBody.pollFrame fromProducer) LimitedBody.sizeHint (.new limit) body ↔
      body.Reaches limit := by
  refine hintsBound_iff_of_gate htruthful limit fromProducer
    (fun n => LimitedBody.run_eq fromProducer limit _) fun n => ?_
  have hat := LimitedBody.at_after fromProducer limit (firsts body.answers n)
  exact LimitedBody.exists_sizeHint hat.limit_eq hat.place (body.hint n)

/-- The data of the body can be counted, as far as the limit needs it. -/
def InnerBody.Countable (body : InnerBody ε) (limit : UInt64) : Prop :=
  limit.toNat < u64Max ∨ ∀ n, body.data n ≤ u64Max

/-- So are those of `BoundedResponseStream` if it can count the data. -/
theorem BoundedResponseStream.hintsBound_iff_of_countable {body : InnerBody ε}
    (htruthful : body.Truthful) {limit : UInt64} (hcountable : body.Countable limit)
    (errorMapper : ε → BodyError) :
    HintsBound BoundedResponseStream.pollFrame BoundedResponseStream.sizeHint
        (.new (some limit) errorMapper) body ↔ body.Reaches limit := by
  have hfirsts (n : Nat) : Concord.Countable limit Frame.len (firsts body.answers n) :=
    hcountable.imp id fun h => h n
  refine hintsBound_iff_of_gate htruthful limit errorMapper
    (fun n => BoundedResponseStream.run_eq (hfirsts n) errorMapper) fun n => ?_
  have hat := BoundedResponseStream.at_after (hfirsts n) errorMapper
  exact BoundedResponseStream.exists_sizeHint hat.limit_eq hat.place (body.hint n)

/-- With the largest limit there is nothing is dropped, but the hint says that
no more than the limit will come. -/
theorem BoundedResponseStream.countable_of_hintsBound {body : InnerBody ε} {limit : UInt64}
    {errorMapper : ε → BodyError}
    (h : HintsBound BoundedResponseStream.pollFrame BoundedResponseStream.sizeHint
      (.new (some limit) errorMapper) body) : body.Countable limit := by
  by_contra hnot
  rw [InnerBody.Countable, not_or, Nat.not_lt, not_forall] at hnot
  obtain ⟨hlimit, n, hdata⟩ := hnot
  have hbeyond : u64Max < body.data n := Nat.lt_of_not_le hdata
  obtain rfl := eq_maxU64 hlimit
  -- the answers that count
  have hsplit : firsts body.answers n = live (firsts body.answers n) ++
      (firsts body.answers n).dropWhile Answer.goesOn := List.takeWhile_append_dropWhile.symm
  have hlive := eq_firsts hsplit
  have hgoes : ∀ answer ∈ live (firsts body.answers n), answer.goesOn = true :=
    fun answer hmem => List.mem_takeWhile_imp hmem
  have hrun := (BoundedResponseStream.run_max hgoes errorMapper 0).1
  obtain ⟨hint, hhint, hbounds⟩ := h 0
  obtain ⟨found, hfound, _, upper, hupper, _⟩ :=
    exists_limitHint (body.hint 0) (saturatingSub maxU64 0)
  have hsome : some hint = some found := by
    rw [← hhint, ← hfound]
    exact BoundedResponseStream.sizeHint_eq maxU64 0 errorMapper (body.hint 0)
  rw [Option.some.injEq] at hsome
  have hle := hbounds.upper upper (by rw [hsome]; exact hupper)
    (live (firsts body.answers n)).length
  rw [Nat.zero_add, delivered, firsts_answersOf, ← hlive, BoundedResponseStream.new, hrun,
    live_eq_self (Gate.goesOn_pass hgoes), total_pass] at hle
  have hcounted : body.data n = total Frame.len (live (firsts body.answers n)) := rfl
  have hzero : delivered Frame.len (answersOf BoundedResponseStream.pollFrame
      ⟨some maxU64, 0, false, errorMapper⟩ body.answers) 0 = 0 := rfl
  have hbound := toNat_le_u64Max upper
  omega

/-- If it cannot, its hints are wrong. -/
theorem BoundedResponseStream.hintsBound_iff {body : InnerBody ε} (htruthful : body.Truthful)
    (limit : UInt64) (errorMapper : ε → BodyError) :
    HintsBound BoundedResponseStream.pollFrame BoundedResponseStream.sizeHint
        (.new (some limit) errorMapper) body ↔ body.Reaches limit ∧ body.Countable limit := by
  constructor
  · intro h
    have hcountable := countable_of_hintsBound h
    exact ⟨(hintsBound_iff_of_countable htruthful hcountable errorMapper).mp h, hcountable⟩
  · rintro ⟨hreaches, hcountable⟩
    exact (hintsBound_iff_of_countable htruthful hcountable errorMapper).mpr hreaches

/-! ## bodies that are passed on -/

/-- Without a limit an open stream hands out what it polls. -/
theorem BoundedResponseStream.pollFrame_unlimited {this : BoundedResponseStream ε}
    (h : this.limit = none) (hopen : this.terminal = false) (answer : Answer ε Frame) :
    (this.pollFrame answer).1.limit = none ∧
      (this.pollFrame answer).2.goesOn = answer.goesOn ∧
      (this.pollFrame answer).2.weight Frame.len = answer.weight Frame.len := by
  obtain ⟨_, seen, terminal, errorMapper⟩ := this
  cases h
  cases hopen
  match answer with
  | .pending | .ready none | .ready (some (.error error))
  | .ready (some (.ok (.trailers trailers))) | .ready (some (.ok (.data data))) =>
      exact ⟨rfl, rfl, rfl⟩

/-- Without a limit every frame is passed on. -/
theorem BoundedResponseStream.relays :
    Relays Frame.len (BoundedResponseStream.pollFrame (ε := ε)) (fun this => this.limit = none)
      BoundedResponseStream.terminal where
  keeps {this} h answer := by
    cases hterminal : this.terminal with
    | false => exact (pollFrame_unlimited h hterminal answer).1
    | true =>
        unfold BoundedResponseStream.pollFrame
        rw [hterminal]
        exact h
  goesOn h hopen answer := (pollFrame_unlimited h hopen answer).2.1
  weight h hopen answer := (pollFrame_unlimited h hopen answer).2.2
  shuts {this} h answer hshut := by
    obtain ⟨_, seen, terminal, errorMapper⟩ := this
    cases h
    cases terminal with
    | true => exact .inl rfl
    | false =>
        match answer with
        | .ready none | .ready (some (.error error)) => exact .inr rfl
        | .pending | .ready (some (.ok (.trailers trailers)))
        | .ready (some (.ok (.data data))) => contradiction

/-- Without a limit the hint of the inner body is as good as it was. -/
theorem BoundedResponseStream.hintsBound_unlimited {body : InnerBody ε}
    (htruthful : body.Truthful) (errorMapper : ε → BodyError) :
    HintsBound BoundedResponseStream.pollFrame BoundedResponseStream.sizeHint
      (.new none errorMapper) body := by
  intro n
  have hrelays := BoundedResponseStream.relays (ε := ε)
  have hdelivered : delivered Frame.len (answersOf BoundedResponseStream.pollFrame
      (.new none errorMapper) body.answers) = body.data :=
    funext fun n => (hrelays.delivered rfl rfl body.answers n).1
  have hlimit : (after BoundedResponseStream.pollFrame (.new none errorMapper)
      (firsts body.answers n)).limit = none := hrelays.valid_after rfl _
  rw [hdelivered]
  cases hterminal : (after BoundedResponseStream.pollFrame (.new none errorMapper)
      (firsts body.answers n)).terminal with
  | false =>
      refine ⟨body.hint n, ?_, htruthful n⟩
      simp [BoundedResponseStream.sizeHint, hterminal, hlimit]
  | true =>
      have hstopped := hrelays.stopped_of_shut rfl rfl body.answers hterminal
      refine ⟨.withExact 0, by simp [BoundedResponseStream.sizeHint, hterminal], ?_, ?_⟩
      · exact ⟨0, by simp [SizeHint.withExact]⟩
      · intro bound _ m
        have hconst : body.data (n + m) = body.data n := hstopped.delivered m
        omega

namespace HintedBody

/-- The bounds are in order. -/
def Ordered (this : HintedBody) : Prop :=
  this.upper.all (fun bound => decide (this.lower ≤ bound)) = true

/-- The bounds of a declared hint are in order. -/
theorem ordered_new (declared : SizeHint) : (HintedBody.new declared).Ordered := declared.le

/-- The bounds stay in order as frames are passed on. -/
theorem ordered_consume {this : HintedBody} (h : this.Ordered) (data : Bytes) :
    (this.consume data).Ordered := by
  obtain ⟨lower, upper, terminal⟩ := this
  unfold consume
  rw [u64TryFrom_len]
  cases upper with
  | none => rfl
  | some upper =>
      simp only [Ordered, Option.all_some, decide_eq_true_eq, UInt64.le_iff_toNat_le] at h ⊢
      split
      · next hle =>
          simp only [Option.all_some, decide_eq_true_eq]
          rw [toNat_saturatingSub, UInt64.toNat_sub_of_le _ _ (UInt64.le_iff_toNat_le.mpr hle)]
          omega
      · rfl

/-- A frame does not shut the body. -/
theorem consume_terminal (this : HintedBody) (data : Bytes) :
    (this.consume data).terminal = this.terminal := by
  unfold consume
  rw [u64TryFrom_len]

/-- The lower bound loses the bytes of a frame, down to zero. -/
theorem consume_lower (this : HintedBody) (data : Bytes) :
    (this.consume data).lower.toNat = this.lower.toNat - data.len := by
  unfold consume
  rw [u64TryFrom_len]
  simp only [toNat_saturatingSub, toNat_ofNat_of_le data.len_le_u64Max]

/-- An upper bound that is left was larger by the bytes of the frame. -/
theorem consume_upper {this : HintedBody} {data : Bytes} {bound : UInt64}
    (h : bound ∈ (this.consume data).upper) :
    ∃ first ∈ this.upper, first.toNat = data.len + bound.toNat := by
  unfold consume at h
  rw [u64TryFrom_len] at h
  obtain ⟨lower, upper, terminal⟩ := this
  cases upper with
  | none => simp at h
  | some upper =>
      simp only at h
      split at h
      · next hle =>
          simp only [Option.mem_def, Option.some.injEq] at h
          have hnat := UInt64.toNat_sub_of_le _ _ hle
          rw [h, toNat_ofNat_of_le data.len_le_u64Max] at hnat
          rw [UInt64.le_iff_toNat_le, toNat_ofNat_of_le data.len_le_u64Max] at hle
          exact ⟨upper, rfl, by omega⟩
      · simp at h

/-- A body that is not at its end hands out what it polls. -/
theorem pollFrame_answer {this : HintedBody} (hopen : this.terminal = false)
    (answer : Answer BodyError Frame) :
    (this.pollFrame answer).2.goesOn = answer.goesOn ∧
      (this.pollFrame answer).2.weight Frame.len = answer.weight Frame.len := by
  unfold pollFrame
  rw [hopen]
  match answer with
  | .pending | .ready none | .ready (some (.error error))
  | .ready (some (.ok (.trailers trailers))) | .ready (some (.ok (.data data))) =>
      exact ⟨rfl, rfl⟩

/-- A body with a declared hint passes every frame on. -/
theorem relays : Relays Frame.len pollFrame Ordered terminal where
  keeps {this} h answer := by
    unfold pollFrame
    cases hterminal : this.terminal with
    | true => exact h
    | false =>
        match answer with
        | .pending | .ready (some (.error error)) | .ready (some (.ok (.trailers trailers))) =>
            exact h
        | .ready none => rfl
        | .ready (some (.ok (.data data))) => exact ordered_consume h data
  goesOn _ hopen answer := (pollFrame_answer hopen answer).1
  weight _ hopen answer := (pollFrame_answer hopen answer).2
  shuts {this} _ answer hshut := by
    cases hterminal : this.terminal with
    | true => exact .inl rfl
    | false =>
        right
        unfold pollFrame at hshut
        rw [hterminal] at hshut
        match answer with
        | .ready none | .ready (some (.error error)) => rfl
        | .pending | .ready (some (.ok (.trailers trailers))) =>
            have hstill : this.terminal = true := hshut
            rw [hterminal] at hstill
            contradiction
        | .ready (some (.ok (.data data))) =>
            have hstill : (this.consume data).terminal = true := hshut
            rw [consume_terminal, hterminal] at hstill
            contradiction

/-- One poll of a body that is not at its end: the bounds go down by what the
answer weighs. -/
theorem pollFrame_bounds {this : HintedBody} (hopen : this.terminal = false)
    (answer : Answer BodyError Frame) :
    (this.pollFrame answer).1.lower.toNat ≤ this.lower.toNat - answer.weight Frame.len ∧
      (answer.goesOn = true → ∀ bound ∈ (this.pollFrame answer).1.upper, ∃ first ∈ this.upper,
        first.toNat ≤ answer.weight Frame.len + bound.toNat) := by
  have hkeeps (h : answer.weight Frame.len = 0) :
      this.lower.toNat ≤ this.lower.toNat - answer.weight Frame.len ∧
        (answer.goesOn = true → ∀ bound ∈ this.upper, ∃ first ∈ this.upper,
          first.toNat ≤ answer.weight Frame.len + bound.toNat) := by
    refine ⟨by omega, fun _ bound hbound => ⟨bound, hbound, by omega⟩⟩
  unfold pollFrame
  rw [hopen]
  match answer with
  | .pending | .ready (some (.error error)) | .ready (some (.ok (.trailers trailers))) =>
      exact hkeeps rfl
  | .ready none => exact ⟨Nat.zero_le _, fun hgoes => absurd hgoes Bool.false_ne_true⟩
  | .ready (some (.ok (.data data))) =>
      have hweight : Answer.weight Frame.len
          (.ready (some (.ok (.data data))) : Answer BodyError Frame) = data.len := rfl
      rw [hweight]
      refine ⟨Nat.le_of_eq (consume_lower this data), fun _ bound hbound => ?_⟩
      have hmem : bound ∈ (this.consume data).upper := hbound
      obtain ⟨first, hfirst, heq⟩ := consume_upper hmem
      exact ⟨first, hfirst, Nat.le_of_eq heq⟩

/-- The lower bound never grows. -/
theorem lower_pollFrame_le (this : HintedBody) (answer : Answer BodyError Frame) :
    (this.pollFrame answer).1.lower.toNat ≤ this.lower.toNat := by
  cases hterminal : this.terminal with
  | true =>
      unfold pollFrame
      rw [hterminal]
      exact Nat.le_refl _
  | false =>
      have hle := (pollFrame_bounds hterminal answer).1
      omega

/-- What is left of the declared hint after polls. -/
structure Left (declared : SizeHint) (body : InnerBody BodyError) (n : Nat) (this : HintedBody) :
    Prop where
  lower : this.lower.toNat ≤ declared.lower.toNat - body.data n
  upper : ¬ Stopped body.answers n → ∀ bound ∈ this.upper, ∃ first ∈ declared.upper,
    first.toNat ≤ body.data n + bound.toNat

/-- After any polls, the bounds are what is left of those that were declared. -/
theorem left_after (declared : SizeHint) (body : InnerBody BodyError) (n : Nat) :
    Left declared body n (after pollFrame (.new declared) (firsts body.answers n)) := by
  induction n with
  | zero =>
      have hdata : body.data 0 = 0 := rfl
      refine ⟨?_, fun _ bound hbound => ⟨bound, hbound, by omega⟩⟩
      rw [hdata]
      exact Nat.le_refl _
  | succ n ih =>
      rw [after_firsts_succ]
      by_cases hstopped : Stopped body.answers n
      · have hdata : body.data (n + 1) = body.data n := hstopped.delivered 1
        refine ⟨?_, fun hgoes => absurd (hstopped.add 1) hgoes⟩
        rw [hdata]
        exact Nat.le_trans (lower_pollFrame_le _ _) ih.lower
      · have hopen : (after pollFrame (.new declared) (firsts body.answers n)).terminal =
            false := by
          rw [← Bool.not_eq_true]
          exact fun hshut =>
            hstopped (relays.stopped_of_shut (ordered_new declared) rfl body.answers hshut)
        have hdata : body.data (n + 1) =
            body.data n + (body.answers n).weight Frame.len := delivered_succ hstopped
        obtain ⟨hlower, hupper⟩ := pollFrame_bounds hopen (body.answers n)
        have hbefore := ih.lower
        refine ⟨by omega, fun hgoes bound hbound => ?_⟩
        have hanswer : (body.answers n).goesOn = true := by
          rw [← Bool.not_eq_false]
          exact fun h => hgoes (stopped_succ_iff.mpr (.inr h))
        obtain ⟨middle, hmiddle, hle⟩ := hupper hanswer bound hbound
        obtain ⟨first, hfirst, hle'⟩ := ih.upper hstopped middle hmiddle
        exact ⟨first, hfirst, by omega⟩

/-- An open body reports its bounds. -/
theorem sizeHint_of_open {this : HintedBody} (hopen : this.terminal = false)
    (h : this.Ordered) : this.sizeHint = some ⟨this.lower, this.upper, h⟩ := by
  obtain ⟨lower, upper, terminal⟩ := this
  cases hopen
  cases upper with
  | none => rfl
  | some upper =>
      have hle : lower ≤ upper := of_decide_eq_true h
      simp [sizeHint, SizeHint.setLower, SizeHint.setUpper, SizeHint.new, hle]

/-- A body that is shut reports that nothing follows. -/
theorem sizeHint_of_terminal {this : HintedBody} (hterminal : this.terminal = true) :
    this.sizeHint = some (.withExact 0) := by
  rw [sizeHint, if_pos hterminal, exactHint_eq]

/-- A declared hint is as good after polls as it was at first. -/
theorem hintsBound_iff (declared : SizeHint) (body : InnerBody BodyError) :
    HintsBound pollFrame (fun this _ => this.sizeHint) (.new declared) body ↔
      declared.Bounds body.data 0 := by
  have hdelivered : delivered Frame.len (answersOf pollFrame (.new declared) body.answers) =
      body.data :=
    funext fun n => (relays.delivered (ordered_new declared) rfl body.answers n).1
  constructor
  · intro h
    obtain ⟨hint, hhint, hbounds⟩ := h 0
    have hsome : (HintedBody.new declared).sizeHint = some hint := hhint
    rw [sizeHint_of_open rfl (ordered_new declared), Option.some.injEq] at hsome
    rw [hdelivered, ← hsome] at hbounds
    exact hbounds
  · intro h n
    have hordered := relays.valid_after (ordered_new declared) (firsts body.answers n)
    obtain ⟨hlower, hupper⟩ := left_after declared body n
    obtain ⟨m, hm⟩ := h.lower
    have hzero : body.data 0 = 0 := rfl
    rw [Nat.zero_add] at hm
    rw [hdelivered]
    cases hterminal : (after pollFrame (.new declared) (firsts body.answers n)).terminal with
    | true =>
        have hstopped := relays.stopped_of_shut (ordered_new declared) rfl body.answers hterminal
        refine ⟨_, sizeHint_of_terminal hterminal, ⟨0, by simp [SizeHint.withExact]⟩, ?_⟩
        intro bound _ m
        have hconst : body.data (n + m) = body.data n := hstopped.delivered m
        omega
    | false =>
        refine ⟨_, sizeHint_of_open hterminal hordered, ⟨m, ?_⟩, ?_⟩
        · have hmono : body.data n ≤ body.data (n + m) := delivered_mono Frame.len body.answers n m
          have hmono' : body.data m ≤ body.data (n + m) := delivered_le_of_le (by omega)
          show body.data n + (after pollFrame (.new declared) (firsts body.answers n)).lower.toNat ≤
            body.data (n + m)
          omega
        · intro bound hbound m
          by_cases hstopped : Stopped body.answers n
          · have hconst : body.data (n + m) = body.data n := hstopped.delivered m
            omega
          · obtain ⟨first, hfirst, hle⟩ := hupper hstopped bound hbound
            have hdata := h.upper first hfirst (n + m)
            rw [Nat.zero_add] at hdata
            omega

end HintedBody

/-! ## panics -/

/-- No setter panics: in no state of a limiter, whatever the inner body says. -/
theorem LimitedBody.sizeHint_isSome (this : LimitedBody) (inner : SizeHint) :
    (this.sizeHint inner).isSome = true := by
  obtain ⟨limit, seen, terminal⟩ := this
  cases terminal with
  | true => simp [LimitedBody.sizeHint]
  | false =>
      obtain ⟨hint, hhint, _⟩ := exists_limitHint inner ((checkedSubU64 limit seen).getD 0)
      rw [LimitedBody.sizeHint_eq, hhint]
      rfl

/-- No setter panics in `BoundedResponseStream` either. -/
theorem BoundedResponseStream.sizeHint_isSome (this : BoundedResponseStream ε)
    (inner : SizeHint) : (this.sizeHint inner).isSome = true := by
  obtain ⟨limit, seen, terminal, errorMapper⟩ := this
  cases terminal with
  | true => simp [BoundedResponseStream.sizeHint]
  | false =>
      cases limit with
      | none => rfl
      | some limit =>
          obtain ⟨hint, hhint, _⟩ := exists_limitHint inner (saturatingSub limit seen)
          rw [BoundedResponseStream.sizeHint_eq, hhint]
          rfl

/-- Nor in a body with a declared hint, whatever has been polled. -/
theorem HintedBody.sizeHint_isSome (declared : SizeHint) (answers : List (Answer BodyError Frame)) :
    (after HintedBody.pollFrame (.new declared) answers).sizeHint.isSome = true := by
  have hordered := HintedBody.relays.valid_after (HintedBody.ordered_new declared) answers
  cases hterminal : (after HintedBody.pollFrame (.new declared) answers).terminal with
  | true =>
      rw [HintedBody.sizeHint_of_terminal hterminal]
      rfl
  | false =>
      rw [HintedBody.sizeHint_of_open hterminal hordered]
      rfl

/-! ## the adapters -/

/-- No setter panics.  A hint that is declared is right as long as it was right
at first, and that of a limiter just where the body reaches its lower bounds
within the limit; if the limit is the largest there is, `BoundedResponseStream`
must be able to count the data as well. -/
theorem size_hints_bound_iff {body : InnerBody ε} (htruthful : body.Truthful) (limit : UInt64)
    (errorMapper fromProducer : ε → BodyError) (declared : SizeHint)
    (hinted : InnerBody BodyError) :
    (∀ (this : BoundedResponseStream ε) inner, (this.sizeHint inner).isSome = true) ∧
      (∀ (this : LimitedBody) inner, (this.sizeHint inner).isSome = true) ∧
      (∀ answers,
        (after HintedBody.pollFrame (.new declared) answers).sizeHint.isSome = true) ∧
      HintsBound BoundedResponseStream.pollFrame BoundedResponseStream.sizeHint
        (.new none errorMapper) body ∧
      (HintsBound BoundedResponseStream.pollFrame BoundedResponseStream.sizeHint
        (.new (some limit) errorMapper) body ↔ body.Reaches limit ∧ body.Countable limit) ∧
      (HintsBound (LimitedBody.pollFrame fromProducer) LimitedBody.sizeHint (.new limit) body ↔
        body.Reaches limit) ∧
      (HintsBound HintedBody.pollFrame (fun this _ => this.sizeHint) (.new declared) hinted ↔
        declared.Bounds hinted.data 0) :=
  ⟨BoundedResponseStream.sizeHint_isSome, LimitedBody.sizeHint_isSome,
    HintedBody.sizeHint_isSome declared,
    BoundedResponseStream.hintsBound_unlimited htruthful errorMapper,
    BoundedResponseStream.hintsBound_iff htruthful limit errorMapper,
    LimitedBody.hintsBound_iff htruthful limit fromProducer,
    HintedBody.hintsBound_iff declared hinted⟩

/-! ## bodies of frames -/

/-- The bytes of frames. -/
def bytesOf : List Frame → Nat
  | [] => 0
  | frame :: frames => frame.len + bytesOf frames

/-- The bytes of two lists together. -/
theorem bytesOf_append (frames rest : List Frame) :
    bytesOf (frames ++ rest) = bytesOf frames + bytesOf rest := by
  induction frames with
  | nil => simp [bytesOf]
  | cons frame frames ih => simp only [List.cons_append, bytesOf, ih, Nat.add_assoc]

/-- A body of some frames. -/
def framesBody (frames : List Frame) (hint : Nat → SizeHint) : InnerBody BodyError where
  answers n := .ready (frames[n]?.map .ok)
  hint := hint

section
variable {frames : List Frame} {hint : Nat → SizeHint}

/-- It has stopped only after all of them. -/
theorem length_le_of_stopped {n : Nat} (h : Stopped (framesBody frames hint).answers n) :
    frames.length ≤ n := by
  obtain ⟨answer, hmem, hstops⟩ := h
  obtain ⟨i, hi, rfl⟩ := List.mem_map.mp hmem
  rw [List.mem_range] at hi
  cases hframe : frames[i]? with
  | none => exact Nat.le_trans (List.getElem?_eq_none_iff.mp hframe) (Nat.le_of_lt hi)
  | some frame =>
      simp only [framesBody, hframe] at hstops
      cases hstops

/-- After some polls, the bytes of as many frames have come. -/
theorem framesBody_data (frames : List Frame) (hint : Nat → SizeHint) (n : Nat) :
    (framesBody frames hint).data n = bytesOf (frames.take n) := by
  induction n with
  | zero => simp [InnerBody.data, delivered, firsts, live, total, bytesOf]
  | succ n ih =>
      by_cases hstopped : Stopped (framesBody frames hint).answers n
      · have hlength := length_le_of_stopped hstopped
        have hsame : (framesBody frames hint).data (n + 1) = (framesBody frames hint).data n :=
          hstopped.delivered 1
        rw [hsame, ih, List.take_of_length_le hlength,
          List.take_of_length_le (Nat.le_succ_of_le hlength)]
      · have hpolled : (framesBody frames hint).data (n + 1) = (framesBody frames hint).data n +
            ((framesBody frames hint).answers n).weight Frame.len := delivered_succ hstopped
        rw [hpolled, ih, List.take_add_one, bytesOf_append]
        cases hframe : frames[n]? with
        | none => simp [framesBody, hframe, Answer.weight, bytesOf]
        | some frame => simp [framesBody, hframe, Answer.weight, bytesOf]

/-- What comes after some polls. -/
theorem framesBody_data_add (frames : List Frame) (hint : Nat → SizeHint) (n m : Nat) :
    (framesBody frames hint).data (n + m) =
      (framesBody frames hint).data n + bytesOf ((frames.drop n).take m) := by
  rw [framesBody_data, framesBody_data, List.take_add, bytesOf_append]

theorem bytesOf_take_le (frames : List Frame) (m : Nat) :
    bytesOf (frames.take m) ≤ bytesOf frames := by
  have hsplit := bytesOf_append (frames.take m) (frames.drop m)
  rw [List.take_append_drop] at hsplit
  omega

theorem framesBody_data_le (frames : List Frame) (hint : Nat → SizeHint) (n : Nat) :
    (framesBody frames hint).data n ≤ bytesOf frames := by
  rw [framesBody_data]
  exact bytesOf_take_le frames n

/-- Its hints are right if they bound the bytes of the frames that are left. -/
theorem framesBody_truthful
    (h : ∀ n, (hint n).lower.toNat ≤ bytesOf (frames.drop n) ∧
      ∀ bound ∈ (hint n).upper, bytesOf (frames.drop n) ≤ bound.toNat) :
    (framesBody frames hint).Truthful := by
  intro n
  obtain ⟨hlower, hupper⟩ := h n
  refine ⟨⟨frames.length, ?_⟩, fun bound hbound m => ?_⟩
  · have hall : (frames.drop n).take frames.length = frames.drop n := by
      apply List.take_of_length_le
      rw [List.length_drop]
      exact Nat.sub_le _ _
    rw [framesBody_data_add, hall]
    exact Nat.add_le_add_left hlower _
  · rw [framesBody_data_add]
    exact Nat.add_le_add_left (Nat.le_trans (bytesOf_take_le _ m) (hupper bound hbound)) _

end

/-- A frame of 20 bytes that is announced as at least 5. -/
def announcedFive : InnerBody BodyError :=
  framesBody [.data (zeros 20 (by decide))]
    fun n => if n = 0 then ⟨5, none, rfl⟩ else .withExact 0

/-- The announcement is right. -/
theorem announcedFive_truthful : announcedFive.Truthful := by
  apply framesBody_truthful
  intro n
  cases n with
  | zero => exact ⟨by decide, by simp⟩
  | succ n => exact ⟨Nat.zero_le _, by simp [SizeHint.withExact, bytesOf]⟩

/-- Where the limit of 10 bytes is in the middle of the frame, 5 are never
delivered. -/
theorem not_reaches_announcedFive : ¬ announcedFive.Reaches 10 := by
  intro h
  have hlower : (announcedFive.hint 0).lower.toNat = 5 := rfl
  have hlimit : (10 : UInt64).toNat = 10 := rfl
  have hdata (n : Nat) : announcedFive.data n = bytesOf (List.take n [_]) := framesBody_data _ _ n
  have hnone : announcedFive.data 0 = 0 := hdata 0
  obtain ⟨m, hreached, hle⟩ := h 0 (by rw [hnone, hlower, hlimit]; omega)
  rw [hnone, hlower, hdata] at hreached
  rw [hdata, hlimit] at hle
  cases m with
  | zero => simp [bytesOf] at hreached
  | succ m => simp [bytesOf, Frame.len, Frame.bytes, zeros] at hle

/-- With a limit of 10 bytes both limiters announce 5 to 10 of them, and
deliver none. -/
theorem size_hint_lower_not_delivered :
    announcedFive.Truthful ∧
      ¬ HintsBound BoundedResponseStream.pollFrame BoundedResponseStream.sizeHint
        (.new (some 10) id) announcedFive ∧
      ¬ HintsBound (LimitedBody.pollFrame id) LimitedBody.sizeHint (.new 10) announcedFive := by
  refine ⟨announcedFive_truthful, fun h => ?_, fun h => ?_⟩
  · exact not_reaches_announcedFive
      ((BoundedResponseStream.hintsBound_iff announcedFive_truthful 10 id).mp h).1
  · exact not_reaches_announcedFive ((LimitedBody.hintsBound_iff announcedFive_truthful 10 id).mp h)

/-- Two chunks with trailers between them, announced as what is left. -/
def announcedSeven : InnerBody BodyError :=
  framesBody [.data (zeros 3 (by decide)), .trailers .empty, .data (zeros 4 (by decide))]
    fun n => if n = 0 then .withExact 7 else if n ≤ 2 then .withExact 4 else .withExact 0

/-- The announcements are right. -/
theorem announcedSeven_truthful : announcedSeven.Truthful := by
  apply framesBody_truthful
  intro n
  match n with
  | 0 | 1 | 2 =>
    refine ⟨by decide, fun bound hbound => ?_⟩
    obtain rfl := Option.mem_some_iff.mp hbound
    decide
  | n + 3 => exact ⟨Nat.zero_le _, by simp [bytesOf]⟩

/-- It ends within 10 bytes, with all that it announces. -/
theorem announcedSeven_reaches : announcedSeven.Reaches 10 := by
  intro n _
  obtain ⟨m, hreached⟩ := (announcedSeven_truthful n).lower
  exact ⟨m, hreached, Nat.le_trans (framesBody_data_le _ _ _) (by decide)⟩

/-- Both limiters report right hints for it. -/
theorem size_hints_bound_seven :
    HintsBound BoundedResponseStream.pollFrame BoundedResponseStream.sizeHint
        (.new (some 10) id) announcedSeven ∧
      HintsBound (LimitedBody.pollFrame id) LimitedBody.sizeHint (.new 10) announcedSeven := by
  have hbounds := size_hints_bound_iff announcedSeven_truthful 10 id id .new announcedSeven
  have hcountable : announcedSeven.Countable 10 := .inl (by decide)
  exact ⟨hbounds.2.2.2.2.1.mpr ⟨announcedSeven_reaches, hcountable⟩,
    hbounds.2.2.2.2.2.1.mpr announcedSeven_reaches⟩

end Concord
