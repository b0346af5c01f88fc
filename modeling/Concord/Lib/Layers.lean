import Concord.Lib.Gate

/-!
# Concord.Lib.Layers

Streams in layers.  A layer polls the stream below it, unless it is shut, and
makes its own answer of the answer it gets.

`run_layered` says that the answers of two layers are those of the upper layer to
the answers of the lower one, `after_layered` that the lower layer sees every poll
while the upper one is open, and `Gate.run_nested` that a wider gate over a
narrower one adds nothing.
-/

namespace Polled

variable {ε δ γ φ σ τ : Type*}

/-! ## answers with other errors -/

/-- An answer with its error replaced. -/
def Answer.mapError (f : ε → δ) : Answer ε φ → Answer δ φ
  | .pending => .pending
  | .ready none => .ready none
  | .ready (some (.ok item)) => .ready (some (.ok item))
  | .ready (some (.error error)) => .ready (some (.error (f error)))

namespace Answer

/-- An answer that is not there yet has no error. -/
@[simp] theorem mapError_pending (f : ε → δ) : mapError f (.pending : Answer ε φ) = .pending := rfl

/-- Nor has the end. -/
@[simp] theorem mapError_none (f : ε → δ) : mapError f (.ready none : Answer ε φ) = .ready none := rfl

/-- Nor has a frame. -/
@[simp] theorem mapError_ok (f : ε → δ) (item : φ) :
    mapError f (.ready (some (.ok item)) : Answer ε φ) = .ready (some (.ok item)) := rfl

/-- An error is mapped. -/
@[simp] theorem mapError_error (f : ε → δ) (error : ε) :
    mapError f (.ready (some (.error error)) : Answer ε φ) = .ready (some (.error (f error))) := rfl

/-- A mapped answer goes on if the answer does. -/
@[simp] theorem goesOn_mapError (f : ε → δ) (answer : Answer ε φ) :
    (answer.mapError f).goesOn = answer.goesOn := by
  match answer with
  | .pending | .ready none | .ready (some (.ok _)) | .ready (some (.error _)) => rfl

/-- And weighs as much. -/
@[simp] theorem weight_mapError (f : ε → δ) (size : φ → Nat) (answer : Answer ε φ) :
    (answer.mapError f).weight size = answer.weight size := by
  match answer with
  | .pending | .ready none | .ready (some (.ok _)) | .ready (some (.error _)) => rfl

/-- Two mappings are one. -/
theorem mapError_mapError (f : ε → δ) (g : δ → γ) (answer : Answer ε φ) :
    (answer.mapError f).mapError g = answer.mapError (g ∘ f) := by
  match answer with
  | .pending | .ready none | .ready (some (.ok _)) | .ready (some (.error _)) => rfl

end Answer

/-- Mapped answers weigh as much together. -/
@[simp] theorem total_mapError (f : ε → δ) (size : φ → Nat) (answers : List (Answer ε φ)) :
    total size (answers.map (Answer.mapError f)) = total size answers := by
  induction answers with
  | nil => rfl
  | cons answer answers ih => simp [ih]

/-! ## two layers -/

/-- A run gives an answer for every answer. -/
theorem length_run (step : σ → Answer ε φ → σ × Answer δ φ) (state : σ)
    (answers : List (Answer ε φ)) : (run step state answers).length = answers.length := by
  induction answers generalizing state with
  | nil => rfl
  | cons answer answers ih => simp [run, ih]

/-- Bodies that have ended are as long as they are asked. -/
theorem ended_eq_of_length {answers : List (Answer ε φ)} {answers' : List (Answer δ φ)}
    (h : answers.length = answers'.length) :
    (ended answers : List (Answer γ φ)) = ended answers' := by
  simp only [ended, List.map_const', h]

/-- A layer over a stream. -/
def layered (shut : τ → Bool) (upper : τ → Answer δ φ → τ × Answer γ φ)
    (lower : σ → Answer ε φ → σ × Answer δ φ) (state : τ × σ) (answer : Answer ε φ) :
    (τ × σ) × Answer γ φ :=
  if shut state.1 then (state, .ready none)
  else
    let polled := lower state.2 answer
    let passed := upper state.1 polled.2
    ((passed.1, polled.1), passed.2)

section layered

variable {shut : τ → Bool} {upper : τ → Answer δ φ → τ × Answer γ φ}

/-- A layer that is shut stays shut and answers nothing but the end. -/
def Shuts (shut : τ → Bool) (upper : τ → Answer δ φ → τ × Answer γ φ) : Prop :=
  ∀ state answer, shut state = true → upper state answer = (state, .ready none)

/-- A layer that is shut asks the one below no more. -/
theorem layered_of_shut (upper : τ → Answer δ φ → τ × Answer γ φ) {state : τ × σ}
    (h : shut state.1 = true) (lower : σ → Answer ε φ → σ × Answer δ φ) (answer : Answer ε φ) :
    layered shut upper lower state answer = (state, .ready none) := by
  simp [layered, h]

/-- One that is open asks it once. -/
theorem layered_of_open (upper : τ → Answer δ φ → τ × Answer γ φ) {state : τ × σ}
    (h : shut state.1 = false) (lower : σ → Answer ε φ → σ × Answer δ φ) (answer : Answer ε φ) :
    layered shut upper lower state answer =
      (((upper state.1 (lower state.2 answer).2).1, (lower state.2 answer).1),
        (upper state.1 (lower state.2 answer).2).2) := by
  simp [layered, h]

/-- A layer that is shut has ended. -/
theorem run_of_shut (hshuts : Shuts shut upper) {state : τ} (h : shut state = true)
    (answers : List (Answer δ φ)) : run upper state answers = ended answers := by
  induction answers with
  | nil => rfl
  | cons answer answers ih =>
      have hpoll := hshuts state answer h
      simp only [run, hpoll, ih, ended, List.map_cons]

/-- Also over another. -/
theorem run_layered_of_shut (upper : τ → Answer δ φ → τ × Answer γ φ) {state : τ × σ}
    (h : shut state.1 = true) (lower : σ → Answer ε φ → σ × Answer δ φ) (answers : List (Answer ε φ)) :
    run (layered shut upper lower) state answers = ended answers ∧
      after (layered shut upper lower) state answers = state := by
  induction answers with
  | nil => exact ⟨rfl, rfl⟩
  | cons answer answers ih =>
      have hpoll := layered_of_shut upper h lower answer
      simp only [run, after, hpoll, ih, ended, List.map_cons, and_self]

/-- The answers of two layers are those of the upper to those of the lower. -/
theorem run_layered (hshuts : Shuts shut upper) (lower : σ → Answer ε φ → σ × Answer δ φ)
    (state : τ × σ) (answers : List (Answer ε φ)) :
    run (layered shut upper lower) state answers =
      run upper state.1 (run lower state.2 answers) := by
  induction answers generalizing state with
  | nil => rfl
  | cons answer answers ih =>
      cases hshut : shut state.1 with
      | true =>
          have hended : (ended (answer :: answers) : List (Answer γ φ)) =
              ended (run lower state.2 (answer :: answers)) :=
            ended_eq_of_length (length_run lower state.2 (answer :: answers)).symm
          rw [(run_layered_of_shut upper hshut lower _).1, run_of_shut hshuts hshut, hended]
      | false =>
          have hpoll := layered_of_open upper hshut lower answer
          simp only [run, hpoll, ih]

/-- As long as the upper layer is open, the lower one sees every poll. -/
theorem after_layered (upper : τ → Answer δ φ → τ × Answer γ φ)
    (lower : σ → Answer ε φ → σ × Answer δ φ) (state : τ × σ) (before : List (Answer ε φ))
    (last : Answer ε φ)
    (hopen : ∀ asked, asked <+: before →
      shut (after upper state.1 (run lower state.2 asked)) = false) :
    (after (layered shut upper lower) state (before ++ [last])).2 =
      after lower state.2 (before ++ [last]) := by
  induction before generalizing state with
  | nil =>
      have hpoll := layered_of_open upper (hopen [] List.nil_prefix) lower last
      simp only [List.nil_append, after, hpoll]
  | cons answer before ih =>
      have hpoll := layered_of_open upper (hopen [] List.nil_prefix) lower answer
      have hrest := ih ((upper state.1 (lower state.2 answer).2).1, (lower state.2 answer).1)
        (fun asked hasked => hopen (answer :: asked) ((List.prefix_cons_inj answer).mpr hasked))
      simp only [List.cons_append, after, hpoll, hrest]

end layered

/-! ## gates over gates -/

namespace Gate

variable {inner : Gate ε δ φ} {outer : Gate γ δ φ} {f : δ → γ}

/-- A gate that is no narrower than the one below it, closes at every total and
passes errors on as they are. -/
structure Wider (outer : Gate γ δ φ) (inner : Gate ε δ φ) (f : δ → γ) : Prop where
  size_eq : outer.size = inner.size
  bound_le : inner.bound ≤ outer.bound
  close_eq : ∀ total, outer.close total = none
  fail_eq : ∀ error, outer.fail (f error) = error

/-- A wider gate changes no answer of the one inside. -/
theorem Wider.poll (h : outer.Wider inner f) {state : State} (hseen : state.seen ≤ inner.bound)
    (answer : Answer ε φ) :
    outer.poll state ((inner.poll state answer).2.mapError f) = inner.poll state answer := by
  obtain ⟨seen, terminal⟩ := state
  cases terminal with
  | true => rfl
  | false =>
      match answer with
      | .pending => rfl
      | .ready (some (.error error)) => simp [Gate.poll, h.fail_eq]
      | .ready none =>
          cases hclose : inner.close seen with
          | none => simp [Gate.poll, hclose, h.close_eq]
          | some error => simp [Gate.poll, hclose, h.fail_eq]
      | .ready (some (.ok item)) =>
          by_cases hle : seen + inner.size item ≤ inner.bound
          · have houter : seen + inner.size item ≤ outer.bound := Nat.le_trans hle h.bound_le
            simp [Gate.poll, hle, h.size_eq, houter]
          · simp [Gate.poll, hle, h.fail_eq]

/-- A gate counts no further than its bound. -/
theorem poll_seen_le {state : State} (hseen : state.seen ≤ inner.bound) (answer : Answer ε φ) :
    (inner.poll state answer).1.seen ≤ inner.bound := by
  unfold poll
  split
  · exact hseen
  · split
    · exact hseen
    · exact hseen
    · exact hseen
    · split
      · next hfits => exact hfits
      · exact hseen

/-- A wider gate over a narrower one adds nothing. -/
theorem run_nested (h : outer.Wider inner f) {state : State} (hseen : state.seen ≤ inner.bound)
    (answers : List (Answer ε φ)) :
    run outer.poll state ((run inner.poll state answers).map (Answer.mapError f)) =
      run inner.poll state answers := by
  induction answers generalizing state with
  | nil => rfl
  | cons answer answers ih =>
      have hnext := ih (poll_seen_le hseen answer)
      simp only [run, List.map_cons, h.poll hseen answer, hnext]

/-- A gate over a stream whose errors are replaced before they reach it. -/
def comap (gate : Gate δ γ φ) (f : ε → δ) : Gate ε γ φ :=
  ⟨gate.size, gate.bound, gate.beyond, gate.fail ∘ f, gate.close⟩

/-- A gate over mapped answers maps their errors itself. -/
theorem poll_mapError (gate : Gate δ γ φ) (f : ε → δ) (state : State) (answer : Answer ε φ) :
    gate.poll state (answer.mapError f) = (gate.comap f).poll state answer := by
  match answer with
  | .pending | .ready none | .ready (some (.ok _)) | .ready (some (.error _)) => rfl

/-- The same of a whole run. -/
theorem run_mapError (gate : Gate δ γ φ) (f : ε → δ) (state : State)
    (answers : List (Answer ε φ)) :
    run gate.poll state (answers.map (Answer.mapError f)) =
      run (gate.comap f).poll state answers := by
  induction answers generalizing state with
  | nil => rfl
  | cons answer answers ih => simp [run, poll_mapError, ih]

end Gate

end Polled
