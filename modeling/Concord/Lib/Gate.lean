import Mathlib.Data.List.Induction

/-!
# Concord.Lib.Gate

Streams that are polled, and gates on them.  A stream answers a poll with an
item, an error or its end, or is not ready yet.  A gate passes the answers of
an inner stream on and counts what the items weigh; it ends the stream at an
item that would take it beyond its bound, at an error and at the end, and
answers nothing but the end from then on.

`Yields` says what a gate answers without a counter, `yields_run` that a gate
does so, and `run_eq_of_lockstep` is the rule by which an implementation with
a counter of its own is compared with a gate.
-/

namespace Polled

/-- What a poll answers. -/
inductive Poll (α : Type*) where
  | pending
  | ready (value : α)
  deriving DecidableEq, Repr

/-- What a stream of `φ` answers to a poll; it may fail with `ε`. -/
abbrev Answer (ε φ : Type*) := Poll (Option (Except ε φ))

variable {ε δ φ σ : Type*}

/-! ## answers -/

/-- The stream goes on after the answer. -/
def Answer.goesOn : Answer ε φ → Bool
  | .pending => true
  | .ready (some (.ok _)) => true
  | .ready (some (.error _)) => false
  | .ready none => false

/-- What an answer weighs. -/
def Answer.weight (size : φ → Nat) : Answer ε φ → Nat
  | .ready (some (.ok item)) => size item
  | _ => 0

/-- An answer passed on. -/
def Answer.pass : Answer ε φ → Answer δ φ
  | .pending => .pending
  | .ready (some (.ok item)) => .ready (some (.ok item))
  | .ready (some (.error _)) => .ready none
  | .ready none => .ready none

/-- What the answers of a stream weigh together. -/
def total (size : φ → Nat) (answers : List (Answer ε φ)) : Nat :=
  answers.foldr (fun answer sum => answer.weight size + sum) 0

/-- The answers up to the first error or the end. -/
def live (answers : List (Answer ε φ)) : List (Answer ε φ) := answers.takeWhile Answer.goesOn

/-- A stream that is ended answers nothing but its end. -/
def ended (answers : List (Answer ε φ)) : List (Answer δ φ) := answers.map (fun _ => .ready none)

@[simp] theorem total_nil (size : φ → Nat) : total size ([] : List (Answer ε φ)) = 0 := rfl

@[simp] theorem total_cons (size : φ → Nat) (answer : Answer ε φ) (answers : List (Answer ε φ)) :
    total size (answer :: answers) = answer.weight size + total size answers := rfl

/-- The weight of two parts is the sum of theirs. -/
@[simp] theorem total_append (size : φ → Nat) (before after : List (Answer ε φ)) :
    total size (before ++ after) = total size before + total size after := by
  induction before with
  | nil => exact (Nat.zero_add _).symm
  | cons answer before ih => rw [List.cons_append, total_cons, total_cons, ih, Nat.add_assoc]

/-- The weight of one answer again and again. -/
theorem total_replicate (size : φ → Nat) (n : Nat) (answer : Answer ε φ) :
    total size (List.replicate n answer) = n * answer.weight size := by
  induction n with
  | zero => exact (Nat.zero_mul _).symm
  | succ n ih => rw [List.replicate_succ, total_cons, ih, Nat.succ_mul, Nat.add_comm]

/-- Items that are passed on keep their weight. -/
theorem total_pass (size : φ → Nat) (answers : List (Answer ε φ)) :
    total size (answers.map (Answer.pass : Answer ε φ → Answer δ φ)) = total size answers := by
  induction answers with
  | nil => rfl
  | cons answer answers ih =>
      have hweight : (answer.pass : Answer δ φ).weight size = answer.weight size := by
        match answer with
        | .pending | .ready none | .ready (some (.error _)) | .ready (some (.ok _)) => rfl
      rw [List.map_cons, total_cons, total_cons, hweight, ih]

/-- A stream that has ended weighs nothing. -/
theorem total_ended (size : φ → Nat) (answers : List (Answer ε φ)) :
    total size (ended answers : List (Answer δ φ)) = 0 := by
  induction answers with
  | nil => rfl
  | cons answer answers ih =>
      rw [ended, List.map_cons, total_cons]
      exact (Nat.zero_add _).trans ih

/-- Answers that go on are live. -/
theorem live_append {before : List (Answer ε φ)} (h : ∀ answer ∈ before, answer.goesOn = true)
    (after : List (Answer ε φ)) : live (before ++ after) = before ++ live after :=
  List.takeWhile_append_of_pos h

/-- A stream that goes on is live as a whole. -/
theorem live_eq_self {answers : List (Answer ε φ)} (h : ∀ answer ∈ answers, answer.goesOn = true) :
    live answers = answers := by
  have happend := live_append h []
  rwa [live, live, List.takeWhile_nil, List.append_nil] at happend

/-- An answer that goes on is live. -/
theorem live_cons_of_goesOn {answer : Answer ε φ} (h : answer.goesOn = true)
    (answers : List (Answer ε φ)) : live (answer :: answers) = answer :: live answers :=
  List.takeWhile_cons_of_pos h

/-- Nothing is live from a stop on. -/
theorem live_cons_of_not {answer : Answer ε φ} (h : answer.goesOn = false)
    (answers : List (Answer ε φ)) : live (answer :: answers) = [] := by
  apply List.takeWhile_cons_of_neg
  rw [h]
  exact Bool.false_ne_true

/-- A longer stream has no less that is live. -/
theorem total_live_le (size : φ → Nat) (before rest : List (Answer ε φ)) :
    total size (live before) ≤ total size (live (before ++ rest)) := by
  induction before with
  | nil => exact Nat.zero_le _
  | cons answer before ih =>
      cases hgoes : answer.goesOn with
      | false =>
          rw [live_cons_of_not hgoes]
          exact Nat.zero_le _
      | true =>
          rw [List.cons_append, live_cons_of_goesOn hgoes, live_cons_of_goesOn hgoes, total_cons,
            total_cons]
          exact Nat.add_le_add_left ih _

/-- What is live is a part of the stream. -/
theorem total_live_le_total (size : φ → Nat) (answers : List (Answer ε φ)) :
    total size (live answers) ≤ total size answers := by
  have hsplit : total size (live answers ++ answers.dropWhile Answer.goesOn) =
      total size (live answers) + total size (answers.dropWhile Answer.goesOn) :=
    total_append size _ _
  rw [live, List.takeWhile_append_dropWhile] at hsplit
  rw [hsplit]
  exact Nat.le_add_right _ _

/-- A stream that comes to its end without an error. -/
def EndsCleanly (answers : List (Answer ε φ)) : Prop :=
  ∃ before rest, answers = before ++ .ready none :: rest ∧
    ∀ answer ∈ before, answer.goesOn = true

theorem first_stop_unique {before before' : List (Answer ε φ)} {answer answer' : Answer ε φ}
    {rest rest' : List (Answer ε φ)} (hgoes : ∀ answer ∈ before, answer.goesOn = true)
    (hgoes' : ∀ answer ∈ before', answer.goesOn = true) (hstops : answer.goesOn = false)
    (hstops' : answer'.goesOn = false) (h : before ++ answer :: rest = before' ++ answer' :: rest') :
    before = before' ∧ answer = answer' ∧ rest = rest' := by
  have hneg : ¬ answer.goesOn = true := by rw [hstops]; exact Bool.false_ne_true
  have hneg' : ¬ answer'.goesOn = true := by rw [hstops']; exact Bool.false_ne_true
  have htake := congrArg (List.takeWhile Answer.goesOn) h
  have hdrop := congrArg (List.dropWhile Answer.goesOn) h
  rw [List.takeWhile_append_of_pos hgoes, List.takeWhile_append_of_pos hgoes',
    List.takeWhile_cons_of_neg hneg, List.takeWhile_cons_of_neg hneg', List.append_nil,
    List.append_nil] at htake
  rw [List.dropWhile_append_of_pos hgoes, List.dropWhile_append_of_pos hgoes',
    List.dropWhile_cons_of_neg hneg, List.dropWhile_cons_of_neg hneg', List.cons.injEq] at hdrop
  exact ⟨htake, hdrop⟩

/-- A stream ends cleanly if its first stop is the end. -/
theorem endsCleanly_of_first_stop {before rest : List (Answer ε φ)} {answer : Answer ε φ}
    (hgoes : ∀ answer ∈ before, answer.goesOn = true) (hstops : answer.goesOn = false) :
    EndsCleanly (before ++ answer :: rest) ↔ answer = .ready none := by
  constructor
  · rintro ⟨before', rest', heq, hgoes'⟩
    exact (first_stop_unique hgoes hgoes' hstops rfl heq).2.1
  · rintro rfl
    exact ⟨before, rest, rfl, hgoes⟩

/-- A stream that goes on has not ended. -/
theorem not_endsCleanly {answers : List (Answer ε φ)}
    (hgoes : ∀ answer ∈ answers, answer.goesOn = true) : ¬ EndsCleanly answers := by
  rintro ⟨before, rest, rfl, _⟩
  have hend := hgoes (.ready none) (List.mem_append_right _ List.mem_cons_self)
  cases hend

/-! ## gates -/

/-- A gate: what items weigh and how much may pass, the errors of an item
beyond the bound and of the inner stream, and the error of an end that comes
after a total the gate does not accept. -/
structure Gate (ε δ φ : Type*) where
  size : φ → Nat
  bound : Nat
  beyond : Nat → δ
  fail : ε → δ
  close : Nat → Option δ

namespace Gate

/-- What has passed, and whether the gate is shut. -/
structure State where
  seen : Nat
  terminal : Bool
  deriving DecidableEq, Repr

def init : State := ⟨0, false⟩

/-- A gate asks the inner stream, unless it is shut. -/
def poll (gate : Gate ε δ φ) (state : State) (answer : Answer ε φ) : State × Answer δ φ :=
  if state.terminal then (state, .ready none)
  else
    match answer with
    | .pending => (state, .pending)
    | .ready none => ({ state with terminal := true }, .ready ((gate.close state.seen).map .error))
    | .ready (some (.error error)) =>
      ({ state with terminal := true }, .ready (some (.error (gate.fail error))))
    | .ready (some (.ok item)) =>
      if state.seen + gate.size item ≤ gate.bound then
        ({ state with seen := state.seen + gate.size item }, .ready (some (.ok item)))
      else
        ({ state with terminal := true },
          .ready (some (.error (gate.beyond (state.seen + gate.size item)))))

end Gate

/-- The answers of a stream that is made of an inner one, one for each poll. -/
def run (step : σ → Answer ε φ → σ × Answer δ φ) : σ → List (Answer ε φ) → List (Answer δ φ)
  | _, [] => []
  | state, answer :: answers => (step state answer).2 :: run step (step state answer).1 answers

/-- The state after polls. -/
def after (step : σ → Answer ε φ → σ × Answer δ φ) : σ → List (Answer ε φ) → σ
  | state, [] => state
  | state, answer :: answers => after step (step state answer).1 answers

section run

variable {step : σ → Answer ε φ → σ × Answer δ φ} {state : σ}

/-- A run in two parts. -/
theorem run_append (step : σ → Answer ε φ → σ × Answer δ φ) (state : σ)
    (first second : List (Answer ε φ)) :
    run step state (first ++ second) =
      run step state first ++ run step (after step state first) second := by
  induction first generalizing state with
  | nil => rfl
  | cons answer answers ih => simp only [List.cons_append, run, after, ih]

/-- The state after two parts. -/
theorem after_append (step : σ → Answer ε φ → σ × Answer δ φ) (state : σ)
    (first second : List (Answer ε φ)) :
    after step state (first ++ second) = after step (after step state first) second := by
  induction first generalizing state with
  | nil => rfl
  | cons answer answers ih => simp only [List.cons_append, after, ih]

/-- What every poll keeps, every list of polls keeps. -/
theorem after_invariant {I : σ → Prop} (hstep : ∀ state answer, I state → I (step state answer).1)
    (hstate : I state) (answers : List (Answer ε φ)) : I (after step state answers) := by
  induction answers generalizing state with
  | nil => exact hstate
  | cons answer answers ih => exact ih (hstep state answer hstate)

/-- Two streams answer alike if a relation between their states, which may
depend on the polls to come, gives the same answer and is kept. -/
theorem run_eq_of_lockstep {τ : Type*} {other : τ → Answer ε φ → τ × Answer δ φ} {state' : τ}
    {R : List (Answer ε φ) → σ → τ → Prop}
    (hstep : ∀ answer answers s t, R (answer :: answers) s t →
      (step s answer).2 = (other t answer).2 ∧ R answers (step s answer).1 (other t answer).1)
    {answers : List (Answer ε φ)} (h : R answers state state') :
    run step state answers = run other state' answers := by
  induction answers generalizing state state' with
  | nil => rfl
  | cons answer answers ih =>
      obtain ⟨hanswer, hrest⟩ := hstep answer answers state state' h
      simp only [run, hanswer, ih hrest]

/-- The relation holds of the states after polls that were answered alike. -/
theorem after_of_lockstep {τ : Type*} {other : τ → Answer ε φ → τ × Answer δ φ} {state' : τ}
    {R : List (Answer ε φ) → σ → τ → Prop}
    (hstep : ∀ answer answers s t, R (answer :: answers) s t →
      (step s answer).2 = (other t answer).2 ∧ R answers (step s answer).1 (other t answer).1)
    (first second : List (Answer ε φ)) (h : R (first ++ second) state state') :
    R second (after step state first) (after other state' first) := by
  induction first generalizing state state' with
  | nil => exact h
  | cons answer answers ih => exact ih (hstep answer _ state state' h).2

end run

/-! ## what a gate answers -/

namespace Gate

variable (gate : Gate ε δ φ)

/-- The answer with which a gate shuts, after a total of `seen`. -/
def stop (seen : Nat) : Answer ε φ → Option (Answer δ φ)
  | .pending => none
  | .ready none => some (.ready ((gate.close seen).map .error))
  | .ready (some (.error error)) => some (.ready (some (.error (gate.fail error))))
  | .ready (some (.ok item)) =>
    if seen + gate.size item ≤ gate.bound then none
    else some (.ready (some (.error (gate.beyond (seen + gate.size item)))))

/-- What a gate answers: the inner answers as long as they are within the
bound, then the answer with which it shuts, then nothing but the end. -/
inductive Yields : List (Answer ε φ) → List (Answer δ φ) → Prop
  | passed {answers : List (Answer ε φ)} (hgoes : ∀ answer ∈ answers, answer.goesOn = true)
      (hle : total gate.size answers ≤ gate.bound) : Yields answers (answers.map Answer.pass)
  | shut {before : List (Answer ε φ)} {last : Answer ε φ} {answer : Answer δ φ}
      (hgoes : ∀ answer ∈ before, answer.goesOn = true)
      (hle : total gate.size before ≤ gate.bound)
      (hstop : gate.stop (total gate.size before) last = some answer)
      (rest : List (Answer ε φ)) :
      Yields (before ++ last :: rest) (before.map Answer.pass ++ answer :: ended rest)

variable {gate}

/-- A gate that is shut answers with the end. -/
theorem run_terminal (seen : Nat) (answers : List (Answer ε φ)) :
    run gate.poll ⟨seen, true⟩ answers = ended answers := by
  induction answers with
  | nil => rfl
  | cons answer answers ih => simp only [run, poll, if_true, ih, ended, List.map_cons]

/-- A gate that stops is shut. -/
theorem poll_stop {seen : Nat} {last : Answer ε φ} {answer : Answer δ φ}
    (h : gate.stop seen last = some answer) :
    gate.poll ⟨seen, false⟩ last = (⟨seen, true⟩, answer) := by
  unfold stop at h
  split at h
  · cases h
  · cases h
    rfl
  · cases h
    rfl
  · split at h
    · cases h
    · next hbeyond =>
        cases h
        simp only [poll, hbeyond, if_false, Bool.false_eq_true]

/-- A gate that does not stop passes the answer on and counts it. -/
theorem poll_pass {seen : Nat} {answer : Answer ε φ} (h : gate.stop seen answer = none) :
    gate.poll ⟨seen, false⟩ answer = (⟨seen + answer.weight gate.size, false⟩, answer.pass) ∧
      answer.goesOn = true := by
  unfold stop at h
  split at h
  · exact ⟨rfl, rfl⟩
  · cases h
  · cases h
  · split at h
    · next hle =>
        simp only [poll, hle, if_true, if_false, Bool.false_eq_true, Answer.weight, Answer.pass,
          Answer.goesOn, and_self]
    · cases h

/-- What is passed on keeps within the bound. -/
theorem bound_of_stop {seen : Nat} {answer : Answer ε φ} (h : gate.stop seen answer = none)
    (hseen : seen ≤ gate.bound) : seen + answer.weight gate.size ≤ gate.bound := by
  unfold stop at h
  split at h
  · exact hseen
  · cases h
  · cases h
  · split at h
    · next hle => exact hle
    · cases h

/-- The count of a gate is what it has passed on. -/
theorem seen_after (state : State) (answers : List (Answer ε φ)) :
    (after gate.poll state answers).seen =
      state.seen + total gate.size (run gate.poll state answers) := by
  induction answers generalizing state with
  | nil => rfl
  | cons answer answers ih =>
      have hpoll : (gate.poll state answer).1.seen =
          state.seen + (gate.poll state answer).2.weight gate.size := by
        unfold poll
        split
        · rfl
        · split
          · rfl
          · next => cases gate.close state.seen <;> rfl
          · rfl
          · split
            · rfl
            · rfl
      rw [after, ih, hpoll, run, total_cons, Nat.add_assoc]

/-- A gate after answers that passed. -/
theorem run_passed {before : List (Answer ε φ)} {seen : Nat}
    (hgoes : ∀ answer ∈ before, answer.goesOn = true)
    (hle : seen + total gate.size before ≤ gate.bound) :
    run gate.poll ⟨seen, false⟩ before = before.map Answer.pass ∧
      after gate.poll ⟨seen, false⟩ before = ⟨seen + total gate.size before, false⟩ := by
  induction before generalizing seen with
  | nil => exact ⟨rfl, rfl⟩
  | cons answer answers ih =>
      obtain ⟨hfirst, hrest⟩ := List.forall_mem_cons.mp hgoes
      rw [total_cons, ← Nat.add_assoc] at hle
      have hpass : gate.stop seen answer = none := by
        unfold stop
        split
        · rfl
        · cases hfirst
        · cases hfirst
        · next item =>
            have hitem : seen + gate.size item ≤ gate.bound :=
              Nat.le_trans (Nat.le_add_right _ _) hle
            rw [if_pos hitem]
      obtain ⟨hrun, hafter⟩ := ih hrest hle
      simp only [run, after, (poll_pass hpass).1, hrun, hafter, List.map_cons, total_cons,
        Nat.add_assoc, and_self]

/-- Either everything passes, or there is a first answer at which a gate shuts. -/
theorem passes_or_stops (gate : Gate ε δ φ) (answers : List (Answer ε φ)) :
    ((∀ answer ∈ answers, answer.goesOn = true) ∧ total gate.size answers ≤ gate.bound) ∨
    ∃ before last answer rest, answers = before ++ last :: rest ∧
      (∀ answer ∈ before, answer.goesOn = true) ∧ total gate.size before ≤ gate.bound ∧
      gate.stop (total gate.size before) last = some answer := by
  induction answers using List.reverseRecOn with
  | nil =>
      refine .inl ⟨?_, Nat.zero_le _⟩
      intro answer hmem
      cases hmem
  | append_singleton answers answer ih =>
      obtain ⟨hgoes, hle⟩ | ⟨before, last, stopped, rest, rfl, hgoes, hle, hstop⟩ := ih
      · cases hstop : gate.stop (total gate.size answers) answer with
        | none =>
            refine .inl ⟨?_, ?_⟩
            · intro other hmem
              rw [List.mem_append, List.mem_singleton] at hmem
              obtain hmem | rfl := hmem
              · exact hgoes other hmem
              · exact (poll_pass hstop).2
            · rw [total_append, total_cons, total_nil, Nat.add_zero]
              exact bound_of_stop hstop hle
        | some stopped => exact .inr ⟨answers, answer, stopped, [], rfl, hgoes, hle, hstop⟩
      · refine .inr ⟨before, last, stopped, rest ++ [answer], ?_, hgoes, hle, hstop⟩
        rw [List.append_assoc, List.cons_append]

/-- A gate passes on what fits, stops once and answers with the end. -/
theorem run_shut {before : List (Answer ε φ)} {last : Answer ε φ} {answer : Answer δ φ}
    (hgoes : ∀ answer ∈ before, answer.goesOn = true) (hle : total gate.size before ≤ gate.bound)
    (hstop : gate.stop (total gate.size before) last = some answer) (rest : List (Answer ε φ)) :
    run gate.poll init (before ++ last :: rest) = before.map Answer.pass ++ answer :: ended rest := by
  have hzero : 0 + total gate.size before ≤ gate.bound := by rwa [Nat.zero_add]
  obtain ⟨hrun, hafter⟩ := run_passed hgoes hzero
  rw [Nat.zero_add] at hafter
  rw [run_append, init, hrun, hafter, run, poll_stop hstop, run_terminal]

/-- **What a gate answers is what it yields**, and nothing else is. -/
theorem yields_iff {answers : List (Answer ε φ)} {answers' : List (Answer δ φ)} :
    gate.Yields answers answers' ↔ answers' = run gate.poll init answers := by
  constructor
  · intro h
    cases h with
    | passed hgoes hle => exact (run_passed hgoes (by rwa [Nat.zero_add])).1.symm
    | shut hgoes hle hstop rest => exact (run_shut hgoes hle hstop rest).symm
  · rintro rfl
    obtain ⟨hgoes, hle⟩ | ⟨before, last, answer, rest, rfl, hgoes, hle, hstop⟩ :=
      passes_or_stops gate answers
    · have hzero : 0 + total gate.size answers ≤ gate.bound := by rwa [Nat.zero_add]
      rw [init, (run_passed hgoes hzero).1]
      exact .passed hgoes hle
    · rw [run_shut hgoes hle hstop]
      exact .shut hgoes hle hstop rest

/-- Answers that are passed on go on. -/
theorem goesOn_pass {answers : List (Answer ε φ)}
    (hgoes : ∀ answer ∈ answers, answer.goesOn = true) :
    ∀ answer ∈ answers.map (Answer.pass : Answer ε φ → Answer δ φ), answer.goesOn = true := by
  intro passed hmem
  obtain ⟨answer, hanswer, rfl⟩ := List.mem_map.mp hmem
  match answer, hgoes answer hanswer with
  | .pending, _ => rfl
  | .ready (some (.ok _)), _ => rfl

/-- A gate stops with an answer that ends the stream. -/
theorem goesOn_of_stop {seen : Nat} {last : Answer ε φ} {answer : Answer δ φ}
    (h : gate.stop seen last = some answer) : answer.goesOn = false := by
  unfold stop at h
  split at h
  · cases h
  · cases h
    cases gate.close seen <;> rfl
  · cases h
    rfl
  · split at h
    · cases h
    · cases h
      rfl

/-- A gate comes to a clean end if the inner stream does, after a total that the
gate accepts. -/
theorem endsCleanly_run_iff {answers : List (Answer ε φ)} :
    EndsCleanly (run gate.poll init answers) ↔
      ∃ before rest, answers = before ++ .ready none :: rest ∧
        (∀ answer ∈ before, answer.goesOn = true) ∧ total gate.size before ≤ gate.bound ∧
        gate.close (total gate.size before) = none := by
  constructor
  · intro h
    obtain ⟨hgoes, hle⟩ | ⟨before, last, stopped, rest, rfl, hgoes, hle, hstop⟩ :=
      passes_or_stops gate answers
    · have hzero : 0 + total gate.size answers ≤ gate.bound := by rwa [Nat.zero_add]
      rw [init, (run_passed hgoes hzero).1] at h
      exact absurd h (not_endsCleanly (goesOn_pass hgoes))
    · rw [run_shut hgoes hle hstop,
        endsCleanly_of_first_stop (goesOn_pass hgoes) (goesOn_of_stop hstop)] at h
      subst h
      match last with
      | .pending => cases hstop
      | .ready none =>
          refine ⟨before, rest, rfl, hgoes, hle, ?_⟩
          simpa [stop] using hstop
      | .ready (some (.error error)) => cases hstop
      | .ready (some (.ok item)) =>
          rw [stop] at hstop
          split at hstop
          · cases hstop
          · cases hstop
  · rintro ⟨before, rest, rfl, hgoes, hle, hclose⟩
    have hstop : gate.stop (total gate.size before) (.ready none) = some (.ready none) := by
      rw [stop, hclose]
      rfl
    rw [run_shut hgoes hle hstop]
    exact ⟨_, _, rfl, goesOn_pass hgoes⟩

/-- What passes before a clean end is a total that the gate accepts. -/
theorem close_of_endsCleanly {answers : List (Answer ε φ)}
    (h : EndsCleanly (run gate.poll init answers)) :
    gate.close (total gate.size (run gate.poll init answers)) = none := by
  obtain ⟨before, rest, rfl, hgoes, hle, hclose⟩ := endsCleanly_run_iff.mp h
  have hstop : gate.stop (total gate.size before) (.ready none) = some (.ready none) := by
    rw [stop, hclose]
    rfl
  rw [run_shut hgoes hle hstop, total_append, total_pass, total_cons, total_ended]
  exact hclose

/-- A gate never counts beyond its bound. -/
theorem seen_after_le (gate : Gate ε δ φ) (answers : List (Answer ε φ)) :
    (after gate.poll init answers).seen ≤ gate.bound := by
  refine after_invariant (I := fun state : State => state.seen ≤ gate.bound) ?_ (Nat.zero_le _)
    answers
  intro state answer hle
  unfold poll
  split
  · exact hle
  · split
    · exact hle
    · exact hle
    · exact hle
    · split
      · next hfits => exact hfits
      · exact hle

/-- No more passes than the bound. -/
theorem total_run_le (gate : Gate ε δ φ) (answers : List (Answer ε φ)) :
    total gate.size (run gate.poll init answers) ≤ gate.bound := by
  have hseen := seen_after_le gate answers
  rw [seen_after] at hseen
  rwa [init, Nat.zero_add] at hseen

/-- After an error there is nothing but the end, and before it there is none. -/
theorem run_error {answers : List (Answer ε φ)} {before rest : List (Answer δ φ)} {error : δ}
    (h : run gate.poll init answers = before ++ .ready (some (.error error)) :: rest) :
    (∀ answer ∈ before, answer.goesOn = true) ∧ ∀ answer ∈ rest, answer = .ready none := by
  obtain ⟨hgoes, hle⟩ | ⟨passed, last, stopped, later, rfl, hgoes, hle, hstop⟩ :=
    passes_or_stops gate answers
  · have hzero : 0 + total gate.size answers ≤ gate.bound := by rwa [Nat.zero_add]
    rw [init, (run_passed hgoes hzero).1] at h
    have herror := goesOn_pass hgoes (.ready (some (.error error)))
      (h ▸ List.mem_append_right _ List.mem_cons_self)
    cases herror
  · have hpassed : ∀ answer ∈ passed.map (Answer.pass : Answer ε φ → Answer δ φ),
        answer.goesOn = true := goesOn_pass hgoes
    have hover : ∀ answer ∈ (ended later : List (Answer δ φ)), answer = .ready none := by
      intro answer hmem
      obtain ⟨_, _, rfl⟩ := List.mem_map.mp hmem
      rfl
    rw [run_shut hgoes hle hstop, List.append_eq_append_iff] at h
    -- the error is the answer with which the gate shut
    obtain ⟨between, rfl, hshut⟩ | ⟨between, hbefore, hshut⟩ := h
    · cases between with
      | nil =>
          rw [List.nil_append, List.cons.injEq] at hshut
          rw [List.append_nil, ← hshut.2]
          exact ⟨hpassed, hover⟩
      | cons first between =>
          rw [List.cons_append, List.cons.injEq] at hshut
          have herror := hover (.ready (some (.error error)))
            (hshut.2 ▸ List.mem_append_right _ List.mem_cons_self)
          cases herror
    · cases between with
      | nil =>
          rw [List.nil_append, List.cons.injEq] at hshut
          rw [List.append_nil] at hbefore
          rw [← hbefore, hshut.2]
          exact ⟨hpassed, hover⟩
      | cons first between =>
          rw [List.cons_append, List.cons.injEq] at hshut
          have herror := hpassed (.ready (some (.error error)))
            (hbefore ▸ List.mem_append_right _ (hshut.1 ▸ List.mem_cons_self))
          cases herror

end Gate

end Polled
