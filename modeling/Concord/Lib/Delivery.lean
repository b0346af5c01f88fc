import Concord.Lib.Gate

/-!
# Concord.Lib.Delivery

Streams that are polled without end, and what they deliver: the weight of
their items until the first error or the end.

A gate delivers what the inner stream does as long as that is within its
bound (`Place.passing`), and nothing once it is shut (`Place.shut`).
-/

namespace Polled

variable {ε δ φ σ : Type*}

/-! ## streams without end -/

/-- The first answers of a stream. -/
def firsts (answers : Nat → Answer ε φ) (n : Nat) : List (Answer ε φ) := (List.range n).map answers

/-- What a stream has delivered after polls. -/
def delivered (size : φ → Nat) (answers : Nat → Answer ε φ) (n : Nat) : Nat :=
  total size (live (firsts answers n))

/-- The stream has failed or ended. -/
def Stopped (answers : Nat → Answer ε φ) (n : Nat) : Prop :=
  ∃ answer ∈ firsts answers n, answer.goesOn = false

/-- The answers of a stream that is made of an inner one. -/
def answersOf (step : σ → Answer ε φ → σ × Answer δ φ) (state : σ) (answers : Nat → Answer ε φ)
    (n : Nat) : Answer δ φ :=
  (step (after step state (firsts answers n)) (answers n)).2

/-- One more answer. -/
theorem firsts_succ (answers : Nat → Answer ε φ) (n : Nat) :
    firsts answers (n + 1) = firsts answers n ++ [answers n] := by
  simp [firsts, List.range_succ]

/-- As many answers as were asked for. -/
@[simp] theorem length_firsts (answers : Nat → Answer ε φ) (n : Nat) :
    (firsts answers n).length = n := by
  simp [firsts]

/-- The first answers, and then those after them. -/
theorem firsts_add (answers : Nat → Answer ε φ) (n m : Nat) :
    firsts answers (n + m) = firsts answers n ++ firsts (fun i => answers (n + i)) m := by
  simp [firsts, List.range_add, Function.comp_def]

/-- The start of the first answers. -/
theorem eq_firsts {answers : Nat → Answer ε φ} {n : Nat} {before rest : List (Answer ε φ)}
    (h : firsts answers n = before ++ rest) : before = firsts answers before.length := by
  have hlength : n = before.length + rest.length := by
    have hlengths := congrArg List.length h
    simpa using hlengths
  rw [hlength, firsts_add] at h
  exact (List.append_inj h (by simp)).1.symm

/-- The answers a layer gives are its run over those it gets. -/
theorem firsts_answersOf (step : σ → Answer ε φ → σ × Answer δ φ) (state : σ)
    (answers : Nat → Answer ε φ) (n : Nat) :
    firsts (answersOf step state answers) n = run step state (firsts answers n) := by
  induction n with
  | zero => rfl
  | succ n ih =>
      rw [firsts_succ, firsts_succ, run_append, ih]
      rfl

/-! ## what is delivered -/

/-- What comes after a body stopped is not live. -/
theorem live_append_of_stopped {before : List (Answer ε φ)}
    (h : ∃ answer ∈ before, answer.goesOn = false) (rest : List (Answer ε φ)) :
    live (before ++ rest) = live before := by
  induction before with
  | nil => simp at h
  | cons answer before ih =>
      cases hgoes : answer.goesOn with
      | false => rw [List.cons_append, live_cons_of_not hgoes, live_cons_of_not hgoes]
      | true =>
          obtain ⟨other, hmem, hother⟩ := h
          have hrest : other ∈ before := by
            rcases List.mem_cons.mp hmem with rfl | hmem
            · rw [hgoes] at hother
              contradiction
            · exact hmem
          rw [List.cons_append, live_cons_of_goesOn hgoes, live_cons_of_goesOn hgoes,
            ih ⟨other, hrest, hother⟩]

section
variable {size : φ → Nat} {answers : Nat → Answer ε φ}

/-- A body never takes back what it delivered. -/
theorem delivered_mono (size : φ → Nat) (answers : Nat → Answer ε φ) (n m : Nat) :
    delivered size answers n ≤ delivered size answers (n + m) := by
  unfold delivered
  rw [firsts_add]
  exact total_live_le size _ _

/-- So it delivers more the longer it is read. -/
theorem delivered_le_of_le {n m : Nat} (h : n ≤ m) :
    delivered size answers n ≤ delivered size answers m := by
  obtain ⟨k, rfl⟩ := Nat.exists_eq_add_of_le h
  exact delivered_mono size answers n k

/-- A body that stopped stays so. -/
theorem Stopped.add {n : Nat} (h : Stopped answers n) (m : Nat) : Stopped answers (n + m) := by
  obtain ⟨answer, hmem, hanswer⟩ := h
  exact ⟨answer, by rw [firsts_add]; exact List.mem_append_left _ hmem, hanswer⟩

/-- And delivers no more. -/
theorem Stopped.delivered {n : Nat} (h : Stopped answers n) (m : Nat) :
    delivered size answers (n + m) = delivered size answers n := by
  unfold Polled.delivered
  rw [firsts_add, live_append_of_stopped h]

/-- Before a body stops every answer of it goes on. -/
theorem goesOn_of_not_stopped {n : Nat} (h : ¬ Stopped answers n) :
    ∀ answer ∈ firsts answers n, answer.goesOn = true := by
  intro answer hmem
  rw [← Bool.not_eq_false]
  exact fun hanswer => h ⟨answer, hmem, hanswer⟩

/-- A body that goes on has delivered all its answers. -/
theorem delivered_of_goesOn {n : Nat} (h : ∀ answer ∈ firsts answers n, answer.goesOn = true) :
    delivered size answers n = total size (firsts answers n) := by
  unfold delivered
  rw [live_eq_self h]

/-- One more poll of a stream that goes on. -/
theorem delivered_succ {n : Nat} (h : ¬ Stopped answers n) :
    delivered size answers (n + 1) = delivered size answers n + (answers n).weight size := by
  have hgoes := goesOn_of_not_stopped h
  have hlast : total size (live [answers n]) = (answers n).weight size := by
    match answers n with
    | .pending | .ready none | .ready (some (.error _)) | .ready (some (.ok _)) => rfl
  unfold delivered
  rw [firsts_succ, live_append hgoes, live_eq_self hgoes, total_append, hlast]

end

/-- A body stops with an answer that does not go on. -/
theorem stopped_succ_iff {answers : Nat → Answer ε φ} {n : Nat} :
    Stopped answers (n + 1) ↔ Stopped answers n ∨ (answers n).goesOn = false := by
  unfold Stopped
  rw [firsts_succ]
  simp only [List.mem_append, List.mem_singleton, or_and_right, exists_or, exists_eq_left]

/-- The state after one more answer. -/
theorem after_firsts_succ (step : σ → Answer ε φ → σ × Answer δ φ) (state : σ)
    (answers : Nat → Answer ε φ) (n : Nat) :
    after step state (firsts answers (n + 1)) =
      (step (after step state (firsts answers n)) (answers n)).1 := by
  rw [firsts_succ, after_append]
  rfl

/-! ## streams that relay -/

/-- A stream that passes every item on until it is shut, which it is only
where the inner stream stops. -/
structure Relays (size : φ → Nat) (step : σ → Answer ε φ → σ × Answer δ φ) (valid : σ → Prop)
    (shut : σ → Bool) : Prop where
  keeps {state : σ} (h : valid state) (answer : Answer ε φ) : valid (step state answer).1
  goesOn {state : σ} (h : valid state) (hopen : shut state = false) (answer : Answer ε φ) :
    (step state answer).2.goesOn = answer.goesOn
  weight {state : σ} (h : valid state) (hopen : shut state = false) (answer : Answer ε φ) :
    (step state answer).2.weight size = answer.weight size
  shuts {state : σ} (h : valid state) {answer : Answer ε φ}
    (hshut : shut (step state answer).1 = true) : shut state = true ∨ answer.goesOn = false

section
variable {size : φ → Nat} {step : σ → Answer ε φ → σ × Answer δ φ} {valid : σ → Prop}
  {shut : σ → Bool} {state : σ}

/-- The state of a layer stays valid. -/
theorem Relays.valid_after (h : Relays size step valid shut) (hvalid : valid state)
    (answers : List (Answer ε φ)) : valid (after step state answers) :=
  after_invariant (I := valid) (fun _ answer hstate => h.keeps hstate answer) hvalid answers

/-- A layer shuts only once the body has stopped. -/
theorem Relays.stopped_of_shut (h : Relays size step valid shut) (hvalid : valid state)
    (hopen : shut state = false) (answers : Nat → Answer ε φ) {n : Nat}
    (hshut : shut (after step state (firsts answers n)) = true) : Stopped answers n := by
  induction n with
  | zero =>
      have hzero : shut state = true := hshut
      rw [hopen] at hzero
      contradiction
  | succ n ih =>
      have hvalid' := h.valid_after hvalid (firsts answers n)
      rw [after_firsts_succ] at hshut
      rcases h.shuts hvalid' hshut with hbefore | hanswer
      · exact stopped_succ_iff.mpr (.inl (ih hbefore))
      · exact stopped_succ_iff.mpr (.inr hanswer)

/-- A stream that relays delivers what the inner stream does. -/
theorem Relays.delivered (h : Relays size step valid shut) (hvalid : valid state)
    (hopen : shut state = false) (answers : Nat → Answer ε φ) (n : Nat) :
    delivered size (answersOf step state answers) n = delivered size answers n ∧
      (Stopped (answersOf step state answers) n ↔ Stopped answers n) := by
  induction n with
  | zero => exact ⟨rfl, by simp [Stopped, firsts]⟩
  | succ n ih =>
      obtain ⟨hdelivered, hstopped⟩ := ih
      by_cases hstop : Stopped answers n
      · have hout : Stopped (answersOf step state answers) n := hstopped.mpr hstop
        exact ⟨by rw [hout.delivered 1, hstop.delivered 1, hdelivered],
          iff_of_true (hout.add 1) (hstop.add 1)⟩
      · have hout : ¬ Stopped (answersOf step state answers) n := fun h' => hstop (hstopped.mp h')
        have hvalid' := h.valid_after hvalid (firsts answers n)
        have hopen' : shut (after step state (firsts answers n)) = false := by
          rw [← Bool.not_eq_true]
          exact fun hshut => hstop (h.stopped_of_shut hvalid hopen answers hshut)
        have hgoes : (answersOf step state answers n).goesOn = (answers n).goesOn :=
          h.goesOn hvalid' hopen' (answers n)
        have hweight : (answersOf step state answers n).weight size = (answers n).weight size :=
          h.weight hvalid' hopen' (answers n)
        rw [delivered_succ hout, delivered_succ hstop, hdelivered, hweight, stopped_succ_iff,
          stopped_succ_iff, hstopped, hgoes]
        exact ⟨rfl, Iff.rfl⟩

end

/-! ## gates -/

namespace Gate

variable {gate : Gate ε δ φ} {answers : Nat → Answer ε φ} {n : Nat}

/-- What a gate delivers. -/
def out (gate : Gate ε δ φ) (answers : Nat → Answer ε φ) (n : Nat) : Nat :=
  delivered gate.size (answersOf gate.poll init answers) n

/-- Where a gate stands after polls. -/
inductive Place (gate : Gate ε δ φ) (answers : Nat → Answer ε φ) (n : Nat) : Prop
  | passing (hstate : after gate.poll init (firsts answers n) =
        ⟨delivered gate.size answers n, false⟩)
      (hle : delivered gate.size answers n ≤ gate.bound)
      (hout : gate.out answers n = delivered gate.size answers n)
  | shut (hterminal : (after gate.poll init (firsts answers n)).terminal = true) (k : Nat)
      (hk : k ≤ n) (hle : delivered gate.size answers k ≤ gate.bound)
      (hout : ∀ m, gate.out answers (n + m) = delivered gate.size answers k)
      (hinner : gate.bound < delivered gate.size answers n ∨
        Stopped answers n ∧ delivered gate.size answers n = delivered gate.size answers k)

/-- A gate that is closed stays as it is. -/
theorem after_terminal (seen : Nat) (answers : List (Answer ε φ)) :
    after gate.poll ⟨seen, true⟩ answers = ⟨seen, true⟩ := by
  induction answers with
  | nil => rfl
  | cons answer answers ih =>
      have hpoll : (gate.poll ⟨seen, true⟩ answer).1 = ⟨seen, true⟩ := by simp [poll]
      rw [after, hpoll, ih]

/-- A gate shuts at an item that is beyond its bound, or where the inner
stream stops. -/
theorem beyond_of_stop {seen : Nat} {last : Answer ε φ} {answer : Answer δ φ}
    (h : gate.stop seen last = some answer) (hgoes : last.goesOn = true) :
    gate.bound < seen + last.weight gate.size := by
  match last with
  | .pending => simp [stop] at h
  | .ready none => simp [Answer.goesOn] at hgoes
  | .ready (some (.error error)) => simp [Answer.goesOn] at hgoes
  | .ready (some (.ok item)) =>
      simp only [stop] at h
      split at h
      · contradiction
      · next hle => simpa [Answer.weight] using hle

/-- Where a gate is after so many answers. -/
theorem place (gate : Gate ε δ φ) (answers : Nat → Answer ε φ) (n : Nat) :
    gate.Place answers n := by
  obtain ⟨hgoes, hle⟩ | ⟨before, last, stopped, rest, heq, hgoes, hle, hstop⟩ :=
    passes_or_stops gate (firsts answers n)
  · have hzero : 0 + total gate.size (firsts answers n) ≤ gate.bound := by omega
    obtain ⟨hrun, hafter⟩ := run_passed hgoes hzero
    have hdelivered : delivered gate.size answers n = total gate.size (firsts answers n) :=
      delivered_of_goesOn hgoes
    refine .passing ?_ (by omega) ?_
    · rw [hdelivered, init, hafter, Nat.zero_add]
    · rw [hdelivered, out, delivered, firsts_answersOf, init, hrun,
        live_eq_self (goesOn_pass hgoes), total_pass]
  · have hbefore := eq_firsts heq
    have hlength : n = before.length + (rest.length + 1) := by
      have hlengths := congrArg List.length heq
      simpa using hlengths
    have hk : delivered gate.size answers before.length = total gate.size before := by
      rw [delivered, ← hbefore, live_eq_self hgoes]
    have hzero : 0 + total gate.size before ≤ gate.bound := by omega
    refine .shut ?_ before.length (by omega) (by omega) ?_ ?_
    · rw [heq, after_append, init, (run_passed hgoes hzero).2, Nat.zero_add, after,
        poll_stop hstop, after_terminal]
    · intro m
      rw [out, delivered, firsts_answersOf, firsts_add, heq, List.append_assoc, List.cons_append,
        run_shut hgoes hle hstop, live_append (goesOn_pass hgoes),
        live_cons_of_not (goesOn_of_stop hstop), List.append_nil, total_pass, hk]
    · cases hlast : last.goesOn with
      | false =>
          right
          refine ⟨⟨last, by rw [heq]; simp, hlast⟩, ?_⟩
          rw [hk, delivered, heq, live_append hgoes, live_cons_of_not hlast, List.append_nil]
      | true =>
          left
          have hbeyond := beyond_of_stop hstop hlast
          rw [delivered, heq, live_append hgoes, live_cons_of_goesOn hlast, total_append,
            total_cons]
          omega

/-- A gate lets through what the body delivered up to some point, within the bound. -/
theorem out_le_delivered (gate : Gate ε δ φ) (answers : Nat → Answer ε φ) (n : Nat) :
    ∃ k ≤ n, gate.out answers n = delivered gate.size answers k ∧
      delivered gate.size answers k ≤ gate.bound := by
  cases gate.place answers n with
  | passing hstate hle hout => exact ⟨n, Nat.le_refl n, hout, hle⟩
  | shut hterminal k hk hle hout hinner => exact ⟨k, hk, hout 0, hle⟩

/-- Below the bound it lets everything through. -/
theorem out_eq_delivered (h : delivered gate.size answers n ≤ gate.bound) :
    gate.out answers n = delivered gate.size answers n := by
  cases gate.place answers n with
  | passing hstate hle hout => exact hout
  | shut hterminal k hk hle hout hinner =>
      rcases hinner with hbeyond | ⟨_, hdelivered⟩
      · omega
      · rw [hdelivered]
        exact hout 0

/-- A gate delivers so much more if the inner stream does, at a place that is
within the bound. -/
theorem out_reaches_iff (h : gate.out answers n = delivered gate.size answers n) (more : Nat) :
    (∃ m, gate.out answers n + more ≤ gate.out answers (n + m)) ↔
      ∃ m, delivered gate.size answers n + more ≤ delivered gate.size answers (n + m) ∧
        delivered gate.size answers (n + m) ≤ gate.bound := by
  constructor
  · rintro ⟨m, hm⟩
    obtain ⟨k, hk, hout, hle⟩ := gate.out_le_delivered answers (n + m)
    rw [h, hout] at hm
    by_cases hnk : n ≤ k
    · obtain ⟨i, rfl⟩ := Nat.exists_eq_add_of_le hnk
      exact ⟨i, hm, hle⟩
    · have hmono : delivered gate.size answers k ≤ delivered gate.size answers n :=
        delivered_le_of_le (by omega)
      exact ⟨0, by simp only [Nat.add_zero]; omega, by simp only [Nat.add_zero]; omega⟩
  · rintro ⟨m, hm, hle⟩
    exact ⟨m, by rw [h, out_eq_delivered hle]; exact hm⟩

end Gate

end Polled
