import Concord.Auth.Flight

/-!
# Concord.Auth.Cell

What a credential slot is for: a cell that holds the last credential it was
given, or the last failure to get one, and that fetches a new one only when
what it holds no longer serves.

`Cell` is that purpose, with no locks, waiters or counters in it, and
`CellStep` says what may happen to it.  `CellStep.spared` is the step lemma of
`held_until_due`: what serves its callers stays as it is.
-/

namespace Concord

open Checked Transition

variable {T : Type*}

/-! ## the cell -/

/-- What a cell has to give. -/
inductive Holding (T : Type*) where
  | nothing
  | credential (lease : CredentialLease (Stored T))
  | failure (error : AuthError) (retryAt : Option Instant)

/-- How far the fetch of a new credential is: the provider is asked, it has
answered, or its answer is of no use. -/
inductive Stage (T : Type*) where
  | asked
  | answered (result : Except AuthError (Stored T))
  | leaving

structure Cell (T : Type*) where
  holding : Holding T
  fetch : Option (RefreshOwnerId × Stage T)

/-- What is held serves a caller at a time: a credential that does not have to
be refreshed, or a failure that is still to be waited out. -/
def Holding.Serves [CredentialMaterial T] (policy : AuthStepPolicy) (now : Instant) :
    Holding T → Outcome T → Prop
  | .credential lease, outcome =>
    outcome = .leased lease ∧ credentialRefreshReason lease.value policy now = .ok none
  | .failure error (some retryAt), outcome => outcome = .failed error ∧ now < retryAt
  | .failure _ none, _ | .nothing, _ => False

/-- It is time to fetch a new credential. -/
def Cell.Due [CredentialMaterial T] (cell : Cell T) (policy : AuthStepPolicy) (now : Instant) :
    Prop :=
  cell.fetch = none ∧ ∀ outcome, ¬ cell.holding.Serves policy now outcome

/-- The same credential under another generation. -/
def Holding.renumber (generation : Nat) : Holding T → Holding T
  | .credential lease => .credential { lease with generation := generation }
  | holding => holding

def refreshSkewOverflow : AuthError := .new .invalidConfiguration "auth refresh_skew overflowed"

def retryAfterOverflow : AuthError := .new .invalidConfiguration "auth retry-after overflowed"

/-- A counter or the clock cannot go on. -/
def Exhausted (error : AuthError) : Prop :=
  error = generationOverflow ∨ error = ownerOverflow ∨ error = refreshSkewOverflow

/-- The labels of an invalidation. -/
def Label.Invalidates (generation : Option Nat) (label : Label T) : Prop :=
  label = .invalidateGeneration generation ∨ label = .invalidateGenerationLocal generation

/-- The labels by which waiters are woken and leave. -/
def Label.Wakes : Label T → Prop
  | .notifyWaiters _ | .resume _ | .abandon _ => True
  | _ => False

/-- What may happen to a cell. -/
inductive CellStep [CredentialMaterial T] (provider : Except AuthError Unit) (cell : Cell T) :
    Label T → Outcome T → Cell T → Prop
  | served {policy : AuthStepPolicy} {now now' : Instant} {outcome : Outcome T}
      (hidle : cell.fetch = none) (h : cell.holding.Serves policy now outcome) :
      CellStep provider cell (.getOrRefresh policy now now') outcome cell
  | joined {policy : AuthStepPolicy} {now now' : Instant} {fetch : RefreshOwnerId × Stage T}
      (h : cell.fetch = some fetch) :
      CellStep provider cell (.getOrRefresh policy now now') .done cell
  | fetches {policy : AuthStepPolicy} {now now' : Instant} {owner : RefreshOwnerId}
      (hdue : cell.Due policy now) :
      CellStep provider cell (.getOrRefresh policy now now') .done
        { cell with fetch := some (owner, .asked) }
  | answered {owner : RefreshOwnerId} {object : Nat} {result : Except AuthError T}
      (h : cell.fetch = some (owner, .asked)) :
      CellStep provider cell (.commitCheck owner result) .done
        { cell with fetch := some (owner, .answered (result.map (⟨object, ·⟩))) }
  | stored {owner : RefreshOwnerId} {now : Instant} {lease : CredentialLease (Stored T)}
      (h : cell.fetch = some (owner, .answered (.ok lease.value))) :
      CellStep provider cell (.commitStore owner now) (.leased lease) ⟨.credential lease, none⟩
  | failed {owner : RefreshOwnerId} {now : Instant} {error : AuthError}
      (h : cell.fetch = some (owner, .answered (.error error)))
      (hfits : ∀ wait ∈ error.retryAfter, now + wait ≤ instantMax) :
      CellStep provider cell (.commitStore owner now) (.failed error)
        ⟨.failure error (error.retryAfter.map (now + ·)), none⟩
  | unwinds {owner : RefreshOwnerId} {now : Instant} {error : AuthError} {wait : Duration}
      (h : cell.fetch = some (owner, .answered (.error error)))
      (hwait : error.retryAfter = some wait) (hover : instantMax < now + wait) :
      CellStep provider cell (.commitStore owner now) (.failed retryAfterOverflow)
        { cell with fetch := some (owner, .leaving) }
  | givenUp {owner : RefreshOwnerId} {stage : Stage T} {generation : Nat}
      (h : cell.fetch = some (owner, stage)) :
      CellStep provider cell (.dropGuard owner) .done ⟨cell.holding.renumber generation, none⟩
  | stale {owner : RefreshOwnerId} {label : Label T} (hends : label.Ends owner)
      (h : ∀ stage, cell.fetch ≠ some (owner, stage)) : CellStep provider cell label .done cell
  | set {object generation : Nat} {value : T} :
      CellStep provider cell (.setManual value) .done
        ⟨.credential ⟨⟨object, value⟩, generation⟩, none⟩
  | cleared : CellStep provider cell .clearManual .done ⟨.nothing, none⟩
  | invalidated {generation : Option Nat} {label : Label T} {lease : CredentialLease (Stored T)}
      (hlabel : label.Invalidates generation) (h : cell.holding = .credential lease)
      (hgeneration : generation.all (· = lease.generation)) :
      CellStep provider cell label .done { cell with holding := .nothing }
  | missed {generation : Option Nat} {label : Label T} (hlabel : label.Invalidates generation)
      (h : ∀ lease, cell.holding = .credential lease →
        ∃ g, generation = some g ∧ g ≠ lease.generation) :
      CellStep provider cell label .done cell
  | peeked {lease : CredentialLease (Stored T)} (hidle : cell.fetch = none)
      (h : cell.holding = .credential lease) :
      CellStep provider cell .getCached (.leased lease) cell
  | empty (h : (∃ error, provider = .error error) ∨ cell.fetch ≠ none ∨
      ∀ lease, cell.holding ≠ .credential lease) : CellStep provider cell .getCached .done cell
  | woken {label : Label T} (hlabel : label.Wakes) : CellStep provider cell label .done cell
  | unprovided {label : Label T} {error : AuthError} (h : provider = .error error) :
      CellStep provider cell label (.failed error) cell
  | exhausted {label : Label T} {error : AuthError} (h : Exhausted error)
      (hends : ∀ owner, ¬ label.Ends owner)
      (hdue : ∀ policy now now', label = .getOrRefresh policy now now' → cell.Due policy now) :
      CellStep provider cell label (.failed error) cell

/-! ## what serves is kept -/

section spared

variable [CredentialMaterial T]

/-- Leaves what a cell holds alone: reads that it serves, and whatever is no
manual change and no invalidation of its credential. -/
def Label.Spares (holding : Holding T) : Label T → Prop
  | .getOrRefresh policy now _ => ∃ outcome, holding.Serves policy now outcome
  | .setManual _ | .clearManual => False
  | .invalidateGeneration generation | .invalidateGenerationLocal generation =>
    ∀ lease, holding = .credential lease → ∃ g, generation = some g ∧ g ≠ lease.generation
  | _ => True

/-- What a read hears while it is spared. -/
def Holding.Answers (holding : Holding T) : Label T → Outcome T → Prop
  | .getOrRefresh policy now _, outcome => holding.Serves policy now outcome
  | _, _ => True

theorem answers_of_ends {holding : Holding T} {label : Label T} {owner : RefreshOwnerId}
    (hends : label.Ends owner) (o : Outcome T) : holding.Answers label o := by
  cases label with
  | getOrRefresh policy now now' => exact absurd hends id
  | _ => trivial

theorem CellStep.spared {cell cell' : Cell T} {label : Label T} {o : Outcome T}
    (hspares : label.Spares cell.holding) (hidle : cell.fetch = none)
    (h : CellStep (.ok ()) cell label o cell') :
    cell' = cell ∧ cell.holding.Answers label o := by
  have hbusy : ∀ {fetch}, cell.fetch ≠ some fetch := by simp [hidle]
  cases h with
  | served _ hserves => exact ⟨rfl, hserves⟩
  | joined hfetch => exact absurd hfetch hbusy
  | fetches hdue =>
      obtain ⟨outcome, hserves⟩ := hspares
      exact absurd hserves (hdue.2 outcome)
  | answered hfetch => exact absurd hfetch hbusy
  | stored hfetch => exact absurd hfetch hbusy
  | failed hfetch _ => exact absurd hfetch hbusy
  | unwinds hfetch _ _ => exact absurd hfetch hbusy
  | givenUp hfetch => exact absurd hfetch hbusy
  | stale hends _ => exact ⟨rfl, answers_of_ends hends _⟩
  | set => exact absurd hspares id
  | cleared => exact absurd hspares id
  | @invalidated generation _ lease hlabel hholding hgeneration =>
      have hmiss : ∃ g, generation = some g ∧ g ≠ lease.generation := by
        rcases hlabel with rfl | rfl
        · exact hspares lease hholding
        · exact hspares lease hholding
      obtain ⟨g, rfl, hne⟩ := hmiss
      simp [hne] at hgeneration
  | missed hlabel _ =>
      refine ⟨rfl, ?_⟩
      rcases hlabel with rfl | rfl
      · trivial
      · trivial
  | peeked => exact ⟨rfl, trivial⟩
  | empty => exact ⟨rfl, trivial⟩
  | woken hlabel =>
      refine ⟨rfl, ?_⟩
      cases label with
      | getOrRefresh policy now now' => exact absurd hlabel id
      | _ => trivial
  | unprovided h => cases h
  | exhausted _ _ hdue =>
      refine ⟨rfl, ?_⟩
      cases label with
      | getOrRefresh policy now now' =>
          obtain ⟨outcome, hserves⟩ := hspares
          exact absurd hserves ((hdue policy now now' rfl).2 outcome)
      | _ => trivial

end spared

end Concord
