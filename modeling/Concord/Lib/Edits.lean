import Mathlib.Data.List.Basic
import Mathlib.Data.List.Induction

/-!
# Concord.Lib.Edits

Edits of a list: clear it, append to it, or put another list in its place.
What a sequence of edits leaves depends on the edits from the last one on
that is not an append.
-/

namespace Edits

inductive Kind where
  | off
  | plain
  | only
  deriving DecidableEq, Repr

inductive Edit (α : Type) where
  | clear
  | add (items : List α)
  | replace (items : List α)
  deriving DecidableEq, Repr

variable {α : Type}

namespace Edit

def kind : Edit α → Kind
  | clear => .off
  | add _ => .plain
  | replace _ => .only

/-- What an edit puts into the list. -/
def items : Edit α → List α
  | clear => []
  | add items => items
  | replace items => items

def apply (list : List α) : Edit α → List α
  | clear => []
  | add items => list ++ items
  | replace items => items

end Edit

/-- The list after a sequence of edits. -/
def run (edits : List (Edit α)) (list : List α) : List α := edits.foldl Edit.apply list

def AllPlain (kinds : List Kind) : Prop := ∀ kind ∈ kinds, kind = .plain

@[simp] theorem allPlain_nil : AllPlain [] := fun _ h => absurd h List.not_mem_nil

theorem allPlain_cons {kind : Kind} {kinds : List Kind} :
    AllPlain (kind :: kinds) ↔ kind = .plain ∧ AllPlain kinds := by
  unfold AllPlain
  rw [List.forall_mem_cons]

theorem allPlain_append {kinds more : List Kind} :
    AllPlain (kinds ++ more) ↔ AllPlain kinds ∧ AllPlain more := by
  unfold AllPlain
  rw [List.forall_mem_append]

@[simp] theorem run_nil (list : List α) : run [] list = list := rfl

@[simp] theorem run_cons (edit : Edit α) (edits : List (Edit α)) (list : List α) :
    run (edit :: edits) list = run edits (edit.apply list) := rfl

theorem run_append (edits more : List (Edit α)) (list : List α) :
    run (edits ++ more) list = run more (run edits list) := by
  unfold run
  rw [List.foldl_append]

/-- A property of the elements that are there or put holds of those that are
left. -/
theorem apply_forall {P : α → Prop} {edit : Edit α} {list : List α} (hedit : ∀ x ∈ edit.items, P x)
    (hlist : ∀ x ∈ list, P x) : ∀ x ∈ edit.apply list, P x := by
  cases edit with
  | clear => exact fun _ hmem => absurd hmem List.not_mem_nil
  | add items => exact List.forall_mem_append.mpr ⟨hlist, hedit⟩
  | replace items => exact hedit

theorem run_forall {P : α → Prop} {edits : List (Edit α)} {list : List α}
    (hedits : ∀ edit ∈ edits, ∀ x ∈ edit.items, P x) (hlist : ∀ x ∈ list, P x) :
    ∀ x ∈ run edits list, P x := by
  induction edits generalizing list with
  | nil => exact hlist
  | cons edit edits ih =>
      rw [List.forall_mem_cons] at hedits
      exact ih hedits.2 (apply_forall hedits.1 hlist)

/-- Plain edits append what they put. -/
theorem run_plain {edits : List (Edit α)} (h : AllPlain (edits.map Edit.kind)) (list : List α) :
    run edits list = list ++ edits.flatMap Edit.items := by
  induction edits generalizing list with
  | nil => simp
  | cons edit edits ih =>
      rw [List.map_cons, allPlain_cons] at h
      obtain ⟨hplain, hrest⟩ := h
      cases edit with
      | clear => cases hplain
      | replace items => cases hplain
      | add items =>
          rw [run_cons, ih hrest, Edit.apply, List.append_assoc]
          rfl

/-- An edit that is not plain forgets the list. -/
theorem apply_of_not_plain {edit : Edit α} (h : edit.kind ≠ .plain) (list : List α) :
    edit.apply list = edit.items := by
  cases edit with
  | clear => rfl
  | replace items => rfl
  | add items => exact absurd rfl h

/-- What is left after a last edit that is not plain. -/
theorem run_reset {before after : List (Edit α)} {reset : Edit α} (hreset : reset.kind ≠ .plain)
    (hafter : AllPlain (after.map Edit.kind)) (list : List α) :
    run (before ++ reset :: after) list = reset.items ++ after.flatMap Edit.items := by
  rw [run_append, run_cons, apply_of_not_plain hreset, run_plain hafter]

/-- A sequence is plain, or it has a last element that is not. -/
theorem plain_or_last_reset {β : Type} (kind : β → Kind) (xs : List β) :
    AllPlain (xs.map kind) ∨
      ∃ before reset after, xs = before ++ reset :: after ∧ kind reset ≠ .plain ∧
        AllPlain (after.map kind) := by
  induction xs with
  | nil => exact .inl allPlain_nil
  | cons x xs ih =>
      cases ih with
      | inr h =>
          obtain ⟨before, reset, after, rfl, hreset, hafter⟩ := h
          exact .inr ⟨x :: before, reset, after, rfl, hreset, hafter⟩
      | inl h =>
          by_cases hplain : kind x = .plain
          · exact .inl (allPlain_cons.mpr ⟨hplain, h⟩)
          · exact .inr ⟨[], x, xs, rfl, hplain, h⟩

/-- There is only one last kind that is not plain. -/
theorem last_reset_unique {before before' after after' : List Kind} {reset reset' : Kind}
    (h : before ++ reset :: after = before' ++ reset' :: after') (hreset : reset ≠ .plain)
    (hafter : AllPlain after) (hreset' : reset' ≠ .plain) (hafter' : AllPlain after') :
    reset = reset' ∧ after = after' := by
  induction before generalizing before' with
  | nil =>
      cases before' with
      | nil => exact List.cons.inj h
      | cons kind before' =>
          have htail : after = before' ++ reset' :: after' := (List.cons.inj h).2
          rw [htail, allPlain_append, allPlain_cons] at hafter
          exact absurd hafter.2.1 hreset'
  | cons kind before ih =>
      cases before' with
      | nil =>
          have htail : before ++ reset :: after = after' := (List.cons.inj h).2
          rw [← htail, allPlain_append, allPlain_cons] at hafter'
          exact absurd hafter'.2.1 hreset
      | cons kind' before' => exact ih (List.cons.inj h).2

end Edits
