import Mathlib.Data.Fintype.Basic
import Mathlib.Data.List.Nodup
import Mathlib.Logic.Relation
import Mathlib.Order.Preorder.Finite

/-!
# Concord.Lib.Ancestry

Nodes that name at most one parent each.  The line of a key leads from an
ancestor without a parent down to the key.  A key has at most one line, no key
comes twice in it, and among finitely many keys all have one exactly if no
parent is missing and no way up returns to where it started.
-/

namespace Ancestry

variable {K N : Type*} {find : K → Option N} {up : N → Option K}

/-- A key and its parent. -/
def Up (find : K → Option N) (up : N → Option K) (k p : K) : Prop :=
  ∃ n, find k = some n ∧ up n = some p

/-- The line of a key, from the ancestor without a parent down to the key. -/
inductive Line (find : K → Option N) (up : N → Option K) : K → List (K × N) → Prop
  | root {k : K} {n : N} (hfind : find k = some n) (hup : up n = none) : Line find up k [(k, n)]
  | child {k p : K} {n : N} {line : List (K × N)} (hfind : find k = some n) (hup : up n = some p)
      (hline : Line find up p line) : Line find up k (line ++ [(k, n)])

namespace Line

variable {k k' p : K} {n : N} {line line' : List (K × N)}

/-- A line of a key whose node has a parent ends with the line of the parent. -/
theorem child_of (h : Line find up k line) (hfind : find k = some n) (hup : up n = some p) :
    ∃ above, Line find up p above ∧ line = above ++ [(k, n)] := by
  cases h with
  | root hfind' hup' =>
      rw [hfind] at hfind'
      cases hfind'
      rw [hup] at hup'
      cases hup'
  | child hfind' hup' hline =>
      rw [hfind] at hfind'
      cases hfind'
      rw [hup] at hup'
      cases hup'
      exact ⟨_, hline, rfl⟩

theorem root_of (h : Line find up k line) (hfind : find k = some n) (hup : up n = none) :
    line = [(k, n)] := by
  cases h with
  | root hfind' _ =>
      rw [hfind] at hfind'
      cases hfind'
      rfl
  | child hfind' hup' _ =>
      rw [hfind] at hfind'
      cases hfind'
      rw [hup] at hup'
      cases hup'

theorem unique (h : Line find up k line) (h' : Line find up k line') : line = line' := by
  induction h generalizing line' with
  | root hfind hup => exact (h'.root_of hfind hup).symm
  | child hfind hup _ ih =>
      obtain ⟨above, habove, rfl⟩ := h'.child_of hfind hup
      rw [ih habove]

theorem find_eq (h : Line find up k line) : ∃ n, find k = some n := by
  cases h with
  | root hfind _ => exact ⟨_, hfind⟩
  | child hfind _ _ => exact ⟨_, hfind⟩

/-- A key of a line has the part of it down to there as its line. -/
theorem of_mem (h : Line find up k line) (hmem : k' ∈ line.map Prod.fst) :
    ∃ line', Line find up k' line' ∧ line' <+: line := by
  induction h with
  | root hfind hup =>
      rw [List.map_singleton, List.mem_singleton] at hmem
      subst hmem
      exact ⟨_, .root hfind hup, List.prefix_rfl⟩
  | child hfind hup hline ih =>
      rw [List.map_append, List.mem_append, List.map_singleton, List.mem_singleton] at hmem
      obtain hmem | rfl := hmem
      · obtain ⟨line', hline', hle⟩ := ih hmem
        exact ⟨line', hline', hle.trans (List.prefix_append _ _)⟩
      · exact ⟨_, .child hfind hup hline, List.prefix_rfl⟩

theorem not_mem_above (hfind : find k = some n) (hup : up n = some p)
    (habove : Line find up p line) : k ∉ line.map Prod.fst := by
  intro hmem
  obtain ⟨line', hline', hle⟩ := habove.of_mem hmem
  have heq := hline'.unique (.child hfind hup habove)
  have hlength := hle.length_le
  rw [heq, List.length_append] at hlength
  exact Nat.not_succ_le_self _ hlength

/-- No key comes twice in a line. -/
theorem nodup (h : Line find up k line) : (line.map Prod.fst).Nodup := by
  induction h with
  | root _ _ => exact List.nodup_singleton _
  | child hfind hup hline ih =>
      rw [List.map_append, List.map_singleton, List.nodup_append]
      refine ⟨ih, List.nodup_singleton _, ?_⟩
      intro a ha b hb heq
      rw [List.mem_singleton] at hb
      rw [heq, hb] at ha
      exact not_mem_above hfind hup hline ha

/-- The line of an ancestor is shorter. -/
theorem above (h : Line find up k line) (hway : Relation.TransGen (Up find up) k k') :
    ∃ line', Line find up k' line' ∧ line'.length < line.length := by
  induction hway with
  | single hstep =>
      obtain ⟨n, hfind, hup⟩ := hstep
      obtain ⟨above, habove, rfl⟩ := h.child_of hfind hup
      refine ⟨above, habove, ?_⟩
      rw [List.length_append]
      exact Nat.lt_succ_self _
  | tail _ hstep ih =>
      obtain ⟨between, hbetween, hlt⟩ := ih
      obtain ⟨n, hfind, hup⟩ := hstep
      obtain ⟨above, habove, rfl⟩ := hbetween.child_of hfind hup
      refine ⟨above, habove, Nat.lt_trans ?_ hlt⟩
      rw [List.length_append]
      exact Nat.lt_succ_self _

/-- A key with a line is not its own ancestor. -/
theorem no_return (h : Line find up k line) : ¬ Relation.TransGen (Up find up) k k := by
  intro hway
  obtain ⟨line', hline', hlt⟩ := h.above hway
  rw [h.unique hline'] at hlt
  exact Nat.lt_irrefl _ hlt

end Line

/-- Every way up from finitely many keys comes to an end if no parent is missing
and none returns to where it started. -/
theorem exists_line {keys : List K} (hfind : ∀ k ∈ keys, ∃ n, find k = some n)
    (hup : ∀ k p, k ∈ keys → Up find up k p → p ∈ keys)
    (hacyclic : ∀ k, ¬ Relation.TransGen (Up find up) k k) {k : K} (hk : k ∈ keys) :
    ∃ line, Line find up k line := by
  let Above : {k // k ∈ keys} → {k // k ∈ keys} → Prop :=
    fun a b => Relation.TransGen (Up find up) b.1 a.1
  have hwf : WellFounded Above := by
    have hfinite : Finite {k // k ∈ keys} := List.finite_toSet keys
    have htrans : IsTrans _ Above := ⟨fun _ _ _ hab hbc => hbc.trans hab⟩
    have hirrefl : Std.Irrefl Above := ⟨fun a => hacyclic a.1⟩
    exact Finite.wellFounded_of_trans_of_irrefl Above
  have hall : ∀ a : {k // k ∈ keys}, ∃ line, Line find up a.1 line := by
    intro a
    induction a using hwf.induction with
    | h a ih =>
        obtain ⟨n, hn⟩ := hfind a.1 a.2
        cases hparent : up n with
        | none => exact ⟨_, .root hn hparent⟩
        | some p =>
            have hstep : Up find up a.1 p := ⟨n, hn, hparent⟩
            obtain ⟨line, hline⟩ := ih ⟨p, hup a.1 p a.2 hstep⟩ (.single hstep)
            exact ⟨_, .child hn hparent hline⟩
  exact hall ⟨k, hk⟩

end Ancestry
