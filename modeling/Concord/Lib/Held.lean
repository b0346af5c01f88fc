import Mathlib.Data.List.Perm.Basic

/-!
# Concord.Lib.Held

Lists of which some members hold a key: `held a` is the key of a member that
does.  The keys that are held change with one member at a time
(`filterMap_set`), and if no key is held twice, a key tells who holds it
(`index_unique`).
-/

namespace Held

variable {α κ : Type*} (held : α → Option κ)

theorem filterMap_cons_perm (a : α) (members : List α) :
    ((a :: members).filterMap held).Perm ((held a).toList ++ members.filterMap held) := by
  rw [List.filterMap_cons]
  cases held a with
  | none => exact List.Perm.refl _
  | some key => exact List.Perm.refl _

/-- The keys that are held, with that of one member in front. -/
theorem filterMap_perm {members : List α} {i : Nat} {a : α} (h : members[i]? = some a) :
    (members.filterMap held).Perm
      ((held a).toList ++ (members.eraseIdx i).filterMap held) := by
  obtain ⟨hi, rfl⟩ := List.getElem?_eq_some_iff.mp h
  have hperm := (List.getElem_cons_eraseIdx_perm hi).symm.filterMap held
  exact hperm.trans (filterMap_cons_perm held _ _)

/-- The keys that are held after one member has changed. -/
theorem filterMap_set {members : List α} {i : Nat} (hi : i < members.length) (b : α) :
    ((members.set i b).filterMap held).Perm
      ((held b).toList ++ (members.eraseIdx i).filterMap held) := by
  have hperm := (List.set_perm_cons_eraseIdx hi b).filterMap held
  exact hperm.trans (filterMap_cons_perm held _ _)

theorem index_unique {members : List α} (hnodup : (members.filterMap held).Nodup) {i j : Nat}
    {a b : α} {key : κ} (ha : members[i]? = some a) (hb : members[j]? = some b)
    (hheld : held a = some key) (hheld' : held b = some key) : i = j := by
  induction members generalizing i j with
  | nil => simp at ha
  | cons c members ih =>
      have hmem {k : Nat} {d : α} (hd : members[k]? = some d) (hkey : held d = some key) :
          key ∈ members.filterMap held :=
        List.mem_filterMap.mpr ⟨d, List.mem_of_getElem? hd, hkey⟩
      rw [List.filterMap_cons] at hnodup
      cases i with
      | zero =>
          cases j with
          | zero => rfl
          | succ j =>
              simp only [List.getElem?_cons_zero, Option.some.injEq] at ha
              simp only [List.getElem?_cons_succ] at hb
              subst ha
              simp only [hheld, List.nodup_cons] at hnodup
              exact absurd (hmem hb hheld') hnodup.1
      | succ i =>
          simp only [List.getElem?_cons_succ] at ha
          cases j with
          | zero =>
              simp only [List.getElem?_cons_zero, Option.some.injEq] at hb
              subst hb
              simp only [hheld', List.nodup_cons] at hnodup
              exact absurd (hmem ha hheld) hnodup.1
          | succ j =>
              simp only [List.getElem?_cons_succ] at hb
              have hrest : (members.filterMap held).Nodup := by
                cases hc : held c with
                | none => simpa [hc] using hnodup
                | some other =>
                    simp only [hc, List.nodup_cons] at hnodup
                    exact hnodup.2
              rw [ih hrest ha hb]

/-! ## members seen from outside -/

/-- Members that are there, seen in two ways that agree on all but one. -/
theorem map_set_of_frame {γ : Type*} (view view' : α → γ) {members : List (Option α)} {i : Nat}
    (b : Option α) (hframe : ∀ a, some a ∈ members.eraseIdx i → view' a = view a) :
    (members.set i b).map (Option.map view') =
      (members.map (Option.map view)).set i (b.map view') := by
  induction members generalizing i with
  | nil => rfl
  | cons c members ih =>
      cases i with
      | zero =>
          have hrest : members.map (Option.map view') = members.map (Option.map view) := by
            refine List.map_congr_left fun a hmem => ?_
            cases a with
            | none => rfl
            | some a => simp [hframe a hmem]
          simp [hrest]
      | succ i =>
          have hhead : c.map view' = c.map view := by
            cases c with
            | none => rfl
            | some a => simp [hframe a List.mem_cons_self]
          have hrest := ih fun a hmem => hframe a (List.mem_cons_of_mem _ hmem)
          simp [hhead, hrest]

/-- Members that are there and one that has come. -/
theorem map_append_of_frame {γ : Type*} (view view' : α → γ) {members : List (Option α)}
    (b : α) (hframe : ∀ a, some a ∈ members → view' a = view a) :
    (members ++ [some b]).map (Option.map view') =
      members.map (Option.map view) ++ [some (view' b)] := by
  have hrest : members.map (Option.map view') = members.map (Option.map view) := by
    refine List.map_congr_left fun a hmem => ?_
    cases a with
    | none => rfl
    | some a => simp [hframe a hmem]
  simp [hrest]

end Held
