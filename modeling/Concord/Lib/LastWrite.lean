import Mathlib.Logic.Basic

/-!
# Concord.Lib.LastWrite

Operations that write a field, or do not: `write a` is what the operation `a`
writes, if it does.  After a sequence of operations the field holds what the
last write of the sequence wrote, or what it held before (`read_foldl`).
-/

namespace LastWrite

variable {σ α β : Type*} (write : α → Option β)

/-- The last write of a sequence. -/
def last (ops : List α) : Option β := (ops.filterMap write).getLast?

/-- Nothing is written. -/
@[simp] theorem last_nil : last write [] = none := rfl

/-- The later part decides, if it writes. -/
theorem last_append (ops ops' : List α) :
    last write (ops ++ ops') = (last write ops').or (last write ops) := by
  unfold last
  rw [List.filterMap_append, List.getLast?_append]

/-- One write. -/
theorem last_singleton (a : α) : last write [a] = write a := by
  unfold last
  cases h : write a with
  | none => simp [h]
  | some b => simp [h]

/-- The first write decides only if no later one does. -/
theorem last_cons (a : α) (ops : List α) :
    last write (a :: ops) = (last write ops).or (write a) := by
  rw [← List.singleton_append, last_append, last_singleton]

/-- Nothing is written if nothing writes. -/
theorem last_eq_none_iff {ops : List α} : last write ops = none ↔ ∀ a ∈ ops, write a = none := by
  unfold last
  rw [List.getLast?_eq_none_iff, List.filterMap_eq_nil_iff]

/-- The last write, with what comes before and after it. -/
theorem last_eq_some_iff {ops : List α} {b : β} :
    last write ops = some b ↔ ∃ before a after, ops = before ++ a :: after ∧ write a = some b ∧
      ∀ x ∈ after, write x = none := by
  constructor
  · intro h
    induction ops with
    | nil => contradiction
    | cons a ops ih =>
        rw [last_cons] at h
        cases hrest : last write ops with
        | none =>
            rw [hrest, Option.none_or] at h
            exact ⟨[], a, ops, rfl, h, (last_eq_none_iff write).mp hrest⟩
        | some b' =>
            rw [hrest, Option.some_or] at h
            obtain ⟨before, a', after, rfl, ha, hafter⟩ := ih (hrest.trans h)
            exact ⟨a :: before, a', after, rfl, ha, hafter⟩
  · intro h
    obtain ⟨before, a, after, rfl, ha, hafter⟩ := h
    rw [last_append, last_cons, (last_eq_none_iff write).mpr hafter, ha]
    rfl

/-- Something is written if anything writes. -/
theorem exists_last {ops : List α} {a : α} {b : β} (hmem : a ∈ ops) (ha : write a = some b) :
    ∃ b', last write ops = some b' := by
  cases hlast : last write ops with
  | none =>
      rw [(last_eq_none_iff write).mp hlast a hmem] at ha
      contradiction
  | some b' => exact ⟨b', rfl⟩

/-- Writes of mapped operations. -/
theorem last_map {γ : Type*} (f : γ → α) (ops : List γ) :
    last write (ops.map f) = last (fun c => write (f c)) ops := by
  unfold last
  rw [List.filterMap_map]
  rfl

/-- The last write, mapped. -/
theorem map_last {γ : Type*} (f : β → γ) (ops : List α) :
    (last write ops).map f = last (fun a => (write a).map f) ops := by
  unfold last
  rw [← List.getLast?_map, List.map_filterMap]

/-- The field rule, for the operations of the sequence. -/
theorem read_foldl_of_mem {step : σ → α → σ} (read : σ → β) {ops : List α}
    (hstep : ∀ s, ∀ a ∈ ops, read (step s a) = (write a).getD (read s)) (s : σ) :
    read (ops.foldl step s) = (last write ops).getD (read s) := by
  induction ops generalizing s with
  | nil => rfl
  | cons a ops ih =>
      have hrest := ih fun s b hb => hstep s b (List.mem_cons_of_mem _ hb)
      rw [List.foldl_cons, hrest, hstep s a List.mem_cons_self, last_cons]
      cases last write ops with
      | none => rfl
      | some b => rfl

/-- **Field rule**: if each operation leaves in the field what it writes, or
else what was there, a sequence leaves its last write. -/
theorem read_foldl {step : σ → α → σ} (read : σ → β)
    (hstep : ∀ s a, read (step s a) = (write a).getD (read s)) (s : σ) (ops : List α) :
    read (ops.foldl step s) = (last write ops).getD (read s) :=
  read_foldl_of_mem write read (fun s a _ => hstep s a) s

/-! ## keys -/

section
variable {κ γ : Type*} [DecidableEq κ]

/-- Replace the values of a key, behind all that is kept. -/
def overwrite (store : List (κ × γ)) (entry : κ × List γ) : List (κ × γ) :=
  store.filter (·.1 ≠ entry.1) ++ entry.2.map fun value => (entry.1, value)

/-- The writes that no write to the same key follows. -/
def finals : List (κ × List γ) → List (κ × List γ)
  | [] => []
  | entry :: entries =>
    if entries.any (·.1 = entry.1) then finals entries else entry :: finals entries

/-- The values of writes, each with its key. -/
def expand (entries : List (κ × List γ)) : List (κ × γ) :=
  entries.flatMap fun entry => entry.2.map fun value => (entry.1, value)

/-- What the entry writes to a key. -/
def toKey (key : κ) (entry : κ × List γ) : Option (List γ) :=
  if entry.1 = key then some entry.2 else none

/-- What a write keeps for the writes that follow. -/
theorem filter_overwrite (store : List (κ × γ)) (entry : κ × List γ)
    (entries : List (κ × List γ)) :
    (overwrite store entry).filter (fun pair => !entries.any (·.1 = pair.1)) =
      store.filter (fun pair => !(entry :: entries).any (·.1 = pair.1)) ++
        if entries.any (·.1 = entry.1) then [] else expand [entry] := by
  have hstore : (store.filter (·.1 ≠ entry.1)).filter
      (fun pair => !entries.any (·.1 = pair.1)) =
      store.filter (fun pair => !(entry :: entries).any (·.1 = pair.1)) := by
    rw [List.filter_filter]
    refine List.filter_congr fun pair _ => ?_
    by_cases hkey : entry.1 = pair.1
    · simp [hkey]
    · have hne : pair.1 ≠ entry.1 := fun heq => hkey heq.symm
      simp [hkey, hne]
  have hvalues : (entry.2.map fun value => (entry.1, value)).filter
      (fun pair => !entries.any (·.1 = pair.1)) =
      if entries.any (·.1 = entry.1) then [] else expand [entry] := by
    cases hlater : entries.any (·.1 = entry.1) with
    | true => simp [List.filter_map, Function.comp_def, hlater]
    | false =>
        have hall : ∀ pair ∈ entry.2.map fun value => (entry.1, value),
            (!entries.any (·.1 = pair.1)) = true := by
          intro pair hpair
          obtain ⟨value, _, rfl⟩ := List.mem_map.mp hpair
          rw [hlater]
          rfl
        rw [List.filter_eq_self.mpr hall]
        simp [expand]
  rw [overwrite, List.filter_append, hstore, hvalues]

/-- **Store rule**: what is not written stays in front, then come the last
writes in their order. -/
theorem foldl_overwrite (store : List (κ × γ)) (entries : List (κ × List γ)) :
    entries.foldl overwrite store =
      store.filter (fun pair => !entries.any (·.1 = pair.1)) ++ expand (finals entries) := by
  induction entries generalizing store with
  | nil =>
      rw [List.foldl_nil, finals, expand, List.flatMap_nil, List.append_nil,
        List.filter_eq_self.mpr (by simp)]
  | cons entry entries ih =>
      rw [List.foldl_cons, ih, filter_overwrite, finals]
      split
      · simp
      · simp [expand]

/-- A key that no entry has is not written. -/
theorem last_toKey_eq_none_iff {entries : List (κ × List γ)} {key : κ} :
    last (toKey key) entries = none ↔ entries.any (·.1 = key) = false := by
  rw [last_eq_none_iff, List.any_eq_false]
  simp [toKey]

/-- The values of a key are those of its last write. -/
theorem filter_expand_finals (entries : List (κ × List γ)) (key : κ) :
    ((expand (finals entries)).filter (·.1 = key)).map (·.2) =
      (last (toKey key) entries).getD [] := by
  induction entries with
  | nil => rfl
  | cons entry entries ih =>
      have hcons : expand (entry :: finals entries) =
          (entry.2.map fun value => (entry.1, value)) ++ expand (finals entries) := by
        simp [expand]
      rw [finals, last_cons]
      by_cases hkey : entry.1 = key
      · cases hlast : last (toKey key) entries with
        | none =>
            have hlater : entries.any (·.1 = entry.1) = false := by
              rw [hkey]
              exact last_toKey_eq_none_iff.mp hlast
            rw [hlast] at ih
            have hrest : (expand (finals entries)).filter (·.1 = key) = [] := by simpa using ih
            rw [hlater, if_neg Bool.false_ne_true, hcons, List.filter_append, hrest]
            simp [toKey, hkey, List.filter_map, Function.comp_def]
        | some values =>
            have hlater : entries.any (·.1 = entry.1) = true := by
              rw [hkey]
              cases hany : entries.any (·.1 = key) with
              | true => rfl
              | false =>
                  rw [last_toKey_eq_none_iff.mpr hany] at hlast
                  contradiction
            rw [hlater, if_pos rfl, ih, hlast, Option.some_or]
      · have hnone : toKey key entry = none := if_neg hkey
        rw [hnone, Option.or_none, ← ih]
        split
        · rfl
        · rw [hcons, List.filter_append]
          simp [hkey, List.filter_map, Function.comp_def]

end

end LastWrite
