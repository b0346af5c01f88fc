import Mathlib.Data.List.Perm.Basic

/-!
# Concord.Lib.Shared

Values that are shared by counted pointers and copied when they are written.
A heap is the list of its cells, a pointer the address of one; a cell knows
how many pointers lead to it, and a write through a pointer that is not the
only one goes to a copy.

`Counted` says that the counts are right for a list of pointers.  As long as
they are, a write through one pointer is seen through it (`read_makeMut`) and
through no other (`read_makeMut_of_mem`), so that a pointer may be taken for
the value it leads to.
-/

namespace Shared

variable {β : Type*}

/-- A value and the number of pointers that hold it. -/
structure Cell (β : Type*) where
  value : β
  strong : Nat
  deriving DecidableEq, Repr

/-- The values, at their pointers. -/
abbrev Heap (β : Type*) := List (Cell β)

/-- What a pointer leads to. -/
def read (heap : Heap β) (pointer : Nat) : Option β := heap[pointer]?.map Cell.value

/-- A cell of its own for a value. -/
def alloc (heap : Heap β) (value : β) : Heap β × Nat := (heap ++ [⟨value, 1⟩], heap.length)

/-- One more pointer. -/
def retain (heap : Heap β) (pointer : Nat) : Heap β :=
  heap.modify pointer fun cell => { cell with strong := cell.strong + 1 }

/-- One pointer less. -/
def release (heap : Heap β) (pointer : Nat) : Heap β :=
  heap.modify pointer fun cell => { cell with strong := cell.strong - 1 }

/-- Write through a pointer: in place if there is no other one to the cell,
else to a copy, which the pointer then leads to. -/
def makeMut (heap : Heap β) (pointer : Nat) (f : β → β) : Heap β × Nat :=
  match heap[pointer]? with
  | none => (heap, pointer)
  | some cell =>
    if cell.strong = 1 then (heap.set pointer ⟨f cell.value, 1⟩, pointer)
    else alloc (release heap pointer) (f cell.value)

/-- The cells count these pointers. -/
structure Counted (heap : Heap β) (pointers : List Nat) : Prop where
  strong : ∀ {pointer cell}, heap[pointer]? = some cell → cell.strong = pointers.count pointer
  valid : ∀ {pointer}, pointer ∈ pointers → pointer < heap.length

/-! ## reading -/

section reading

variable {heap : Heap β} {pointer other : Nat}

/-- A value is found where it was put. -/
theorem read_alloc (heap : Heap β) (value : β) :
    read (alloc heap value).1 (alloc heap value).2 = some value := by
  simp [read, alloc]

/-- The others stay. -/
theorem read_alloc_of_lt (value : β) (h : pointer < heap.length) :
    read (alloc heap value).1 pointer = read heap pointer := by
  simp [read, alloc, List.getElem?_append_left h]

/-- Counting changes no value. -/
theorem read_modify_strong (f : Cell β → Nat) (heap : Heap β) (pointer other : Nat) :
    read (heap.modify pointer fun cell => { cell with strong := f cell }) other =
      read heap other := by
  unfold read
  rw [List.getElem?_modify]
  split
  · cases heap[other]? with
    | none => rfl
    | some cell => rfl
  · rw [id_map']

/-- Nor does one more holder. -/
@[simp] theorem read_retain (heap : Heap β) (pointer other : Nat) :
    read (retain heap pointer) other = read heap other :=
  read_modify_strong (fun cell => cell.strong + 1) heap pointer other

/-- Nor one less. -/
@[simp] theorem read_release (heap : Heap β) (pointer other : Nat) :
    read (release heap pointer) other = read heap other :=
  read_modify_strong (fun cell => cell.strong - 1) heap pointer other

/-- A value with one holder is changed in place, any other copied first. -/
theorem makeMut_of_cell {cell : Cell β} (h : heap[pointer]? = some cell) (f : β → β) :
    makeMut heap pointer f =
      if cell.strong = 1 then (heap.set pointer ⟨f cell.value, 1⟩, pointer)
      else alloc (release heap pointer) (f cell.value) := by
  unfold makeMut
  rw [h]

/-- A release leaves every cell. -/
@[simp] theorem length_release (heap : Heap β) (pointer : Nat) :
    (release heap pointer).length = heap.length := by
  simp [release]

end reading

/-! ## counting -/

namespace Counted

variable {heap : Heap β} {pointers pointers' : List Nat} {pointer other : Nat}

/-- The order of the holders does not matter. -/
theorem perm (h : Counted heap pointers) (hperm : pointers.Perm pointers') :
    Counted heap pointers' where
  strong hcell := (h.strong hcell).trans (hperm.count_eq _)
  valid hmem := h.valid (hperm.mem_iff.mpr hmem)

/-- No cells and no holders. -/
theorem nil : Counted ([] : Heap β) [] where
  strong hcell := by simp at hcell
  valid hmem := by simp at hmem

/-- A new value has one holder. -/
theorem alloc (h : Counted heap pointers) (value : β) :
    Counted (alloc heap value).1 ((Shared.alloc heap value).2 :: pointers) where
  strong {other cell} hcell := by
    have hfresh : heap.length ∉ pointers := fun hmem => Nat.lt_irrefl _ (h.valid hmem)
    simp only [Shared.alloc, List.getElem?_append] at hcell
    split at hcell
    · next hlt =>
        have hne : ¬ heap.length = other := by omega
        simp [Shared.alloc, hne, h.strong hcell]
    · next hge =>
        rw [List.getElem?_singleton] at hcell
        split at hcell
        · next hzero =>
            have heq : other = heap.length := by omega
            have hone : cell.strong = 1 := by rw [← Option.some.inj hcell]
            subst heq
            simp [Shared.alloc, hone, List.count_eq_zero_of_not_mem hfresh]
        · contradiction
  valid {other} hmem := by
    have hor : other = heap.length ∨ other ∈ pointers := by
      simpa [Shared.alloc] using hmem
    rcases hor with rfl | hmem
    · simp [Shared.alloc]
    · have hlt := h.valid hmem
      simp [Shared.alloc]
      omega

/-- A holder more. -/
theorem retain (h : Counted heap pointers) (hlt : pointer < heap.length) :
    Counted (retain heap pointer) (pointer :: pointers) where
  strong {other cell} hcell := by
    simp only [Shared.retain, List.getElem?_modify] at hcell
    rw [List.count_cons]
    split at hcell
    · next heq =>
        obtain ⟨before, hbefore, rfl⟩ := Option.map_eq_some_iff.mp hcell
        simp [heq, h.strong hbefore]
    · next hne =>
        have hcell' : heap[other]? = some cell := by simpa using hcell
        simp [hne, h.strong hcell']
  valid {other} hmem := by
    rcases List.mem_cons.mp hmem with rfl | hmem
    · simpa [Shared.retain] using hlt
    · simpa [Shared.retain] using h.valid hmem

/-- A holder less. -/
theorem release (h : Counted heap (pointer :: pointers)) :
    Counted (release heap pointer) pointers where
  strong {other cell} hcell := by
    simp only [Shared.release, List.getElem?_modify] at hcell
    split at hcell
    · next heq =>
        obtain ⟨before, hbefore, rfl⟩ := Option.map_eq_some_iff.mp hcell
        have hstrong := h.strong hbefore
        rw [heq, List.count_cons_self] at hstrong
        simp [hstrong]
    · next hne =>
        have hcell' : heap[other]? = some cell := by simpa using hcell
        have hstrong := h.strong hcell'
        rw [List.count_cons] at hstrong
        simpa [hne] using hstrong
  valid hmem := by
    rw [length_release]
    exact h.valid (List.mem_cons_of_mem _ hmem)

/-- A pointer that is counted leads somewhere. -/
theorem exists_cell (h : Counted heap (pointer :: pointers)) :
    ∃ cell, heap[pointer]? = some cell ∧ cell.strong = pointers.count pointer + 1 := by
  have hlt := h.valid List.mem_cons_self
  refine ⟨heap[pointer], List.getElem?_eq_getElem hlt, ?_⟩
  have hstrong := h.strong (List.getElem?_eq_getElem hlt)
  rwa [List.count_cons_self] at hstrong

/-- The counts are right after a change. -/
theorem makeMut (h : Counted heap (pointer :: pointers)) (f : β → β) :
    Counted (makeMut heap pointer f).1 ((Shared.makeMut heap pointer f).2 :: pointers) := by
  obtain ⟨cell, hcell, hstrong⟩ := h.exists_cell
  rw [makeMut_of_cell hcell]
  by_cases hone : cell.strong = 1
  · simp only [hone, if_true]
    refine ⟨?_, ?_⟩
    · intro other cell' hcell'
      by_cases heq : pointer = other
      · subst heq
        have hlt := h.valid List.mem_cons_self
        rw [List.getElem?_set_self hlt] at hcell'
        rw [← Option.some.inj hcell', List.count_cons_self]
        show 1 = pointers.count pointer + 1
        omega
      · rw [List.getElem?_set_ne heq] at hcell'
        exact h.strong hcell'
    · intro other hmem
      rw [List.length_set]
      exact h.valid hmem
  · simp only [hone, if_false]
    exact h.release.alloc (f cell.value)

/-- The changed value is found behind the new pointer. -/
theorem read_makeMut (h : Counted heap (pointer :: pointers)) (f : β → β) :
    read (Shared.makeMut heap pointer f).1 (Shared.makeMut heap pointer f).2 =
      (read heap pointer).map f := by
  obtain ⟨cell, hcell, _⟩ := h.exists_cell
  have hlt := h.valid List.mem_cons_self
  have hread : read heap pointer = some cell.value := by simp [read, hcell]
  rw [makeMut_of_cell hcell, hread]
  split
  · simp [read, hlt]
  · exact read_alloc _ _

/-- A write through one pointer is not seen through another. -/
theorem read_makeMut_of_mem (h : Counted heap (pointer :: pointers)) (f : β → β)
    (hmem : other ∈ pointers) :
    read (Shared.makeMut heap pointer f).1 other = read heap other := by
  obtain ⟨cell, hcell, hstrong⟩ := h.exists_cell
  rw [makeMut_of_cell hcell]
  by_cases hone : cell.strong = 1
  · -- nobody else points here, so the other pointer leads elsewhere
    have hcount : pointers.count pointer = 0 := by omega
    have hne : pointer ≠ other := fun heq => List.count_eq_zero.mp hcount (heq ▸ hmem)
    simp [hone, read, List.getElem?_set_ne hne]
  · have hlt : other < heap.length := h.valid (List.mem_cons_of_mem _ hmem)
    have hkept : read (Shared.alloc (Shared.release heap pointer) (f cell.value)).1 other =
        read (Shared.release heap pointer) other := by
      apply read_alloc_of_lt
      simpa using hlt
    simp [hone, hkept]

end Counted

end Shared
