import Mathlib.Data.List.Basic

/-!
# Concord.Lib.Replace

A text in which the occurrences of a pattern are replaced, from left to right
(`str::replace`).

Occurrences do not go over separators the pattern does not have
(`replace_append_cons`).  In text that is a code of something, one element
after the other, they do not go over the code of an element either
(`decode_replace`).
-/

namespace Replace

variable {β : Type*} {pattern new : List β}

/-! ## occurrences -/

/-- An occurrence ends before a separator. -/
theorem prefix_before_separator {sep : β} (h : sep ∉ pattern) {text rest : List β}
    (hstarts : pattern <+: text ++ sep :: rest) : pattern <+: text := by
  by_cases hlength : pattern.length ≤ text.length
  · exact List.prefix_of_prefix_length_le hstarts (List.prefix_append _ _) hlength
  · have hsep : text ++ [sep] <+: pattern := by
      apply List.prefix_of_prefix_length_le _ hstarts
      · rw [List.length_append, List.length_singleton]
        omega
      · exact ⟨rest, by simp⟩
    exact absurd (hsep.subset (by simp)) h

/-- A text ends, starts with the pattern, or starts with something else. -/
theorem scan_induction {motive : List β → Prop} (h : pattern ≠ []) (nil : motive [])
    (hit : ∀ rest, motive rest → motive (pattern ++ rest))
    (miss : ∀ b rest, ¬ pattern <+: b :: rest → motive rest → motive (b :: rest))
    (text : List β) : motive text := by
  induction hlength : text.length using Nat.strongRecOn generalizing text with
  | ind length ih =>
      subst hlength
      by_cases hstarts : pattern <+: text
      · obtain ⟨rest, rfl⟩ := hstarts
        have hpos := List.length_pos_iff.mpr h
        exact hit rest (ih rest.length (by rw [List.length_append]; omega) rest rfl)
      · cases text with
        | nil => exact nil
        | cons b rest =>
            exact miss b rest hstarts (ih rest.length (by rw [List.length_cons]; omega) rest rfl)

section
variable {α : Type*} {code : α → List β} {decode : List β → List α}
  (hdecode : ∀ a rest, decode (code a ++ rest) = a :: decode rest)
include hdecode

/-- A letter's code is not empty. -/
theorem code_ne_nil (a : α) : code a ≠ [] := by
  intro hnil
  have hlength := congrArg List.length (hdecode a [])
  rw [hnil, List.nil_append, List.length_cons] at hlength
  omega

/-- The code of something starts with the codes of what that starts with. -/
theorem flatMap_starts {ps xs : List α} (h : ps.flatMap code <+: xs.flatMap code) :
    ps <+: xs := by
  induction ps generalizing xs with
  | nil => exact List.nil_prefix
  | cons p ps ih =>
      obtain ⟨rest, hrest⟩ := h
      cases xs with
      | nil =>
          simp only [List.flatMap_cons, List.flatMap_nil, List.append_eq_nil_iff] at hrest
          exact absurd hrest.1.1 (code_ne_nil hdecode p)
      | cons x xs =>
          rw [List.flatMap_cons, List.flatMap_cons, List.append_assoc] at hrest
          have hsame := congrArg decode hrest
          rw [hdecode, hdecode, List.cons.injEq] at hsame
          obtain ⟨rfl, _⟩ := hsame
          exact List.cons_prefix_cons.mpr ⟨rfl, ih ⟨rest, List.append_cancel_left hrest⟩⟩

end

/-! ## replacement -/

variable [DecidableEq β]

/-- Replace after `skip` elements that have been dealt with. -/
def replaceFrom (pattern new : List β) : Nat → List β → List β
  | _, [] => []
  | skip + 1, _ :: rest => replaceFrom pattern new skip rest
  | 0, b :: rest =>
    if pattern <+: b :: rest then new ++ replaceFrom pattern new (pattern.length - 1) rest
    else b :: replaceFrom pattern new 0 rest

/-- Every occurrence of the pattern, from the left. -/
def replace (pattern new text : List β) : List β := replaceFrom pattern new 0 text

/-- Nothing in nothing. -/
@[simp] theorem replace_nil : replace pattern new [] = [] := rfl

/-- An occurrence is passed over. -/
theorem replaceFrom_length (done rest : List β) :
    replaceFrom pattern new done.length (done ++ rest) = replace pattern new rest := by
  induction done with
  | nil => rfl
  | cons b done ih => exact ih

/-- A letter where the pattern does not begin stays. -/
theorem replace_cons_of_miss {b : β} {rest : List β} (h : ¬ pattern <+: b :: rest) :
    replace pattern new (b :: rest) = b :: replace pattern new rest := by
  rw [replace, replaceFrom, if_neg h, replace]

/-- The pattern at the beginning is replaced. -/
theorem replace_append_self (h : pattern ≠ []) (rest : List β) :
    replace pattern new (pattern ++ rest) = new ++ replace pattern new rest := by
  cases pattern with
  | nil => contradiction
  | cons b tail =>
      have hstarts : b :: tail <+: b :: (tail ++ rest) := List.prefix_append (b :: tail) rest
      rw [replace, List.cons_append, replaceFrom, if_pos hstarts, List.length_cons,
        Nat.add_sub_cancel, replaceFrom_length]

/-- A letter of the result is an old or a new one. -/
theorem mem_replace (h : pattern ≠ []) {b : β} {text : List β}
    (hb : b ∈ replace pattern new text) : b ∈ text ∨ b ∈ new := by
  induction text using scan_induction h with
  | nil => simp at hb
  | hit rest ih =>
      rw [replace_append_self h, List.mem_append] at hb
      rcases hb with hb | hb
      · exact .inr hb
      · exact (ih hb).imp_left (List.mem_append_right _)
  | miss c rest hmiss ih =>
      rw [replace_cons_of_miss hmiss, List.mem_cons] at hb
      rcases hb with rfl | hb
      · exact .inl List.mem_cons_self
      · exact (ih hb).imp_left (List.mem_cons_of_mem _)

/-- Only nothing is replaced to nothing. -/
theorem replace_eq_nil_iff (h : pattern ≠ []) (hnew : new ≠ []) {text : List β} :
    replace pattern new text = [] ↔ text = [] := by
  induction text using scan_induction h with
  | nil => simp
  | hit rest _ => simp [replace_append_self h, h, hnew]
  | miss c rest hmiss _ => simp [replace_cons_of_miss hmiss]

/-- No occurrence goes over a letter that is not in the pattern. -/
theorem replace_append_cons {sep : β} (hne : pattern ≠ []) (h : sep ∉ pattern)
    (text rest : List β) :
    replace pattern new (text ++ sep :: rest) =
      replace pattern new text ++ sep :: replace pattern new rest := by
  have hstart : ¬ pattern <+: [] ++ sep :: rest := fun hstarts =>
    hne (List.prefix_nil.mp (prefix_before_separator h hstarts))
  rw [List.nil_append] at hstart
  induction text using scan_induction hne with
  | nil => simp [replace_cons_of_miss hstart]
  | hit done ih =>
      rw [List.append_assoc, replace_append_self hne, ih, replace_append_self hne,
        List.append_assoc]
  | miss b done hmiss ih =>
      have hmiss' : ¬ pattern <+: b :: (done ++ sep :: rest) := fun hstarts =>
        hmiss (prefix_before_separator h hstarts)
      rw [List.cons_append, replace_cons_of_miss hmiss', ih,
        replace_cons_of_miss hmiss, List.cons_append]

/-- Elements with which the pattern does not start are kept. -/
theorem replace_append_of_ne {first : β} (hfirst : pattern.head? = some first) {kept : List β}
    (h : first ∉ kept) (rest : List β) :
    replace pattern new (kept ++ rest) = kept ++ replace pattern new rest := by
  induction kept with
  | nil => rfl
  | cons b kept ih =>
      have hmiss : ¬ pattern <+: b :: (kept ++ rest) := by
        intro hstarts
        cases pattern with
        | nil => simp at hfirst
        | cons c tail =>
            have hc : c = first := by simpa using hfirst
            have hb : c = b := (List.cons_prefix_cons.mp hstarts).1
            simp [← hc, hb] at h
      rw [List.cons_append, replace_cons_of_miss hmiss,
        ih fun hmem => h (List.mem_cons_of_mem _ hmem), List.cons_append]

/-- If the code of something is replaced by other text that stands for it, the
text still stands for what it was. -/
theorem decode_replace {α : Type*} {code : α → List β} {decode : List β → List α}
    (hdecode : ∀ a rest, decode (code a ++ rest) = a :: decode rest) (hnil : decode [] = [])
    {ps : List α} (hps : ps ≠ []) {first : β}
    (hfirst : (ps.flatMap code).head? = some first) (htail : ∀ a, first ∉ (code a).tail)
    (hnew : ∀ rest, decode (new ++ rest) = ps ++ decode rest) (xs : List α) :
    decode (replace (ps.flatMap code) new (xs.flatMap code)) = xs := by
  have hpattern : ps.flatMap code ≠ [] := by
    intro hempty
    simp [hempty] at hfirst
  induction xs using scan_induction hps with
  | nil => exact hnil
  | hit rest ih => rw [List.flatMap_append, replace_append_self hpattern, hnew, ih]
  | miss x rest hmiss ih =>
      have hmiss' : ¬ ps.flatMap code <+: (x :: rest).flatMap code := fun hstarts =>
        hmiss (flatMap_starts hdecode hstarts)
      have hkept : replace (ps.flatMap code) new ((x :: rest).flatMap code) =
          code x ++ replace (ps.flatMap code) new (rest.flatMap code) := by
        have hcode := htail x
        rw [List.flatMap_cons] at hmiss' ⊢
        cases hx : code x with
        | nil => exact absurd hx (code_ne_nil hdecode x)
        | cons b tail =>
            rw [hx, List.tail_cons] at hcode
            rw [hx, List.cons_append] at hmiss'
            rw [List.cons_append, replace_cons_of_miss hmiss',
              replace_append_of_ne hfirst hcode, List.cons_append]
      rw [hkept, hdecode, ih]

end Replace
