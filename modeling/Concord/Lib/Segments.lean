import Mathlib.Data.List.Forall2

/-!
# Concord.Lib.Segments

Texts that are made of chunks with a separator in front.  A separator at the
end of the text goes when the next chunk comes.

If chunks are either known or one segment each, the segments can be told from
the text (`joined_inj`).
-/

namespace Segments

variable {α : Type*} [DecidableEq α] {sep : α}

/-- The text without one separator at its end. -/
def chop (sep : α) (text : List α) : List α :=
  if text.getLast? = some sep then text.dropLast else text

/-- A chunk is put after the text, whose last separator goes. -/
def push (sep : α) (text chunk : List α) : List α := chop sep text ++ chunk

/-- Nothing to chop. -/
@[simp] theorem chop_nil : chop sep [] = [] := rfl

/-- A lone separator is chopped. -/
@[simp] theorem chop_singleton : chop sep [sep] = [] := by simp [chop]

/-- Only the last part is chopped. -/
theorem chop_append {chunk : List α} (h : chunk ≠ []) (text : List α) :
    chop sep (text ++ chunk) = text ++ chop sep chunk := by
  have hlast : (text ++ chunk).getLast? = chunk.getLast? := by
    rw [List.getLast?_append_of_ne_nil _ h]
  unfold chop
  rw [hlast, List.dropLast_append_of_ne_nil h]
  split <;> rfl

/-- A text without separators stays. -/
theorem chop_of_notMem {text : List α} (h : sep ∉ text) : chop sep text = text := by
  unfold chop
  rw [if_neg]
  intro hlast
  exact h (List.mem_of_getLast? hlast)

/-- A segment, with the separator before it, is left as it is. -/
theorem chop_cons {segment : List α} (hne : segment ≠ []) (h : sep ∉ segment) :
    chop sep (sep :: segment) = sep :: segment := by
  calc chop sep ([sep] ++ segment) = [sep] ++ chop sep segment := chop_append hne [sep]
    _ = sep :: segment := by rw [chop_of_notMem h, List.singleton_append]

/-- What is left of text that starts with a separator still does. -/
theorem head?_chop {text : List α} (h : text.head? = some sep) :
    chop sep text = [] ∨ (chop sep text).head? = some sep := by
  cases text with
  | nil => simp at h
  | cons c text =>
      have hc : c = sep := by simpa using h
      subst hc
      cases text with
      | nil => simp
      | cons d text =>
          right
          have happend : chop c ([c] ++ d :: text) = [c] ++ chop c (d :: text) :=
            chop_append (by simp) [c]
          rw [List.singleton_append] at happend
          rw [happend]
          rfl

/-- Text of more than a separator that starts with one still does. -/
theorem head?_chop_of_length {text : List α} (h : text.head? = some sep)
    (hlength : 1 < text.length) : (chop sep text).head? = some sep := by
  rcases head?_chop h with hnil | hhead
  · have hlast : 1 ≤ (chop sep text).length := by
      unfold chop
      split
      · rw [List.length_dropLast]
        omega
      · omega
    rw [hnil] at hlast
    simp at hlast
  · exact hhead

/-- A text that begins with a separator does so after a push. -/
theorem head?_push {text chunk : List α} (htext : text = [] ∨ text.head? = some sep)
    (hchunk : chunk.head? = some sep) : (push sep text chunk).head? = some sep := by
  rw [push, List.head?_append]
  rcases htext with rfl | htext
  · simpa using hchunk
  · rcases head?_chop htext with hnil | hhead
    · simpa [hnil] using hchunk
    · rw [hhead, Option.some_or]

/-- The chunks, as they stand after one another. -/
def joined (sep : α) : List (List α) → List α
  | [] => []
  | [chunk] => chunk
  | chunk :: next :: chunks => chop sep chunk ++ joined sep (next :: chunks)

/-- Pushed chunks are joined. -/
theorem foldl_push {chunks : List (List α)}
    (hchunks : ∀ chunk ∈ chunks, chunk.head? = some sep) (hne : chunks ≠ []) (text : List α) :
    chunks.foldl (push sep) text = chop sep text ++ joined sep chunks := by
  induction chunks generalizing text with
  | nil => contradiction
  | cons chunk chunks ih =>
      cases chunks with
      | nil => simp [joined, push]
      | cons next chunks =>
          have hrest := ih (fun c hc => hchunks c (List.mem_cons_of_mem _ hc)) (by simp)
            (push sep text chunk)
          have hchunk : chunk ≠ [] := by
            rintro rfl
            simpa using hchunks [] List.mem_cons_self
          rw [List.foldl_cons, hrest, push, chop_append hchunk, joined, List.append_assoc]

/-- And begin with a separator. -/
theorem head?_joined {chunks : List (List α)}
    (hchunks : ∀ chunk ∈ chunks, chunk.head? = some sep) (hne : chunks ≠ []) :
    (joined sep chunks).head? = some sep := by
  induction chunks with
  | nil => contradiction
  | cons chunk chunks ih =>
      cases chunks with
      | nil => exact hchunks chunk List.mem_cons_self
      | cons next chunks =>
          have hrest := ih (fun c hc => hchunks c (List.mem_cons_of_mem _ hc)) (by simp)
          rw [joined]
          rcases head?_chop (hchunks chunk List.mem_cons_self) with hnil | hhead
          · rw [hnil, List.nil_append]
            exact hrest
          · rw [List.head?_append, hhead, Option.some_or]

/-- Chunks that are the same, or one segment each. -/
inductive Matches (sep : α) : List α → List α → Prop
  | refl (chunk : List α) : Matches sep chunk chunk
  | segment {a b : List α} (ha : a ≠ []) (hb : b ≠ []) (hsepa : sep ∉ a) (hsepb : sep ∉ b) :
      Matches sep (sep :: a) (sep :: b)

/-- A segment ends at the next separator, or at the end of the text. -/
theorem segment_inj {a b restA restB : List α} (ha : sep ∉ a) (hb : sep ∉ b)
    (hrestA : restA = [] ∨ restA.head? = some sep) (hrestB : restB = [] ∨ restB.head? = some sep)
    (h : a ++ restA = b ++ restB) : a = b ∧ restA = restB := by
  have htake {segment rest : List α} (hsegment : sep ∉ segment)
      (hrest : rest = [] ∨ rest.head? = some sep) :
      (segment ++ rest).takeWhile (· ≠ sep) = segment := by
    have hkeep : ∀ c ∈ segment, decide (c ≠ sep) = true := by
      intro c hc
      simpa using fun heq : c = sep => hsegment (heq ▸ hc)
    rw [List.takeWhile_append_of_pos hkeep]
    have hstop : rest.takeWhile (· ≠ sep) = [] := by
      rcases hrest with rfl | hhead
      · rfl
      · cases rest with
        | nil => rfl
        | cons c rest =>
            have hc : c = sep := by simpa using hhead
            simp [hc]
    rw [hstop, List.append_nil]
  have hsegment : a = b := by
    rw [← htake ha hrestA, ← htake hb hrestB, h]
  subst hsegment
  exact ⟨rfl, List.append_cancel_left h⟩

/-- The segments can be told from the text. -/
theorem joined_inj {as bs : List (List α)} (hmatches : List.Forall₂ (Matches sep) as bs)
    (has : ∀ chunk ∈ as, chunk.head? = some sep) (hbs : ∀ chunk ∈ bs, chunk.head? = some sep)
    (h : joined sep as = joined sep bs) : as = bs := by
  induction hmatches with
  | nil => rfl
  | @cons a b as bs hab hrest ih =>
      have hheadA : ∀ chunk ∈ as, chunk.head? = some sep :=
        fun chunk hchunk => has chunk (List.mem_cons_of_mem _ hchunk)
      have hheadB : ∀ chunk ∈ bs, chunk.head? = some sep :=
        fun chunk hchunk => hbs chunk (List.mem_cons_of_mem _ hchunk)
      cases hrest with
      | nil => simpa [joined] using h
      | @cons c d cs ds hcd htail =>
          simp only [joined] at h
          cases hab with
          | refl => rw [ih hheadA hheadB (List.append_cancel_left h)]
          | @segment a b ha hb hsepa hsepb =>
              rw [chop_cons ha hsepa, chop_cons hb hsepb] at h
              simp only [List.cons_append, List.cons.injEq, true_and] at h
              obtain ⟨hsegment, hjoined⟩ := segment_inj hsepa hsepb
                (.inr (head?_joined hheadA (by simp))) (.inr (head?_joined hheadB (by simp))) h
              rw [hsegment, ih hheadA hheadB hjoined]

/-- Text to which chunks are added. -/
theorem foldl_push_inj {as bs : List (List α)} (hmatches : List.Forall₂ (Matches sep) as bs)
    (has : ∀ chunk ∈ as, chunk.head? = some sep) (hbs : ∀ chunk ∈ bs, chunk.head? = some sep)
    {text : List α} (h : as.foldl (push sep) text = bs.foldl (push sep) text) : as = bs := by
  by_cases hnil : as = []
  · rw [hnil] at hmatches ⊢
    exact (List.forall₂_nil_left_iff.mp hmatches).symm
  · have hnil' : bs ≠ [] := by
      rintro rfl
      exact hnil (List.forall₂_nil_right_iff.mp hmatches)
    rw [foldl_push has hnil, foldl_push hbs hnil'] at h
    exact joined_inj hmatches has hbs (List.append_cancel_left h)

end Segments
