import Concord.Codegen.RateLimit

/-!
# Concord.Codegen.Layers

Rate-limit directives one by one, and folded into the layers of a policy.

A layer whose directives clear the plan and then add to it is folded into one
that only adds: the `off` is lost, and what the layer inherits stays.
-/

namespace Concord.Sema

open Edits

/-! ## one layer -/

/-- The directives of a layer, folded. -/
def mergeAll (ops : List RateLimitResolved) : Option RateLimitResolved :=
  ops.foldl (fun out op => mergeRateLimitResolved out (some op)) none

/-- What a resolved directive does to the plan. -/
def RateLimitResolved.kind (op : RateLimitResolved) : Kind := op.edit.kind

/-- Clear is `off`. -/
@[simp] theorem RateLimitResolved.kind_clear : RateLimitResolved.clear.kind = .off := rfl

/-- Add is a plain directive. -/
@[simp] theorem RateLimitResolved.kind_add (plan : RateLimitPlanResolved) :
    (RateLimitResolved.add plan).kind = .plain := rfl

/-- Replace is `only`. -/
@[simp] theorem RateLimitResolved.kind_replace (plan : RateLimitPlanResolved) :
    (RateLimitResolved.replace plan).kind = .only := rfl

/-- What a folded layer does to the buckets it inherits. -/
def mergedApply (ops : List RateLimitResolved) (buckets : List RateLimitBucketResolved) :
    List RateLimitBucketResolved :=
  run ((mergeAll ops).toList.map RateLimitResolved.edit) buckets

/-- The buckets that the directives of a layer add. -/
def addedBuckets (ops : List RateLimitResolved) : List RateLimitBucketResolved :=
  ops.flatMap (·.edit.items)

/-- A directive that is not plain replaces what came before it in the merge. -/
theorem mergeRateLimitResolved_reset {op : RateLimitResolved} (h : op.kind ≠ .plain)
    (out : Option RateLimitResolved) : mergeRateLimitResolved out (some op) = some op := by
  cases op with
  | add plan => exact absurd rfl h
  | clear =>
      cases out with
      | none => rfl
      | some out => cases out <;> rfl
  | replace plan =>
      cases out with
      | none => rfl
      | some out => cases out <;> rfl

/-- Plain directives after an `add` or a `replace` append their buckets to
it. -/
theorem foldl_merge_plain {ops : List RateLimitResolved}
    (h : AllPlain (ops.map RateLimitResolved.kind)) (plan : RateLimitPlanResolved) :
    ops.foldl (fun out op => mergeRateLimitResolved out (some op)) (some (.add plan)) =
        some (.add ⟨plan.buckets ++ addedBuckets ops⟩) ∧
      ops.foldl (fun out op => mergeRateLimitResolved out (some op)) (some (.replace plan)) =
        some (.replace ⟨plan.buckets ++ addedBuckets ops⟩) := by
  induction ops generalizing plan with
  | nil => simp [addedBuckets]
  | cons op ops ih =>
      rw [List.map_cons, allPlain_cons] at h
      obtain ⟨hplain, hrest⟩ := h
      cases op with
      | clear => cases hplain
      | replace other => cases hplain
      | add more =>
          obtain ⟨hadd, hreplace⟩ := ih hrest ⟨plan.buckets ++ more.buckets⟩
          have hbuckets : plan.buckets ++ addedBuckets (.add more :: ops) =
              plan.buckets ++ more.buckets ++ addedBuckets ops := by
            rw [List.append_assoc]
            rfl
          rw [hbuckets]
          exact ⟨hadd, hreplace⟩

/-- After a `clear`, or with nothing before them, plain directives are one
`add`. -/
theorem foldl_merge_plain_fresh {ops : List RateLimitResolved}
    (h : AllPlain (ops.map RateLimitResolved.kind)) (hne : ops ≠ [])
    {out : Option RateLimitResolved} (hout : out = none ∨ out = some .clear) :
    ops.foldl (fun out op => mergeRateLimitResolved out (some op)) out =
      some (.add ⟨addedBuckets ops⟩) := by
  cases ops with
  | nil => exact absurd rfl hne
  | cons op ops =>
      rw [List.map_cons, allPlain_cons] at h
      obtain ⟨hplain, hrest⟩ := h
      cases op with
      | clear => cases hplain
      | replace other => cases hplain
      | add plan =>
          have hfirst : mergeRateLimitResolved out (some (.add plan)) = some (.add plan) := by
            cases hout with
            | inl h => rw [h]; rfl
            | inr h => rw [h]; rfl
          rw [List.foldl_cons, hfirst]
          exact (foldl_merge_plain hrest plan).1

/-- So a merge starts at the last of them. -/
theorem mergeAll_reset {before after : List RateLimitResolved} {reset : RateLimitResolved}
    (hreset : reset.kind ≠ .plain) :
    mergeAll (before ++ reset :: after) =
      after.foldl (fun out op => mergeRateLimitResolved out (some op)) (some reset) := by
  unfold mergeAll
  rw [List.foldl_append, List.foldl_cons, mergeRateLimitResolved_reset hreset]

/-- A layer with an `off` that only plain directives follow, at least one. -/
def RefillsOff (layer : List Kind) : Prop :=
  ∃ before after, layer = before ++ .off :: after ∧ after ≠ [] ∧ AllPlain after

/-- Plain directives, merged, add their buckets. -/
theorem mergedApply_plain {ops : List RateLimitResolved}
    (h : AllPlain (ops.map RateLimitResolved.kind)) (buckets : List RateLimitBucketResolved) :
    mergedApply ops buckets = buckets ++ addedBuckets ops := by
  by_cases hne : ops = []
  · subst hne
    simp [mergedApply, mergeAll, addedBuckets]
  · have hmerged : mergeAll ops = some (.add ⟨addedBuckets ops⟩) :=
      foldl_merge_plain_fresh h hne (.inl rfl)
    unfold mergedApply
    rw [hmerged]
    rfl

/-- And so do they one by one. -/
theorem run_edits_plain {ops : List RateLimitResolved}
    (h : AllPlain (ops.map RateLimitResolved.kind)) (buckets : List RateLimitBucketResolved) :
    run (ops.map RateLimitResolved.edit) buckets = buckets ++ addedBuckets ops := by
  rw [run_plain (by rw [List.map_map]; exact h), List.flatMap_map]
  rfl

/-- One by one, the last directive that is not plain starts the plan over. -/
theorem run_edits_reset {before after : List RateLimitResolved} {reset : RateLimitResolved}
    (hreset : reset.kind ≠ .plain) (hafter : AllPlain (after.map RateLimitResolved.kind))
    (buckets : List RateLimitBucketResolved) :
    run ((before ++ reset :: after).map RateLimitResolved.edit) buckets =
      reset.edit.items ++ addedBuckets after := by
  rw [List.map_append, List.map_cons, run_reset hreset (by rw [List.map_map]; exact hafter),
    List.flatMap_map]
  rfl

/-- Directives with an `off` or an `only` forget what was there before. -/
theorem run_edits_forget {ops : List RateLimitResolved}
    (h : ¬ AllPlain (ops.map RateLimitResolved.kind))
    (buckets buckets' : List RateLimitBucketResolved) :
    run (ops.map RateLimitResolved.edit) buckets = run (ops.map RateLimitResolved.edit) buckets' := by
  cases plain_or_last_reset RateLimitResolved.kind ops with
  | inl hplain => exact absurd hplain h
  | inr hreset =>
      obtain ⟨before, reset, after, rfl, hreset, hafter⟩ := hreset
      rw [run_edits_reset hreset hafter, run_edits_reset hreset hafter]

/-- Plain directives refill no `off`. -/
theorem not_refillsOff_of_plain {layer : List Kind} (h : AllPlain layer) : ¬ RefillsOff layer := by
  intro hrefills
  obtain ⟨before, after, rfl, _, _⟩ := hrefills
  rw [allPlain_append, allPlain_cons] at h
  cases h.2.1

/-- An `off` is refilled exactly if something plain follows the last of them. -/
theorem refillsOff_reset_iff {before after : List Kind} {reset : Kind} (hreset : reset ≠ .plain)
    (hafter : AllPlain after) :
    RefillsOff (before ++ reset :: after) ↔ reset = .off ∧ after ≠ [] := by
  constructor
  · intro h
    obtain ⟨before', after', heq, hne, hafter'⟩ := h
    obtain ⟨rfl, rfl⟩ := last_reset_unique heq hreset hafter (by decide) hafter'
    exact ⟨rfl, hne⟩
  · intro h
    obtain ⟨rfl, hne⟩ := h
    exact ⟨before, after, rfl, hne, hafter⟩

/-- A folded layer does what its directives do one by one, unless it refills
after an `off`: then it keeps what it inherits. -/
theorem mergedApply_eq (ops : List RateLimitResolved) (buckets : List RateLimitBucketResolved) :
    (¬ RefillsOff (ops.map RateLimitResolved.kind) ∧
        mergedApply ops buckets = run (ops.map RateLimitResolved.edit) buckets) ∨
      (RefillsOff (ops.map RateLimitResolved.kind) ∧
        mergedApply ops buckets = buckets ++ run (ops.map RateLimitResolved.edit) buckets) := by
  cases plain_or_last_reset RateLimitResolved.kind ops with
  | inl hplain =>
      left
      refine ⟨not_refillsOff_of_plain hplain, ?_⟩
      rw [mergedApply_plain hplain, run_edits_plain hplain]
  | inr h =>
      obtain ⟨before, reset, after, rfl, hreset, hafter⟩ := h
      rw [List.map_append, List.map_cons, refillsOff_reset_iff hreset hafter,
        run_edits_reset hreset hafter]
      unfold mergedApply
      rw [mergeAll_reset hreset]
      cases reset with
      | add plan => exact absurd rfl hreset
      | replace plan =>
          left
          rw [(foldl_merge_plain hafter plan).2]
          exact ⟨fun h => absurd h.1 (by simp), rfl⟩
      | clear =>
          by_cases hne : after = []
          · left
            subst hne
            exact ⟨fun h => h.2 rfl, rfl⟩
          · right
            rw [foldl_merge_plain_fresh hafter hne (.inr rfl)]
            refine ⟨⟨rfl, ?_⟩, rfl⟩
            intro hnil
            exact hne (List.map_eq_nil_iff.mp hnil)

/-! ## all layers -/

/-- The buckets after folded layers, from none. -/
def layeredBuckets (layers : List (List RateLimitResolved)) : List RateLimitBucketResolved :=
  layers.foldl (fun buckets ops => mergedApply ops buckets) []

/-- The buckets after the directives of the layers one by one. -/
def oneByOneBuckets (layers : List (List RateLimitResolved)) : List RateLimitBucketResolved :=
  run (layers.flatten.map RateLimitResolved.edit) []

/-- The kinds of the directives, layer by layer. -/
def kindsOf (layers : List (List RateLimitResolved)) : List (List Kind) :=
  layers.map (·.map RateLimitResolved.kind)

/-- A layer refills after an `off` although something is in force around it,
and no inner layer has an `off` or an `only`. -/
def LosesOff (layers : List (List Kind)) : Prop :=
  ∃ outer layer inner, layers = outer ++ layer :: inner ∧ RefillsOff layer ∧
    AllPlain inner.flatten ∧ ∃ last, outer.flatten.getLast? = some last ∧ last ≠ .off

/-- One more layer, merged. -/
theorem layeredBuckets_snoc (layers : List (List RateLimitResolved))
    (ops : List RateLimitResolved) :
    layeredBuckets (layers ++ [ops]) = mergedApply ops (layeredBuckets layers) := by
  unfold layeredBuckets
  rw [List.foldl_append, List.foldl_cons, List.foldl_nil]

/-- One more layer, directive by directive. -/
theorem oneByOneBuckets_snoc (layers : List (List RateLimitResolved))
    (ops : List RateLimitResolved) :
    oneByOneBuckets (layers ++ [ops]) =
      run (ops.map RateLimitResolved.edit) (oneByOneBuckets layers) := by
  unfold oneByOneBuckets
  rw [List.flatten_append, List.flatten_singleton, List.map_append, run_append]

/-- The kinds of one more layer. -/
theorem kindsOf_snoc (layers : List (List RateLimitResolved)) (ops : List RateLimitResolved) :
    kindsOf (layers ++ [ops]) = kindsOf layers ++ [ops.map RateLimitResolved.kind] := by
  unfold kindsOf
  rw [List.map_append, List.map_singleton]

/-- The last layer decides whether an `off` is lost: if it resets without
refilling none is, if it is plain the outer ones decide. -/
theorem losesOff_snoc {layers : List (List Kind)} {layer : List Kind} :
    LosesOff (layers ++ [layer]) ↔
      (RefillsOff layer ∧ ∃ last, layers.flatten.getLast? = some last ∧ last ≠ .off) ∨
        (AllPlain layer ∧ LosesOff layers) := by
  constructor
  · intro h
    obtain ⟨outer, refilled, inner, heq, hrefills, hinner, hlast⟩ := h
    cases inner using List.reverseRecOn with
    | nil =>
        obtain ⟨rfl, hlayer⟩ := List.append_inj' heq rfl
        cases hlayer
        exact .inl ⟨hrefills, hlast⟩
    | append_singleton inner final =>
        rw [← List.cons_append, ← List.append_assoc] at heq
        obtain ⟨rfl, hlayer⟩ := List.append_inj' heq rfl
        cases hlayer
        rw [List.flatten_append, List.flatten_singleton, allPlain_append] at hinner
        exact .inr ⟨hinner.2, outer, refilled, inner, rfl, hrefills, hinner.1, hlast⟩
  · intro h
    cases h with
    | inl h =>
        obtain ⟨hrefills, hlast⟩ := h
        exact ⟨layers, layer, [], rfl, hrefills, allPlain_nil, hlast⟩
    | inr h =>
        obtain ⟨hplain, outer, refilled, inner, rfl, hrefills, hinner, hlast⟩ := h
        refine ⟨outer, refilled, inner ++ [layer], by simp, hrefills, ?_, hlast⟩
        rw [List.flatten_append, List.flatten_singleton]
        exact allPlain_append.mpr ⟨hinner, hplain⟩

/-- Directives that are not `off` bring buckets. -/
def Substantial (ops : List RateLimitResolved) : Prop :=
  ∀ op ∈ ops, op.kind ≠ .off → op.edit.items ≠ []

/-- Nothing is left exactly if the last directive is `off`, or there was nothing at all. -/
theorem run_eq_nil_iff {ops : List RateLimitResolved} (hops : Substantial ops)
    (buckets : List RateLimitBucketResolved) :
    run (ops.map RateLimitResolved.edit) buckets = [] ↔
      (ops = [] ∧ buckets = []) ∨ (ops.map RateLimitResolved.kind).getLast? = some .off := by
  cases ops using List.reverseRecOn with
  | nil => simp
  | append_singleton ops op =>
      have hop := hops op (by simp)
      rw [List.map_append, List.map_singleton, run_append, List.map_append, List.map_singleton,
        List.getLast?_concat]
      cases op with
      | clear => simp [Edit.apply, RateLimitResolved.edit]
      | add plan =>
          have hne : plan.buckets ≠ [] := hop (by simp)
          simp [Edit.apply, RateLimitResolved.edit, hne]
      | replace plan =>
          have hne : plan.buckets ≠ [] := hop (by simp)
          simp [Edit.apply, RateLimitResolved.edit, hne]

/-- A layer that refills its `off` ends in a plain directive. -/
theorem getLast?_of_refillsOff {layer : List Kind} (h : RefillsOff layer) :
    layer.getLast? = some .plain := by
  obtain ⟨before, after, rfl, hne, hafter⟩ := h
  have hlast := hafter _ (List.getLast_mem hne)
  rw [List.getLast?_append_of_ne_nil _ (List.cons_ne_nil _ _), List.getLast?_cons,
    List.getLast?_eq_some_getLast hne, hlast]
  rfl

/-- The same of a merged layer. -/
theorem mergedApply_eq_nil_iff {ops : List RateLimitResolved} (hops : Substantial ops)
    (buckets : List RateLimitBucketResolved) :
    mergedApply ops buckets = [] ↔
      (ops = [] ∧ buckets = []) ∨ (ops.map RateLimitResolved.kind).getLast? = some .off := by
  cases mergedApply_eq ops buckets with
  | inl h => rw [h.2, run_eq_nil_iff hops]
  | inr h =>
      obtain ⟨hrefills, heq⟩ := h
      have hlast := getLast?_of_refillsOff hrefills
      rw [heq, List.append_eq_nil_iff, run_eq_nil_iff hops, hlast]
      constructor
      · intro h
        exact h.2
      · intro h
        cases h with
        | inl h =>
            rw [h.1] at hlast
            cases hlast
        | inr h => cases h

/-- What is in force after some layers is empty just when the last directive
of all is an `off`, or there is none. -/
theorem layeredBuckets_eq_nil_iff {layers : List (List RateLimitResolved)}
    (hlayers : ∀ ops ∈ layers, Substantial ops) :
    layeredBuckets layers = [] ↔
      ∀ last, (kindsOf layers).flatten.getLast? = some last → last = .off := by
  induction layers using List.reverseRecOn with
  | nil => simp [layeredBuckets, kindsOf]
  | append_singleton layers ops ih =>
      have hops : Substantial ops := hlayers ops (by simp)
      have hrest : ∀ ops ∈ layers, Substantial ops := fun ops hmem => hlayers ops (by simp [hmem])
      specialize ih hrest
      rw [layeredBuckets_snoc, kindsOf_snoc, List.flatten_append, List.flatten_singleton,
        List.getLast?_append, mergedApply_eq_nil_iff hops]
      cases ops using List.reverseRecOn with
      | nil => simp [ih]
      | append_singleton ops op => simp

/-- Folding the layers keeps buckets that the directives one by one drop, in
front of the others; it keeps none just when no `off` is lost. -/
theorem layeredBuckets_eq {layers : List (List RateLimitResolved)}
    (hlayers : ∀ ops ∈ layers, Substantial ops) :
    ∃ lost, layeredBuckets layers = lost ++ oneByOneBuckets layers ∧
      (lost = [] ↔ ¬ LosesOff (kindsOf layers)) := by
  induction layers using List.reverseRecOn with
  | nil =>
      refine ⟨[], rfl, ?_⟩
      simp [LosesOff, kindsOf]
  | append_singleton layers ops ih =>
      have hrest : ∀ ops ∈ layers, Substantial ops := fun ops hmem => hlayers ops (by simp [hmem])
      obtain ⟨lost, heq, hlost⟩ := ih hrest
      rw [layeredBuckets_snoc, oneByOneBuckets_snoc, kindsOf_snoc, losesOff_snoc]
      cases mergedApply_eq ops (layeredBuckets layers) with
      | inr h =>
          -- the layer refills: everything in force around it stays
          obtain ⟨hrefills, happly⟩ := h
          have hplain : ¬ AllPlain (ops.map RateLimitResolved.kind) :=
            fun h => not_refillsOff_of_plain h hrefills
          refine ⟨layeredBuckets layers, ?_, ?_⟩
          · rw [happly, run_edits_forget hplain]
          · rw [layeredBuckets_eq_nil_iff hrest]
            simp [hrefills, hplain]
      | inl h =>
          obtain ⟨hrefills, happly⟩ := h
          rw [happly]
          by_cases hplain : AllPlain (ops.map RateLimitResolved.kind)
          · refine ⟨lost, ?_, ?_⟩
            · rw [run_edits_plain hplain, run_edits_plain hplain, heq, List.append_assoc]
            · rw [hlost]
              simp [hrefills, hplain]
          · refine ⟨[], ?_, ?_⟩
            · rw [List.nil_append]
              exact run_edits_forget hplain _ _
            · simp [hrefills, hplain]

end Concord.Sema
