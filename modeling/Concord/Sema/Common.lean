import Mathlib.Data.List.MinMax
import Mathlib.Data.List.Sort
import Mathlib.Data.Prod.Lex
import Mathlib.Data.String.Basic
import Concord.Lib.Keyed
import Concord.Lib.Results
import Concord.Sema.Ast

/-!
# Concord.Sema.Common

Names and declared variables (`concord_macros/src/sema/common.rs`).

A map from names is a function.  Maps are filled in two ways: `upsertVar`
keeps the first declaration of a name and checks the later ones against it,
`insert` keeps the last.
-/

namespace Concord.Sema

/-! ## names that are not there -/

/-- The keys of a `BTreeMap`, in order. -/
def sortedKeys (names : List Ident) : List Ident := names.insertionSort (fun a b => a ≤ b)

/-- The costs after one more character of the first text, given the one to the
left of them and the one above that. -/
def levenshteinRow (ca : Char) (left previous : Nat) : List Char → List Nat → List Nat
  | cb :: bChars, cost :: costs =>
    let replace := previous + if ca ≠ cb then 1 else 0
    let next := min (min (cost + 1) (left + 1)) replace
    next :: levenshteinRow ca next cost bChars costs
  | _, _ => []

/-- `levenshtein`. -/
def levenshtein (a b : String) : Nat :=
  let costs := a.toList.zipIdx.foldl (fun costs (ca, i) =>
    match costs with
    | [] => []
    | previous :: costs => (i + 1) :: levenshteinRow ca (i + 1) previous b.toList costs)
    (List.range (b.toList.length + 1))
  costs.getLastD 0

/-- How far a candidate is from a name: the distance, and then the difference
in bytes. -/
def nameDistance (needle candidate : String) : Nat × Nat :=
  (levenshtein needle candidate,
    max candidate.utf8ByteSize needle.utf8ByteSize - min candidate.utf8ByteSize needle.utf8ByteSize)

/-- Whether a candidate is close enough to be suggested. -/
def isClose (distance : Nat × Nat) : Bool :=
  distance.1 ≤ 3 || (distance.1 ≤ 4 && distance.2 ≤ 2)

/-- `best_name_suggestion`: the first of the closest candidates. -/
def bestNameSuggestion (needle : String) (candidates : List String) : Option String :=
  (candidates.filter fun candidate => isClose (nameDistance needle candidate)).argmin
    fun candidate => toLex (nameDistance needle candidate)

/-- What is suggested is there and close, and nothing that is there is closer. -/
theorem bestNameSuggestion_eq_some {needle suggestion : String} {candidates : List String}
    (h : bestNameSuggestion needle candidates = some suggestion) :
    suggestion ∈ candidates ∧ isClose (nameDistance needle suggestion) = true ∧
      ∀ candidate ∈ candidates, isClose (nameDistance needle candidate) = true →
        toLex (nameDistance needle suggestion) ≤ toLex (nameDistance needle candidate) := by
  have hmem := List.argmin_mem h
  rw [List.mem_filter] at hmem
  refine ⟨hmem.1, hmem.2, fun candidate hcandidate hclose => ?_⟩
  have hleft : candidate ∈ candidates.filter fun other => isClose (nameDistance needle other) :=
    List.mem_filter.mpr ⟨hcandidate, hclose⟩
  exact List.le_of_mem_argmin (f := fun other => toLex (nameDistance needle other)) hleft h

-- One letter is missing.
example : bestNameSuggestion "sesion" ["device", "session", "sessions"] = some "session" := by
  decide +kernel

/-- A name of a kind that is not known. -/
def unknownName (kind name : String) : String := "unknown " ++ kind ++ " `" ++ name ++ "`"

/-- `unknown_name_message_from_keys`. -/
def unknownNameMessageFromKeys (kind name : String) (available : List String) : String :=
  let message := unknownName kind name
  let message := match bestNameSuggestion name available with
    | some suggestion => message ++ "\ndid you mean `" ++ suggestion ++ "`?"
    | none => message
  if available.isEmpty then message ++ "\nno " ++ kind ++ "s are declared"
  else
    message ++ "\navailable " ++ kind ++ "s: " ++
      ", ".intercalate (available.map fun name => "`" ++ name ++ "`")

/-- `unknown_name_message`, of a map with these keys. -/
def unknownNameMessage (kind name : String) (keys : List Ident) : String :=
  unknownNameMessageFromKeys kind name (sortedKeys keys)

/-- The first line of `unknown_scoped_name_message`.  The maps it is given are
functions here, whose keys are not listed; no decision depends on them. -/
def unknownScopedName (kind scope : String) (name : Ident) : String :=
  unknownName kind (scope ++ "." ++ name)

/-! ## maps -/

abbrev VarMap := Ident → Option VarInfo

def VarMap.empty : VarMap := fun _ => none

def VarMap.insert (vars : VarMap) (var : VarInfo) : VarMap := Keyed.insert VarInfo.rust vars var

theorem VarMap.insert_eq : VarMap.insert = Keyed.insert VarInfo.rust := rfl

theorem VarMap.empty_eq : VarMap.empty = Keyed.last VarInfo.rust [] := rfl

/-! ## first declarations -/

/-- Whether `upsert_var` accepts a second declaration of a name. -/
def VarInfo.Agrees (prev var : VarInfo) : Prop :=
  prev.optional = var.optional ∧ prev.ty = var.ty ∧
    ∀ d ∈ prev.default, ∀ d' ∈ var.default, d = d'

instance (prev var : VarInfo) : Decidable (prev.Agrees var) :=
  inferInstanceAs (Decidable (_ ∧ _ ∧ _))

def upsertVar (out : VarMap) (var : VarInfo) : Result VarMap :=
  match out var.rust with
  | some prev =>
    if prev.optional ≠ var.optional then
      fail ("var `" ++ var.rust ++ "` redefined with different optionality")
    else if prev.ty ≠ var.ty then
      fail ("var `" ++ var.rust ++ "` redefined with different type")
    else
      match prev.default, var.default with
      | some prevDefault, some default =>
        if prevDefault ≠ default then
          fail ("var `" ++ var.rust ++ "` redefined with different default")
        else .ok out
      | _, _ => .ok out
  | none => .ok (out.insert var)

/-- `ep_vars` and `ep_var_order` of `analyze_endpoint`. -/
structure VarRegistry where
  vars : VarMap
  order : List Ident

namespace VarRegistry

def empty : VarRegistry := ⟨.empty, []⟩

/-- `upsert_ep`. -/
def upsert (registry : VarRegistry) (var : VarInfo) : Result VarRegistry := do
  let order :=
    if (registry.vars var.rust).isSome then registry.order else registry.order ++ [var.rust]
  let vars ← upsertVar registry.vars var
  .ok ⟨vars, order⟩

/-- The declarations in order (`endpoint_decls`). -/
def decls (registry : VarRegistry) : List VarInfo := registry.order.filterMap registry.vars

end VarRegistry

/-- Every declaration agrees with the first one of its name. -/
def Consistent (decls : List VarInfo) : Prop :=
  ∀ var ∈ decls, ∀ prev ∈ Keyed.first VarInfo.rust decls var.rust, prev.Agrees var

instance (decls : List VarInfo) : Decidable (Consistent decls) :=
  inferInstanceAs (Decidable (∀ var ∈ decls, _))

theorem VarInfo.agrees_refl (var : VarInfo) : var.Agrees var := by
  refine ⟨rfl, rfl, fun d hd d' hd' => ?_⟩
  rw [Option.mem_def] at hd hd'
  rw [hd, Option.some.injEq] at hd'
  exact hd'

/-- A later declaration is accepted if it agrees with what is there. -/
theorem upsertVar_eq_ok_iff {out out' : VarMap} {var : VarInfo} :
    upsertVar out var = .ok out' ↔
      (∀ prev ∈ out var.rust, prev.Agrees var) ∧
        out' = if (out var.rust).isSome then out else out.insert var := by
  unfold upsertVar
  cases hprev : out var.rust with
  | none => simp [eq_comm]
  | some prev =>
      by_cases hopt : prev.optional = var.optional
      · by_cases hty : prev.ty = var.ty
        · cases hd : prev.default with
          | none => simp [VarInfo.Agrees, hopt, hty, hd, eq_comm]
          | some d =>
              cases hd' : var.default with
              | none => simp [VarInfo.Agrees, hopt, hty, hd, hd', eq_comm]
              | some d' =>
                  by_cases heq : d = d'
                  · simp [VarInfo.Agrees, hopt, hty, hd, hd', heq, eq_comm]
                  · simp [VarInfo.Agrees, hopt, hty, hd, hd', heq, fail]
        · simp [VarInfo.Agrees, hopt, hty, fail]
      · simp [VarInfo.Agrees, hopt, fail]

theorem consistent_append {decls : List VarInfo} {var : VarInfo} :
    Consistent (decls ++ [var]) ↔
      Consistent decls ∧ ∀ prev ∈ Keyed.first VarInfo.rust decls var.rust, prev.Agrees var := by
  unfold Consistent
  constructor
  · intro h
    constructor
    · intro v hv prev hprev
      refine h v (List.mem_append_left _ hv) prev ?_
      rw [Keyed.first_append, hprev, Option.some_or]
      rfl
    · intro prev hprev
      refine h var (List.mem_append_right _ List.mem_cons_self) prev ?_
      rw [Keyed.first_append, hprev, Option.some_or]
      rfl
  · intro h v hv prev hprev
    obtain ⟨hdecls, hvar⟩ := h
    rw [Keyed.first_append, Option.mem_def, Option.or_eq_some_iff] at hprev
    cases hprev with
    | inl hfirst =>
        cases List.mem_append.mp hv with
        | inl hmem => exact hdecls v hmem prev hfirst
        | inr hmem =>
            rw [List.mem_singleton.mp hmem] at hfirst ⊢
            exact hvar prev hfirst
    | inr hnew =>
        obtain ⟨hnone, heq⟩ := hnew
        have hprev : var = prev := by
          split at heq
          · exact Option.some.inj heq
          · cases heq
        cases List.mem_append.mp hv with
        | inl hmem => exact absurd rfl (Keyed.first_eq_none_iff.mp hnone v hmem)
        | inr hmem =>
            rw [List.mem_singleton.mp hmem, ← hprev]
            exact var.agrees_refl

/-- The registry of a list of declarations: the first one of each name. -/
def VarRegistry.of (decls : List VarInfo) : VarRegistry :=
  ⟨Keyed.first VarInfo.rust decls, (Keyed.keepFirst VarInfo.rust decls).map VarInfo.rust⟩

theorem VarRegistry.decls_of (decls : List VarInfo) :
    (VarRegistry.of decls).decls = Keyed.keepFirst VarInfo.rust decls :=
  Keyed.filterMap_first_keepFirst decls

theorem VarRegistry.upsert_of {decls : List VarInfo} {var : VarInfo} {registry : VarRegistry} :
    (VarRegistry.of decls).upsert var = .ok registry ↔
      (∀ prev ∈ Keyed.first VarInfo.rust decls var.rust, prev.Agrees var) ∧
        registry = VarRegistry.of (decls ++ [var]) := by
  unfold VarRegistry.upsert
  rw [Results.bind_eq_ok_iff]
  constructor
  · intro h
    obtain ⟨vars, hvars, hok⟩ := h
    obtain ⟨hagrees, heq⟩ := upsertVar_eq_ok_iff.mp hvars
    refine ⟨hagrees, ?_⟩
    rw [← Except.ok.inj hok]
    unfold VarRegistry.of
    rw [Keyed.keepFirst_append, Keyed.keepFirst_any, Keyed.first_append_eq, heq]
    by_cases hsome : (Keyed.first VarInfo.rust decls var.rust).isSome
    · simp [hsome, VarRegistry.of]
    · simp [hsome, VarRegistry.of, VarMap.insert]
  · intro h
    obtain ⟨hagrees, heq⟩ := h
    refine ⟨_, upsertVar_eq_ok_iff.mpr ⟨hagrees, rfl⟩, ?_⟩
    rw [heq]
    unfold VarRegistry.of
    rw [Keyed.keepFirst_append, Keyed.keepFirst_any, Keyed.first_append_eq]
    by_cases hsome : (Keyed.first VarInfo.rust decls var.rust).isSome
    · simp [hsome]
    · simp [hsome, VarMap.insert]

/-- Declaring one variable after the other keeps the first one of each name,
and fails if a later one does not agree with it. -/
theorem VarRegistry.foldlM_upsert {decls : List VarInfo} {registry : VarRegistry} :
    decls.foldlM VarRegistry.upsert .empty = .ok registry ↔
      Consistent decls ∧ registry = VarRegistry.of decls := by
  induction decls using List.reverseRecOn generalizing registry with
  | nil =>
      constructor
      · intro h
        cases h
        exact ⟨fun _ hvar => absurd hvar List.not_mem_nil, rfl⟩
      · intro h
        rw [h.2]
        rfl
  | append_singleton decls var ih =>
      rw [List.foldlM_append, Results.bind_eq_ok_iff, consistent_append]
      constructor
      · intro h
        obtain ⟨before, hbefore, hlast⟩ := h
        obtain ⟨hconsistent, heq⟩ := ih.mp hbefore
        rw [List.foldlM_cons, Results.bind_eq_ok_iff] at hlast
        obtain ⟨after, hafter, hnil⟩ := hlast
        cases hnil
        rw [heq] at hafter
        obtain ⟨hagrees, hof⟩ := VarRegistry.upsert_of.mp hafter
        exact ⟨⟨hconsistent, hagrees⟩, hof⟩
      · intro h
        obtain ⟨⟨hconsistent, hagrees⟩, hof⟩ := h
        refine ⟨_, ih.mpr ⟨hconsistent, rfl⟩, ?_⟩
        rw [List.foldlM_cons, Results.bind_eq_ok_iff]
        exact ⟨registry, VarRegistry.upsert_of.mpr ⟨hagrees, hof⟩, rfl⟩

end Concord.Sema
