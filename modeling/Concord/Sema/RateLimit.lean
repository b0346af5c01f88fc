import Mathlib.Data.List.Sort
import Mathlib.Data.String.Basic
import Concord.Lib.Checked
import Concord.Sema.Policy

/-!
# Concord.Sema.RateLimit

Rate-limit plans of a declaration (`concord_macros/src/sema/rate_limit.rs`)
and inheritance between named profiles
(`concord_macros/src/sema/profiles.rs`).
-/

namespace Concord.Sema

open Checked

/-! ## profile sets -/

/-- `Profile<T>`. -/
structure Profile (T : Type) where
  name : Ident
  extends_ : Option Ident
  value : T

/-- `T::empty` and `T::merge` of a `ProfileValue`, whose `validate` accepts. -/
structure ProfileValue (T : Type) where
  empty : T
  merge : T → T → T

section

variable {T : Type} (label : String) (ops : ProfileValue T) (profiles : List (Profile T))

/-- `resolve_one_profile`, with the names being visited and what is resolved
as it leaves them.  One level more than there are profiles is never reached. -/
def resolveOneProfile :
    Nat → Ident → List Ident → List (Ident × T) → Result (T × List Ident × List (Ident × T))
  | 0, _, _, _ => .error (.panic "profile inheritance too deep")
  | fuel + 1, key, visiting, resolved =>
    match resolved.lookup key with
    | some value => .ok (value, visiting, resolved)
    | none =>
      match profiles.find? (fun profile => profile.name = key) with
      | none => fail (unknownName (label ++ " profile") key)
      | some profile =>
        if visiting.contains key then
          fail (label ++ " profile inheritance cycle involving `" ++ key ++ "`")
        else
          let parent : Result (T × List Ident × List (Ident × T)) :=
            match profile.extends_ with
            | some parent => resolveOneProfile fuel parent (key :: visiting) resolved
            | none => .ok (ops.empty, key :: visiting, resolved)
          do
            let (parent, visiting, resolved) ← parent
            let value := ops.merge parent profile.value
            .ok (value, visiting.erase key, (key, value) :: resolved)

/-- The loop of `resolve_profile_set` over the names, each with a new set of
names being visited. -/
def resolveProfileKeys : List Ident → List (Ident × T) → Result (List (Ident × T))
  | [], resolved => .ok resolved
  | key :: keys, resolved => do
    let (_, _, resolved) ← resolveOneProfile label ops profiles (profiles.length + 1) key [] resolved
    resolveProfileKeys keys resolved

/-- The first name that is there before. -/
def firstDuplicate (seen : List Ident) : List Ident → Option Ident
  | [] => none
  | name :: names => if seen.contains name then some name else firstDuplicate (name :: seen) names

/-- `resolve_profile_set`. -/
def resolveProfileSet (defaults : List Ident) : Result (List (Ident × T)) := do
  match firstDuplicate [] (profiles.map Profile.name) with
  | some key => fail ("duplicate " ++ label ++ " profile `" ++ key ++ "`")
  | none =>
    match defaults.find? (fun name => !(profiles.map Profile.name).contains name) with
    | some default => fail ("unknown default " ++ label ++ " profile `" ++ default ++ "`")
    | none => resolveProfileKeys label ops profiles (sortedKeys (profiles.map Profile.name)) []

end

/-! ## plan templates -/

/-- A part of a bucket's key before it is put in its place. -/
inductive RateLimitKeyTemplate where
  | routeHost
  | endpoint
  | method
  | named (name : String)
  | static (name value : String)
  deriving DecidableEq, Repr

/-- A bucket whose numbers are checked and whose key is not in place yet. -/
structure RateLimitBucketTemplate where
  kind : String
  name : String
  key : List RateLimitKeyTemplate
  cost : Nat
  windows : List RateLimitWindowResolved
  deriving DecidableEq, Repr

/-- A plan of such buckets. -/
structure RateLimitPlanTemplate where
  buckets : List RateLimitBucketTemplate
  deriving DecidableEq, Repr

/-- A second in nanoseconds. -/
def nanosPerSecond : Nat := 1000000000

/-- A key part is kept as it is written. -/
def resolveRateLimitKeySpec : RateLimitKeySpec → RateLimitKeyTemplate
  | .routeHost => .routeHost
  | .endpoint => .endpoint
  | .method => .method
  | .named name => .named name
  | .static value => .static "static" value

/-- `LitInt::base10_parse`. -/
def base10Parse (max value : Nat) : Result Nat :=
  if value ≤ max then .ok value else fail "number too large to fit in target type"

/-- A unit in seconds. -/
def RateLimitDurationUnit.multiplier : RateLimitDurationUnit → Nat
  | .seconds => 1
  | .minutes => 60

/-- The seconds do not fit 64 bits. -/
def durationTooLarge : String := "rate_limit duration is too large"

/-- The largest `u128`. -/
def u128Max : Nat := 2 ^ 128 - 1

/-- One window of `resolve_rate_limit_plan_spec`. -/
def resolveRateLimitWindow (cost : Nat) (window : RateLimitWindowSpec) :
    Result RateLimitWindowResolved := do
  let max ← base10Parse u32Max window.max
  if max = 0 then fail "rate_limit max must be greater than zero"
  if cost > max then fail "rate_limit bucket cost must not exceed the window max"
  let amount ← base10Parse u64Max window.every
  if amount = 0 then fail "rate_limit duration must be greater than zero"
  let perSecs := amount * window.unit.multiplier
  if perSecs > u64Max then fail durationTooLarge
  let perNanos := perSecs * nanosPerSecond
  if perNanos > u128Max then fail durationTooLarge
  if max > perNanos then
    fail "rate_limit window is too small for max; reduce `limit` or increase `every`"
  .ok ⟨max, perSecs⟩

/-- The cost, one if none is given and never zero. -/
def resolveRateLimitCost : Option Nat → Result Nat
  | none => .ok 1
  | some lit => do
    let cost ← base10Parse u32Max lit
    if cost = 0 then fail "rate_limit bucket cost must be greater than zero"
    .ok cost

/-- One bucket of `resolve_rate_limit_plan_spec`. -/
def resolveRateLimitBucket (defaultBucketName : String) (bucket : RateLimitBucketSpec × Nat) :
    Result RateLimitBucketTemplate := do
  if bucket.1.windows.isEmpty then fail "rate_limit bucket must contain at least one `limit`"
  let cost ← resolveRateLimitCost bucket.1.cost
  let windows ← bucket.1.windows.mapM (resolveRateLimitWindow cost)
  .ok
    { kind := bucket.1.kind
      name := defaultBucketName ++ "_" ++ toString bucket.2
      key := bucket.1.key.map resolveRateLimitKeySpec
      cost := cost
      windows := windows }

/-- The buckets of a plan, each with its place for a name. -/
def resolveRateLimitPlanSpec (plan : RateLimitPlanSpec) (defaultBucketName : String) :
    Result RateLimitPlanTemplate := do
  let buckets ← plan.buckets.zipIdx.mapM (resolveRateLimitBucket defaultBucketName)
  .ok ⟨buckets⟩

/-- `ProfileValue for RateLimitPlanTemplate`. -/
def rateLimitProfileValue : ProfileValue RateLimitPlanTemplate where
  empty := ⟨[]⟩
  merge parent child := ⟨parent.buckets ++ child.buckets⟩

/-- The resolved profiles. -/
abbrev RateLimitProfiles := List (Ident × RateLimitPlanTemplate)

/-- A profile with its own plan resolved. -/
def resolveRateLimitProfile (profile : RateLimitProfileDef) :
    Result (Profile RateLimitPlanTemplate) := do
  let plan ← resolveRateLimitPlanSpec profile.plan profile.name
  .ok ⟨profile.name, profile.extends_, plan⟩

/-- The profiles of the block, each with what it extends. -/
def resolveRateLimitProfiles : Option RateLimitProfilesBlock → Result RateLimitProfiles
  | none => .ok []
  | some block => do
    let profiles ← block.profiles.mapM resolveRateLimitProfile
    resolveProfileSet "rate_limit" rateLimitProfileValue profiles block.default

/-! ## keys -/

/-- The endpoint field behind a named key. -/
structure RateLimitKeyBindingResolved where
  name : String
  field : Ident
  deriving DecidableEq, Repr

/-- The named keys that are bound at a site. -/
abbrev KeyMap := String → Option RateLimitKeyBindingResolved

/-- No key is bound. -/
def KeyMap.empty : KeyMap := fun _ => none

/-- One more key; a later binding of a name replaces the earlier. -/
def KeyMap.insert (keys : KeyMap) (binding : RateLimitKeyBindingResolved) : KeyMap :=
  Keyed.insert RateLimitKeyBindingResolved.name keys binding

/-- The general map with a binding inserted. -/
theorem KeyMap.insert_eq : KeyMap.insert = Keyed.insert RateLimitKeyBindingResolved.name := rfl

/-- The general map of nothing. -/
theorem KeyMap.empty_eq : KeyMap.empty = Keyed.last RateLimitKeyBindingResolved.name [] := rfl

/-- `resolve_rate_limit_key_bindings`. -/
def resolveRateLimitKeyBindings (decls : List VarInfo) (seen : List String) :
    List RateLimitKeyBindingSpec → Result (List RateLimitKeyBindingResolved)
  | [] => .ok []
  | binding :: bindings => do
    if seen.contains binding.name then fail ("duplicate rate_limit key `" ++ binding.name ++ "`")
    match decls.find? (fun decl => decl.rust = binding.value) with
    | none => fail ("unknown rate_limit key binding `" ++ binding.value ++ "`")
    | some decl =>
      if decl.optional then
        fail ("rate_limit key binding `" ++ binding.name ++
          "` cannot reference optional parameter `" ++ binding.value ++ "`")
      else
        let rest ← resolveRateLimitKeyBindings decls (binding.name :: seen) bindings
        .ok (⟨binding.name, decl.rust⟩ :: rest)

/-- Where a directive stands. -/
inductive RateLimitAttachmentContext where
  | clientBase
  | layer
  | endpoint
  deriving DecidableEq, Repr

/-- Where a plan is attached: the keys and variables it may name. -/
structure AttachmentSite where
  visibleKeys : KeyMap
  endpointVars : Option VarMap
  context : RateLimitAttachmentContext

/-- A key part in its place. -/
def materializeRateLimitKey (site : AttachmentSite) :
    RateLimitKeyTemplate → Result RateLimitKeyResolved
  | .routeHost => .ok .routeHost
  | .endpoint => .ok .endpoint
  | .method => .ok .method
  | .static name value => .ok (.static name value)
  | .named name =>
    match site.visibleKeys name with
    | some binding => .ok (.epField name binding.field)
    | none =>
      if site.context = .clientBase then
        fail "endpoint/scope rate_limit key cannot be used in client base policy"
      else
        match site.endpointVars with
        | none => fail (unknownName "rate_limit key" name)
        | some vars =>
          match vars name with
          | none => fail (unknownName "rate_limit key" name)
          | some var =>
            if var.optional then
              fail ("rate_limit key `" ++ name ++ "` cannot use optional param")
            else .ok (.epField name var.rust)

/-- A bucket in its place. -/
def materializeRateLimitBucket (site : AttachmentSite) (bucket : RateLimitBucketTemplate) :
    Result RateLimitBucketResolved := do
  let key ← bucket.key.mapM (materializeRateLimitKey site)
  .ok ⟨bucket.kind, bucket.name, key, bucket.cost, bucket.windows⟩

/-- A plan in its place. -/
def materializeRateLimitPlan (site : AttachmentSite) (plan : RateLimitPlanTemplate) :
    Result RateLimitPlanResolved := do
  let buckets ← plan.buckets.mapM (materializeRateLimitBucket site)
  .ok ⟨buckets⟩

/-! ## directives -/

/-- The buckets of all the profiles named. -/
def combineRateLimitProfiles (profiles : RateLimitProfiles) :
    List Ident → Result RateLimitPlanTemplate
  | [] => .ok ⟨[]⟩
  | name :: names =>
    match profiles.lookup name with
    | none => fail (unknownNameMessage "rate_limit profile" name (profiles.map Prod.fst))
    | some plan => do
      let rest ← combineRateLimitProfiles profiles names
      .ok ⟨plan.buckets ++ rest.buckets⟩

/-- What a directive with a plan does. -/
def RateLimitResolved.ofPlan (only : Bool) (plan : RateLimitPlanResolved) : RateLimitResolved :=
  if only then .replace plan else .add plan

/-- `resolve_rate_limit_spec` of a directive that is there. -/
def resolveRateLimitDirective (profiles : RateLimitProfiles) (site : AttachmentSite) :
    RateLimitSpec → Result RateLimitResolved
  | .off => .ok .clear
  | .profiles only names _ => do
    let plan ← combineRateLimitProfiles profiles names
    let plan ← materializeRateLimitPlan site plan
    .ok (.ofPlan only plan)
  | .inline only plan => do
    let plan ← resolveRateLimitPlanSpec plan "inline"
    let plan ← materializeRateLimitPlan site plan
    .ok (.ofPlan only plan)

/-- A directive, if there is one. -/
def resolveRateLimitSpec (spec : Option RateLimitSpec) (profiles : RateLimitProfiles)
    (site : AttachmentSite) : Result (Option RateLimitResolved) :=
  match spec with
  | none => .ok none
  | some spec => do
    let resolved ← resolveRateLimitDirective profiles site spec
    .ok (some resolved)

/-- The default of the client, if there is one. -/
def resolveClientRateLimit (block : Option RateLimitProfilesBlock) (profiles : RateLimitProfiles) :
    Result (Option RateLimitResolved) :=
  match block with
  | none => .ok none
  | some block =>
    if block.default.isEmpty then .ok none
    else do
      let plan ← combineRateLimitProfiles profiles block.default
      let plan ← materializeRateLimitPlan ⟨.empty, none, .clientBase⟩ plan
      .ok (some (.add plan))

/-! ## accepted plans -/

/-- What the resolver checks of a window. -/
structure WindowAccepted (cost : Nat) (window : RateLimitWindowResolved) : Prop where
  max_pos : 0 < window.max
  max_le : window.max ≤ u32Max
  cost_le : cost ≤ window.max
  per_pos : 0 < window.perSecs
  per_le : window.perSecs ≤ u64Max
  max_le_per : window.max ≤ window.perSecs * nanosPerSecond

/-- A bucket the resolver accepts. -/
structure BucketAccepted (cost : Nat) (windows : List RateLimitWindowResolved) : Prop where
  cost_pos : 0 < cost
  windows : ∀ window ∈ windows, WindowAccepted cost window

/-- A number is parsed if it fits. -/
theorem base10Parse_eq_ok_iff {max value out : Nat} :
    base10Parse max value = .ok out ↔ value ≤ max ∧ out = value := by
  unfold base10Parse
  split
  · rename_i h
    simp [h, eq_comm]
  · rename_i h
    simp [h, fail]

/-- A unit is not empty. -/
theorem RateLimitDurationUnit.multiplier_pos (unit : RateLimitDurationUnit) :
    0 < unit.multiplier := by
  cases unit <;> decide

/-- A check that fails under a condition and otherwise goes on. -/
theorem check_eq_ok_iff {α : Type} {c : Prop} [Decidable c] {message : String}
    {next : Unit → Result α} {rest : Result α} {out : α} :
    (if c then fail message >>= next else rest) = .ok out ↔ ¬ c ∧ rest = .ok out := by
  by_cases h : c
  · simp [h, fail, bind, Except.bind]
  · simp [h]

/-- A window that is resolved is accepted. -/
theorem resolveRateLimitWindow_accepted {cost : Nat} {spec : RateLimitWindowSpec}
    {window : RateLimitWindowResolved} (h : resolveRateLimitWindow cost spec = .ok window) :
    WindowAccepted cost window := by
  unfold resolveRateLimitWindow at h
  simp only [Results.bind_eq_ok_iff, base10Parse_eq_ok_iff, check_eq_ok_iff,
    Except.ok.injEq] at h
  obtain ⟨max, ⟨hmax, rfl⟩, hzero, hcost, amount, ⟨_, _⟩, hamount, hper, _, hsmall, rfl⟩ := h
  exact
    { max_pos := Nat.pos_of_ne_zero hzero
      max_le := hmax
      cost_le := Nat.le_of_not_lt hcost
      per_pos := Nat.mul_pos (Nat.pos_of_ne_zero hamount) spec.unit.multiplier_pos
      per_le := Nat.le_of_not_lt hper
      max_le_per := Nat.le_of_not_lt hsmall }

/-- A cost is positive. -/
theorem resolveRateLimitCost_pos {spec : Option Nat} {cost : Nat}
    (h : resolveRateLimitCost spec = .ok cost) : 0 < cost := by
  cases spec with
  | none =>
      cases h
      decide
  | some lit =>
      unfold resolveRateLimitCost at h
      simp only [Results.bind_eq_ok_iff, check_eq_ok_iff, Except.ok.injEq] at h
      obtain ⟨_, _, hzero, rfl⟩ := h
      exact Nat.pos_of_ne_zero hzero

/-- A bucket that is resolved is accepted. -/
theorem resolveRateLimitBucket_accepted {name : String} {spec : RateLimitBucketSpec × Nat}
    {bucket : RateLimitBucketTemplate} (h : resolveRateLimitBucket name spec = .ok bucket) :
    BucketAccepted bucket.cost bucket.windows := by
  unfold resolveRateLimitBucket at h
  simp only [Results.bind_eq_ok_iff, check_eq_ok_iff, Except.ok.injEq] at h
  obtain ⟨_, cost, hcost, windows, hwindows, rfl⟩ := h
  refine ⟨resolveRateLimitCost_pos hcost, ?_⟩
  intro window hmem
  obtain ⟨spec, _, hspec⟩ := Results.exists_of_mem_mapM hwindows hmem
  exact resolveRateLimitWindow_accepted hspec

/-- A plan that is not empty and whose buckets are accepted. -/
structure PlanAccepted (plan : RateLimitPlanTemplate) : Prop where
  ne : plan.buckets ≠ []
  buckets : ∀ bucket ∈ plan.buckets, BucketAccepted bucket.cost bucket.windows

/-- So is a plan. -/
theorem resolveRateLimitPlanSpec_accepted {spec : RateLimitPlanSpec} {name : String}
    {plan : RateLimitPlanTemplate} (h : resolveRateLimitPlanSpec spec name = .ok plan) :
    PlanAccepted plan := by
  unfold resolveRateLimitPlanSpec at h
  simp only [Results.bind_eq_ok_iff, Except.ok.injEq] at h
  obtain ⟨buckets, hbuckets, rfl⟩ := h
  constructor
  · apply Results.ne_nil_of_mapM hbuckets
    intro hnil
    exact spec.buckets_ne (List.zipIdx_eq_nil_iff.mp hnil)
  · intro bucket hmem
    obtain ⟨_, _, hspec⟩ := Results.exists_of_mem_mapM hbuckets hmem
    exact resolveRateLimitBucket_accepted hspec

section

variable {T : Type} {label : String} {ops : ProfileValue T} {profiles : List (Profile T)}

/-- What a call that returns has done: it found the profile resolved, or merged
it with what its parent came to. -/
theorem resolveOneProfile_cases {fuel : Nat} {key : Ident} {visiting after : List Ident}
    {resolved resolved' : List (Ident × T)} {value : T}
    (h : resolveOneProfile label ops profiles (fuel + 1) key visiting resolved =
      .ok (value, after, resolved')) :
    (resolved.lookup key = some value ∧ after = visiting ∧ resolved' = resolved) ∨
    (resolved.lookup key = none ∧ ∃ profile,
      profiles.find? (fun profile => profile.name = key) = some profile ∧ key ∉ visiting ∧
      ∃ parent inside between, value = ops.merge parent profile.value ∧
        after = inside.erase key ∧ resolved' = (key, value) :: between ∧
        ((profile.extends_ = none ∧ parent = ops.empty ∧ inside = key :: visiting ∧
            between = resolved) ∨
          ∃ name, profile.extends_ = some name ∧
            resolveOneProfile label ops profiles fuel name (key :: visiting) resolved =
              .ok (parent, inside, between))) := by
  rw [resolveOneProfile] at h
  cases hlookup : resolved.lookup key with
  | some found =>
      rw [hlookup] at h
      cases h
      exact .inl ⟨rfl, rfl, rfl⟩
  | none =>
      rw [hlookup] at h
      cases hfind : profiles.find? (fun profile => profile.name = key) with
      | none =>
          rw [hfind] at h
          cases h
      | some profile =>
          rw [hfind] at h
          simp only at h
          by_cases hvisiting : visiting.contains key = true
          · rw [if_pos hvisiting] at h
            cases h
          · rw [if_neg hvisiting, Results.bind_eq_ok_iff] at h
            obtain ⟨⟨parent, inside, between⟩, hparent, hok⟩ := h
            cases hok
            rw [List.contains_iff_mem] at hvisiting
            refine .inr ⟨rfl, profile, rfl, hvisiting, parent, inside, between, rfl, rfl, rfl, ?_⟩
            cases hextends : profile.extends_ with
            | none =>
                rw [hextends] at hparent
                cases hparent
                exact .inl ⟨rfl, rfl, rfl, rfl⟩
            | some name =>
                rw [hextends] at hparent
                exact .inr ⟨name, rfl, hparent⟩

/-- A call that returns leaves the names being visited as they were. -/
theorem resolveOneProfile_restores {fuel : Nat} {key : Ident} {visiting after : List Ident}
    {resolved resolved' : List (Ident × T)} {value : T}
    (h : resolveOneProfile label ops profiles fuel key visiting resolved =
      .ok (value, after, resolved')) : after = visiting := by
  induction fuel generalizing key visiting after resolved resolved' value with
  | zero => cases h
  | succ fuel ih =>
      rcases resolveOneProfile_cases h with ⟨_, hafter, _⟩ |
        ⟨_, _, _, _, _, inside, _, _, hafter, _, hparent⟩
      · exact hafter
      · have hinside : inside = key :: visiting := by
          rcases hparent with ⟨_, _, hinside, _⟩ | ⟨_, _, hname⟩
          · exact hinside
          · exact ih hname
        rw [hafter, hinside, List.erase_cons_head]

/-- A property of what a profile makes of its parent holds of every resolved
profile. -/
theorem resolveOneProfile_forall {P Q : T → Prop} (hempty : Q ops.empty) (hweaken : ∀ t, P t → Q t)
    (hmerge : ∀ parent, Q parent → ∀ profile ∈ profiles, P (ops.merge parent profile.value))
    {fuel : Nat} {key : Ident} {visiting after : List Ident}
    {resolved resolved' : List (Ident × T)} {value : T}
    (hresolved : ∀ entry ∈ resolved, P entry.2)
    (h : resolveOneProfile label ops profiles fuel key visiting resolved =
      .ok (value, after, resolved')) :
    P value ∧ ∀ entry ∈ resolved', P entry.2 := by
  induction fuel generalizing key visiting after resolved resolved' value with
  | zero => cases h
  | succ fuel ih =>
      rcases resolveOneProfile_cases h with ⟨hlookup, _, rfl⟩ |
        ⟨_, profile, hfind, _, parent, _, between, rfl, _, rfl, hparent⟩
      · obtain ⟨before, after, heq, _⟩ := List.lookup_eq_some_iff.mp hlookup
        refine ⟨hresolved (key, value) ?_, hresolved⟩
        rw [heq]
        simp
      · have hboth : Q parent ∧ ∀ entry ∈ between, P entry.2 := by
          rcases hparent with ⟨_, rfl, _, rfl⟩ | ⟨name, _, hname⟩
          · exact ⟨hempty, hresolved⟩
          · obtain ⟨hvalue, hentries⟩ := ih hresolved hname
            exact ⟨hweaken parent hvalue, hentries⟩
        have hvalue := hmerge parent hboth.1 profile (List.mem_of_find?_eq_some hfind)
        exact ⟨hvalue, List.forall_mem_cons.mpr ⟨hvalue, hboth.2⟩⟩

/-- What merging keeps holds of every resolved profile. -/
theorem resolveProfileKeys_forall {P Q : T → Prop} (hempty : Q ops.empty)
    (hweaken : ∀ t, P t → Q t)
    (hmerge : ∀ parent, Q parent → ∀ profile ∈ profiles, P (ops.merge parent profile.value))
    {keys : List Ident} {resolved resolved' : List (Ident × T)}
    (hresolved : ∀ entry ∈ resolved, P entry.2)
    (h : resolveProfileKeys label ops profiles keys resolved = .ok resolved') :
    ∀ entry ∈ resolved', P entry.2 := by
  induction keys generalizing resolved with
  | nil =>
      cases h
      exact hresolved
  | cons key keys ih =>
      unfold resolveProfileKeys at h
      obtain ⟨⟨value, _, next⟩, hnext, hrest⟩ := Results.bind_eq_ok_iff.mp h
      exact ih (resolveOneProfile_forall hempty hweaken hmerge hresolved hnext).2 hrest

/-- The same of the whole set. -/
theorem resolveProfileSet_forall {P Q : T → Prop} (hempty : Q ops.empty)
    (hweaken : ∀ t, P t → Q t)
    (hmerge : ∀ parent, Q parent → ∀ profile ∈ profiles, P (ops.merge parent profile.value))
    {defaults : List Ident} {resolved : List (Ident × T)}
    (h : resolveProfileSet label ops profiles defaults = .ok resolved) :
    ∀ entry ∈ resolved, P entry.2 := by
  unfold resolveProfileSet at h
  split at h
  · cases h
  · split at h
    · cases h
    · exact resolveProfileKeys_forall hempty hweaken hmerge (by simp) h

end

/-- Every named plan of an accepted declaration is accepted. -/
theorem resolveRateLimitProfiles_accepted {block : Option RateLimitProfilesBlock}
    {profiles : RateLimitProfiles} (h : resolveRateLimitProfiles block = .ok profiles) :
    ∀ entry ∈ profiles, PlanAccepted entry.2 := by
  cases block with
  | none =>
      cases h
      simp
  | some block =>
      unfold resolveRateLimitProfiles at h
      obtain ⟨defs, hdefs, hset⟩ := Results.bind_eq_ok_iff.mp h
      refine resolveProfileSet_forall
        (Q := fun plan => ∀ bucket ∈ plan.buckets, BucketAccepted bucket.cost bucket.windows)
        (fun _ hmem => absurd hmem List.not_mem_nil) (fun _ => PlanAccepted.buckets) ?_ hset
      intro parent hparent profile hmem
      obtain ⟨profileDef, _, hdef⟩ := Results.exists_of_mem_mapM hdefs hmem
      unfold resolveRateLimitProfile at hdef
      obtain ⟨plan, hplan, hprofile⟩ := Results.bind_eq_ok_iff.mp hdef
      cases hprofile
      have haccepted := resolveRateLimitPlanSpec_accepted hplan
      exact ⟨List.append_ne_nil_of_right_ne_nil _ haccepted.ne,
        List.forall_mem_append.mpr ⟨hparent, haccepted.buckets⟩⟩

/-- Accepted profiles are combined to an accepted plan. -/
theorem combineRateLimitProfiles_accepted {profiles : RateLimitProfiles} {names : List Ident}
    {plan : RateLimitPlanTemplate} (hprofiles : ∀ entry ∈ profiles, PlanAccepted entry.2)
    (hnames : names ≠ []) (h : combineRateLimitProfiles profiles names = .ok plan) :
    PlanAccepted plan := by
  induction names generalizing plan with
  | nil => exact absurd rfl hnames
  | cons name names ih =>
      unfold combineRateLimitProfiles at h
      cases hlookup : profiles.lookup name with
      | none =>
          rw [hlookup] at h
          cases h
      | some found =>
          rw [hlookup] at h
          obtain ⟨rest, hrest, hok⟩ := Results.bind_eq_ok_iff.mp h
          cases hok
          obtain ⟨before, after, heq, _⟩ := List.lookup_eq_some_iff.mp hlookup
          have hfound : PlanAccepted found := hprofiles (name, found) (by rw [heq]; simp)
          have hothers : ∀ bucket ∈ rest.buckets, BucketAccepted bucket.cost bucket.windows := by
            cases names with
            | nil =>
                cases hrest
                simp
            | cons next names => exact (ih (by simp) hrest).buckets
          exact ⟨List.append_ne_nil_of_left_ne_nil hfound.ne _,
            List.forall_mem_append.mpr ⟨hfound.buckets, hothers⟩⟩

/-- What is attached: a plan that is not empty, with accepted buckets. -/
structure PlanResolvedAccepted (plan : RateLimitPlanResolved) : Prop where
  ne : plan.buckets ≠ []
  buckets : ∀ bucket ∈ plan.buckets, BucketAccepted bucket.cost bucket.windows

/-- An accepted plan stays so in its place. -/
theorem materializeRateLimitPlan_accepted {site : AttachmentSite} {plan : RateLimitPlanTemplate}
    {resolved : RateLimitPlanResolved} (hplan : PlanAccepted plan)
    (h : materializeRateLimitPlan site plan = .ok resolved) : PlanResolvedAccepted resolved := by
  unfold materializeRateLimitPlan at h
  obtain ⟨buckets, hbuckets, hok⟩ := Results.bind_eq_ok_iff.mp h
  cases hok
  constructor
  · exact Results.ne_nil_of_mapM hbuckets hplan.ne
  · intro bucket hmem
    obtain ⟨template, htemplate, hbucket⟩ := Results.exists_of_mem_mapM hbuckets hmem
    unfold materializeRateLimitBucket at hbucket
    obtain ⟨key, _, hok⟩ := Results.bind_eq_ok_iff.mp hbucket
    cases hok
    exact hplan.buckets template htemplate

/-- The plan of a directive that has one. -/
def RateLimitResolved.plan : RateLimitResolved → Option RateLimitPlanResolved
  | .add plan => some plan
  | .replace plan => some plan
  | .clear => none

/-- A directive has the plan it was made of. -/
@[simp] theorem RateLimitResolved.ofPlan_plan (only : Bool) (plan : RateLimitPlanResolved) :
    (RateLimitResolved.ofPlan only plan).plan = some plan := by
  cases only <;> rfl

/-- How the plan of a directive comes about. -/
theorem resolveRateLimitDirective_plan {profiles : RateLimitProfiles} {site : AttachmentSite}
    {spec : RateLimitSpec} {op : RateLimitResolved} {plan : RateLimitPlanResolved}
    (hprofiles : ∀ entry ∈ profiles, PlanAccepted entry.2)
    (h : resolveRateLimitDirective profiles site spec = .ok op) (hplan : op.plan = some plan) :
    ∃ template, PlanAccepted template ∧ materializeRateLimitPlan site template = .ok plan := by
  cases spec with
  | off =>
      cases h
      cases hplan
  | profiles only names names_ne =>
      unfold resolveRateLimitDirective at h
      simp only [Results.bind_eq_ok_iff, Except.ok.injEq] at h
      obtain ⟨template, htemplate, resolved, hresolved, rfl⟩ := h
      rw [RateLimitResolved.ofPlan_plan] at hplan
      cases hplan
      exact ⟨template, combineRateLimitProfiles_accepted hprofiles names_ne htemplate, hresolved⟩
  | inline only spec =>
      unfold resolveRateLimitDirective at h
      simp only [Results.bind_eq_ok_iff, Except.ok.injEq] at h
      obtain ⟨template, htemplate, resolved, hresolved, rfl⟩ := h
      rw [RateLimitResolved.ofPlan_plan] at hplan
      cases hplan
      exact ⟨template, resolveRateLimitPlanSpec_accepted htemplate, hresolved⟩

end Concord.Sema
