import Mathlib.Data.Set.List
import Concord.Parse.RateLimit

/-!
# Concord.Parse.RoundTrip

Rate limits written out and read again, and the trees that the resolver sees of
them.

The resolver reads the literals of a tree by `base10_parse`, which fails on a
negative one; so the trees of `Concord.Sema.Ast` have numbers in their place.
-/

namespace Concord.Parse

open Parsing

/-! ## writing -/

/-- What stands between the braces of a bucket. -/
def RateLimitBucketSpec.items (bucket : RateLimitBucketSpec) : List BucketItem :=
  (bucket.cost.map .cost).toList ++ bucket.windows.map .window

/-- The bucket as it is written. -/
def RateLimitBucketSpec.tokens (bucket : RateLimitBucketSpec) : List Token :=
  [.atom (.ident "bucket"), .atom (.ident bucket.kind.name), .atom (.ident "by"),
    .group .bracket (bucket.key.flatMap RateLimitKeySpec.tokens),
    .group .brace (bucket.items.flatMap BucketItem.tokens)]

/-- The plan as it is written. -/
def RateLimitPlanSpec.tokens (plan : RateLimitPlanSpec) : List Token :=
  plan.buckets.flatMap RateLimitBucketSpec.tokens

/-- The word `only`. -/
def onlyTokens (only : Bool) : List Token := if only then [.atom (.ident "only")] else []

/-- The directive as it is written. -/
def RateLimitSpec.tokens : RateLimitSpec → List Token
  | .off => [.atom (.ident "rate_limit"), .atom (.ident "off")]
  | .profiles only names =>
    .atom (.ident "rate_limit") :: onlyTokens only ++
      [.group .bracket (names.names.flatMap nameTokens)]
  | .inline only plan =>
    .atom (.ident "rate_limit") :: onlyTokens only ++ [.group .brace plan.tokens]

/-- The profile as it is written. -/
def RateLimitProfileDef.tokens (profile : RateLimitProfileDef) : List Token :=
  nameTokens profile.name ++
    (match profile.extends_ with
      | none => []
      | some parent => .atom (.ident "extends") :: nameTokens parent) ++
    [.group .brace profile.plan.tokens]

section writing

/-- A written bucket is text of the bucket. -/
theorem RateLimitBucketSpec.text (bucket : RateLimitBucketSpec) :
    BucketText bucket.tokens bucket := by
  refine .mk (listed_flatMap fun _ _ => rfl) (listed_flatMap fun _ _ => rfl) ?_ ?_
  · cases hcost : bucket.cost with
    | none => simp [items, hcost, BucketItem.cost?]
    | some lit => simp [items, hcost, BucketItem.cost?]
  · have hwindows : (bucket.windows.map BucketItem.window).filterMap BucketItem.window? =
        bucket.windows := by
      simp [List.filterMap_map, Function.comp_def, BucketItem.window?]
    cases hcost : bucket.cost with
    | none => simpa [items, hcost] using hwindows
    | some lit => simpa [items, hcost, List.filterMap_cons, BucketItem.window?] using hwindows

/-- A written plan is text of the plan. -/
theorem RateLimitPlanSpec.text (plan : RateLimitPlanSpec) : PlanText plan.tokens plan :=
  listed_flatMap fun bucket _ => bucket.text

/-- A use in braces or brackets is a directive. -/
theorem specText_of_use {only : Bool} {delimiter : Delimiter} {stream : List Token}
    {spec : RateLimitSpec} (h : UseText only [.group delimiter stream] spec) :
    SpecText (.atom (.ident "rate_limit") :: onlyTokens only ++ [.group delimiter stream]) spec := by
  cases only with
  | true => exact .only h
  | false => exact .plain h rfl rfl

/-- A written directive is text of the directive. -/
theorem RateLimitSpec.text (spec : RateLimitSpec) : SpecText spec.tokens spec := by
  cases spec with
  | off => exact .off
  | inline only plan => exact specText_of_use (.inline plan.text)
  | profiles only names =>
      exact specText_of_use (.profiles (.list (listed_flatMap fun _ _ => rfl)))

/-- A written profile is text of the profile. -/
theorem RateLimitProfileDef.text (profile : RateLimitProfileDef) :
    ProfileDefText profile.tokens profile := by
  obtain ⟨name, parent, plan⟩ := profile
  cases parent with
  | none => exact .plain name plan.text
  | some parent => exact .extending name parent plan.text

end writing

/-! ## what the resolver sees -/

/-- `base10_parse` of a literal, but for the bound of the type. -/
def LitInt.base10 (lit : LitInt) : Option Nat := if lit.negative then none else some lit.value

/-- A key for the resolver. -/
def RateLimitKeySpec.toSema : RateLimitKeySpec → Sema.RateLimitKeySpec
  | .routeHost => .routeHost
  | .endpoint => .endpoint
  | .method => .method
  | .named name _ => .named name.name
  | .static value => .static value

/-- A window for the resolver, if its numbers are decimal. -/
def RateLimitWindowSpec.toSema (window : RateLimitWindowSpec) : Option Sema.RateLimitWindowSpec := do
  let max ← window.max.base10
  let every ← window.every.base10
  pure ⟨max, every, window.unit⟩

/-- A cost for the resolver. -/
def costToSema : Option LitInt → Option (Option Nat)
  | none => some none
  | some lit => lit.base10.map some

/-- A bucket for the resolver. -/
def RateLimitBucketSpec.toSema (bucket : RateLimitBucketSpec) : Option Sema.RateLimitBucketSpec := do
  let cost ← costToSema bucket.cost
  let windows ← bucket.windows.mapM RateLimitWindowSpec.toSema
  pure ⟨bucket.kind.name, bucket.key.map RateLimitKeySpec.toSema, cost, windows⟩

/-- A plan for the resolver, which is not empty. -/
def RateLimitPlanSpec.toSema (plan : RateLimitPlanSpec) : Option Sema.RateLimitPlanSpec := do
  let buckets ← plan.buckets.mapM RateLimitBucketSpec.toSema
  if h : buckets ≠ [] then some ⟨buckets, h⟩ else none

/-- A directive for the resolver. -/
def RateLimitSpec.toSema : RateLimitSpec → Option Sema.RateLimitSpec
  | .off => some .off
  | .profiles only names =>
    some (.profiles only (names.names.map Ident.name) (by simpa using names.names_ne))
  | .inline only plan => plan.toSema.map (.inline only)

/-- A name that can be written as an identifier. -/
def Named (name : String) : Prop := name ∉ reservedWords

/-- A named key has a name that can be written. -/
def KeyNamed : Sema.RateLimitKeySpec → Prop
  | .named name => Named name ∧ name ∉ plainKeys
  | .routeHost | .endpoint | .method | .static _ => True

/-- So has every key of the bucket, and its kind. -/
def BucketNamed (bucket : Sema.RateLimitBucketSpec) : Prop :=
  Named bucket.kind ∧ ∀ key ∈ bucket.key, KeyNamed key

/-- A rate limit that can be written: its names are identifiers, those of keys
are not plain words, and no profile is listed twice. -/
def SpecNamed : Sema.RateLimitSpec → Prop
  | .off => True
  | .profiles _ names _ => (∀ name ∈ names, Named name) ∧ names.Nodup
  | .inline _ plan => ∀ bucket ∈ plan.buckets, BucketNamed bucket

section sema

/-- Results that all come from somewhere come from a list. -/
theorem exists_mapM_eq_some {α β : Type} {f : α → Option β} {ys : List β}
    (h : ∀ y ∈ ys, ∃ x, f x = some y) : ∃ xs : List α, xs.mapM f = some ys := by
  induction ys with
  | nil => exact ⟨[], rfl⟩
  | cons y ys ih =>
      obtain ⟨x, hx⟩ := h y List.mem_cons_self
      obtain ⟨xs, hxs⟩ := ih fun y hy => h y (List.mem_cons_of_mem _ hy)
      exact ⟨x :: xs, by simp [List.mapM_cons, hx, hxs]⟩

/-- Each of them comes from an element. -/
theorem exists_of_mem_mapM_eq_some {α β : Type} {f : α → Option β} {xs : List α} {ys : List β}
    (h : xs.mapM f = some ys) {y : β} (hy : y ∈ ys) : ∃ x ∈ xs, f x = some y := by
  induction xs generalizing ys with
  | nil =>
      cases h
      contradiction
  | cons x xs ih =>
      simp only [List.mapM_cons, Option.bind_eq_bind, Option.bind_eq_some_iff, Option.pure_def,
        Option.some.injEq] at h
      obtain ⟨first, hfirst, rest, hrest, rfl⟩ := h
      rcases List.mem_cons.mp hy with rfl | hmem
      · exact ⟨x, List.mem_cons_self, hfirst⟩
      · obtain ⟨x', hx', heq⟩ := ih hrest hmem
        exact ⟨x', List.mem_cons_of_mem x hx', heq⟩

/-- The keys that can be written. -/
theorem exists_key {key : Sema.RateLimitKeySpec} :
    (∃ tree : RateLimitKeySpec, tree.toSema = key) ↔ KeyNamed key := by
  constructor
  · rintro ⟨tree, rfl⟩
    cases tree with
    | named name hname => exact ⟨name.not_reserved, hname⟩
    | routeHost | endpoint | method | static _ => trivial
  · intro h
    cases key with
    | routeHost => exact ⟨.routeHost, rfl⟩
    | endpoint => exact ⟨.endpoint, rfl⟩
    | method => exact ⟨.method, rfl⟩
    | static value => exact ⟨.static value, rfl⟩
    | named name => exact ⟨.named ⟨name, h.1⟩ h.2, rfl⟩

/-- Every window can be written. -/
theorem exists_window (window : Sema.RateLimitWindowSpec) :
    ∃ tree : RateLimitWindowSpec, tree.toSema = some window := by
  obtain ⟨max, every, unit⟩ := window
  cases unit with
  | seconds => exact ⟨⟨⟨false, max, ""⟩, ⟨false, every, "s"⟩, .seconds, rfl⟩, rfl⟩
  | minutes => exact ⟨⟨⟨false, max, ""⟩, ⟨false, every, "m"⟩, .minutes, rfl⟩, rfl⟩

/-- The buckets that can be written. -/
theorem exists_bucket {bucket : Sema.RateLimitBucketSpec} :
    (∃ tree : RateLimitBucketSpec, tree.toSema = some bucket) ↔ BucketNamed bucket := by
  constructor
  · rintro ⟨tree, h⟩
    simp only [RateLimitBucketSpec.toSema, Option.bind_eq_bind, Option.bind_eq_some_iff,
      Option.pure_def, Option.some.injEq] at h
    obtain ⟨cost, _, windows, _, rfl⟩ := h
    refine ⟨tree.kind.not_reserved, fun key hkey => ?_⟩
    obtain ⟨source, _, rfl⟩ := List.mem_map.mp hkey
    exact exists_key.mp ⟨source, rfl⟩
  · rintro ⟨hkind, hkeys⟩
    obtain ⟨kind, key, cost, windows⟩ := bucket
    obtain ⟨keys, rfl⟩ : key ∈ Set.range (List.map RateLimitKeySpec.toSema) := by
      rw [Set.range_list_map]
      exact fun key hkey => exists_key.mpr (hkeys key hkey)
    obtain ⟨sources, hsources⟩ := exists_mapM_eq_some fun window (_ : window ∈ windows) =>
      exists_window window
    obtain ⟨lit, hlit⟩ : ∃ lit, costToSema lit = some cost := by
      cases cost with
      | none => exact ⟨none, rfl⟩
      | some cost => exact ⟨some ⟨false, cost, ""⟩, rfl⟩
    exact ⟨⟨⟨kind, hkind⟩, keys, lit, sources⟩, by
      simp [RateLimitBucketSpec.toSema, hlit, hsources]⟩

/-- The plans that can be written. -/
theorem exists_plan {plan : Sema.RateLimitPlanSpec} :
    (∃ tree : RateLimitPlanSpec, tree.toSema = some plan) ↔
      ∀ bucket ∈ plan.buckets, BucketNamed bucket := by
  obtain ⟨buckets, hne⟩ := plan
  constructor
  · rintro ⟨tree, h⟩ bucket hbucket
    simp only [RateLimitPlanSpec.toSema, Option.bind_eq_bind, Option.bind_eq_some_iff] at h
    obtain ⟨buckets', hbuckets, h⟩ := h
    split at h
    · cases h
      obtain ⟨source, _, hsource⟩ := exists_of_mem_mapM_eq_some hbuckets hbucket
      exact exists_bucket.mp ⟨source, hsource⟩
    · cases h
  · intro h
    obtain ⟨sources, hsources⟩ := exists_mapM_eq_some fun bucket hbucket =>
      exists_bucket.mpr (h bucket hbucket)
    have hsources_ne : sources ≠ [] := by
      rintro rfl
      cases hsources
      exact hne rfl
    exact ⟨⟨sources, hsources_ne⟩, by simp [RateLimitPlanSpec.toSema, hsources, hne]⟩

/-- The trees that the resolver may see. -/
theorem exists_spec {spec : Sema.RateLimitSpec} :
    (∃ tree : RateLimitSpec, tree.toSema = some spec) ↔ SpecNamed spec := by
  constructor
  · rintro ⟨tree, h⟩
    cases tree with
    | off =>
        cases h
        trivial
    | profiles only names =>
        cases h
        refine ⟨fun name hname => ?_, names.names_nodup.map ?_⟩
        · obtain ⟨source, _, rfl⟩ := List.mem_map.mp hname
          exact source.not_reserved
        · rintro ⟨one, _⟩ ⟨other, _⟩ rfl
          rfl
    | inline only plan =>
        simp only [RateLimitSpec.toSema, Option.map_eq_some_iff] at h
        obtain ⟨plan', hplan, rfl⟩ := h
        exact exists_plan.mp ⟨plan, hplan⟩
  · intro h
    cases spec with
    | off => exact ⟨.off, rfl⟩
    | inline only plan =>
        obtain ⟨tree, htree⟩ := exists_plan.mpr h
        exact ⟨.inline only tree, by simp [RateLimitSpec.toSema, htree]⟩
    | profiles only names hne =>
        obtain ⟨hnamed, hnodup⟩ := h
        obtain ⟨idents, rfl⟩ : names ∈ Set.range (List.map Ident.name) := by
          rw [Set.range_list_map]
          exact fun name hname => ⟨⟨name, hnamed name hname⟩, rfl⟩
        exact ⟨.profiles only ⟨idents, by simpa using hne, hnodup.of_map⟩, rfl⟩

end sema

/-- **Rate limits are read as they are written.**  The parser accepts exactly
the texts of the grammar, whatever comes after them; every tree, written out, is
read again; and what the resolver sees is what can be written: rate limits
whose names are identifiers, whose keys are no plain words and whose lists name
no profile twice. -/
theorem rate_limit_grammar :
    (∀ input spec rest, parseRateLimitSpec.run input = .ok (spec, rest) ↔
      ∃ t, SpecText t spec ∧ input = t ++ rest) ∧
    (∀ input profile rest,
      parseRateLimitProfileDeclAfterKeyword.run input = .ok (profile, rest) ↔
        ∃ t, ProfileDefText t profile ∧ input = t ++ rest) ∧
    (∀ (spec : RateLimitSpec) rest,
      parseRateLimitSpec.run (spec.tokens ++ rest) = .ok (spec, rest)) ∧
    (∀ (profile : RateLimitProfileDef) rest,
      parseRateLimitProfileDeclAfterKeyword.run (profile.tokens ++ rest) = .ok (profile, rest)) ∧
    ∀ seen : Sema.RateLimitSpec,
      (∃ input spec rest, parseRateLimitSpec.run input = .ok (spec, rest) ∧
        spec.toSema = some seen) ↔ SpecNamed seen := by
  refine ⟨reads_spec, reads_profileDef, fun spec rest => reads_spec.run spec.text rest,
    fun profile rest => reads_profileDef.run profile.text rest, fun seen => ?_⟩
  rw [← exists_spec]
  constructor
  · rintro ⟨_, spec, _, _, hseen⟩
    exact ⟨spec, hseen⟩
  · rintro ⟨spec, hseen⟩
    exact ⟨spec.tokens ++ [], spec, [], reads_spec.run spec.text [], hseen⟩

/-- `rate_limit only { bucket app by [host, "eu"] { 10 / 1s, cost 2 } }`. -/
def onlyApp : List Token :=
  [.atom (.ident "rate_limit"), .atom (.ident "only"), .group .brace
    [.atom (.ident "bucket"), .atom (.ident "app"), .atom (.ident "by"),
      .group .bracket [.atom (.ident "host"), .atom (.punct ','), .atom (.str "eu")],
      .group .brace [.atom (.int 10 ""), .atom (.punct '/'), .atom (.int 1 "s"),
        .atom (.punct ','), .atom (.ident "cost"), .atom (.int 2 "")]]]

example : (parseRateLimitSpec.run onlyApp).toOption.bind (·.1.toSema) =
    some (.inline true ⟨[⟨"app", [.routeHost, .static "eu"], some 2, [⟨10, 1, .seconds⟩]⟩],
      by simp⟩) := by
  decide +kernel

end Concord.Parse
