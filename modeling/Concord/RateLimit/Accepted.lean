import Concord.RateLimit.Misconfigured

/-!
# Concord.RateLimit.Accepted

Rate limits of declarations at run time
(`concord_macros/src/sema/rate_limit.rs`,
`concord_core/src/rate_limit/governor_runtime.rs`).

What the resolver accepts has a quota at run time, and its cost fits the
burst.  A duration has 64-bit seconds, though, and the limiter counts in
64-bit nanoseconds: it panics on a longer one when it is made
(`AcquireWorld.Panics`).  The resolver's check is on 128-bit nanoseconds, which
the seconds never exceed.
-/

namespace Concord

open Transition Checked

/-! ## what works -/

/-- Calls of `acquire` for the request neither panic nor fail, whatever else
the limiter is used for, unless a key is by a host that the URL does not have. -/
def Acquires (limiter : GovernorRateLimiter) (ctx : RateLimitContext) : Prop :=
  ∀ before world answers event, (∀ other ∈ before ++ [event], other.ReadingOk) →
    exec (acquireStep (limiterFor limiter)) .init before = some (world, answers) →
    world.StepOf event ctx →
    ¬ world.Panics limiter event ∧
      ∀ next error, acquireStep (limiterFor limiter) world event = some (next, .failed error) →
        ctx.urlHost = none ∧ error = missingHostKeyError ctx

/-! ## windows -/

/-- A window that a bucket of some cost can be used with. -/
structure WindowWorks (cost : Nat) (window : RateLimitWindow) : Prop where
  quota (ctx : RateLimitContext) : ∃ quota, quotaForWindow ctx window = .ok quota ∧
    0 < quota.cell ∧ cost ≤ quota.burst ∧ FitsNanos quota
  per_le : window.per ≤ u64Max

/-- A window with no more cells than nanoseconds works. -/
theorem windowWorks_of_fits {cost : Nat} {window : RateLimitWindow} (hcost : cost ≤ window.max)
    (hmax : window.max ≤ window.per) (hper : window.per ≤ u64Max) : WindowWorks cost window := by
  have hburst : window.per / window.max * window.max ≤ window.per := Nat.div_mul_le_self _ _
  have hcell : window.per / window.max ≤ window.per := Nat.div_le_self _ _
  have hpos : 0 < window.per / window.max := Nat.div_pos hmax window.max_pos
  constructor
  · intro ctx
    exact ⟨_, quotaForWindow_eq ctx hmax, hpos, hcost, hcell.trans hper, hburst.trans hper⟩
  · exact hper

/-- A window that works is not misconfigured. -/
theorem WindowWorks.misconfiguration {use : WindowUse} (h : WindowWorks use.cost use.spec.window)
    (ctx : RateLimitContext) : use.misconfiguration ctx = none := by
  obtain ⟨quota, hquota, _, hcost, _⟩ := h.quota ctx
  obtain ⟨hmax, rfl⟩ := quotaForWindow_ok hquota
  exact misconfiguration_eq_none hmax hcost

/-! ## what a call is at -/

/-- With a host every key is resolved. -/
theorem resolveKeyParts_of_host {ctx : RateLimitContext} {host : String}
    (h : ctx.urlHost = some host) (parts : List RateLimitKeyPart) :
    ∃ resolved, resolveKeyParts ctx parts = .ok resolved := by
  induction parts with
  | nil => exact ⟨[], rfl⟩
  | cons part parts ih =>
      obtain ⟨resolved, hresolved⟩ := ih
      have hvalue : ∃ value, resolveKeyPartValue ctx part = .ok value := by
        unfold resolveKeyPartValue
        cases part.value with
        | static value => exact ⟨_, rfl⟩
        | endpoint => exact ⟨_, rfl⟩
        | method => exact ⟨_, rfl⟩
        | urlHost => simp [h]
      obtain ⟨value, hvalue⟩ := hvalue
      simp [resolveKeyParts, hvalue, hresolved]

/-- A key that is not resolved misses the host. -/
theorem urlHost_of_resolveKey_error {ctx : RateLimitContext} {key : RateLimitKey}
    {error : RateLimitError} (h : resolveKey ctx key = .error error) : ctx.urlHost = none := by
  cases hhost : ctx.urlHost with
  | none => rfl
  | some host =>
      obtain ⟨resolved, hresolved⟩ := resolveKeyParts_of_host hhost key.parts
      simp [resolveKey, hresolved] at h

/-- The loops of `acquire` go over the windows of the buckets, and over keys
that do not resolve. -/
theorem mem_windowUses {ctx : RateLimitContext} {item : Except RateLimitError WindowUse}
    (h : item ∈ windowUses ctx) : ∃ bucket ∈ ctx.plan.buckets,
      (∃ error, item = .error error ∧ resolveKey ctx bucket.key = .error error) ∨
        ∃ use, item = .ok use ∧ use.spec.window ∈ bucket.windows ∧ use.cost = bucket.cost := by
  obtain ⟨bucket, hbucket, hitem⟩ := List.mem_flatMap.mp h
  refine ⟨bucket, hbucket, ?_⟩
  cases hkey : resolveKey ctx bucket.key with
  | error error =>
      simp only [hkey, List.mem_singleton] at hitem
      exact .inl ⟨error, hitem, rfl⟩
  | ok key =>
      simp only [hkey, List.mem_map] at hitem
      obtain ⟨window, hwindow, rfl⟩ := hitem
      exact .inr ⟨_, rfl, hwindow, rfl⟩

section plans

variable {source : LimiterSource} {world next : AcquireWorld}

/-- A call does not fail as it starts. -/
theorem start_not_failed {call : Nat} {ctx : RateLimitContext} {error : RateLimitError} :
    acquireStep source world (.start call ctx) ≠ some (next, .failed error) := by
  intro h
  simp only [acquireStep, AcquireWorld.goOn] at h
  split at h
  · contradiction
  · split at h
    · cases h
    · cases h

/-- Calls for a plan whose windows work do. -/
theorem acquires_of_works {limiter : GovernorRateLimiter} (hpos : 0 < limiter.maxWindowEntries)
    {ctx : RateLimitContext}
    (hworks : ∀ bucket ∈ ctx.plan.buckets, ∀ window ∈ bucket.windows,
      WindowWorks bucket.cost window) : Acquires limiter ctx := by
  intro before world answers event hreading hrun hof
  have hworking {use : WindowUse} (huse : .ok use ∈ windowUses ctx) :
      WindowWorks use.cost use.spec.window := by
    obtain ⟨bucket, hbucket, hcases⟩ := mem_windowUses huse
    rcases hcases with ⟨error, herror, _⟩ | ⟨found, hfound, hwindow, hcost⟩
    · cases herror
    · cases hfound
      rw [hcost]
      exact hworks bucket hbucket _ hwindow
  have hserving := serving_of_exec hpos (serving_init limiter)
    (fun other hmem => hreading other (List.mem_append_left _ hmem)) hrun
  have hcourse := onCourse_of_exec hpos
    (fun other hmem => hreading other (List.mem_append_left _ hmem)) hrun
  constructor
  · intro hpanics
    cases event with
    | start call other => exact hpanics
    | checkN call now => exact hpanics
    | limiterFor call now =>
        obtain ⟨other, use, left, quota, hcall, _, hquota, hfits⟩ := hpanics
        rcases hof with hstart | ⟨rest, held, hcall'⟩
        · cases hstart
        · cases hcall'.symm.trans hcall
          have huse := hcourse.mem hcall List.mem_cons_self
          obtain ⟨quota', hquota', _, _, hfits'⟩ := (hworking huse).quota ctx
          rw [hquota, Except.ok.injEq] at hquota'
          exact hfits (hquota' ▸ hfits')
  · intro next error hstep
    have hmove := acquireStep_move hstep
    rcases hof with hstart | ⟨left, held, hcall⟩
    · rw [hstart] at hstep
      exact absurd hstep start_not_failed
    · obtain ⟨_, failing, rest, hleft, hends⟩ := hmove.failed hserving hpos
        (hreading event (List.mem_append_right _ (List.mem_singleton_self _))) hcall
      have hfailing : failing ∈ windowUses ctx := hcourse.mem hcall (by simp [hleft])
      obtain ⟨bucket, _, hcases⟩ := mem_windowUses hfailing
      rcases hcases with ⟨failure, rfl, hkey⟩ | ⟨use, rfl, _, _⟩
      · have herror : failure = error := hends
        rw [← herror]
        exact ⟨urlHost_of_resolveKey_error hkey, resolveKey_error hkey⟩
      · have hnone := (hworking hfailing).misconfiguration ctx
        have hsome : use.misconfiguration ctx = some error := hends
        rw [hnone] at hsome
        contradiction

end plans

/-! ## plans of declarations -/

section template

variable {template : Sema.RateLimitPlanTemplate}

/-- A bucket that generated code makes of one of a template. -/
def MadeOf (template : Sema.RateLimitPlanTemplate) (use : RateLimitBucketUse) : Prop :=
  ∃ bucket ∈ template.buckets, ∃ site resolved errorCtx ep,
    Sema.materializeRateLimitBucket site bucket = .ok resolved ∧
      Sema.emitRateLimitBucket errorCtx ep resolved = .ok use

/-- What a template says works at run time: its windows, and the calls for
plans of its buckets. -/
structure TemplateWorks (template : Sema.RateLimitPlanTemplate) : Prop where
  windows : ∀ bucket ∈ template.buckets, ∀ window ∈ bucket.windows, ∀ errorCtx, ∃ out,
    Sema.emitRateLimitWindow errorCtx window = .ok out ∧ WindowWorks bucket.cost out
  acquires : ∀ limiter : GovernorRateLimiter, limiter.Configured → ∀ ctx,
    (∀ use ∈ ctx.plan.buckets, MadeOf template use) → Acquires limiter ctx

/-- An accepted window is emitted in nanoseconds. -/
theorem emitRateLimitWindow_eq {errorCtx : ErrorContext} {cost : Nat}
    {window : Sema.RateLimitWindowResolved} (h : Sema.WindowAccepted cost window) :
    Sema.emitRateLimitWindow errorCtx window =
      .ok ⟨window.max, window.perSecs * Sema.nanosPerSecond, h.max_pos⟩ :=
  dif_pos h.max_pos

/-- The cost and the windows of a bucket are those of the template. -/
theorem MadeOf.windows {use : RateLimitBucketUse} (h : MadeOf template use) :
    ∃ bucket ∈ template.buckets, use.cost = bucket.cost ∧ ∀ window ∈ use.windows,
      ∃ source ∈ bucket.windows, ∃ errorCtx,
        Sema.emitRateLimitWindow errorCtx source = .ok window := by
  obtain ⟨bucket, hbucket, site, resolved, errorCtx, ep, hresolved, hemit⟩ := h
  unfold Sema.materializeRateLimitBucket at hresolved
  unfold Sema.emitRateLimitBucket at hemit
  simp only [Results.bind_eq_ok_iff, Except.ok.injEq] at hresolved hemit
  obtain ⟨_, _, rfl⟩ := hresolved
  obtain ⟨key, _, cost, hcost, windows, hwindows, rfl⟩ := hemit
  unfold Sema.emitRateLimitCost at hcost
  split at hcost
  · rw [Except.ok.injEq] at hcost
    subst hcost
    refine ⟨bucket, hbucket, rfl, ?_⟩
    intro window hwindow
    obtain ⟨source, hsource, heq⟩ := Results.exists_of_mem_mapM hwindows hwindow
    exact ⟨source, hsource, errorCtx, heq⟩
  · contradiction

/-- A template works if its windows do. -/
theorem templateWorks_of_windows
    (h : ∀ bucket ∈ template.buckets, ∀ window ∈ bucket.windows, ∀ errorCtx, ∃ out,
      Sema.emitRateLimitWindow errorCtx window = .ok out ∧ WindowWorks bucket.cost out) :
    TemplateWorks template := by
  constructor
  · exact h
  · intro limiter hconfigured ctx hmade
    refine acquires_of_works hconfigured.maxWindowEntries_pos fun use huse window hwindow => ?_
    obtain ⟨bucket, hbucket, hcost, hwindows⟩ := (hmade use huse).windows
    obtain ⟨source, hsource, errorCtx, hemit⟩ := hwindows window hwindow
    obtain ⟨out, hout, hworks⟩ := h bucket hbucket source hsource errorCtx
    rw [hemit, Except.ok.injEq] at hout
    rw [hcost, hout]
    exact hworks

/-! ## what is accepted -/

/-- A resolved window has whole seconds. -/
theorem resolveRateLimitWindow_perSecs {cost : Nat} {spec : Sema.RateLimitWindowSpec}
    {window : Sema.RateLimitWindowResolved}
    (h : Sema.resolveRateLimitWindow cost spec = .ok window) :
    window.perSecs = spec.every * spec.unit.multiplier := by
  unfold Sema.resolveRateLimitWindow at h
  simp only [Results.bind_eq_ok_iff, Sema.base10Parse_eq_ok_iff, Sema.check_eq_ok_iff,
    Except.ok.injEq] at h
  obtain ⟨max, _, _, _, amount, ⟨_, rfl⟩, _, _, _, _, rfl⟩ := h
  rfl

/-- A bucket has the windows it was resolved from. -/
theorem resolveRateLimitBucket_windows {name : String} {spec : Sema.RateLimitBucketSpec × Nat}
    {bucket : Sema.RateLimitBucketTemplate}
    (h : Sema.resolveRateLimitBucket name spec = .ok bucket) :
    spec.1.windows.mapM (Sema.resolveRateLimitWindow bucket.cost) = .ok bucket.windows := by
  unfold Sema.resolveRateLimitBucket at h
  simp only [Results.bind_eq_ok_iff, Sema.check_eq_ok_iff, Except.ok.injEq] at h
  obtain ⟨_, cost, _, windows, hwindows, rfl⟩ := h
  exact hwindows

/-- A window that the resolver accepts works at run time if its seconds fit
the limiter's nanoseconds, and only then. -/
theorem window_works_iff {cost : Nat} {spec : Sema.RateLimitWindowSpec}
    {window : Sema.RateLimitWindowResolved}
    (h : Sema.resolveRateLimitWindow cost spec = .ok window) :
    (∀ errorCtx, ∃ out, Sema.emitRateLimitWindow errorCtx window = .ok out ∧
        WindowWorks cost out) ↔
      spec.every * spec.unit.multiplier * Sema.nanosPerSecond ≤ u64Max := by
  have haccepted := Sema.resolveRateLimitWindow_accepted h
  rw [← resolveRateLimitWindow_perSecs h]
  constructor
  · intro hworks
    obtain ⟨out, hout, hwindow⟩ := hworks ⟨"", .get⟩
    rw [emitRateLimitWindow_eq haccepted, Except.ok.injEq] at hout
    subst hout
    exact hwindow.per_le
  · intro hper errorCtx
    have hwindow : WindowWorks cost
        ⟨window.max, window.perSecs * Sema.nanosPerSecond, haccepted.max_pos⟩ :=
      windowWorks_of_fits haccepted.cost_le haccepted.max_le_per hper
    exact ⟨_, emitRateLimitWindow_eq haccepted, hwindow⟩

/-- Limits that the resolver accepts work at run time if and only if all their
durations fit the limiter's nanoseconds, 64 bits of them. -/
theorem accepted_rate_limit_works_iff {spec : Sema.RateLimitPlanSpec} {name : String}
    (h : Sema.resolveRateLimitPlanSpec spec name = .ok template) :
    TemplateWorks template ↔ ∀ bucket ∈ spec.buckets, ∀ window ∈ bucket.windows,
      window.every * window.unit.multiplier * Sema.nanosPerSecond ≤ u64Max := by
  unfold Sema.resolveRateLimitPlanSpec at h
  simp only [Results.bind_eq_ok_iff, Except.ok.injEq] at h
  obtain ⟨buckets, hbuckets, rfl⟩ := h
  constructor
  · intro hworks source hsource window hwindow
    obtain ⟨index, hindex⟩ := List.getElem?_of_mem hsource
    have hpair : (source, index) ∈ spec.buckets.zipIdx :=
      List.mk_mem_zipIdx_iff_getElem?.mpr hindex
    obtain ⟨bucket, hbucket, hresolved⟩ := Results.exists_out_of_mapM hbuckets hpair
    have hwindows := resolveRateLimitBucket_windows hresolved
    obtain ⟨out, hout, hwindowResolved⟩ := Results.exists_out_of_mapM hwindows hwindow
    exact (window_works_iff hwindowResolved).mp (hworks.windows bucket hbucket out hout)
  · intro hfits
    refine templateWorks_of_windows fun bucket hbucket window hwindow => ?_
    obtain ⟨⟨source, index⟩, hsource, hresolved⟩ := Results.exists_of_mem_mapM hbuckets hbucket
    have hmem : source ∈ spec.buckets := List.fst_mem_of_mem_zipIdx hsource
    obtain ⟨windowSource, hwindowSource, hwindowResolved⟩ :=
      Results.exists_of_mem_mapM (resolveRateLimitBucket_windows hresolved) hwindow
    exact (window_works_iff hwindowResolved).mpr (hfits source hmem windowSource hwindowSource)

end template

/-- Ten requests a minute, two cells each. -/
theorem accepted_rate_limit_works_minute :
    TemplateWorks ⟨[⟨"app", "inline_0", [], 2, [⟨10, 60⟩]⟩]⟩ := by
  have hresolved : Sema.resolveRateLimitPlanSpec
      ⟨[⟨"app", [], some 2, [⟨10, 1, .minutes⟩]⟩], List.cons_ne_nil _ _⟩ "inline" =
        .ok ⟨[⟨"app", "inline_0", [], 2, [⟨10, 60⟩]⟩]⟩ := by decide +kernel
  refine (accepted_rate_limit_works_iff hresolved).mpr ?_
  intro bucket hbucket window hwindow
  rw [List.mem_singleton.mp hbucket, List.mem_singleton] at hwindow
  rw [hwindow]
  decide

/-- The resolver accepts one request in 585 years, and the first call for it
panics. -/
theorem accepted_rate_limit_panics :
    Sema.resolveRateLimitPlanSpec
        ⟨[⟨"app", [], none, [⟨1, 18446744074, .seconds⟩]⟩], List.cons_ne_nil _ _⟩ "app" =
      .ok ⟨[⟨"app", "app_0", [], 1, [⟨1, 18446744074⟩]⟩]⟩ ∧
    (∀ use ∈ (oneEvery 18446744074).plan.buckets,
      MadeOf ⟨[⟨"app", "app_0", [], 1, [⟨1, 18446744074⟩]⟩]⟩ use) ∧
    ∃ world, exec (acquireStep (limiterFor .new)) .init [.start 0 (oneEvery 18446744074)] =
        some (world, [.goesOn]) ∧ world.Panics .new (.limiterFor 0 0) := by
  refine ⟨by decide +kernel, ?_, _, rfl, ?_⟩
  · intro use huse
    rw [List.mem_singleton.mp huse]
    exact ⟨_, List.mem_singleton_self _, ⟨.empty, none, .clientBase⟩, _, ⟨"Get", .get⟩, none,
      rfl, rfl⟩
  · refine ⟨oneEvery 18446744074, _, [], ⟨18446744074000000000, 1⟩, rfl, rfl, rfl, ?_⟩
    decide

end Concord
