import Mathlib.Logic.Function.Basic
import Concord.Collect

/-!
# Concord.Progress

Loop detection: when a run gives up for lack of progress, and what it has
sent by then.

Two notions of progress meet here.  The loop records the controller's key
before `apply` (`recordProgressKey`), and the identity of the planned request
after it (`ensureProgress`).  `TurnGoes` and `TurnLeaves` say once what a turn
does to both; `Exchanged` ties the recorded identities to the log; and for
each built-in controller an invariant says what a recorded key stands for.
-/

namespace Concord

open Checked

variable {ε E P R Page Item : Type*}

/-! ## what a turn does -/

/-- The identity of the request of an exchange. -/
def sentIdentity (exchange : RequestPlan × Except ε Page) : PaginationRequestIdentity :=
  paginationRequestIdentity exchange.1

/-- The loop gave up because it saw no progress. -/
def Collected.NoProgress (c : Collected ε Page Item) : Prop :=
  ∃ ctx message, c.result = .error (.own (.pagination ctx ⟨.nonProgress, message⟩))

/-- The request of the next page, as it would be planned after `apply`. -/
def Plans (endpoint : PaginatedEndpoint ε E R Page) (opts : RequestOptions) (ctx : ErrorContext)
    (s : CollectState ε E R Page Item) (runtime : R) (ep : E) (call : RequestPlan) : Prop :=
  endpoint.runtime.apply s.runtime s.ep ⟨ctx.endpoint, s.pageIndex, ctx⟩ = .ok (runtime, ep) ∧
    ∃ plan, endpoint.plan ep = .ok plan ∧ call = opts.applyTo plan s.pageIndex

/-- The request of the next page equals one already sent. -/
def Repeats (endpoint : PaginatedEndpoint ε E R Page) (opts : RequestOptions)
    (ctx : ErrorContext) (s : CollectState ε E R Page Item) : Prop :=
  ∃ runtime ep call, Plans endpoint opts ctx s runtime ep call ∧
    paginationRequestIdentity call ∈ s.log.map sentIdentity

/-- A turn that goes round: the key is recorded, the request of the next page
is new, and the controller advances past the page that answers it. -/
structure TurnGoes (endpoint : PaginatedEndpoint ε E R Page) (opts : RequestOptions)
    (ctx : ErrorContext) (s s' : CollectState ε E R Page Item) (runtime : R) (ep : E)
    (call : RequestPlan) (page : Page) (advance : PageAdvance) : Prop where
  key : recordProgressKey ctx s.seen (endpoint.runtime.progressKey s.runtime) s.pageIndex =
    .ok s'.seen
  plans : Plans endpoint opts ctx s runtime ep call
  fresh : paginationRequestIdentity call ∉ s.seenRequestIdentities
  identities : s'.seenRequestIdentities =
    paginationRequestIdentity call :: s.seenRequestIdentities
  advanced : endpoint.runtime.advance runtime ep ctx page advance =
    .ok (s'.runtime, s'.ep, .continue)
  log : s'.log = s.log ++ [(call, .ok page)]
  index : s'.pageIndex = s.pageIndex + 1

/-- A turn that leaves the loop: it stops at one of the two progress checks,
or on an error of the controller or the endpoint, or it sends a new request
and ends the run otherwise. -/
inductive TurnLeaves (endpoint : PaginatedEndpoint ε E R Page) (opts : RequestOptions)
    (ctx : ErrorContext) (s : CollectState ε E R Page Item) (c : Collected ε Page Item) : Prop
  | keySeen {seen : List ProgressKey} {key : ProgressKey} (hseen : s.seen = some seen)
      (hkey : endpoint.runtime.progressKey s.runtime = some key) (hmem : key ∈ seen)
      (hresult : c.NoProgress) (hlog : c.log = s.log)
  | unplanned (hplans : ∀ runtime ep call, ¬ Plans endpoint opts ctx s runtime ep call)
      (hresult : ¬ c.NoProgress) (hlog : c.log = s.log)
  | repeated {runtime : R} {ep : E} {call : RequestPlan}
      (hplans : Plans endpoint opts ctx s runtime ep call)
      (hmem : paginationRequestIdentity call ∈ s.seenRequestIdentities)
      (hresult : c.NoProgress) (hlog : c.log = s.log)
  | sent {runtime : R} {ep : E} {call : RequestPlan} {answer : Except ε Page}
      (hplans : Plans endpoint opts ctx s runtime ep call)
      (hfresh : paginationRequestIdentity call ∉ s.seenRequestIdentities)
      (hresult : ¬ c.NoProgress) (hlog : c.log = s.log ++ [(call, answer)])

/-- The outcomes of the part of a turn before the request. -/
inductive CallSpec (endpoint : PaginatedEndpoint ε E R Page) (opts : RequestOptions)
    (ctx : ErrorContext) (s : CollectState ε E R Page Item) :
    Except (CollectError ε) (CollectState ε E R Page Item × PageCall) → Prop
  | keySeen {seen : List ProgressKey} {key : ProgressKey} {message : String}
      (hseen : s.seen = some seen)
      (hkey : endpoint.runtime.progressKey s.runtime = some key) (hmem : key ∈ seen) :
      CallSpec endpoint opts ctx s (.error (.own (.pagination ctx ⟨.nonProgress, message⟩)))
  | unplanned {error : ε}
      (hplans : ∀ runtime ep call, ¬ Plans endpoint opts ctx s runtime ep call) :
      CallSpec endpoint opts ctx s (.error (.passed error))
  | repeated {runtime : R} {ep : E} {call : RequestPlan} {message : String}
      (hplans : Plans endpoint opts ctx s runtime ep call)
      (hmem : paginationRequestIdentity call ∈ s.seenRequestIdentities) :
      CallSpec endpoint opts ctx s (.error (.own (.pagination ctx ⟨.nonProgress, message⟩)))
  | sent {seen : Option (List ProgressKey)} {runtime : R} {ep : E} {call : RequestPlan}
      {expected : Option NonZeroUsize}
      (hkey : recordProgressKey ctx s.seen (endpoint.runtime.progressKey s.runtime)
        s.pageIndex = .ok seen)
      (hplans : Plans endpoint opts ctx s runtime ep call)
      (hfresh : paginationRequestIdentity call ∉ s.seenRequestIdentities) :
      CallSpec endpoint opts ctx s (.ok ({ s with
        ep := ep
        runtime := runtime
        seen := seen
        seenRequestIdentities :=
          paginationRequestIdentity call :: s.seenRequestIdentities }, ⟨call, expected⟩))

/-- A progress key is refused only if it was seen. -/
theorem recordProgressKey_error {ctx : ErrorContext} {seen : Option (List ProgressKey)}
    {key : Option ProgressKey} {pageIndex : Nat} {error : ApiClientError}
    (h : recordProgressKey ctx seen key pageIndex = .error error) :
    ∃ keys k message, seen = some keys ∧ key = some k ∧ k ∈ keys ∧
      error = .pagination ctx ⟨.nonProgress, message⟩ := by
  unfold recordProgressKey at h
  split at h
  · next keys k =>
      split at h
      · next hmem => exact ⟨keys, k, _, rfl, rfl, hmem, (Except.error.inj h).symm⟩
      · contradiction
  · contradiction

/-- The ways the preparation of a call goes. -/
theorem nextCall_spec (endpoint : PaginatedEndpoint ε E R Page) (opts : RequestOptions)
    (ctx : ErrorContext) (s : CollectState ε E R Page Item) :
    CallSpec endpoint opts ctx s (nextCall endpoint opts ctx s) := by
  unfold nextCall
  cases hkey : recordProgressKey ctx s.seen (endpoint.runtime.progressKey s.runtime)
      s.pageIndex with
  | error error =>
      obtain ⟨keys, k, message, hseen, hk, hmem, rfl⟩ := recordProgressKey_error hkey
      exact .keySeen hseen hk hmem
  | ok seen =>
      simp only
      cases happly : endpoint.runtime.apply s.runtime s.ep ⟨ctx.endpoint, s.pageIndex, ctx⟩ with
      | error error =>
          refine .unplanned (fun runtime ep call hplans => ?_)
          rw [hplans.1] at happly
          contradiction
      | ok applied =>
          obtain ⟨runtime, ep⟩ := applied
          simp only
          cases hplan : endpoint.plan ep with
          | error error =>
              refine .unplanned (fun runtime' ep' call hplans => ?_)
              obtain ⟨happly', plan, hplan', _⟩ := hplans
              rw [happly, Except.ok.injEq, Prod.mk.injEq] at happly'
              rw [← happly'.2, hplan] at hplan'
              contradiction
          | ok plan =>
              have hplans : Plans endpoint opts ctx s runtime ep
                  (opts.applyTo plan s.pageIndex) := ⟨happly, plan, hplan, rfl⟩
              simp only [ensureProgress]
              by_cases hmem : paginationRequestIdentity (opts.applyTo plan s.pageIndex) ∈
                  s.seenRequestIdentities
              · simp only [if_pos hmem]
                exact .repeated hplans hmem
              · simp only [if_neg hmem]
                exact .sent hkey hplans hmem

/-- A success is no loop. -/
theorem not_noProgress_ok {items : List Item} {log : List (RequestPlan × Except ε Page)} :
    ¬ (⟨.ok items, log⟩ : Collected ε Page Item).NoProgress := by
  rintro ⟨ctx, message, h⟩
  contradiction

/-- An error that is passed on is no loop. -/
theorem not_noProgress_passed {error : ε} {log : List (RequestPlan × Except ε Page)} :
    ¬ (⟨.error (.passed error), log⟩ : Collected ε Page Item).NoProgress := by
  rintro ⟨ctx, message, h⟩
  simp at h

/-- Nor is an error of `collect` of another kind. -/
theorem not_noProgress_own {error : ApiClientError}
    {log : List (RequestPlan × Except ε Page)}
    (h : ∀ ctx message, error ≠ .pagination ctx ⟨.nonProgress, message⟩) :
    ¬ (⟨.error (.own error), log⟩ : Collected ε Page Item).NoProgress := by
  rintro ⟨ctx, message, heq⟩
  rw [Except.error.injEq, CollectError.own.injEq] at heq
  exact h ctx message heq

/-- Nor is a setting that is refused. -/
theorem not_noProgress_of_validate {termination : PaginationTermination} {ctx : ErrorContext}
    {error : ApiClientError} {log : List (RequestPlan × Except ε Page)}
    (h : validateCollectTermination termination ctx = .error error) :
    ¬ (⟨.error (.own error), log⟩ : Collected ε Page Item).NoProgress := by
  refine not_noProgress_own (fun ctx' message heq => ?_)
  subst heq
  unfold validateCollectTermination at h
  split at h <;> simp at h

section turn

variable [PageItems Page Item]

/-- A page never ends the run for lack of progress. -/
theorem not_noProgress_of_pageSpec {endpoint : PaginatedEndpoint ε E R Page}
    {termination : PaginationTermination} {ctx : ErrorContext}
    {s : CollectState ε E R Page Item} {expected : Option NonZeroUsize} {page : Page}
    {error : CollectError ε} {log : List (RequestPlan × Except ε Page)}
    (h : PageSpec endpoint termination ctx s expected page (.error error)) :
    ¬ (⟨.error error, log⟩ : Collected ε Page Item).NoProgress := by
  rintro ⟨ctx', message, heq⟩
  cases h <;> simp [itemsOverflow, hardItemCapError, hardPageCapError] at heq

/-- The page index goes up by one, and only where the controller continues. -/
theorem nextPageIndex_some {termination : PaginationTermination} {ctx : ErrorContext}
    {itemsCount pageIndex next : Nat} {control : Control}
    (h : nextPageIndex termination ctx itemsCount pageIndex control = .ok (some next)) :
    control = .continue ∧ next = pageIndex + 1 := by
  -- A setting without a page limit is the part all settings share.
  have hnext : ∀ {next}, nextPageIndex (.hardItemCap 0) ctx itemsCount pageIndex .continue =
      .ok (some next) → next = pageIndex + 1 := by
    intro next h
    simp only [nextPageIndex] at h
    cases hadd : checkedAdd u32Max pageIndex 1 with
    | none => simp [hadd] at h
    | some index =>
        simp only [hadd, Except.ok.injEq, Option.some.injEq] at h
        rw [← h, (checkedAdd_eq_some_iff.mp hadd).2]
  cases control with
  | stop => simp [nextPageIndex] at h
  | «continue» =>
      refine ⟨rfl, ?_⟩
      cases termination with
      | hardItemCap n => exact hnext h
      | takeItems n => exact hnext h
      | hardPageCap n =>
          simp only [nextPageIndex] at h
          split at h
          · contradiction
          · exact hnext h
      | takePages n =>
          simp only [nextPageIndex] at h
          split at h
          · simp at h
          · exact hnext h

/-- A controller that continues has been asked to advance. -/
theorem advanceControl_continue {endpoint : PaginatedEndpoint ε E R Page} {ctx : ErrorContext}
    {s : CollectState ε E R Page Item} {page : Page} {preAdvance : PreAdvanceDecision}
    {runtime : R} {ep : E}
    (h : advanceControl endpoint ctx s page (PageItems.itemCount page) preAdvance =
      .ok (runtime, ep, .continue)) :
    advancePage endpoint ctx s page = .ok (runtime, ep, .continue) := by
  unfold advanceControl at h
  split at h
  · simp at h
  · unfold advancePage
    cases hadv : endpoint.runtime.advance s.runtime s.ep ctx page
        ⟨ctx.endpoint, s.pageIndex, PageItems.itemCount page⟩ with
    | error error => simp [hadv] at h
    | ok advanced =>
        obtain ⟨runtime', ep', decision⟩ := advanced
        simp only [hadv, Except.ok.injEq, Prod.mk.injEq] at h
        obtain ⟨rfl, rfl, hdecision⟩ := h
        cases decision with
        | stop => contradiction
        | «continue» => rfl

/-- A page after which the loop goes round: the controller advanced past it. -/
theorem handlePage_continued {endpoint : PaginatedEndpoint ε E R Page}
    {termination : PaginationTermination} {ctx : ErrorContext}
    {s s' : CollectState ε E R Page Item} {expected : Option NonZeroUsize} {page : Page}
    (h : handlePage endpoint termination ctx s expected page = .ok (.inl s')) :
    advancePage endpoint ctx s page = .ok (s'.runtime, s'.ep, .continue) ∧
      s'.seen = s.seen ∧ s'.seenRequestIdentities = s.seenRequestIdentities ∧
      s'.pageIndex = s.pageIndex + 1 := by
  unfold handlePage at h
  simp only at h
  split at h
  · contradiction
  · split at h
    · contradiction
    · split at h
      · contradiction
      · next runtime ep control hcontrol =>
          split at h
          · simp at h
          · split at h
            · contradiction
            · simp at h
            · split at h
              · simp at h
              · split at h
                · contradiction
                · simp at h
                · next hindex =>
                    obtain ⟨rfl, rfl⟩ := nextPageIndex_some hindex
                    rw [Except.ok.injEq, Sum.inl.injEq] at h
                    subst h
                    exact ⟨advanceControl_continue hcontrol, rfl, rfl, rfl⟩

variable {endpoint : PaginatedEndpoint ε E R Page} {opts : RequestOptions}
  {termination : PaginationTermination} {ctx : ErrorContext} {answers : Nat → Except ε Page}
  {s s' : CollectState ε E R Page Item}

/-- A turn that goes round has sent a request and advanced past its page. -/
theorem turnGoes_of_collectTurn
    (h : collectTurn endpoint opts termination ctx answers s = .inl s') :
    ∃ runtime ep call page advance,
      TurnGoes endpoint opts ctx s s' runtime ep call page advance := by
  unfold collectTurn at h
  have hspec := nextCall_spec endpoint opts ctx s
  cases hn : nextCall endpoint opts ctx s with
  | error error => simp [hn] at h
  | ok prepared =>
      rw [hn] at hspec
      cases hspec with
      | @sent seen runtime ep call expected hkey hplans hfresh =>
          simp only [hn] at h
          cases ha : answers s.pageIndex with
          | error error => simp [ha] at h
          | ok page =>
              simp only [ha] at h
              split at h
              · contradiction
              · contradiction
              · next s'' hp =>
                  obtain ⟨hadv, hseen, hids, hindex⟩ := handlePage_continued hp
                  rw [Sum.inl.injEq] at h
                  subst h
                  exact ⟨runtime, ep, call, page, _, by rw [hkey, hseen], hplans, hfresh, hids,
                    hadv, rfl, hindex⟩

/-- A turn that leaves has sent nothing, or one request. -/
theorem turnLeaves_of_collectTurn {c : Collected ε Page Item}
    (h : collectTurn endpoint opts termination ctx answers s = .inr c) :
    TurnLeaves endpoint opts ctx s c := by
  unfold collectTurn at h
  have hspec := nextCall_spec endpoint opts ctx s
  cases hn : nextCall endpoint opts ctx s with
  | error error =>
      rw [hn] at hspec
      simp only [hn, Sum.inr.injEq] at h
      subst h
      cases hspec with
      | keySeen hseen hkey hmem => exact .keySeen hseen hkey hmem ⟨_, _, rfl⟩ rfl
      | unplanned hplans => exact .unplanned hplans not_noProgress_passed rfl
      | repeated hplans hmem => exact .repeated hplans hmem ⟨_, _, rfl⟩ rfl
  | ok prepared =>
      rw [hn] at hspec
      cases hspec with
      | @sent seen runtime ep call expected hkey hplans hfresh =>
          simp only [hn] at h
          cases ha : answers s.pageIndex with
          | error error =>
              simp only [ha, Sum.inr.injEq] at h
              subst h
              exact .sent hplans hfresh not_noProgress_passed rfl
          | ok page =>
              simp only [ha] at h
              split at h
              · next error hp =>
                  rw [Sum.inr.injEq] at h
                  subst h
                  have hpage := handlePage_spec endpoint termination ctx
                    { s with
                      ep := ep
                      runtime := runtime
                      seen := seen
                      seenRequestIdentities :=
                        paginationRequestIdentity call :: s.seenRequestIdentities }
                    expected page
                  rw [hp] at hpage
                  exact .sent hplans hfresh (not_noProgress_of_pageSpec hpage) rfl
              · rw [Sum.inr.injEq] at h
                subst h
                exact .sent hplans hfresh not_noProgress_ok rfl
              · contradiction

/-! ## identities -/

omit [PageItems Page Item] in
/-- The identities the loop has recorded are those of the requests it has
sent. -/
structure Exchanged (s : CollectState ε E R Page Item) : Prop where
  identities : s.seenRequestIdentities = (s.log.map sentIdentity).reverse
  nodup : (s.log.map sentIdentity).Nodup

omit [PageItems Page Item] in
/-- At the start nothing has been exchanged. -/
theorem exchanged_start (caps : PaginationCaps) (ep : E) (runtime : R) :
    Exchanged (CollectState.start caps ep runtime : CollectState ε E R Page Item) :=
  ⟨rfl, List.nodup_nil⟩

omit [PageItems Page Item] in
/-- The identities that were seen are those that were sent. -/
theorem Exchanged.mem_iff (he : Exchanged s) {identity : PaginationRequestIdentity} :
    identity ∈ s.seenRequestIdentities ↔ identity ∈ s.log.map sentIdentity := by
  rw [he.identities, List.mem_reverse]

omit [PageItems Page Item] in
/-- A fresh identity is sent once. -/
theorem Exchanged.nodup_concat (he : Exchanged s) {call : RequestPlan}
    {answer : Except ε Page} (hfresh : paginationRequestIdentity call ∉ s.seenRequestIdentities) :
    ((s.log ++ [(call, answer)]).map sentIdentity).Nodup := by
  rw [he.mem_iff] at hfresh
  rw [List.map_append, List.map_singleton, List.nodup_append]
  refine ⟨he.nodup, by simp, ?_⟩
  intro identity hmem identity' hmem' heq
  rw [List.mem_singleton] at hmem'
  rw [heq, hmem'] at hmem
  exact hfresh hmem

/-- A turn that goes round keeps the identities of the requests distinct. -/
theorem Exchanged.turn (he : Exchanged s)
    (h : collectTurn endpoint opts termination ctx answers s = .inl s') : Exchanged s' := by
  obtain ⟨runtime, ep, call, page, advance, hgoes⟩ := turnGoes_of_collectTurn h
  refine ⟨?_, ?_⟩
  · rw [hgoes.identities, hgoes.log, List.map_append, List.reverse_append, he.identities]
    rfl
  · rw [hgoes.log]
    exact he.nodup_concat hgoes.fresh

/-- No identity is executed twice. -/
theorem Exchanged.nodup_of_leave (he : Exchanged s) {c : Collected ε Page Item}
    (h : collectTurn endpoint opts termination ctx answers s = .inr c) :
    (c.log.map sentIdentity).Nodup := by
  cases turnLeaves_of_collectTurn h with
  | keySeen hseen hkey hmem hresult hlog => rw [hlog]; exact he.nodup
  | unplanned hplans hresult hlog => rw [hlog]; exact he.nodup
  | repeated hplans hmem hresult hlog => rw [hlog]; exact he.nodup
  | sent hplans hfresh hresult hlog =>
      rw [hlog]
      exact he.nodup_concat hfresh

omit [PageItems Page Item] in
/-- A state plans one request. -/
theorem plans_unique {runtime runtime' : R} {ep ep' : E} {call call' : RequestPlan}
    (h : Plans endpoint opts ctx s runtime ep call)
    (h' : Plans endpoint opts ctx s runtime' ep' call') : call = call' := by
  obtain ⟨happly, plan, hplan, rfl⟩ := h
  obtain ⟨happly', plan', hplan', rfl⟩ := h'
  rw [happly, Except.ok.injEq, Prod.mk.injEq] at happly'
  rw [← happly'.2, hplan, Except.ok.injEq] at hplan'
  rw [hplan']

/-- A request that would repeat is never sent: the run gives up. -/
theorem Exchanged.noProgress_of_repeats (he : Exchanged s)
    (termination : PaginationTermination) (answers : Nat → Except ε Page)
    (hr : Repeats endpoint opts ctx s) :
    ∃ c, collectTurn endpoint opts termination ctx answers s = .inr c ∧ c.NoProgress := by
  obtain ⟨runtime, ep, call, hplans, hmem⟩ := hr
  rw [← he.mem_iff] at hmem
  cases ht : collectTurn endpoint opts termination ctx answers s with
  | inl s' =>
      obtain ⟨_, _, call', _, _, hgoes⟩ := turnGoes_of_collectTurn ht
      rw [plans_unique hplans hgoes.plans] at hmem
      exact absurd hmem hgoes.fresh
  | inr c =>
      refine ⟨c, rfl, ?_⟩
      cases turnLeaves_of_collectTurn ht with
      | keySeen hseen hkey hmem' hresult hlog => exact hresult
      | unplanned hplans' hresult hlog => exact absurd hplans (hplans' _ _ _)
      | repeated hplans' hmem' hresult hlog => exact hresult
      | sent hplans' hfresh hresult hlog =>
          rw [plans_unique hplans hplans'] at hmem
          exact absurd hmem hfresh

/-- A run that gives up was at a recorded key or at a repeated request. -/
theorem Exchanged.repeats_of_noProgress (he : Exchanged s) {c : Collected ε Page Item}
    (h : collectTurn endpoint opts termination ctx answers s = .inr c) (hc : c.NoProgress) :
    (∃ seen key, s.seen = some seen ∧ endpoint.runtime.progressKey s.runtime = some key ∧
      key ∈ seen) ∨ Repeats endpoint opts ctx s := by
  cases turnLeaves_of_collectTurn h with
  | keySeen hseen hkey hmem hresult hlog => exact .inl ⟨_, _, hseen, hkey, hmem⟩
  | unplanned hplans hresult hlog => exact absurd hc hresult
  | repeated hplans hmem hresult hlog => exact .inr ⟨_, _, _, hplans, he.mem_iff.mp hmem⟩
  | sent hplans hfresh hresult hlog => exact absurd hc hresult

/-! ## runs -/

/-- The controller's key has been recorded before. -/
def KeySeen (endpoint : PaginatedEndpoint ε E R Page) (s : CollectState ε E R Page Item) : Prop :=
  ∃ seen key, s.seen = some seen ∧ endpoint.runtime.progressKey s.runtime = some key ∧
    key ∈ seen

/-- The run of `collect` comes to the head of its loop at `s`. -/
def Heads (endpoint : PaginatedEndpoint ε E R Page) (opts : RequestOptions)
    (caps : PaginationCaps) (answers : Nat → Except ε Page) (ep : E) (ctx : ErrorContext)
    (s : CollectState ε E R Page Item) : Prop :=
  ∃ plan runtime runtime', endpoint.plan ep = .ok plan ∧ ctx = plan.errorContext ∧
    validateCollectTermination caps.termination ctx = .ok () ∧
    ¬ (caps.termination = .takePages 0 ∨ caps.termination = .takeItems 0) ∧
    endpoint.paginationRuntime ep = some runtime ∧
    endpoint.runtime.init runtime ep ⟨ctx.endpoint, 0, ctx⟩ = .ok runtime' ∧
    Loop.Reaches (collectTurn endpoint opts caps.termination ctx answers)
      (CollectState.start caps ep runtime') s

/-- The run gives up for lack of progress exactly when the request of some
next page would repeat one already sent. -/
def DetectsExactly (endpoint : PaginatedEndpoint ε E R Page) (opts : RequestOptions)
    (caps : PaginationCaps) (answers : Nat → Except ε Page) (ep : E)
    (c : Collected ε Page Item) : Prop :=
  c.NoProgress ↔ ∃ ctx, ∃ s : CollectState ε E R Page Item,
    Heads endpoint opts caps answers ep ctx s ∧ Repeats endpoint opts ctx s

/-- A turn whose progress key was seen ends the run with a loop. -/
theorem noProgress_of_keySeen (opts : RequestOptions) (termination : PaginationTermination)
    (ctx : ErrorContext) (answers : Nat → Except ε Page) (hk : KeySeen endpoint s) :
    ∃ c, collectTurn endpoint opts termination ctx answers s = .inr c ∧ c.NoProgress := by
  obtain ⟨seen, key, hseen, hkey, hmem⟩ := hk
  have hrecord : ∃ message, recordProgressKey ctx s.seen
      (endpoint.runtime.progressKey s.runtime) s.pageIndex =
        .error (.pagination ctx ⟨.nonProgress, message⟩) := by
    simp only [recordProgressKey, hseen, hkey, if_pos hmem]
    exact ⟨_, rfl⟩
  obtain ⟨message, hrecord⟩ := hrecord
  refine ⟨⟨.error (.own (.pagination ctx ⟨.nonProgress, message⟩)), s.log⟩, ?_, ctx, message, rfl⟩
  simp only [collectTurn, nextCall, hrecord]

/-- The heads of the loop are the states it reaches after it was entered. -/
theorem heads_iff {endpoint : PaginatedEndpoint ε E R Page} {opts : RequestOptions}
    {caps : PaginationCaps} {answers : Nat → Except ε Page} {ep : E} {ctx : ErrorContext}
    {s : CollectState ε E R Page Item} :
    Heads endpoint opts caps answers ep ctx s ↔
      ∃ runtime, EntersLoop endpoint caps ep ctx runtime ∧
        Loop.Reaches (collectTurn endpoint opts caps.termination ctx answers)
          (CollectState.start caps ep runtime) s := by
  constructor
  · intro h
    obtain ⟨plan, initial, runtime, hplan, hctx, hvalid, hwanted, hinitial, hinit, hreach⟩ := h
    exact ⟨runtime, ⟨⟨plan, hplan, hctx⟩, hvalid, hwanted, initial, hinitial, hinit⟩, hreach⟩
  · intro h
    obtain ⟨runtime, ⟨⟨plan, hplan, hctx⟩, hvalid, hwanted, initial, hinitial, hinit⟩, hreach⟩ := h
    exact ⟨plan, initial, runtime, hplan, hctx, hvalid, hwanted, hinitial, hinit, hreach⟩

/-- A run enters the loop in one state. -/
theorem EntersLoop.unique {endpoint : PaginatedEndpoint ε E R Page} {caps : PaginationCaps}
    {ep : E} {ctx ctx' : ErrorContext} {runtime runtime' : R}
    (h : EntersLoop endpoint caps ep ctx runtime)
    (h' : EntersLoop endpoint caps ep ctx' runtime') : ctx' = ctx ∧ runtime' = runtime := by
  obtain ⟨⟨plan, hplan, rfl⟩, _, _, initial, hinitial, hinit⟩ := h
  obtain ⟨⟨plan', hplan', rfl⟩, _, _, initial', hinitial', hinit'⟩ := h'
  rw [hplan, Except.ok.injEq] at hplan'
  rw [hinitial, Option.some.injEq] at hinitial'
  rw [← hplan', ← hinitial', hinit, Except.ok.injEq] at hinit'
  exact ⟨by rw [hplan'], hinit'.symm⟩

/-- A run that does not come to its loop sends nothing. -/
theorem collect_of_not_entersLoop {endpoint : PaginatedEndpoint ε E R Page}
    {caps : PaginationCaps} {ep : E}
    (h : ∀ ctx runtime, ¬ EntersLoop endpoint caps ep ctx runtime) (opts : RequestOptions)
    (answers : Nat → Except ε Page) :
    ∃ c : Collected ε Page Item, collect endpoint opts caps answers ep = some c ∧
      c.log = [] ∧ ¬ c.NoProgress := by
  unfold collect
  cases hplan : endpoint.plan ep with
  | error error => exact ⟨_, rfl, rfl, not_noProgress_passed⟩
  | ok plan =>
      simp only
      cases hvalid : validateCollectTermination caps.termination plan.errorContext with
      | error error => exact ⟨_, rfl, rfl, not_noProgress_of_validate hvalid⟩
      | ok _ =>
          simp only
          by_cases hz : caps.termination = .takePages 0 ∨ caps.termination = .takeItems 0
          · rw [if_pos hz]
            exact ⟨_, rfl, rfl, not_noProgress_ok⟩
          · rw [if_neg hz]
            cases hinitial : endpoint.paginationRuntime ep with
            | none =>
                simp only
                split
                · exact ⟨_, rfl, rfl, not_noProgress_own (by simp)⟩
                · exact ⟨_, rfl, rfl, not_noProgress_own (by simp)⟩
            | some initial =>
                simp only [collectWithPaginationRuntime]
                cases hinit : endpoint.runtime.init initial ep
                    ⟨plan.errorContext.endpoint, 0, plan.errorContext⟩ with
                | error error => exact ⟨_, rfl, rfl, not_noProgress_passed⟩
                | ok runtime =>
                    exact absurd ⟨⟨plan, hplan, rfl⟩, hvalid, hz, initial, hinitial, hinit⟩ (h _ _)

/-- A run enters the loop, and its states there are the heads of the run, or
it sends nothing and has no heads. -/
theorem collect_cases (endpoint : PaginatedEndpoint ε E R Page) (opts : RequestOptions)
    (caps : PaginationCaps) (answers : Nat → Except ε Page) (ep : E) :
    (∃ c : Collected ε Page Item, collect endpoint opts caps answers ep = some c ∧
      c.log = [] ∧ ¬ c.NoProgress ∧
      ∀ ctx, ∀ s : CollectState ε E R Page Item,
        ¬ Heads endpoint opts caps answers ep ctx s) ∨
    (∃ ctx runtime, ∃ c : Collected ε Page Item,
      collect endpoint opts caps answers ep = some c ∧
      Loop.run (collectTurn endpoint opts caps.termination ctx answers) maxTurns
        (CollectState.start caps ep runtime) = some c ∧
      ∀ ctx', ∀ s : CollectState ε E R Page Item,
        Heads endpoint opts caps answers ep ctx' s ↔ ctx' = ctx ∧
          Loop.Reaches (collectTurn endpoint opts caps.termination ctx answers)
            (CollectState.start caps ep runtime) s) := by
  by_cases hloop : ∃ ctx runtime, EntersLoop endpoint caps ep ctx runtime
  · obtain ⟨ctx, runtime, henters⟩ := hloop
    obtain ⟨c, hrun, _⟩ : ∃ c : Collected ε Page Item,
        Loop.run (collectTurn endpoint opts caps.termination ctx answers) maxTurns
          (CollectState.start caps ep runtime) = some c ∧ Exact caps.termination c :=
      run_exact endpoint opts ctx answers (runs_of_validate henters.valid henters.wanted) caps ep
        runtime
    refine .inr ⟨ctx, runtime, c, by rw [henters.collect_eq, hrun], hrun, ?_⟩
    intro ctx' s
    rw [heads_iff]
    constructor
    · intro h
      obtain ⟨runtime', henters', hreach⟩ := h
      obtain ⟨rfl, rfl⟩ := henters.unique henters'
      exact ⟨rfl, hreach⟩
    · intro h
      obtain ⟨rfl, hreach⟩ := h
      exact ⟨runtime, henters, hreach⟩
  · have hnever : ∀ ctx runtime, ¬ EntersLoop endpoint caps ep ctx runtime :=
      fun ctx runtime henters => hloop ⟨ctx, runtime, henters⟩
    obtain ⟨c, hcollect, hlog, hprogress⟩ : ∃ c : Collected ε Page Item,
        collect endpoint opts caps answers ep = some c ∧ c.log = [] ∧ ¬ c.NoProgress :=
      collect_of_not_entersLoop hnever opts answers
    refine .inl ⟨c, hcollect, hlog, hprogress, ?_⟩
    intro ctx s hhead
    obtain ⟨runtime, henters, _⟩ := heads_iff.mp hhead
    exact hnever ctx runtime henters

/-- **Detection is exact unless a recorded key was never sent**: a run ends,
executes no identity twice, and gives up exactly when a request would repeat,
if and only if wherever it comes back to a recorded key the request would
repeat. -/
theorem detectsExactly_iff (endpoint : PaginatedEndpoint ε E R Page) (opts : RequestOptions)
    (caps : PaginationCaps) (answers : Nat → Except ε Page) (ep : E) :
    ∃ c : Collected ε Page Item, collect endpoint opts caps answers ep = some c ∧
      (c.log.map sentIdentity).Nodup ∧
      (DetectsExactly endpoint opts caps answers ep c ↔
        ∀ ctx, ∀ s : CollectState ε E R Page Item, Heads endpoint opts caps answers ep ctx s →
          KeySeen endpoint s → Repeats endpoint opts ctx s) := by
  obtain ⟨c, hcollect, hlog, hresult, hnone⟩ | ⟨ctx, runtime, c, hcollect, hrun, hheads⟩ :=
    collect_cases endpoint opts caps answers ep
  · refine ⟨c, hcollect, by rw [hlog]; exact List.nodup_nil, iff_of_true ?_ ?_⟩
    · refine iff_of_false hresult (fun h => ?_)
      obtain ⟨ctx, s, hs, _⟩ := h
      exact hnone ctx s hs
    · intro ctx s hs
      exact absurd hs (hnone ctx s)
  · have hexchanged : ∀ {s : CollectState ε E R Page Item},
        Loop.Reaches (collectTurn endpoint opts caps.termination ctx answers)
          (CollectState.start caps ep runtime) s → Exchanged s :=
      fun hreach => hreach.invariant (fun he ht => he.turn ht) (exchanged_start caps ep runtime)
    obtain ⟨last, hlast, hleave⟩ := Loop.reaches_of_run hrun
    refine ⟨c, hcollect, (hexchanged hlast).nodup_of_leave hleave, ?_, ?_⟩
    · -- A run leaves its loop at one state, so the repeat is where the key was.
      intro hexact ctx' s hs hk
      obtain ⟨rfl, hreach⟩ := (hheads ctx' s).mp hs
      obtain ⟨c', hturn, hc'⟩ :=
        noProgress_of_keySeen opts caps.termination ctx' answers hk
      obtain rfl := Loop.run_eq_of_reaches hreach hrun hturn
      obtain ⟨ctx'', s', hs', hrepeats⟩ := hexact.mp hc'
      obtain ⟨rfl, hreach'⟩ := (hheads ctx'' s').mp hs'
      obtain ⟨c'', hturn', _⟩ := (hexchanged hreach').noProgress_of_repeats
        caps.termination answers hrepeats
      rw [hreach.eq_of_leaves hreach' hturn hturn']
      exact hrepeats
    · intro hkeys
      constructor
      · intro hc
        have hs := (hheads ctx last).mpr ⟨rfl, hlast⟩
        cases (hexchanged hlast).repeats_of_noProgress hleave hc with
        | inl hk => exact ⟨ctx, last, hs, hkeys ctx last hs hk⟩
        | inr hrepeats => exact ⟨ctx, last, hs, hrepeats⟩
      · intro h
        obtain ⟨ctx', s, hs, hrepeats⟩ := h
        obtain ⟨rfl, hreach⟩ := (hheads ctx' s).mp hs
        obtain ⟨c', hturn, hc'⟩ := (hexchanged hreach).noProgress_of_repeats
          caps.termination answers hrepeats
        rw [Loop.run_eq_of_reaches hreach hrun hturn]
        exact hc'

end turn

/-! ## endpoints with a binding -/

/-- Storing a controller state overwrites what was stored before. -/
class LawfulPaginateBinding (E P : Type*) [PaginateBinding E P] : Prop where
  store_store : ∀ (endpoint : E) (p q : P),
    PaginateBinding.storePagination (PaginateBinding.storePagination endpoint p) q =
      PaginateBinding.storePagination endpoint q

/-- An endpoint whose pages a controller `P` drives through its binding. -/
def PaginatedEndpoint.bound (P : Type*) [PaginateBinding E P] [EndpointPagination P Page]
    (plan : E → Except ApiClientError RequestPlan) :
    PaginatedEndpoint ApiClientError E (Option P) Page where
  plan := plan
  paginationRuntime _ := some none
  runtime := paginationRuntimeAdapter E P Page

section bound

variable [PaginateBinding E P] [EndpointPagination P Page]
  {plan : E → Except ApiClientError RequestPlan} {opts : RequestOptions}
  {termination : PaginationTermination} {ctx : ErrorContext}
  {answers : Nat → Except ApiClientError Page}
  {s s' : CollectState ApiClientError E (Option P) Page Item}

/-- The endpoint at the head of the loop: its controller is loaded, and
nothing but the controller's own state has changed since the run began. -/
structure PageBound (first : E) (s : CollectState ApiClientError E (Option P) Page Item)
    (p : P) : Prop where
  runtime : s.runtime = some p
  stored : ∀ q : P, PaginateBinding.storePagination s.ep q =
    PaginateBinding.storePagination first q

/-- A planned request is that of the applied controller state, stored in the
endpoint the run began with. -/
theorem PageBound.plans_iff {first : E} {p : P} (hb : PageBound first s p) {runtime : Option P} {ep : E}
    {call : RequestPlan} :
    Plans (.bound P plan) opts ctx s runtime ep call ↔
      ∃ q request, EndpointPagination.apply Page p ⟨ctx.endpoint, s.pageIndex, ctx⟩ = .ok q ∧
        plan (PaginateBinding.storePagination first q) = .ok request ∧ runtime = some q ∧
        ep = PaginateBinding.storePagination first q ∧
        call = opts.applyTo request s.pageIndex := by
  unfold Plans
  simp only [PaginatedEndpoint.bound, paginationRuntimeAdapter, hb.runtime]
  cases happly : EndpointPagination.apply Page p ⟨ctx.endpoint, s.pageIndex, ctx⟩ with
  | error error => simp
  | ok q =>
      simp only [hb.stored, Except.ok.injEq, Prod.mk.injEq]
      constructor
      · intro h
        obtain ⟨⟨rfl, rfl⟩, request, hplan, rfl⟩ := h
        exact ⟨q, request, rfl, hplan, rfl, rfl, rfl⟩
      · intro h
        obtain ⟨q', request, rfl, hplan, rfl, rfl, rfl⟩ := h
        exact ⟨⟨rfl, rfl⟩, request, hplan, rfl⟩

/-- What a turn that goes round does to the controller. -/
theorem PageBound.turn [LawfulPaginateBinding E P] {first : E} {p : P} (hb : PageBound first s p)
    {runtime : Option P} {ep : E} {call : RequestPlan} {page : Page} {advance : PageAdvance}
    (hgoes : TurnGoes (.bound P plan) opts ctx s s' runtime ep call page advance) :
    ∃ q p' request, EndpointPagination.apply Page p ⟨ctx.endpoint, s.pageIndex, ctx⟩ = .ok q ∧
      plan (PaginateBinding.storePagination first q) = .ok request ∧
      paginationRequestIdentity call = paginationRequestIdentity request ∧
      EndpointPagination.advance q page advance = .ok (p', .continue) ∧
      PageBound first s' p' := by
  obtain ⟨q, request, happly, hplan, rfl, rfl, rfl⟩ := hb.plans_iff.mp hgoes.plans
  have hadv := hgoes.advanced
  simp only [PaginatedEndpoint.bound, paginationRuntimeAdapter] at hadv
  cases ha : EndpointPagination.advance q page advance with
  | error error => simp [ha] at hadv
  | ok advanced =>
      obtain ⟨p', decision⟩ := advanced
      simp only [ha, Except.ok.injEq, Prod.mk.injEq] at hadv
      obtain ⟨hruntime, hep, hdecision⟩ := hadv
      refine ⟨q, p', request, happly, hplan, rfl, by rw [ha, hdecision], hruntime.symm, ?_⟩
      intro r
      rw [← hep, LawfulPaginateBinding.store_store, LawfulPaginateBinding.store_store]

/-- The heads of a bound controller are reached from what it loads. -/
theorem reaches_of_heads [PageItems Page Item] {caps : PaginationCaps} {ep : E}
    (h : Heads (.bound P plan) opts caps answers ep ctx s) :
    Loop.Reaches (collectTurn (.bound P plan) opts caps.termination ctx answers)
      (CollectState.start caps ep (some (PaginateBinding.loadPagination ep))) s := by
  obtain ⟨_, runtime, runtime', _, _, _, _, hruntime, hinit, hreach⟩ := h
  simp only [PaginatedEndpoint.bound, Option.some.injEq] at hruntime
  subst hruntime
  simp only [PaginatedEndpoint.bound, paginationRuntimeAdapter, Except.ok.injEq] at hinit
  rw [← hinit] at hreach
  exact hreach

/-- Wherever the loop comes to its head, the endpoint has changed by the
state of its controller only. -/
theorem pageBound_of_heads [PageItems Page Item] [LawfulPaginateBinding E P]
    {caps : PaginationCaps} {first : E}
    (h : Heads (.bound P plan) opts caps answers first ctx s) : ∃ p : P, PageBound first s p := by
  refine (reaches_of_heads h).invariant (I := fun s => ∃ p : P, PageBound first s p) ?_
    ⟨_, rfl, fun _ => rfl⟩
  intro s s' hs ht
  obtain ⟨p, hb⟩ := hs
  obtain ⟨runtime, ep, call, page, advance, hgoes⟩ := turnGoes_of_collectTurn ht
  obtain ⟨_, p', _, _, _, _, _, hb'⟩ := hb.turn hgoes
  exact ⟨p', hb'⟩

/-- The endpoint of a page holds the state that its controller has then. -/
theorem PageBound.page_of_nextCall {first : E} {p : P} (hb : PageBound first s p)
    {page : PageCall} (h : nextCall (.bound P plan) opts ctx s = .ok (s', page)) :
    ∃ q request, s'.runtime = some q ∧ s'.ep = PaginateBinding.storePagination first q ∧
      plan s'.ep = .ok request ∧ page.call = opts.applyTo request s.pageIndex := by
  have hspec := nextCall_spec (.bound P plan) opts ctx s
  rw [h] at hspec
  cases hspec with
  | sent hkey hplans hfresh =>
      obtain ⟨q, request, _, hplan, rfl, rfl, rfl⟩ := hb.plans_iff.mp hplans
      exact ⟨q, request, rfl, rfl, hplan, rfl⟩

/-! ## controllers that count -/

/-- A controller whose key is a position that only grows. -/
structure Counts (Page : Type*) [EndpointPagination P Page] (position : P → Nat) : Prop where
  key : ∀ p : P, EndpointPagination.progressKey Page p = some (.u64 (position p))
  apply : ∀ {p q : P} {ctx}, EndpointPagination.apply Page p ctx = .ok q → q = p
  advance : ∀ {p q : P} {page : Page} {ctx decision},
    EndpointPagination.advance p page ctx = .ok (q, decision) → position p < position q

/-- The keys recorded so far lie behind the position. -/
def Counting (position : P → Nat) (first : E)
    (s : CollectState ApiClientError E (Option P) Page Item) : Prop :=
  ∃ p seen, PageBound first s p ∧ s.seen = some seen ∧
    ∀ key ∈ seen, ∃ n < position p, key = .u64 n

/-- A progress key that is accepted is remembered. -/
theorem recordProgressKey_some {seen : List ProgressKey} {key : ProgressKey} {pageIndex : Nat}
    {seen' : Option (List ProgressKey)}
    (h : recordProgressKey ctx (some seen) (some key) pageIndex = .ok seen') :
    seen' = some (key :: seen) := by
  unfold recordProgressKey at h
  simp only at h
  split at h
  · contradiction
  · exact (Except.ok.inj h).symm

/-- A turn of a counting controller moves its position on. -/
theorem Counting.turn [PageItems Page Item] [LawfulPaginateBinding E P] {position : P → Nat}
    (hp : Counts Page position) {first : E} (hc : Counting position first s)
    (h : collectTurn (.bound P plan) opts termination ctx answers s = .inl s') :
    Counting position first s' := by
  obtain ⟨p, seen, hb, hseen, hkeys⟩ := hc
  obtain ⟨runtime, ep, call, page, advance, hgoes⟩ := turnGoes_of_collectTurn h
  obtain ⟨q, p', request, happly, _, _, hadv, hb'⟩ := hb.turn hgoes
  have hlt : position p < position p' := by
    rw [← hp.apply happly]
    exact hp.advance hadv
  have hkey := hgoes.key
  simp only [PaginatedEndpoint.bound, paginationRuntimeAdapter, hb.runtime, hseen,
    Option.bind_some, hp.key] at hkey
  refine ⟨p', _, hb', recordProgressKey_some hkey, ?_⟩
  intro key hmem
  cases List.mem_cons.mp hmem with
  | inl heq => exact ⟨position p, hlt, heq⟩
  | inr hold =>
      obtain ⟨n, hn, heq⟩ := hkeys key hold
      exact ⟨n, by omega, heq⟩

/-- A position that only grows never comes back to a recorded key. -/
theorem not_keySeen_of_counts [PageItems Page Item] [LawfulPaginateBinding E P]
    {position : P → Nat} (hp : Counts Page position) {ep : E}
    (h : Heads (.bound P plan) opts ⟨termination, true⟩ answers ep ctx s) :
    ¬ KeySeen (.bound P plan) s := by
  have hc : Counting position ep s := (reaches_of_heads h).invariant
    (fun hc ht => hc.turn hp ht)
    ⟨PaginateBinding.loadPagination ep, [], ⟨rfl, fun _ => rfl⟩, rfl, by simp⟩
  obtain ⟨p, seen, hb, hseen, hkeys⟩ := hc
  rintro ⟨seen', key, hseen', hkey, hmem⟩
  rw [hseen, Option.some.injEq] at hseen'
  simp only [PaginatedEndpoint.bound, paginationRuntimeAdapter, hb.runtime, Option.bind_some,
    hp.key, Option.some.injEq] at hkey
  obtain ⟨n, hn, heq⟩ := hkeys key (hseen' ▸ hmem)
  rw [← hkey, ProgressKey.u64.injEq] at heq
  omega

end bound

/-- A size that is accepted is positive. -/
theorem validateSize_pos {value : Nat} {name : String} {ctx : ErrorContext} {size : NonZeroUsize}
    (h : validateSize value name ctx = .ok size) : 0 < value := by
  unfold validateSize usizeTryFrom NonZeroUsize.new at h
  by_cases hle : value ≤ usizeMax
  · simp only [if_pos hle] at h
    by_cases hpos : 0 < value
    · exact hpos
    · simp [dif_neg hpos] at h
  · simp [if_neg hle] at h

/-- The offset controller counts with its offset. -/
theorem counts_offset : Counts Page OffsetLimitPagination.offset where
  key _ := rfl
  apply {p q ctx} h := by
    simp only [EndpointPagination.apply] at h
    split at h
    · contradiction
    · exact (Except.ok.inj h).symm
  advance {p q page ctx decision} h := by
    simp only [EndpointPagination.advance] at h
    split at h
    · contradiction
    · next size hsize =>
        have hpos := validateSize_pos hsize
        split at h
        · contradiction
        · next offset hadd =>
            rw [Except.ok.injEq, Prod.mk.injEq] at h
            obtain ⟨rfl, _⟩ := h
            have heq := (checkedAdd_eq_some_iff.mp hadd).2
            simp only
            omega

/-- The page controller counts with its page. -/
theorem counts_page : Counts Page PagedPagination.page where
  key _ := rfl
  apply {p q ctx} h := by
    simp only [EndpointPagination.apply] at h
    split at h
    · contradiction
    · split at h
      · contradiction
      · exact (Except.ok.inj h).symm
  advance {p q page ctx decision} h := by
    simp only [EndpointPagination.advance] at h
    split at h
    · contradiction
    · split at h
      · contradiction
      · next next hadd =>
          rw [Except.ok.injEq, Prod.mk.injEq] at h
          obtain ⟨rfl, _⟩ := h
          have heq := (checkedAdd_eq_some_iff.mp hadd).2
          simp only
          omega

/-! ## the cursor controller -/

section cursor

variable [HasNextCursor Page]

/-- The state a cursor controller is left in by `apply`. -/
def CursorPagination.applied (p : CursorPagination) (pageIndex : Nat) : CursorPagination :=
  if pageIndex = 0 ∧ ¬ p.sendCursorOnFirst then { p with cursor := none } else p

/-- The cursor controller applies exactly if its page size is valid. -/
theorem cursor_apply_eq_ok_iff {p q : CursorPagination} {ctx : PageApply} :
    EndpointPagination.apply Page p ctx = .ok q ↔
      (∃ size, validatePerPage p.perPage "cursor" ctx.ctx = .ok size) ∧
        q = p.applied ctx.pageIndex := by
  simp only [EndpointPagination.apply, CursorPagination.applied]
  cases validatePerPage p.perPage "cursor" ctx.ctx with
  | error error => simp
  | ok size =>
      simp only [Except.ok.injEq, exists_eq', true_and]
      split
      · rw [Except.ok.injEq, eq_comm]
      · rw [Except.ok.injEq, eq_comm]

/-- It continues with the cursor of the page. -/
theorem cursor_advance_eq {p q : CursorPagination} {page : Page} {ctx : PageAdvance}
    (h : EndpointPagination.advance p page ctx = .ok (q, .continue)) :
    q = { p with cursor := HasNextCursor.nextCursor page } := by
  simp only [EndpointPagination.advance] at h
  split at h
  · contradiction
  · split at h
    · simp at h
    · rw [Except.ok.injEq, Prod.mk.injEq] at h
      exact h.1.symm

variable [PaginateBinding E CursorPagination] {plan : E → Except ApiClientError RequestPlan}
  {opts : RequestOptions} {termination : PaginationTermination} {ctx : ErrorContext}
  {answers : Nat → Except ApiClientError Page}
  {s s' : CollectState ApiClientError E (Option CursorPagination) Page Item}

/-- The server handed back the initial cursor, which the first page did not
send. -/
def ComesBack (initial : CursorPagination)
    (s : CollectState ApiClientError E (Option CursorPagination) Page Item) : Prop :=
  s.pageIndex ≠ 0 ∧ initial.sendCursorOnFirst = false ∧
    ∃ p cursor, s.runtime = some p ∧ p.cursor = some cursor ∧ initial.cursor = some cursor

/-- What a recorded cursor stands for: a request that was sent with it, or
the initial cursor, which may not have been sent. -/
structure Following (plan : E → Except ApiClientError RequestPlan) (ctx : ErrorContext)
    (first : E) (initial : CursorPagination)
    (s : CollectState ApiClientError E (Option CursorPagination) Page Item)
    (p : CursorPagination) (known : List ProgressKey) : Prop where
  bound : PageBound first s p
  seen : s.seen = some known
  settings : ∃ cursor, p = { initial with cursor := cursor }
  start : s.pageIndex = 0 → known = [] ∧ p = initial
  valid : s.pageIndex ≠ 0 → ∃ size, validatePerPage initial.perPage "cursor" ctx = .ok size
  recorded : s.pageIndex ≠ 0 → ∀ cursor, initial.cursor = some cursor → .str cursor ∈ known
  keys : ∀ key ∈ known, ∃ cursor, key = .str cursor ∧
    (initial.sendCursorOnFirst = false ∧ initial.cursor = some cursor ∨
      ∃ request, plan (PaginateBinding.storePagination first
          { initial with cursor := some cursor }) = .ok request ∧
        paginationRequestIdentity request ∈ s.log.map sentIdentity)

omit [HasNextCursor Page] in
/-- At the start a cursor run has followed nothing. -/
theorem following_start (termination : PaginationTermination) (ep : E) :
    Following plan ctx ep (PaginateBinding.loadPagination ep)
      (CollectState.start ⟨termination, true⟩ ep (some (PaginateBinding.loadPagination ep)) :
        CollectState ApiClientError E (Option CursorPagination) Page Item)
      (PaginateBinding.loadPagination ep) [] where
  bound := ⟨rfl, fun _ => rfl⟩
  seen := rfl
  settings := ⟨_, rfl⟩
  start _ := ⟨rfl, rfl⟩
  valid h := absurd rfl h
  recorded h := absurd rfl h
  keys := by simp

/-- Recording a cursor: without one nothing changes. -/
theorem recordProgressKey_cursor {known : List ProgressKey} {cursor : Option String}
    {pageIndex : Nat} {seen : Option (List ProgressKey)}
    (h : recordProgressKey ctx (some known) (cursor.map .str) pageIndex = .ok seen) :
    seen = some ((cursor.map .str).toList ++ known) := by
  cases cursor with
  | none => exact (Except.ok.inj h).symm
  | some cursor => exact recordProgressKey_some h

/-- A turn follows the cursor of its page, which was not known before. -/
theorem Following.turn [PageItems Page Item] [LawfulPaginateBinding E CursorPagination]
    {first : E} {initial p : CursorPagination} {known : List ProgressKey}
    (hf : Following plan ctx first initial s p known)
    (h : collectTurn (.bound CursorPagination plan) opts termination ctx answers s = .inl s') :
    ∃ p' known', Following plan ctx first initial s' p' known' := by
  obtain ⟨runtime, ep, call, page, advance, hgoes⟩ := turnGoes_of_collectTurn h
  obtain ⟨q, p', request, happly, hplan, hidentity, hadv, hb'⟩ := hf.bound.turn hgoes
  obtain ⟨hvalid, rfl⟩ := cursor_apply_eq_ok_iff.mp happly
  have hindex : s'.pageIndex ≠ 0 := by
    rw [hgoes.index]
    omega
  have hlog : ∀ {identity}, identity ∈ s.log.map sentIdentity →
      identity ∈ s'.log.map sentIdentity := by
    intro identity hmem
    rw [hgoes.log, List.map_append, List.mem_append]
    exact .inl hmem
  have hsent : paginationRequestIdentity request ∈ s'.log.map sentIdentity := by
    rw [← hidentity, hgoes.log, List.map_append, List.mem_append]
    exact .inr (List.mem_singleton.mpr rfl)
  have hseen := hgoes.key
  simp only [PaginatedEndpoint.bound, paginationRuntimeAdapter, hf.bound.runtime,
    Option.bind_some, hf.seen] at hseen
  obtain ⟨current, hcurrent⟩ := hf.settings
  refine ⟨p', (p.cursor.map .str).toList ++ known, hb', recordProgressKey_cursor hseen, ?_,
    fun h0 => absurd h0 hindex, fun _ => ?_, fun _ => ?_, ?_⟩
  · rw [cursor_advance_eq hadv, hcurrent]
    unfold CursorPagination.applied
    split
    · exact ⟨_, rfl⟩
    · exact ⟨_, rfl⟩
  · rw [hcurrent] at hvalid
    exact hvalid
  · intro cursor hcursor
    rw [List.mem_append]
    by_cases h0 : s.pageIndex = 0
    · -- The first turn records the initial cursor, sent or not.
      rw [(hf.start h0).2, hcursor]
      exact .inl (List.mem_singleton.mpr rfl)
    · exact .inr (hf.recorded h0 cursor hcursor)
  · intro key hmem
    cases List.mem_append.mp hmem with
    | inr hold =>
        obtain ⟨cursor, hkey, hcursor⟩ := hf.keys key hold
        refine ⟨cursor, hkey, hcursor.imp id (fun hr => ?_)⟩
        obtain ⟨request', hplan', hmem'⟩ := hr
        exact ⟨request', hplan', hlog hmem'⟩
    | inl hnew =>
        obtain ⟨cursor, hcursor, rfl⟩ := Option.map_eq_some_iff.mp (Option.mem_toList.mp hnew)
        refine ⟨cursor, rfl, ?_⟩
        by_cases hfirst : s.pageIndex = 0 ∧ ¬ p.sendCursorOnFirst
        · obtain rfl := (hf.start hfirst.1).2
          exact .inl ⟨Bool.eq_false_iff.mpr hfirst.2, hcursor⟩
        · simp only [CursorPagination.applied, if_neg hfirst] at hplan
          refine .inr ⟨request, ?_, hsent⟩
          rw [← hplan, ← hcursor]
          rw [hcurrent]

/-- Every head of a cursor run has followed some cursors. -/
theorem following_of_heads [PageItems Page Item] [LawfulPaginateBinding E CursorPagination]
    {ep : E}
    (h : Heads (.bound CursorPagination plan) opts ⟨termination, true⟩ answers ep ctx s) :
    ∃ p known, Following plan ctx ep (PaginateBinding.loadPagination ep) s p known :=
  Loop.Reaches.invariant
    (I := fun s => ∃ p known, Following plan ctx ep (PaginateBinding.loadPagination ep) s p known)
    (fun hf ht => by
      obtain ⟨p, known, hf⟩ := hf
      exact hf.turn ht)
    (reaches_of_heads h) ⟨_, _, following_start termination ep⟩

/-- A cursor that comes back has been recorded. -/
theorem Following.keySeen_of_comesBack {first : E} {initial p : CursorPagination}
    {known : List ProgressKey} (hf : Following plan ctx first initial s p known)
    (h : ComesBack initial s) : KeySeen (.bound CursorPagination plan) s := by
  obtain ⟨hindex, _, p', cursor, hruntime, hcursor, hinitial⟩ := h
  refine ⟨known, .str cursor, hf.seen, ?_, hf.recorded hindex cursor hinitial⟩
  simp only [PaginatedEndpoint.bound, paginationRuntimeAdapter, hruntime, Option.bind_some,
    EndpointPagination.progressKey, hcursor, Option.map_some]

/-- A recorded cursor is that of a request already sent, or the initial
cursor come back. -/
theorem Following.repeats_of_keySeen {first : E} {initial p : CursorPagination}
    {known : List ProgressKey} (hf : Following plan ctx first initial s p known)
    (h : KeySeen (.bound CursorPagination plan) s) :
    ComesBack initial s ∨ Repeats (.bound CursorPagination plan) opts ctx s := by
  obtain ⟨seen, key, hseen, hkey, hmem⟩ := h
  rw [hf.seen, Option.some.injEq] at hseen
  subst hseen
  simp only [PaginatedEndpoint.bound, paginationRuntimeAdapter, hf.bound.runtime,
    Option.bind_some, EndpointPagination.progressKey, Option.map_eq_some_iff] at hkey
  obtain ⟨cursor, hcursor, rfl⟩ := hkey
  have hindex : s.pageIndex ≠ 0 := by
    intro h0
    rw [(hf.start h0).1] at hmem
    contradiction
  obtain ⟨cursor', heq, hcases⟩ := hf.keys _ hmem
  rw [ProgressKey.str.injEq] at heq
  subst heq
  cases hcases with
  | inl hinitial =>
      exact .inl ⟨hindex, hinitial.1, p, cursor, hf.bound.runtime, hcursor, hinitial.2⟩
  | inr hsent =>
      obtain ⟨request, hplan, hmem'⟩ := hsent
      obtain ⟨current, hcurrent⟩ := hf.settings
      have hp : p = { initial with cursor := some cursor } := by
        rw [← hcursor, hcurrent]
      have happly : EndpointPagination.apply Page p ⟨ctx.endpoint, s.pageIndex, ctx⟩ = .ok p := by
        refine cursor_apply_eq_ok_iff.mpr ⟨?_, ?_⟩
        · rw [hcurrent]
          exact hf.valid hindex
        · simp [CursorPagination.applied, hindex]
      refine .inr ⟨some p, PaginateBinding.storePagination first p, _,
        hf.bound.plans_iff.mpr ⟨p, request, happly, ?_, rfl, rfl, rfl⟩, hmem'⟩
      rw [hp]
      exact hplan

end cursor

/-! ## generated bindings -/

/-- A `paginate` block after resolution, for an endpoint whose fields hold
values of `V`: the assignments that load the controller, and the pairs of an
endpoint field and a controller field bound to it. -/
structure PaginateBlock (V P : Type*) where
  default : P
  assigns : List ((String → V) → P → P)
  bindings : List (String × (P → V))

namespace PaginateBlock

variable {V : Type*} (block : PaginateBlock V P)

/-- `self.field = pagination.field.clone()`. -/
def assign (pagination : P) (endpoint : String → V) (binding : String × (P → V)) : String → V :=
  Function.update endpoint binding.1 (binding.2 pagination)

/-- The binding `emit_paginate_binding_impl` generates. -/
@[reducible] def binding : PaginateBinding (String → V) P where
  loadPagination endpoint :=
    block.assigns.foldl (fun pagination assign => assign endpoint pagination) block.default
  storePagination endpoint pagination := block.bindings.foldl (assign pagination) endpoint

/-- A store depends on the endpoint only where it does not write. -/
theorem store_congr (bindings : List (String × (P → V))) (pagination : P)
    {endpoint endpoint' : String → V}
    (h : ∀ field, field ∉ bindings.map Prod.fst → endpoint field = endpoint' field) :
    bindings.foldl (assign pagination) endpoint =
      bindings.foldl (assign pagination) endpoint' := by
  induction bindings generalizing endpoint endpoint' with
  | nil => exact funext (fun field => h field List.not_mem_nil)
  | cons binding bindings ih =>
      refine ih (fun field hfield => ?_)
      unfold assign
      by_cases heq : field = binding.1
      · rw [heq, Function.update_self, Function.update_self]
      · rw [Function.update_of_ne heq, Function.update_of_ne heq]
        refine h field (fun hmem => ?_)
        rw [List.map_cons, List.mem_cons] at hmem
        exact hmem.elim heq hfield

/-- A store leaves the fields alone that no binding names. -/
theorem store_of_notMem (bindings : List (String × (P → V))) (pagination : P)
    (endpoint : String → V) {field : String} (h : field ∉ bindings.map Prod.fst) :
    bindings.foldl (assign pagination) endpoint field = endpoint field := by
  induction bindings generalizing endpoint with
  | nil => rfl
  | cons binding bindings ih =>
      rw [List.map_cons, List.mem_cons, not_or] at h
      rw [List.foldl_cons, ih _ h.2, assign, Function.update_of_ne h.1]

instance lawful : @LawfulPaginateBinding (String → V) P block.binding :=
  @LawfulPaginateBinding.mk _ _ block.binding (fun endpoint p q =>
    store_congr block.bindings q (fun _ hfield =>
      store_of_notMem block.bindings p endpoint hfield))

/-- The endpoint generated with the block. -/
@[reducible] def endpoint [EndpointPagination P Page]
    (plan : (String → V) → Except ApiClientError RequestPlan) :
    PaginatedEndpoint ApiClientError (String → V) (Option P) Page :=
  @PaginatedEndpoint.bound _ _ P block.binding _ plan

end PaginateBlock

/-- **Loop detection**: with loop detection on, a run of an endpoint with a
built-in controller ends and executes no request identity twice, for every
termination setting and sequence of answers.  With an offset or a page number
it gives up for lack of progress exactly when the request of a next page
would repeat one already sent.  With a cursor it does so if and only if,
wherever the server hands back an initial cursor that the first page did not
send, the request planned for it has been sent already. -/
theorem loop_detection_exact {V : Type*} [PageItems Page Item] [HasNextCursor Page]
    (opts : RequestOptions) (termination : PaginationTermination)
    (answers : Nat → Except ApiClientError Page)
    (plan : (String → V) → Except ApiClientError RequestPlan) (ep : String → V) :
    (∀ block : PaginateBlock V OffsetLimitPagination, ∃ c : Collected ApiClientError Page Item,
      collect (block.endpoint plan) opts ⟨termination, true⟩ answers ep = some c ∧
      (c.log.map sentIdentity).Nodup ∧
      DetectsExactly (block.endpoint plan) opts ⟨termination, true⟩ answers ep c) ∧
    (∀ block : PaginateBlock V PagedPagination, ∃ c : Collected ApiClientError Page Item,
      collect (block.endpoint plan) opts ⟨termination, true⟩ answers ep = some c ∧
      (c.log.map sentIdentity).Nodup ∧
      DetectsExactly (block.endpoint plan) opts ⟨termination, true⟩ answers ep c) ∧
    (∀ block : PaginateBlock V CursorPagination, ∃ c : Collected ApiClientError Page Item,
      collect (block.endpoint plan) opts ⟨termination, true⟩ answers ep = some c ∧
      (c.log.map sentIdentity).Nodup ∧
      (DetectsExactly (block.endpoint plan) opts ⟨termination, true⟩ answers ep c ↔
        ∀ ctx, ∀ s : CollectState ApiClientError (String → V) (Option CursorPagination) Page Item,
          Heads (block.endpoint plan) opts ⟨termination, true⟩ answers ep ctx s →
          ComesBack (block.binding.loadPagination ep) s →
          Repeats (block.endpoint plan) opts ctx s)) := by
  refine ⟨fun block => ?_, fun block => ?_, fun block => ?_⟩
  · let := block.binding
    obtain ⟨c, hrun, hnodup, hiff⟩ := @detectsExactly_iff _ _ _ _ Item _ (block.endpoint plan)
      opts ⟨termination, true⟩ answers ep
    exact ⟨c, hrun, hnodup, hiff.mpr (fun ctx s hs hk =>
      absurd hk (not_keySeen_of_counts counts_offset hs))⟩
  · let := block.binding
    obtain ⟨c, hrun, hnodup, hiff⟩ := @detectsExactly_iff _ _ _ _ Item _ (block.endpoint plan)
      opts ⟨termination, true⟩ answers ep
    exact ⟨c, hrun, hnodup, hiff.mpr (fun ctx s hs hk =>
      absurd hk (not_keySeen_of_counts counts_page hs))⟩
  · let := block.binding
    obtain ⟨c, hrun, hnodup, hiff⟩ := @detectsExactly_iff _ _ _ _ Item _ (block.endpoint plan)
      opts ⟨termination, true⟩ answers ep
    refine ⟨c, hrun, hnodup, hiff.trans (forall₂_congr (fun ctx s =>
      forall_congr' (fun hs => ?_)))⟩
    obtain ⟨p, known, hf⟩ := following_of_heads hs
    constructor
    · intro hkeys hback
      exact hkeys (hf.keySeen_of_comesBack hback)
    · intro hback hk
      cases hf.repeats_of_keySeen hk with
      | inl hcomes => exact hback hcomes
      | inr hrepeats => exact hrepeats

/-- A page of numbers with the cursor of the next one. -/
structure CursorPage where
  items : List Nat
  next : Option String
  deriving DecidableEq, Repr

instance : PageItems CursorPage Nat where
  itemCount page := page.items.length
  intoItems page := page.items
  length_intoItems _ := rfl

instance : HasNextCursor CursorPage where
  nextCursor page := page.next

/-- `paginate CursorPagination { cursor = ep.cursor, per_page = 2 }`. -/
def cursorBlock : PaginateBlock (Option String) CursorPagination where
  default := .default
  assigns := [fun endpoint pagination => { pagination with cursor := endpoint "cursor" },
    fun _ pagination => { pagination with perPage := 2 }]
  bindings := [("cursor", CursorPagination.cursor)]

/-- A request that sends the cursor, if there is one. -/
def cursorPlan (endpoint : String → Option String) : Except ApiClientError RequestPlan := .ok {
  name := "ListItems"
  method := .get
  scheme := "https"
  host := "api.example.com"
  path := "/items"
  query := ((endpoint "cursor").map (fun cursor => ("cursor", cursor))).toList
  headers := []
  pagination := true
  overrides := ⟨none, none, 0⟩ }

/-- The initial cursor is not sent with the first page; the server hands it
back, and the run gives up although no request with it has been sent. -/
theorem loop_detection_unsent_cursor :
    ∃ c : Collected ApiClientError CursorPage Nat,
      collect (cursorBlock.endpoint cursorPlan) .default ⟨.takePages 5, true⟩
        (fun _ => .ok ⟨[7, 8], some "a"⟩) (fun _ => some "a") = some c ∧
      c.NoProgress ∧ c.log.map (·.1.query) = [[]] ∧
      ¬ DetectsExactly (cursorBlock.endpoint cursorPlan) .default ⟨.takePages 5, true⟩
        (fun _ => .ok ⟨[7, 8], some "a"⟩) (fun _ => some "a") c := by
  obtain ⟨c, hrun, _, hiff⟩ := @detectsExactly_iff _ _ _ _ Nat _
    (cursorBlock.endpoint cursorPlan) .default ⟨.takePages 5, true⟩
    (fun _ => .ok (⟨[7, 8], some "a"⟩ : CursorPage)) (fun _ => some "a")
  have hc : collect (cursorBlock.endpoint cursorPlan) .default ⟨.takePages 5, true⟩
      (fun _ => .ok (⟨[7, 8], some "a"⟩ : CursorPage)) (fun _ => some "a") = some _ := rfl
  rw [hc, Option.some.injEq] at hrun
  subst hrun
  refine ⟨_, hc, ⟨_, _, rfl⟩, rfl, fun hexact => ?_⟩
  obtain ⟨_, _, _, ⟨happly, plan, hplan, rfl⟩, hmem⟩ := hiff.mp hexact _ _
    ⟨_, _, _, rfl, rfl, rfl, by simp, rfl, rfl, .tail .refl rfl⟩
    ⟨_, _, rfl, rfl, List.mem_singleton.mpr rfl⟩
  rw [← (Prod.mk.inj (Except.ok.inj happly)).2] at hplan
  rw [← Except.ok.inj hplan] at hmem
  revert hmem
  decide

end Concord
