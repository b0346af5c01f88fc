import Concord.Request

/-!
# Concord.Collect

What `collect` returns, for every controller, every endpoint and every
sequence of answers.

`PageSpec` lists the outcomes of a turn after its page has been decoded, and
`Collecting` is what holds at the head of the loop: the log has one decoded
page per turn taken, the output is the concatenation of their items, and the
limits of the termination setting leave room for one more page.
-/

namespace Concord

open Checked

variable {ε E R Page Item : Type*}

/-! ## limits -/

/-- The item limits let a run with this many items go on. -/
def PaginationTermination.Admits (termination : PaginationTermination) (total : Nat) : Prop :=
  match termination with
  | .hardItemCap n => total ≤ n
  | .takeItems n => total < n
  | _ => True

/-- The page limits let a run with this many pages go on. -/
def PaginationTermination.AdmitsPages (termination : PaginationTermination) (fetched : Nat) :
    Prop :=
  match termination with
  | .hardPageCap n => fetched < n
  | .takePages n => fetched < n
  | _ => True

/-! ## before the request -/

/-- The error says that the item total passed the cap, or `usize`. -/
def ApiClientError.IsItemLimit (error : ApiClientError) : Prop :=
  ∃ ctx, error = itemsOverflow ctx ∨
    ∃ maxItems seenItems pageIndex, error = hardItemCapError ctx maxItems seenItems pageIndex

/-- Of the pagination errors only the overflow of the count is about the items. -/
theorem not_isItemLimit_pagination {ctx : ErrorContext} {source : PaginationError}
    (h : source ≠ ⟨.overflow, "items overflow"⟩) :
    ¬ (ApiClientError.pagination ctx source).IsItemLimit := by
  intro hlimit
  obtain ⟨ctx', heq | ⟨maxItems, seenItems, pageIndex, heq⟩⟩ := hlimit
  · rw [itemsOverflow, ApiClientError.pagination.injEq] at heq
    exact h heq.2
  · contradiction

/-- What precedes the request of a turn leaves the progress of the run
alone. -/
structure Prepared (s s' : CollectState ε E R Page Item) : Prop where
  out : s'.out = s.out
  itemsCount : s'.itemsCount = s.itemsCount
  pageIndex : s'.pageIndex = s.pageIndex
  log : s'.log = s.log

/-- A call that is made has its page state and its request prepared. -/
theorem prepared_of_nextCall {endpoint : PaginatedEndpoint ε E R Page} {opts : RequestOptions}
    {ctx : ErrorContext} {s s' : CollectState ε E R Page Item} {call : PageCall}
    (h : nextCall endpoint opts ctx s = .ok (s', call)) : Prepared s s' := by
  unfold nextCall at h
  split at h
  · contradiction
  · split at h
    · contradiction
    · simp only at h
      split at h
      · contradiction
      · split at h
        · contradiction
        · rw [Except.ok.injEq, Prod.mk.injEq] at h
          obtain ⟨rfl, _⟩ := h
          exact ⟨rfl, rfl, rfl, rfl⟩

/-- No error raised before the request is about the item total. -/
theorem not_isItemLimit_of_nextCall {endpoint : PaginatedEndpoint ε E R Page}
    {opts : RequestOptions} {ctx : ErrorContext} {s : CollectState ε E R Page Item}
    {error : ApiClientError} (h : nextCall endpoint opts ctx s = .error (.own error)) :
    ¬ error.IsItemLimit := by
  unfold nextCall at h
  split at h
  · next error' hr =>
      unfold recordProgressKey at hr
      split at hr
      · split at hr
        · rw [Except.error.injEq] at hr
          rw [Except.error.injEq, CollectError.own.injEq] at h
          subst hr h
          exact not_isItemLimit_pagination (by simp)
        · contradiction
      · contradiction
  · split at h
    · simp at h
    · simp only at h
      split at h
      · simp at h
      · split at h
        · next error' he =>
            unfold ensureProgress at he
            split at he
            · rw [Except.error.injEq] at he
              rw [Except.error.injEq, CollectError.own.injEq] at h
              subst he h
              exact not_isItemLimit_pagination (by simp)
            · contradiction
        · contradiction

/-! ## the outcomes of a page -/

section page

variable [PageItems Page Item]

/-- The call of the controller's `advance` on a page. -/
def advancePage (endpoint : PaginatedEndpoint ε E R Page) (ctx : ErrorContext)
    (s : CollectState ε E R Page Item) (page : Page) : Except ε (R × E × PageDecision) :=
  endpoint.runtime.advance s.runtime s.ep ctx page
    ⟨ctx.endpoint, s.pageIndex, PageItems.itemCount page⟩

/-- The outcomes of `handlePage`.  The first two are the running total
passing `usize` and the hard item cap; the ones that carry `hroom` are
reached only while the item limits admit the new total. -/
inductive PageSpec (endpoint : PaginatedEndpoint ε E R Page)
    (termination : PaginationTermination) (ctx : ErrorContext)
    (s : CollectState ε E R Page Item) (expected : Option NonZeroUsize) (page : Page) :
    Except (CollectError ε) (CollectState ε E R Page Item ⊕ List Item) → Prop
  | overflowed (h : usizeMax < s.itemsCount + PageItems.itemCount page) :
      PageSpec endpoint termination ctx s expected page (.error (.own (itemsOverflow ctx)))
  | capped {n : Nat} (ht : termination = .hardItemCap n)
      (h : n < s.itemsCount + PageItems.itemCount page) :
      PageSpec endpoint termination ctx s expected page (.error (.own
        (hardItemCapError ctx n (s.itemsCount + PageItems.itemCount page) s.pageIndex)))
  | empty (h : PageItems.itemCount page = 0) (hfit : s.itemsCount ≤ usizeMax) :
      PageSpec endpoint termination ctx s expected page (.ok (.inr s.out))
  | overran {n : Nat} (ht : termination = .takeItems n) (h : n < s.itemsCount) :
      PageSpec endpoint termination ctx s expected page (.error (.own (itemsOverflow ctx)))
  | filled {n : Nat} (ht : termination = .takeItems n)
      (h : n ≤ s.itemsCount + PageItems.itemCount page) :
      PageSpec endpoint termination ctx s expected page
        (.ok (.inr (s.out ++ (PageItems.intoItems page).take (n - s.itemsCount))))
  | advanceFailed {error : ε}
      (hroom : termination.Admits (s.itemsCount + PageItems.itemCount page))
      (hstop : commonContentStop (PageItems.itemCount page) expected = false)
      (hadv : advancePage endpoint ctx s page = .error error) :
      PageSpec endpoint termination ctx s expected page (.error (.passed error))
  | ended (hfit : s.itemsCount + PageItems.itemCount page ≤ usizeMax)
      (hroom : termination.Admits (s.itemsCount + PageItems.itemCount page))
      (hend : commonContentStop (PageItems.itemCount page) expected = true ∨
        ∃ runtime ep, advancePage endpoint ctx s page = .ok (runtime, ep, .stop)) :
      PageSpec endpoint termination ctx s expected page
        (.ok (.inr (s.out ++ PageItems.intoItems page)))
  | taken {n : Nat} (hfit : s.itemsCount + PageItems.itemCount page ≤ usizeMax)
      (ht : termination = .takePages n) (h : n ≤ s.pageIndex + 1)
      (hadv : ∃ runtime ep, advancePage endpoint ctx s page = .ok (runtime, ep, .continue)) :
      PageSpec endpoint termination ctx s expected page
        (.ok (.inr (s.out ++ PageItems.intoItems page)))
  | pageCapped {n : Nat} (ht : termination = .hardPageCap n) (h : n ≤ s.pageIndex + 1) :
      PageSpec endpoint termination ctx s expected page (.error (.own
        (hardPageCapError ctx n (s.itemsCount + PageItems.itemCount page) (s.pageIndex + 1))))
  | exhausted (hroom : termination.Admits (s.itemsCount + PageItems.itemCount page))
      (hpages : termination.AdmitsPages (s.pageIndex + 1)) :
      PageSpec endpoint termination ctx s expected page
        (.error (.own (.pagination ctx ⟨.overflow, "page index overflow"⟩)))
  | continued {runtime : R} {ep : E}
      (hroom : termination.Admits (s.itemsCount + PageItems.itemCount page))
      (hpages : termination.AdmitsPages (s.pageIndex + 1)) (hindex : s.pageIndex + 1 ≤ u32Max) :
      PageSpec endpoint termination ctx s expected page (.ok (.inl { s with
        runtime := runtime
        ep := ep
        out := s.out ++ PageItems.intoItems page
        itemsCount := s.itemsCount + PageItems.itemCount page
        pageIndex := s.pageIndex + 1 }))

/-- Where there is room for the page, the decision rests on its contents. -/
theorem preAdvanceDecision_of_admits {termination : PaginationTermination}
    {itemsCount itemCount : Nat} (expected : Option NonZeroUsize) (ctx : ErrorContext)
    (hfit : itemsCount + itemCount ≤ usizeMax)
    (hroom : termination.Admits (itemsCount + itemCount)) :
    preAdvanceDecision termination itemsCount itemCount expected ctx =
      .ok ⟨commonContentStop itemCount expected, false, none⟩ := by
  have hadd : checkedAdd usizeMax itemsCount itemCount = some (itemsCount + itemCount) :=
    checkedAdd_eq_some_iff.mpr ⟨hfit, rfl⟩
  simp only [preAdvanceDecision, hadd]
  cases termination with
  | hardItemCap n =>
      have hle : itemsCount + itemCount ≤ n := hroom
      have hnot : ¬ itemsCount + itemCount > n := by omega
      simp only [if_neg hnot]
  | takeItems n =>
      have hlt : itemsCount + itemCount < n := hroom
      have hnot : ¬ itemCount ≥ n - itemsCount := by omega
      simp only [decide_eq_false hnot]
  | hardPageCap n => rfl
  | takePages n => rfl

/-- And the whole page is taken. -/
theorem collectItems_of_admits {termination : PaginationTermination}
    {itemsCount pageLen : Nat} (ctx : ErrorContext) (pageIndex : Nat) (out items : List Item)
    (hfit : itemsCount + pageLen ≤ usizeMax)
    (hroom : termination.Admits (itemsCount + pageLen)) :
    collectItems termination ctx itemsCount pageLen pageIndex out items =
      .ok (.inl (itemsCount + pageLen, out ++ items)) := by
  have hadd : checkedAdd usizeMax itemsCount pageLen = some (itemsCount + pageLen) :=
    checkedAdd_eq_some_iff.mpr ⟨hfit, rfl⟩
  cases termination with
  | hardItemCap n =>
      have hle : itemsCount + pageLen ≤ n := hroom
      have hnot : ¬ itemsCount + pageLen > n := by omega
      simp only [collectItems, hadd, if_neg hnot]
  | takeItems n =>
      have hlt : itemsCount + pageLen < n := hroom
      have hnot : ¬ n < itemsCount := by omega
      have hnot' : ¬ pageLen ≥ n - itemsCount := by omega
      simp only [collectItems, hadd, if_neg hnot, if_neg hnot']
  | hardPageCap n => simp only [collectItems, hadd]
  | takePages n => simp only [collectItems, hadd]

/-- A page that does not stop the run has items. -/
theorem ne_zero_of_commonContentStop {itemCount : Nat} {expected : Option NonZeroUsize}
    (h : commonContentStop itemCount expected = false) : itemCount ≠ 0 := by
  intro h0
  simp [commonContentStop, h0] at h

section spec

variable (endpoint : PaginatedEndpoint ε E R Page) (termination : PaginationTermination)
  (ctx : ErrorContext) (s : CollectState ε E R Page Item) (expected : Option NonZeroUsize)
  (page : Page)

/-- The end of a turn after the controller asked for another page: the page
limits decide first, then the page index. -/
theorem nextPageIndex_continue (itemsCount pageIndex : Nat) :
    (∃ n, termination = .hardPageCap n ∧ n ≤ pageIndex + 1 ∧
      nextPageIndex termination ctx itemsCount pageIndex .continue =
        .error (hardPageCapError ctx n itemsCount (pageIndex + 1))) ∨
    (∃ n, termination = .takePages n ∧ n ≤ pageIndex + 1 ∧
      nextPageIndex termination ctx itemsCount pageIndex .continue = .ok none) ∨
    (termination.AdmitsPages (pageIndex + 1) ∧
      nextPageIndex termination ctx itemsCount pageIndex .continue =
        .error (.pagination ctx ⟨.overflow, "page index overflow"⟩)) ∨
    (termination.AdmitsPages (pageIndex + 1) ∧ pageIndex + 1 ≤ u32Max ∧
      nextPageIndex termination ctx itemsCount pageIndex .continue =
        .ok (some (pageIndex + 1))) := by
  -- A page limit that leaves room decides nothing, like a setting without one.
  have hnext : termination.AdmitsPages (pageIndex + 1) →
      nextPageIndex termination ctx itemsCount pageIndex .continue =
        nextPageIndex (.hardItemCap 0) ctx itemsCount pageIndex .continue := by
    intro hpages
    cases termination with
    | hardPageCap n => exact if_neg (Nat.not_le_of_lt hpages)
    | takePages n => exact if_neg (Nat.not_le_of_lt hpages)
    | hardItemCap n => rfl
    | takeItems n => rfl
  by_cases hpages : termination.AdmitsPages (pageIndex + 1)
  · rw [hnext hpages]
    cases hc : checkedAdd u32Max pageIndex 1 with
    | none => exact .inr (.inr (.inl ⟨hpages, by simp only [nextPageIndex, hc]⟩))
    | some next =>
        obtain ⟨hle, rfl⟩ := checkedAdd_eq_some_iff.mp hc
        exact .inr (.inr (.inr ⟨hpages, hle, by simp only [nextPageIndex, hc]⟩))
  · cases termination with
    | hardPageCap n =>
        have hle : n ≤ pageIndex + 1 := Nat.le_of_not_lt hpages
        exact .inl ⟨n, rfl, hle, by simp only [nextPageIndex, ge_iff_le, if_pos hle]⟩
    | takePages n =>
        have hle : n ≤ pageIndex + 1 := Nat.le_of_not_lt hpages
        exact .inr (.inl ⟨n, rfl, hle, by simp only [nextPageIndex, ge_iff_le, if_pos hle]⟩)
    | hardItemCap n => exact absurd trivial hpages
    | takeItems n => exact absurd trivial hpages

/-- A page the item limits leave room for. -/
theorem handlePage_spec_of_admits
    (hfit : s.itemsCount + PageItems.itemCount page ≤ usizeMax)
    (hroom : termination.Admits (s.itemsCount + PageItems.itemCount page)) :
    PageSpec endpoint termination ctx s expected page
      (handlePage endpoint termination ctx s expected page) := by
  have hpre := preAdvanceDecision_of_admits expected ctx hfit hroom
  have hitems := collectItems_of_admits ctx s.pageIndex s.out (PageItems.intoItems page)
    hfit hroom
  cases hstop : commonContentStop (PageItems.itemCount page) expected with
  | true =>
      simp only [handlePage, hpre, advanceControl, hstop, true_or, if_true, hitems]
      split
      · next hzero => exact .empty hzero (by omega)
      · exact .ended hfit hroom (.inl hstop)
  | false =>
      have hne := ne_zero_of_commonContentStop hstop
      cases hadv : advancePage endpoint ctx s page with
      | error error =>
          have hadv' := hadv
          simp only [advancePage] at hadv'
          simp only [handlePage, hpre, advanceControl, hstop, hadv', Bool.false_eq_true, or_self,
            if_false]
          exact .advanceFailed hroom hstop hadv
      | ok advanced =>
          obtain ⟨runtime, ep, decision⟩ := advanced
          cases decision with
          | stop =>
              have hadv' := hadv
              simp only [advancePage] at hadv'
              simp only [handlePage, hpre, advanceControl, hstop, hadv', Bool.false_eq_true,
                or_self, if_false, if_neg hne, hitems, PageDecision.toControl, nextPageIndex]
              exact .ended hfit hroom (.inr ⟨runtime, ep, hadv⟩)
          | «continue» =>
              have hadv' := hadv
              simp only [advancePage] at hadv'
              simp only [handlePage, hpre, advanceControl, hstop, hadv', Bool.false_eq_true,
                or_self, if_false, if_neg hne, hitems, PageDecision.toControl]
              obtain ⟨n, ht, hle, heq⟩ | ⟨n, ht, hle, heq⟩ | ⟨hpages, heq⟩ | ⟨hpages, hle, heq⟩ :=
                nextPageIndex_continue termination ctx
                  (s.itemsCount + PageItems.itemCount page) s.pageIndex
              · simp only [heq]
                exact .pageCapped ht hle
              · simp only [heq]
                exact .taken hfit ht hle ⟨runtime, ep, hadv⟩
              · simp only [heq]
                exact .exhausted hroom hpages
              · simp only [heq]
                exact .continued hroom hpages hle

/-- **Every decoded page has one of the outcomes.** -/
theorem handlePage_spec : PageSpec endpoint termination ctx s expected page
    (handlePage endpoint termination ctx s expected page) := by
  by_cases hfit : s.itemsCount + PageItems.itemCount page ≤ usizeMax
  · by_cases hroom : termination.Admits (s.itemsCount + PageItems.itemCount page)
    · exact handlePage_spec_of_admits endpoint termination ctx s expected page hfit hroom
    · have hadd : checkedAdd usizeMax s.itemsCount (PageItems.itemCount page) =
          some (s.itemsCount + PageItems.itemCount page) :=
        checkedAdd_eq_some_iff.mpr ⟨hfit, rfl⟩
      cases termination with
      | hardItemCap n =>
          have hgt : s.itemsCount + PageItems.itemCount page > n := Nat.lt_of_not_le hroom
          simp only [handlePage, preAdvanceDecision, hadd, if_pos hgt]
          exact .capped rfl hgt
      | takeItems n =>
          have hge : n ≤ s.itemsCount + PageItems.itemCount page := Nat.le_of_not_lt hroom
          have hdone : PageItems.itemCount page ≥ n - s.itemsCount := by omega
          simp only [handlePage, preAdvanceDecision, hadd, advanceControl, decide_eq_true hdone,
            or_true, if_true]
          split
          · next hzero => exact .empty hzero (by omega)
          · by_cases hlt : n < s.itemsCount
            · simp only [collectItems, if_pos hlt]
              exact .overran rfl hlt
            · simp only [collectItems, if_neg hlt, if_pos hdone]
              exact .filled rfl hge
      | hardPageCap n => exact absurd trivial hroom
      | takePages n => exact absurd trivial hroom
  · have hnone : checkedAdd usizeMax s.itemsCount (PageItems.itemCount page) = none :=
      checkedAdd_eq_none_iff.mpr (by omega)
    simp only [handlePage, preAdvanceDecision, hnone]
    exact .overflowed (by omega)

end spec

/-! ## the log -/

/-- The items of the decoded pages, in request order. -/
def fetchedItems (log : List (RequestPlan × Except ε Page)) : List Item :=
  log.flatMap fun exchange =>
    match exchange.2 with
    | .ok page => PageItems.intoItems page
    | .error _ => []

/-- The items fetched are those of one part of the log after the other. -/
theorem fetchedItems_append (log log' : List (RequestPlan × Except ε Page)) :
    fetchedItems (log ++ log') = fetchedItems log ++ fetchedItems log' :=
  List.flatMap_append

/-- A page adds its items. -/
theorem fetchedItems_concat_ok (log : List (RequestPlan × Except ε Page)) (call : RequestPlan)
    (page : Page) :
    fetchedItems (log ++ [(call, .ok page)]) = fetchedItems log ++ PageItems.intoItems page := by
  rw [fetchedItems_append]
  simp [fetchedItems]

/-- A failed call adds none. -/
theorem fetchedItems_concat_error (log : List (RequestPlan × Except ε Page))
    (call : RequestPlan) (error : ε) :
    fetchedItems (log ++ [(call, .error error)]) = fetchedItems log := by
  rw [fetchedItems_append]
  simp [fetchedItems]

/-- A shorter log has no more items. -/
theorem length_fetchedItems_take_le (log : List (RequestPlan × Except ε Page)) (k : Nat) :
    (fetchedItems (log.take k)).length ≤ (fetchedItems log).length := by
  have hsplit := fetchedItems_append (log.take k) (log.drop k)
  rw [List.take_append_drop] at hsplit
  rw [hsplit, List.length_append]
  omega

/-! ## a turn -/

/-- The outcomes of a turn: it stops before the request, the request is not
answered by a page, or `PageSpec` says what becomes of the page. -/
inductive TurnSpec (endpoint : PaginatedEndpoint ε E R Page)
    (termination : PaginationTermination) (ctx : ErrorContext)
    (s : CollectState ε E R Page Item) :
    CollectState ε E R Page Item ⊕ Collected ε Page Item → Prop
  | refused {error : CollectError ε}
      (h : ∀ error', error = .own error' → ¬ error'.IsItemLimit) :
      TurnSpec endpoint termination ctx s (.inr ⟨.error error, s.log⟩)
  | unanswered {call : RequestPlan} {error : ε} :
      TurnSpec endpoint termination ctx s
        (.inr ⟨.error (.passed error), s.log ++ [(call, .error error)]⟩)
  | errored {s' : CollectState ε E R Page Item} {call : PageCall} {page : Page}
      {error : CollectError ε}
      (hs : Prepared s s')
      (h : PageSpec endpoint termination ctx s' call.expectedItems page (.error error)) :
      TurnSpec endpoint termination ctx s
        (.inr ⟨.error error, s.log ++ [(call.call, .ok page)]⟩)
  | returned {s' : CollectState ε E R Page Item} {call : PageCall} {page : Page}
      {out : List Item}
      (hs : Prepared s s')
      (h : PageSpec endpoint termination ctx s' call.expectedItems page (.ok (.inr out))) :
      TurnSpec endpoint termination ctx s (.inr ⟨.ok out, s.log ++ [(call.call, .ok page)]⟩)
  | again {s' s'' : CollectState ε E R Page Item} {call : PageCall} {page : Page}
      (hs : Prepared s s')
      (h : PageSpec endpoint termination ctx s' call.expectedItems page (.ok (.inl s''))) :
      TurnSpec endpoint termination ctx s
        (.inl { s'' with log := s.log ++ [(call.call, .ok page)] })

/-- What one turn of the loop does. -/
theorem collectTurn_spec (endpoint : PaginatedEndpoint ε E R Page) (opts : RequestOptions)
    (termination : PaginationTermination) (ctx : ErrorContext) (answers : Nat → Except ε Page)
    (s : CollectState ε E R Page Item) :
    TurnSpec endpoint termination ctx s
      (collectTurn endpoint opts termination ctx answers s) := by
  unfold collectTurn
  cases hn : nextCall endpoint opts ctx s with
  | error error =>
      refine .refused (fun error' he => ?_)
      exact not_isItemLimit_of_nextCall (he ▸ hn)
  | ok prepared =>
      obtain ⟨s', call⟩ := prepared
      have hs := prepared_of_nextCall hn
      simp only [hs.log]
      cases ha : answers s'.pageIndex with
      | error error => exact .unanswered
      | ok page =>
          have hpage := handlePage_spec endpoint termination ctx s' call.expectedItems page
          simp only
          cases hp : handlePage endpoint termination ctx s' call.expectedItems page with
          | error error => exact .errored hs (hp ▸ hpage)
          | ok turn =>
              cases turn with
              | inl s'' => exact .again hs (hp ▸ hpage)
              | inr out => exact .returned hs (hp ▸ hpage)

/-! ## the loop -/

omit [PageItems Page Item] in
/-- One more page keeps a log of pages one. -/
theorem decoded_concat {log : List (RequestPlan × Except ε Page)} {call : RequestPlan}
    {page : Page} (h : ∀ exchange ∈ log, ∃ page, exchange.2 = .ok page) :
    ∀ exchange ∈ log ++ [(call, .ok page)], ∃ page, exchange.2 = .ok page := by
  intro exchange hmem
  cases List.mem_append.mp hmem with
  | inl hold => exact h exchange hold
  | inr hnew => exact ⟨page, by rw [List.mem_singleton.mp hnew]⟩

/-- What holds at the head of the loop. -/
structure Collecting (termination : PaginationTermination) (s : CollectState ε E R Page Item) :
    Prop where
  turns : s.log.length = s.pageIndex
  decoded : ∀ exchange ∈ s.log, ∃ page, exchange.2 = .ok page
  out : s.out = fetchedItems s.log
  count : s.itemsCount = s.out.length
  index : s.pageIndex ≤ u32Max
  items : termination.Admits s.itemsCount
  pages : termination.AdmitsPages s.pageIndex

/-- The settings for which `collect` enters the loop. -/
def PaginationTermination.Runs (termination : PaginationTermination) : Prop :=
  termination.Admits 0 ∧ termination.AdmitsPages 0

/-- Before the first turn nothing is collected. -/
theorem collecting_start {termination : PaginationTermination} (h : termination.Runs)
    (caps : PaginationCaps) (ep : E) (runtime : R) :
    Collecting termination (CollectState.start caps ep runtime :
      CollectState ε E R Page Item) where
  turns := rfl
  decoded := by simp [CollectState.start]
  out := rfl
  count := rfl
  index := Nat.zero_le _
  items := h.1
  pages := h.2

section invariant

variable {endpoint : PaginatedEndpoint ε E R Page} {opts : RequestOptions}
  {termination : PaginationTermination} {ctx : ErrorContext} {answers : Nat → Except ε Page}
  {s s' : CollectState ε E R Page Item}

/-- A turn that goes round keeps the invariant and moves on by one page. -/
theorem Collecting.turn (hc : Collecting termination s)
    (h : collectTurn endpoint opts termination ctx answers s = .inl s') :
    Collecting termination s' ∧ s'.pageIndex = s.pageIndex + 1 := by
  have hspec := collectTurn_spec endpoint opts termination ctx answers s
  rw [h] at hspec
  cases hspec with
  | again hs hp =>
      obtain ⟨hout, hcount, hindex, hlog⟩ := hs
      cases hp with
      | continued hroom hpages hle =>
          rw [hcount] at hroom
          rw [hindex] at hpages hle
          refine ⟨⟨?_, ?_, ?_, ?_, ?_, ?_, ?_⟩, ?_⟩
          · simp only [List.length_append, List.length_singleton, hc.turns, hindex]
          · exact decoded_concat hc.decoded
          · simp only [fetchedItems_concat_ok, hout, hc.out]
          · simp only [List.length_append, PageItems.length_intoItems, hcount, hc.count, hout]
          · simpa only [hindex] using hle
          · simpa only [hcount] using hroom
          · simpa only [hindex] using hpages
          · simp only [hindex]

end invariant

/-! ## the answers in the log -/

/-- The log has the first answers, each once and in order. -/
def Answered (answers : Nat → Except ε Page) (log : List (RequestPlan × Except ε Page)) : Prop :=
  log.map Prod.snd = (List.range log.length).map answers

omit [PageItems Page Item] in
/-- One more answer. -/
theorem Answered.concat {answers : Nat → Except ε Page}
    {log : List (RequestPlan × Except ε Page)} (h : Answered answers log) {index : Nat}
    (hindex : log.length = index) (call : RequestPlan) :
    Answered answers (log ++ [(call, answers index)]) := by
  unfold Answered at h ⊢
  rw [List.map_append, List.length_append, List.length_singleton, List.range_succ,
    List.map_append, h, hindex]
  rfl

section answered

variable {endpoint : PaginatedEndpoint ε E R Page} {opts : RequestOptions}
  {termination : PaginationTermination} {ctx : ErrorContext} {answers : Nat → Except ε Page}
  {s : CollectState ε E R Page Item}

/-- The log of a turn: what there was before, and at most one more answer. -/
theorem answered_of_turn (hturns : s.log.length = s.pageIndex) (h : Answered answers s.log) :
    (∀ s', collectTurn endpoint opts termination ctx answers s = .inl s' →
      s'.log.length = s'.pageIndex ∧ Answered answers s'.log) ∧
    ∀ c, collectTurn endpoint opts termination ctx answers s = .inr c →
      Answered answers c.log := by
  unfold collectTurn
  cases hn : nextCall endpoint opts ctx s with
  | error error =>
      refine ⟨fun s' hs' => (by cases hs'), fun c hc => ?_⟩
      cases hc
      exact h
  | ok prepared =>
      obtain ⟨s', call⟩ := prepared
      have hs := prepared_of_nextCall hn
      rw [← hs.pageIndex, ← hs.log] at hturns
      rw [← hs.log] at h
      have hmore := h.concat hturns call.call
      simp only
      cases ha : answers s'.pageIndex with
      | error error =>
          refine ⟨fun s'' hs'' => (by cases hs''), fun c hc => ?_⟩
          rw [ha] at hmore
          cases hc
          exact hmore
      | ok page =>
          rw [ha] at hmore
          have hpage := handlePage_spec endpoint termination ctx s' call.expectedItems page
          simp only
          cases hp : handlePage endpoint termination ctx s' call.expectedItems page with
          | error error =>
              refine ⟨fun s'' hs'' => (by cases hs''), fun c hc => ?_⟩
              cases hc
              exact hmore
          | ok turn =>
              rw [hp] at hpage
              cases turn with
              | inl s'' =>
                  refine ⟨fun next hnext => ?_, fun c hc => (by cases hc)⟩
                  cases hnext
                  cases hpage with
                  | continued _ _ _ =>
                      refine ⟨?_, hmore⟩
                      simp only [List.length_append, List.length_singleton, hturns]
              | inr out =>
                  refine ⟨fun s'' hs'' => (by cases hs''), fun c hc => ?_⟩
                  cases hc
                  exact hmore

/-- A run logs the answers it was given, from the first. -/
theorem collect_answered {caps : PaginationCaps} {ep : E} {c : Collected ε Page Item}
    (h : collect endpoint opts caps answers ep = some c) : Answered answers c.log := by
  have hnone : Answered answers ([] : List (RequestPlan × Except ε Page)) := rfl
  have hloop (ctx : ErrorContext) (runtime : R)
      (hrun : Loop.run (collectTurn endpoint opts caps.termination ctx answers) maxTurns
        (CollectState.start caps ep runtime) = some c) : Answered answers c.log :=
    Loop.run_rule (I := fun s => s.log.length = s.pageIndex ∧ Answered answers s.log)
      (Q := fun c => Answered answers c.log) (fun hs ht => (answered_of_turn hs.1 hs.2).1 _ ht)
      (fun hs ht => (answered_of_turn hs.1 hs.2).2 _ ht) hrun ⟨rfl, hnone⟩
  have hunsent : ∀ {result : Except (CollectError ε) (List Item)},
      some (⟨result, []⟩ : Collected ε Page Item) = some c → Answered answers c.log := by
    intro result hc
    cases hc
    exact hnone
  unfold collect at h
  cases hplan : endpoint.plan ep with
  | error error =>
      rw [hplan] at h
      exact hunsent h
  | ok plan =>
      simp only [hplan] at h
      cases hv : validateCollectTermination caps.termination plan.errorContext with
      | error error =>
          simp only [hv] at h
          exact hunsent h
      | ok _ =>
          simp only [hv] at h
          split at h
          · exact hunsent h
          · cases hr : endpoint.paginationRuntime ep with
            | none =>
                simp only [hr] at h
                split at h
                · exact hunsent h
                · exact hunsent h
            | some runtime =>
                simp only [hr, collectWithPaginationRuntime] at h
                split at h
                · exact hunsent h
                · exact hloop _ _ h

end answered

/-! ## what a run returns -/

/-- The items a run returns of all that were fetched. -/
def PaginationTermination.cut (termination : PaginationTermination) (items : List Item) :
    List Item :=
  match termination with
  | .takeItems n => items.take n
  | _ => items

/-- The exchanges so far satisfy a `Take` limit. -/
def PaginationTermination.Satisfied (termination : PaginationTermination)
    (log : List (RequestPlan × Except ε Page)) : Prop :=
  match termination with
  | .takePages n => n ≤ log.length
  | .takeItems n => n ≤ (fetchedItems log).length
  | _ => False

omit [PageItems Page Item] in
/-- Where there is room nothing is cut. -/
theorem PaginationTermination.cut_of_admits {termination : PaginationTermination}
    {items : List Item} (h : termination.Admits items.length) :
    termination.cut items = items := by
  cases termination with
  | takeItems n => exact List.take_of_length_le (Nat.le_of_lt h)
  | _ => rfl

/-- A result that is exact for its termination setting. -/
structure Exact (termination : PaginationTermination) (c : Collected ε Page Item) : Prop where
  items : ∀ {items}, c.result = .ok items → items = termination.cut (fetchedItems c.log)
  requests : ∀ {n}, termination = .takePages n ∨ termination = .hardPageCap n →
    c.log.length ≤ n
  cap : ∀ {n}, n ≤ usizeMax → termination = .hardItemCap n →
    ((∃ error, c.result = .error (.own error) ∧ error.IsItemLimit) ↔
      n < (fetchedItems c.log).length)
  stops : ∀ {k}, k < c.log.length → ¬ termination.Satisfied (c.log.take k)

/-- A run that sends nothing is exact. -/
theorem exact_unsent {termination : PaginationTermination}
    {result : Except (CollectError ε) (List Item)}
    (hitems : ∀ {items}, result = .ok items → items = [])
    (herror : ∀ {error}, result = .error (.own error) → ¬ error.IsItemLimit) :
    Exact termination (⟨result, []⟩ : Collected ε Page Item) where
  items h := by
    rw [hitems h]
    cases termination <;> simp [PaginationTermination.cut, fetchedItems]
  requests _ := Nat.zero_le _
  cap _ _ := by
    constructor
    · intro h
      obtain ⟨error, he, hlimit⟩ := h
      exact absurd hlimit (herror he)
    · intro h
      simp [fetchedItems] at h
  stops h := by simp at h

/-- A run that ends with an error of its own before it sends anything. -/
theorem exact_unsent_own {termination : PaginationTermination} {error : ApiClientError}
    (h : ¬ error.IsItemLimit) :
    Exact termination (⟨.error (.own error), []⟩ : Collected ε Page Item) :=
  exact_unsent (by simp) (fun he => by
    rw [Except.error.injEq, CollectError.own.injEq] at he
    rwa [← he])

section leave

variable {endpoint : PaginatedEndpoint ε E R Page} {opts : RequestOptions}
  {termination : PaginationTermination} {ctx : ErrorContext} {answers : Nat → Except ε Page}
  {s : CollectState ε E R Page Item}

/-- The count is that of the items fetched. -/
theorem Collecting.length_fetchedItems (hc : Collecting termination s) :
    (fetchedItems s.log : List Item).length = s.itemsCount := by
  rw [← hc.out, hc.count]

/-- And stays so with one more page. -/
theorem Collecting.length_fetchedItems_page (hc : Collecting termination s) (call : RequestPlan)
    (page : Page) : (fetchedItems (s.log ++ [(call, .ok page)]) : List Item).length =
      s.itemsCount + PageItems.itemCount page := by
  rw [fetchedItems_concat_ok, List.length_append, hc.length_fetchedItems,
    PageItems.length_intoItems]

/-- At the head of the loop no `Take` limit has been satisfied yet. -/
theorem Collecting.not_satisfied (hc : Collecting termination s) {k : Nat}
    (hk : k ≤ s.log.length) : ¬ termination.Satisfied (s.log.take k) := by
  cases termination with
  | takePages n =>
      have hn : s.pageIndex < n := hc.pages
      have hturns := hc.turns
      simp only [PaginationTermination.Satisfied, List.length_take]
      omega
  | takeItems n =>
      have hn : s.itemsCount < n := hc.items
      have hle : (fetchedItems (s.log.take k) : List Item).length ≤ (fetchedItems s.log).length :=
        length_fetchedItems_take_le s.log k
      have hlen := hc.length_fetchedItems
      simp only [PaginationTermination.Satisfied]
      omega
  | _ => exact id

/-- No start of the log satisfied the termination, also after one more exchange. -/
theorem Collecting.stops_concat (hc : Collecting termination s)
    (exchange : RequestPlan × Except ε Page) {k : Nat}
    (hk : k < (s.log ++ [exchange]).length) :
    ¬ termination.Satisfied ((s.log ++ [exchange]).take k) := by
  rw [List.length_append, List.length_singleton] at hk
  have hk' : k ≤ s.log.length := by omega
  rw [List.take_append_of_le_length hk']
  exact hc.not_satisfied hk'

/-- There is another page to fetch under a limit on pages. -/
theorem Collecting.pageIndex_lt (hc : Collecting termination s) {n : Nat}
    (h : termination = .takePages n ∨ termination = .hardPageCap n) : s.pageIndex < n := by
  have hpages := hc.pages
  cases h with
  | inl h => rw [h] at hpages; exact hpages
  | inr h => rw [h] at hpages; exact hpages

omit [PageItems Page Item] in
/-- While the item limits admit the total, the cap is neither passed nor
reported. -/
theorem cap_iff_of_admits {result : Except (CollectError ε) (List Item)} {total n : Nat}
    (hroom : termination.Admits total) (ht : termination = .hardItemCap n)
    (herror : ∀ {error}, result = .error (.own error) → ¬ error.IsItemLimit) :
    (∃ error, result = .error (.own error) ∧ error.IsItemLimit) ↔ n < total := by
  rw [ht] at hroom
  constructor
  · intro h
    obtain ⟨error, he, hlimit⟩ := h
    exact absurd hlimit (herror he)
  · intro hlt
    exact absurd hlt (Nat.not_lt_of_le hroom)

/-- A turn that stops before its request. -/
theorem Collecting.exact_refused (hc : Collecting termination s) {error : CollectError ε}
    (h : ∀ error', error = .own error' → ¬ error'.IsItemLimit) :
    Exact termination (⟨.error error, s.log⟩ : Collected ε Page Item) where
  items h := by contradiction
  requests h := by
    rw [hc.turns]
    exact Nat.le_of_lt (hc.pageIndex_lt h)
  cap _ ht := by
    rw [hc.length_fetchedItems]
    exact cap_iff_of_admits hc.items ht (fun he => h _ (Except.error.inj he))
  stops hk := hc.not_satisfied (Nat.le_of_lt hk)

/-- A turn that sent its request and left the loop. -/
theorem Collecting.exact_concat (hc : Collecting termination s)
    {exchange : RequestPlan × Except ε Page} {result : Except (CollectError ε) (List Item)}
    (hitems : ∀ {items}, result = .ok items →
      items = termination.cut (fetchedItems (s.log ++ [exchange])))
    (hcap : ∀ {n}, n ≤ usizeMax → termination = .hardItemCap n →
      ((∃ error, result = .error (.own error) ∧ error.IsItemLimit) ↔
        n < (fetchedItems (s.log ++ [exchange]) : List Item).length)) :
    Exact termination (⟨result, s.log ++ [exchange]⟩ : Collected ε Page Item) where
  items h := hitems h
  requests h := by
    rw [List.length_append, List.length_singleton, hc.turns]
    exact hc.pageIndex_lt h
  cap hn ht := hcap hn ht
  stops hk := hc.stops_concat exchange hk

/-- A page that ends the run with an error. -/
theorem Collecting.exact_errored (hc : Collecting termination s)
    {s' : CollectState ε E R Page Item} {call : RequestPlan} {expected : Option NonZeroUsize}
    {page : Page} {error : CollectError ε} (hs : Prepared s s')
    (h : PageSpec endpoint termination ctx s' expected page (.error error)) :
    Exact termination
      (⟨.error error, s.log ++ [(call, .ok page)]⟩ : Collected ε Page Item) := by
  refine hc.exact_concat (fun he => by contradiction) (fun {n} hn ht => ?_)
  rw [hc.length_fetchedItems_page, ← hs.itemsCount]
  cases h with
  | overflowed hover =>
      refine iff_of_true ⟨itemsOverflow ctx, rfl, ctx, .inl rfl⟩ ?_
      omega
  | @capped n' ht' hlt =>
      rw [ht, PaginationTermination.hardItemCap.injEq] at ht'
      exact iff_of_true ⟨_, rfl, ctx, .inr ⟨_, _, _, rfl⟩⟩ (ht' ▸ hlt)
  | overran ht' hlt =>
      rw [ht] at ht'
      contradiction
  | advanceFailed hroom hstop hadv => exact cap_iff_of_admits hroom ht (fun he => by simp at he)
  | pageCapped ht' hle =>
      rw [ht] at ht'
      contradiction
  | exhausted hroom hpages =>
      refine cap_iff_of_admits hroom ht (fun he => ?_)
      rw [Except.error.injEq, CollectError.own.injEq] at he
      subst he
      exact not_isItemLimit_pagination (by simp)

/-- A page that ends the run with a result. -/
theorem Collecting.exact_returned (hc : Collecting termination s)
    {s' : CollectState ε E R Page Item} {call : RequestPlan} {expected : Option NonZeroUsize}
    {page : Page} {out : List Item} (hs : Prepared s s')
    (h : PageSpec endpoint termination ctx s' expected page (.ok (.inr out))) :
    Exact termination
      (⟨.ok out, s.log ++ [(call, .ok page)]⟩ : Collected ε Page Item) := by
  have hcount : s'.itemsCount = s'.out.length := by rw [hs.itemsCount, hs.out, hc.count]
  have hroom' : termination.Admits s'.itemsCount := by rw [hs.itemsCount]; exact hc.items
  have hfetched : fetchedItems (s.log ++ [(call, .ok page)]) =
      s'.out ++ PageItems.intoItems page := by
    rw [fetchedItems_concat_ok, hs.out, hc.out]
  have hlen : (s'.out ++ PageItems.intoItems page).length =
      s'.itemsCount + PageItems.itemCount page := by
    rw [List.length_append, PageItems.length_intoItems, hcount]
  have hexact : termination.Admits (s'.itemsCount + PageItems.itemCount page) →
      out = s'.out ++ PageItems.intoItems page →
      Exact termination (⟨.ok out, s.log ++ [(call, .ok page)]⟩ : Collected ε Page Item) := by
    intro hroom hout
    refine hc.exact_concat (fun he => ?_) (fun hn ht => ?_)
    · rw [Except.ok.injEq] at he
      rw [← he, hfetched, termination.cut_of_admits (by rw [hlen]; exact hroom), hout]
    · rw [hfetched, hlen]
      exact cap_iff_of_admits hroom ht (fun he => by contradiction)
  cases h with
  | empty hzero hfit =>
      have hnil : PageItems.intoItems page = [] := by
        rw [← List.length_eq_zero_iff, PageItems.length_intoItems, hzero]
      exact hexact (by rw [hzero]; exact hroom') (by rw [hnil, List.append_nil])
  | @filled n ht hle =>
      subst ht
      refine hc.exact_concat (fun he => ?_) (fun hn ht' => by contradiction)
      rw [Except.ok.injEq] at he
      have hlt : s'.itemsCount < n := hroom'
      have hall : s'.out.take n = s'.out := List.take_of_length_le (by omega)
      rw [← he, hfetched, PaginationTermination.cut, List.take_append, ← hcount, hall]
  | ended hfit hroom hend => exact hexact hroom rfl
  | taken hfit ht hle hadv => exact hexact (by rw [ht]; trivial) rfl

/-- **A turn that leaves the loop leaves it exactly.** -/
theorem Collecting.exact (hc : Collecting termination s) {c : Collected ε Page Item}
    (h : collectTurn endpoint opts termination ctx answers s = .inr c) :
    Exact termination c := by
  have hspec := collectTurn_spec endpoint opts termination ctx answers s
  rw [h] at hspec
  cases hspec with
  | refused hr => exact hc.exact_refused hr
  | unanswered =>
      refine hc.exact_concat (fun he => by contradiction) (fun hn ht => ?_)
      rw [fetchedItems_concat_error, hc.length_fetchedItems]
      exact cap_iff_of_admits hc.items ht (fun he => by simp at he)
  | errored hs hp => exact hc.exact_errored hs hp
  | returned hs hp => exact hc.exact_returned hs hp

end leave

/-- The loop ends, and exactly. -/
theorem run_exact (endpoint : PaginatedEndpoint ε E R Page) (opts : RequestOptions)
    (ctx : ErrorContext) (answers : Nat → Except ε Page) {termination : PaginationTermination}
    (hruns : termination.Runs) (caps : PaginationCaps) (ep : E) (runtime : R) :
    ∃ c, Loop.run (collectTurn endpoint opts termination ctx answers) maxTurns
        (CollectState.start caps ep runtime : CollectState ε E R Page Item) = some c ∧
      Exact termination c := by
  have hstart : Collecting termination
      (CollectState.start caps ep runtime : CollectState ε E R Page Item) :=
    collecting_start hruns caps ep runtime
  have hends : ∃ c, Loop.run (collectTurn endpoint opts termination ctx answers) maxTurns
      (CollectState.start caps ep runtime) = some c :=
    Loop.run_isSome (I := Collecting termination) (m := fun s => u32Max - s.pageIndex)
      (fun hc ht => by
        obtain ⟨hc', hindex⟩ := hc.turn ht
        have hle := hc'.index
        exact ⟨hc', by omega⟩)
      hstart (by simp only [maxTurns]; omega)
  obtain ⟨c, hrun⟩ := hends
  exact ⟨c, hrun, Loop.run_rule (fun hc ht => (hc.turn ht).1) (fun hc ht => hc.exact ht) hrun
    hstart⟩

/-- A setting that passes the checks of `collect` runs. -/
theorem runs_of_validate {termination : PaginationTermination} {ctx : ErrorContext}
    (hv : validateCollectTermination termination ctx = .ok ())
    (hz : ¬ (termination = .takePages 0 ∨ termination = .takeItems 0)) : termination.Runs := by
  cases termination with
  | hardPageCap n =>
      cases n with
      | zero => simp [validateCollectTermination] at hv
      | succ n => exact ⟨trivial, Nat.succ_pos n⟩
  | hardItemCap n => exact ⟨Nat.zero_le n, trivial⟩
  | takePages n =>
      cases n with
      | zero => simp at hz
      | succ n => exact ⟨trivial, Nat.succ_pos n⟩
  | takeItems n =>
      cases n with
      | zero => simp at hz
      | succ n => exact ⟨Nat.succ_pos n, trivial⟩

/-- A termination that is refused is not refused for its items. -/
theorem not_isItemLimit_of_validate {termination : PaginationTermination} {ctx : ErrorContext}
    {error : ApiClientError} (hv : validateCollectTermination termination ctx = .error error) :
    ¬ error.IsItemLimit := by
  unfold validateCollectTermination at hv
  split at hv
  · rw [Except.error.injEq] at hv
    subst hv
    exact not_isItemLimit_pagination (by simp)
  · rw [Except.error.injEq] at hv
    subst hv
    exact not_isItemLimit_pagination (by simp)
  · contradiction

/-- A run gets past the checks of `collect` and comes to its loop, with a
context for its errors and a runtime to start from. -/
structure EntersLoop (endpoint : PaginatedEndpoint ε E R Page) (caps : PaginationCaps) (ep : E)
    (ctx : ErrorContext) (runtime : R) : Prop where
  planned : ∃ plan, endpoint.plan ep = .ok plan ∧ ctx = plan.errorContext
  valid : validateCollectTermination caps.termination ctx = .ok ()
  wanted : ¬ (caps.termination = .takePages 0 ∨ caps.termination = .takeItems 0)
  started : ∃ initial, endpoint.paginationRuntime ep = some initial ∧
    endpoint.runtime.init initial ep ⟨ctx.endpoint, 0, ctx⟩ = .ok runtime

/-- A collect that enters its loop is the loop. -/
theorem EntersLoop.collect_eq {endpoint : PaginatedEndpoint ε E R Page} {caps : PaginationCaps}
    {ep : E} {ctx : ErrorContext} {runtime : R} (h : EntersLoop endpoint caps ep ctx runtime)
    (opts : RequestOptions) (answers : Nat → Except ε Page) :
    (collect endpoint opts caps answers ep : Option (Collected ε Page Item)) =
      Loop.run (collectTurn endpoint opts caps.termination ctx answers) maxTurns
        (CollectState.start caps ep runtime) := by
  obtain ⟨⟨plan, hplan, rfl⟩, hvalid, hwanted, initial, hinitial, hinit⟩ := h
  simp only [collect, hplan, hvalid, if_neg hwanted, hinitial, collectWithPaginationRuntime, hinit]

/-- `collect` returns, and what it returns is exact. -/
theorem collect_exact (endpoint : PaginatedEndpoint ε E R Page) (opts : RequestOptions)
    (caps : PaginationCaps) (answers : Nat → Except ε Page) (ep : E) :
    ∃ c : Collected ε Page Item,
      collect endpoint opts caps answers ep = some c ∧ Exact caps.termination c := by
  unfold collect
  cases hplan : endpoint.plan ep with
  | error error => exact ⟨_, rfl, exact_unsent (by simp) (by simp)⟩
  | ok plan =>
      simp only
      cases hv : validateCollectTermination caps.termination plan.errorContext with
      | error error => exact ⟨_, rfl, exact_unsent_own (not_isItemLimit_of_validate hv)⟩
      | ok _ =>
          simp only
          split
          · refine ⟨_, rfl, exact_unsent (fun he => ?_) (by simp)⟩
            exact (Except.ok.inj he).symm
          · next hz =>
              have hruns := runs_of_validate hv hz
              cases hr : endpoint.paginationRuntime ep with
              | none =>
                  simp only
                  split
                  · exact ⟨_, rfl, exact_unsent_own (not_isItemLimit_pagination (by simp))⟩
                  · exact ⟨_, rfl, exact_unsent_own (not_isItemLimit_pagination (by simp))⟩
              | some runtime =>
                  simp only [collectWithPaginationRuntime]
                  split
                  · exact ⟨_, rfl, exact_unsent (by simp) (by simp)⟩
                  · exact run_exact endpoint opts _ answers hruns caps ep _

/-- **Collection is exact**: for every controller, endpoint, termination
setting and sequence of answers, `collect` returns; a success is the
concatenation of the items of the fetched pages in request order, cut to the
first `n` for `TakeItems(n)`; `TakePages(n)` and `HardPageCap(n)` send at
most `n` requests; `HardItemCap(n)` returns at most `n` items and reports the
item limit exactly when the fetched pages hold more than `n`; no request
follows the page that satisfies a `Take` limit; and the answers are taken from
the first on, each once. -/
theorem collect_is_exact (endpoint : PaginatedEndpoint ε E R Page) (opts : RequestOptions)
    (caps : PaginationCaps) (answers : Nat → Except ε Page) (ep : E) :
    ∃ c : Collected ε Page Item, collect endpoint opts caps answers ep = some c ∧
      (∀ items, c.result = .ok items → items = caps.termination.cut (fetchedItems c.log)) ∧
      (∀ n, caps.termination = .takePages n ∨ caps.termination = .hardPageCap n →
        c.log.length ≤ n) ∧
      (∀ n ≤ usizeMax, caps.termination = .hardItemCap n →
        (∀ items, c.result = .ok items → items.length ≤ n) ∧
        ((∃ error, c.result = .error (.own error) ∧ error.IsItemLimit) ↔
          n < (fetchedItems c.log).length)) ∧
      (∀ k < c.log.length, ¬ caps.termination.Satisfied (c.log.take k)) ∧
      Answered answers c.log := by
  obtain ⟨c, hrun, hexact⟩ : ∃ c : Collected ε Page Item,
      collect endpoint opts caps answers ep = some c ∧ Exact caps.termination c :=
    collect_exact endpoint opts caps answers ep
  refine ⟨c, hrun, fun items => hexact.items, fun n => hexact.requests, fun n hn ht => ?_,
    fun k => hexact.stops, collect_answered hrun⟩
  have hcap := hexact.cap hn ht
  refine ⟨fun items hok => ?_, hcap⟩
  have hitems : items = fetchedItems c.log := by
    rw [hexact.items hok, ht]
    rfl
  rw [hitems]
  -- A total above the cap would have been reported.
  refine Nat.le_of_not_lt (fun hlt => ?_)
  obtain ⟨error, he, _⟩ := hcap.mpr hlt
  rw [hok] at he
  contradiction

/-! ## the last page of `TakePages` -/

/-- The turn of the n-th page under `TakePages(n)` ends the run.  It returns
the collected items if the total fits and either the page itself ends the
run or the controller advances past it without an error. -/
theorem handlePage_last (endpoint : PaginatedEndpoint ε E R Page) (ctx : ErrorContext)
    {s : CollectState ε E R Page Item} {n : Nat} (expected : Option NonZeroUsize) (page : Page)
    (hn : s.pageIndex + 1 = n) :
    ∃ result : Except (CollectError ε) (List Item),
      handlePage endpoint (.takePages n) ctx s expected page = result.map .inr ∧
      (result = .ok (s.out ++ PageItems.intoItems page) ↔
        s.itemsCount + PageItems.itemCount page ≤ usizeMax ∧
        (commonContentStop (PageItems.itemCount page) expected = true ∨
          ∃ advanced, advancePage endpoint ctx s page = .ok advanced)) := by
  have hspec := handlePage_spec endpoint (.takePages n) ctx s expected page
  cases hp : handlePage endpoint (.takePages n) ctx s expected page with
  | error error =>
      rw [hp] at hspec
      refine ⟨.error error, rfl, iff_of_false (by simp) (fun h => ?_)⟩
      obtain ⟨hfit, hgo⟩ := h
      cases hspec with
      | overflowed hover => omega
      | capped ht hlt => contradiction
      | overran ht hlt => contradiction
      | advanceFailed hroom hstop hadv =>
          cases hgo with
          | inl h => rw [hstop] at h; contradiction
          | inr h =>
              obtain ⟨advanced, h⟩ := h
              rw [hadv] at h
              contradiction
      | pageCapped ht hle => contradiction
      | exhausted hroom hpages =>
          have hlt : s.pageIndex + 1 < n := hpages
          omega
  | ok turn =>
      rw [hp] at hspec
      cases turn with
      | inl s' =>
          cases hspec with
          | continued hroom hpages hle =>
              have hlt : s.pageIndex + 1 < n := hpages
              omega
      | inr out =>
          refine ⟨.ok out, rfl, ?_⟩
          cases hspec with
          | empty hzero hfit =>
              have hnil : PageItems.intoItems page = [] := by
                rw [← List.length_eq_zero_iff, PageItems.length_intoItems, hzero]
              refine iff_of_true (by rw [hnil, List.append_nil]) ⟨by omega, .inl ?_⟩
              rw [hzero]
              rfl
          | filled ht hle => contradiction
          | ended hfit hroom hend =>
              refine iff_of_true rfl ⟨hfit, ?_⟩
              cases hend with
              | inl h => exact .inl h
              | inr h =>
                  obtain ⟨runtime, ep, h⟩ := h
                  exact .inr ⟨_, h⟩
          | taken hfit ht hle hadv =>
              obtain ⟨runtime, ep, h⟩ := hadv
              exact iff_of_true rfl ⟨hfit, .inr ⟨_, h⟩⟩

/-- **`TakePages` stops cleanly, if the controller can go on**: a run of
`TakePages(n)` whose n-th page has been fetched and decoded sends nothing
more, and it returns the items of its n pages exactly when their number fits
a `usize` and the n-th page is empty or short, or the controller's `advance`
past it does not fail. -/
theorem takePages_last_page {endpoint : PaginatedEndpoint ε E R Page} {opts : RequestOptions}
    {n : Nat} {detectLoops : Bool} {answers : Nat → Except ε Page} {ep : E} {plan : RequestPlan}
    {runtime runtime' : R} {s s' : CollectState ε E R Page Item} {call : PageCall} {page : Page}
    (hplan : endpoint.plan ep = .ok plan)
    (hruntime : endpoint.paginationRuntime ep = some runtime)
    (hinit : endpoint.runtime.init runtime ep ⟨plan.name, 0, plan.errorContext⟩ = .ok runtime')
    (hreach : Loop.Reaches
      (collectTurn endpoint opts (.takePages n) plan.errorContext answers)
      (CollectState.start ⟨.takePages n, detectLoops⟩ ep runtime') s)
    (hlast : s.pageIndex + 1 = n)
    (hcall : nextCall endpoint opts plan.errorContext s = .ok (s', call))
    (hpage : answers s.pageIndex = .ok page) :
    ∃ c : Collected ε Page Item,
      collect endpoint opts ⟨.takePages n, detectLoops⟩ answers ep = some c ∧
      c.log.length = n ∧ (∀ exchange ∈ c.log, ∃ page, exchange.2 = .ok page) ∧
      (c.result = .ok (fetchedItems c.log) ↔
        s.itemsCount + PageItems.itemCount page ≤ usizeMax ∧
        (commonContentStop (PageItems.itemCount page) call.expectedItems = true ∨
          ∃ advanced, advancePage endpoint plan.errorContext s' page = .ok advanced)) := by
  have hruns : (PaginationTermination.takePages n).Runs := ⟨trivial, by
    show 0 < n
    omega⟩
  have hc : Collecting (.takePages n) s :=
    hreach.invariant (fun hc ht => (hc.turn ht).1) (collecting_start hruns _ _ _)
  have hs := prepared_of_nextCall hcall
  have hlast' : s'.pageIndex + 1 = n := by rw [hs.pageIndex, hlast]
  obtain ⟨result, hresult, hiff⟩ :=
    handlePage_last endpoint plan.errorContext call.expectedItems page hlast'
  -- The last turn leaves the loop with that result.
  have hturn : collectTurn endpoint opts (.takePages n) plan.errorContext answers s =
      .inr ⟨result, s.log ++ [(call.call, .ok page)]⟩ := by
    simp only [collectTurn, hcall, hs.pageIndex, hpage, hresult, hs.log]
    cases result <;> rfl
  obtain ⟨c, hrun, _⟩ := run_exact endpoint opts plan.errorContext answers hruns
    ⟨.takePages n, detectLoops⟩ ep runtime'
  have hcollect : collect endpoint opts ⟨.takePages n, detectLoops⟩ answers ep = some c := by
    have hv : validateCollectTermination (.takePages n) plan.errorContext = .ok () := rfl
    have hz : ¬ (PaginationTermination.takePages n = .takePages 0 ∨
        PaginationTermination.takePages n = .takeItems 0) := by
      simp only [PaginationTermination.takePages.injEq, reduceCtorEq, or_false]
      omega
    have hloop : EntersLoop endpoint ⟨.takePages n, detectLoops⟩ ep plan.errorContext runtime' :=
      ⟨⟨plan, hplan, rfl⟩, hv, hz, runtime, hruntime, hinit⟩
    rw [hloop.collect_eq, hrun]
  obtain rfl := Loop.run_eq_of_reaches hreach hrun hturn
  refine ⟨_, hcollect, ?_, decoded_concat hc.decoded, ?_⟩
  · rw [List.length_append, List.length_singleton, hc.turns, hlast]
  · rw [fetchedItems_concat_ok, ← hc.out, ← hs.out, hiff, hs.itemsCount]

end page

/-! ### an offset endpoint -/

instance : PaginateBinding OffsetLimitPagination OffsetLimitPagination where
  loadPagination endpoint := endpoint
  storePagination _ pagination := pagination

/-- An endpoint that is its own offset and limit, and sends them as its
query. -/
def offsetEndpoint : PaginatedEndpoint ApiClientError OffsetLimitPagination
    (Option OffsetLimitPagination) (List Nat) where
  plan endpoint := .ok {
    name := "ListItems"
    method := .get
    scheme := "https"
    host := "api.example.com"
    path := "/items"
    query := [("offset", toString endpoint.offset), ("limit", toString endpoint.limit)]
    headers := []
    pagination := true
    overrides := ⟨none, none, 0⟩ }
  paginationRuntime _ := some none
  runtime := paginationRuntimeAdapter _ _ _

/-- A full first page: the run advances to offset 2 and stops there. -/
theorem takePages_last_page_full :
    ∃ c : Collected ApiClientError (List Nat) Nat,
      collect offsetEndpoint .default ⟨.takePages 1, true⟩ (fun _ => .ok [7, 8]) ⟨0, 2⟩ =
        some c ∧ c.log.length = 1 ∧ c.result = .ok (fetchedItems c.log) := by
  obtain ⟨c, hrun, hlen, _, hiff⟩ := @takePages_last_page _ _ _ _ Nat _ offsetEndpoint .default
    1 true (fun _ => .ok [7, 8]) ⟨0, 2⟩ _ _ _ _ _ _ _ rfl rfl rfl .refl rfl rfl rfl
  exact ⟨c, hrun, hlen, hiff.mpr ⟨by decide, .inr ⟨_, rfl⟩⟩⟩

/-- The offset of the page that would come next does not fit a `u64`: the
page that was asked for is fetched, decoded and lost. -/
theorem takePages_last_page_overflow :
    ∃ c : Collected ApiClientError (List Nat) Nat,
      collect offsetEndpoint .default ⟨.takePages 1, true⟩ (fun _ => .ok [7, 8])
        ⟨u64Max - 1, 2⟩ = some c ∧
      c.log.map (·.2) = [.ok [7, 8]] ∧
      c.result = .error (.passed
        (.pagination advanceErrorContext ⟨.overflow, "offset/limit: offset overflow"⟩)) ∧
      c.result ≠ .ok (fetchedItems c.log) := by
  refine ⟨_, rfl, rfl, rfl, ?_⟩
  intro h
  contradiction

end Concord
