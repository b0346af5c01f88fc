import Concord.Lib.Loop
import Concord.Pagination

/-!
# Concord.Request

Collecting a paginated endpoint (`concord_core/src/request.rs`).

`collect` plans the endpoint once to learn its name, checks the termination
setting, and hands over to the loop of `collect_with_pagination_runtime`.  A
turn of that loop is cut at the point where the request leaves: `nextCall` is
the part before it, `handlePage` the part after a page has been decoded.

The endpoint, its controller and the server are parameters.  The k-th request
of a run is answered by `answers k`, an error being anything that keeps the
page from being decoded.  The loop keeps a log of the calls it sent and of
what came back, which the code does not keep; an error of the loop's own is
told apart from one that it passed on.
-/

namespace Concord

open Checked

/-! ## request plans -/

inductive DebugLevel where
  | none
  | v
  | vv
  deriving DecidableEq, Repr

inductive TimeoutOverride where
  | inherit
  | clear
  | set (timeout : Nat)
  deriving DecidableEq, Repr

structure RequestOptions where
  debugLevel : Option DebugLevel
  timeoutOverride : TimeoutOverride
  deriving DecidableEq, Repr

def RequestOptions.default : RequestOptions := ⟨none, .inherit⟩

structure RequestOverrides where
  debugLevel : Option DebugLevel
  timeout : Option Nat
  pageIndex : Nat
  deriving DecidableEq, Repr

/-- `RequestPlan`, with the fields of its endpoint plan that the loop reads. -/
structure RequestPlan where
  name : String
  method : Method
  scheme : String
  host : String
  path : String
  query : List (String × String)
  headers : List (HeaderName × HeaderValue)
  pagination : Bool
  overrides : RequestOverrides
  deriving DecidableEq, Repr

def RequestOptions.applyTo (opts : RequestOptions) (plan : RequestPlan) (pageIndex : Nat) :
    RequestPlan :=
  { plan with
    overrides :=
      { timeout :=
          match opts.timeoutOverride with
          | .inherit => plan.overrides.timeout
          | .clear => none
          | .set timeout => some timeout
        debugLevel := opts.debugLevel
        pageIndex := pageIndex } }

structure PaginationRequestIdentity where
  endpoint : String
  method : Method
  scheme : String
  host : String
  path : String
  query : List (String × String)
  headers : List (HeaderName × HeaderValue)
  deriving DecidableEq, Repr

/-- Names first, values second. -/
def headerOrder (a b : HeaderName × HeaderValue) : Bool :=
  if a.1 = b.1 then decide (a.2 ≤ b.2) else decide (a.1 ≤ b.1)

def paginationRequestIdentity (plan : RequestPlan) : PaginationRequestIdentity where
  endpoint := plan.name
  method := plan.method
  scheme := plan.scheme
  host := plan.host
  path := plan.path
  query := plan.query
  headers := plan.headers.mergeSort headerOrder

/-! ## errors -/

/-- An error of `collect`: raised by the loop, or passed on from the
endpoint, its controller or the execution of a request. -/
inductive CollectError (ε : Type*) where
  | own (error : ApiClientError)
  | passed (error : ε)
  deriving DecidableEq, Repr

def itemsOverflow (ctx : ErrorContext) : ApiClientError :=
  .pagination ctx ⟨.overflow, "items overflow"⟩

def hardItemCapError (ctx : ErrorContext) (maxItems seenItems pageIndex : Nat) :
    ApiClientError :=
  .paginationLimit ctx ⟨.itemLimitExceeded,
    s!"pagination hard item cap exceeded (max={maxItems} seen={seenItems} page_index={pageIndex})"⟩

def hardPageCapError (ctx : ErrorContext) (maxPages itemsCount fetchedPages : Nat) :
    ApiClientError :=
  .paginationLimit ctx ⟨.pageLimitExceeded,
    s!"pagination hard page cap exceeded (max={maxPages} seen_items={itemsCount} page_index={fetchedPages})"⟩

def validateCollectTermination (termination : PaginationTermination) (ctx : ErrorContext) :
    Except ApiClientError Unit :=
  match termination with
  | .hardPageCap 0 => .error (.pagination ctx ⟨.invalidSize,
      "hard pagination page cap must be greater than zero"⟩)
  | .hardItemCap 0 => .error (.pagination ctx ⟨.invalidSize,
      "hard pagination item cap must be greater than zero"⟩)
  | _ => .ok ()

/-! ## decisions on a page -/

def commonContentStop (itemCount : Nat) (expectedItems : Option NonZeroUsize) : Bool :=
  itemCount == 0 || expectedItems.any (fun expected => itemCount < expected.get)

structure PreAdvanceDecision where
  commonStop : Bool
  takeItemsDone : Bool
  hardItemCapExceeded : Option Nat
  deriving DecidableEq, Repr

def preAdvanceDecision (termination : PaginationTermination) (itemsCount itemCount : Nat)
    (expectedItems : Option NonZeroUsize) (ctx : ErrorContext) :
    Except ApiClientError PreAdvanceDecision :=
  match checkedAdd usizeMax itemsCount itemCount with
  | none => .error (itemsOverflow ctx)
  | some hintedTotal =>
    .ok {
      hardItemCapExceeded :=
        match termination with
        | .hardItemCap maxItems => if hintedTotal > maxItems then some hintedTotal else none
        | _ => none
      takeItemsDone :=
        match termination with
        | .takeItems maxItems => decide (itemCount ≥ maxItems - itemsCount)
        | _ => false
      commonStop := commonContentStop itemCount expectedItems }

/-! ## the loop -/

/-- A paginated endpoint: how it is planned and what drives its pages. -/
structure PaginatedEndpoint (ε E R Page : Type*) where
  plan : E → Except ε RequestPlan
  paginationRuntime : E → Option R
  runtime : PaginationRuntime ε E R Page

/-- The local variables of the loop, and the log of its exchanges. -/
structure CollectState (ε E R Page Item : Type*) where
  ep : E
  runtime : R
  out : List Item
  seen : Option (List ProgressKey)
  seenRequestIdentities : List PaginationRequestIdentity
  itemsCount : Nat
  pageIndex : Nat
  log : List (RequestPlan × Except ε Page)

/-- What `collect` returned, and the exchanges it took. -/
structure Collected (ε Page Item : Type*) where
  result : Except (CollectError ε) (List Item)
  log : List (RequestPlan × Except ε Page)

/-- The request of a turn: the call, and how many items the controller
expects on its page. -/
structure PageCall where
  call : RequestPlan
  expectedItems : Option NonZeroUsize

variable {ε E R Page Item : Type*}

/-- `seen.insert(k)` of the loop detection, if it is on and there is a key. -/
def recordProgressKey (ctx : ErrorContext) (seen : Option (List ProgressKey))
    (key : Option ProgressKey) (pageIndex : Nat) :
    Except ApiClientError (Option (List ProgressKey)) :=
  match seen, key with
  | some seen, some k =>
    if k ∈ seen then
      .error (.pagination ctx ⟨.nonProgress,
        s!"loop detected (page_index={pageIndex} {k.diagnosticSummary})"⟩)
    else .ok (some (k :: seen))
  | seen, _ => .ok seen

/-- `PaginationRunState::ensure_progress`. -/
def ensureProgress (ctx : ErrorContext) (seen : List PaginationRequestIdentity)
    (currentIdentity : PaginationRequestIdentity) (pageIndex : Nat) :
    Except ApiClientError (List PaginationRequestIdentity) :=
  if currentIdentity ∈ seen then
    .error (.pagination ctx ⟨.nonProgress,
      s!"non-progress detected (page_index={pageIndex} request repeated)"⟩)
  else .ok (currentIdentity :: seen)

/-- The turn up to the request. -/
def nextCall (endpoint : PaginatedEndpoint ε E R Page) (opts : RequestOptions)
    (ctx : ErrorContext) (s : CollectState ε E R Page Item) :
    Except (CollectError ε) (CollectState ε E R Page Item × PageCall) :=
  match recordProgressKey ctx s.seen (endpoint.runtime.progressKey s.runtime) s.pageIndex with
  | .error error => .error (.own error)
  | .ok seen =>
    match endpoint.runtime.apply s.runtime s.ep ⟨ctx.endpoint, s.pageIndex, ctx⟩ with
    | .error error => .error (.passed error)
    | .ok (runtime, ep) =>
      let expectedItems := endpoint.runtime.expectedItemsPerPage runtime
      match endpoint.plan ep with
      | .error error => .error (.passed error)
      | .ok plan =>
        let call := opts.applyTo plan s.pageIndex
        match ensureProgress ctx s.seenRequestIdentities (paginationRequestIdentity call)
            s.pageIndex with
        | .error error => .error (.own error)
        | .ok identities =>
          .ok ({ s with
            ep := ep
            runtime := runtime
            seen := seen
            seenRequestIdentities := identities }, ⟨call, expectedItems⟩)

/-- The controller's say on a page, unless the page already settles it. -/
def advanceControl (endpoint : PaginatedEndpoint ε E R Page) (ctx : ErrorContext)
    (s : CollectState ε E R Page Item) (page : Page) (itemCount : Nat)
    (preAdvance : PreAdvanceDecision) : Except ε (R × E × Control) :=
  if preAdvance.commonStop ∨ preAdvance.takeItemsDone then .ok (s.runtime, s.ep, .stop)
  else
    match endpoint.runtime.advance s.runtime s.ep ctx page
        ⟨ctx.endpoint, s.pageIndex, itemCount⟩ with
    | .error error => .error error
    | .ok (runtime, ep, decision) => .ok (runtime, ep, decision.toControl)

/-- Add the items of a page to the output.  `.inl` is the new running total
and output, `.inr` the output to return at once. -/
def collectItems (termination : PaginationTermination) (ctx : ErrorContext)
    (itemsCount pageLen pageIndex : Nat) (out items : List Item) :
    Except ApiClientError ((Nat × List Item) ⊕ List Item) :=
  match termination with
  | .hardItemCap maxItems =>
    match checkedAdd usizeMax itemsCount pageLen with
    | none => .error (itemsOverflow ctx)
    | some newTotal =>
      if newTotal > maxItems then .error (hardItemCapError ctx maxItems newTotal pageIndex)
      else .ok (.inl (newTotal, out ++ items))
  | .takeItems maxItems =>
    if maxItems < itemsCount then .error (itemsOverflow ctx)
    else
      let remaining := maxItems - itemsCount
      if pageLen ≥ remaining then .ok (.inr (out ++ items.take remaining))
      else
        match checkedAdd usizeMax itemsCount pageLen with
        | none => .error (itemsOverflow ctx)
        | some newTotal => .ok (.inl (newTotal, out ++ items))
  | _ =>
    match checkedAdd usizeMax itemsCount pageLen with
    | none => .error (itemsOverflow ctx)
    | some newTotal => .ok (.inl (newTotal, out ++ items))

/-- The end of the turn: `some` is the index of the next page, `none` a clean
stop.  `page_index as usize + 1` does not overflow a 64-bit `usize`. -/
def nextPageIndex (termination : PaginationTermination) (ctx : ErrorContext)
    (itemsCount pageIndex : Nat) (control : Control) : Except ApiClientError (Option Nat) :=
  let fetchedPages := pageIndex + 1
  let next : Except ApiClientError (Option Nat) :=
    match checkedAdd u32Max pageIndex 1 with
    | none => .error (.pagination ctx ⟨.overflow, "page index overflow"⟩)
    | some pageIndex => .ok (some pageIndex)
  match control with
  | .continue =>
    match termination with
    | .hardPageCap maxPages =>
      if fetchedPages ≥ maxPages then .error (hardPageCapError ctx maxPages itemsCount fetchedPages)
      else next
    | .takePages maxPages => if fetchedPages ≥ maxPages then .ok none else next
    | _ => next
  | .stop => .ok none

/-- The turn from a decoded page on: go round again or return. -/
def handlePage [PageItems Page Item] (endpoint : PaginatedEndpoint ε E R Page)
    (termination : PaginationTermination) (ctx : ErrorContext)
    (s : CollectState ε E R Page Item) (expectedItems : Option NonZeroUsize) (page : Page) :
    Except (CollectError ε) (CollectState ε E R Page Item ⊕ List Item) :=
  let pageLen := PageItems.itemCount page
  match preAdvanceDecision termination s.itemsCount pageLen expectedItems ctx with
  | .error error => .error (.own error)
  | .ok preAdvance =>
    match termination, preAdvance.hardItemCapExceeded with
    | .hardItemCap maxItems, some newTotal =>
      .error (.own (hardItemCapError ctx maxItems newTotal s.pageIndex))
    | _, _ =>
      match advanceControl endpoint ctx s page pageLen preAdvance with
      | .error error => .error (.passed error)
      | .ok (runtime, ep, control) =>
        let items := PageItems.intoItems page
        if pageLen = 0 then .ok (.inr s.out)
        else
          match collectItems termination ctx s.itemsCount pageLen s.pageIndex s.out items with
          | .error error => .error (.own error)
          | .ok (.inr out) => .ok (.inr out)
          | .ok (.inl (itemsCount, out)) =>
            if commonContentStop pageLen expectedItems then .ok (.inr out)
            else
              match nextPageIndex termination ctx itemsCount s.pageIndex control with
              | .error error => .error (.own error)
              | .ok none => .ok (.inr out)
              | .ok (some pageIndex) =>
                .ok (.inl { s with
                  runtime := runtime
                  ep := ep
                  out := out
                  itemsCount := itemsCount
                  pageIndex := pageIndex })

/-- One turn of the loop: prepare the call, send it, handle the page. -/
def collectTurn [PageItems Page Item] (endpoint : PaginatedEndpoint ε E R Page)
    (opts : RequestOptions) (termination : PaginationTermination) (ctx : ErrorContext)
    (answers : Nat → Except ε Page) (s : CollectState ε E R Page Item) :
    CollectState ε E R Page Item ⊕ Collected ε Page Item :=
  match nextCall endpoint opts ctx s with
  | .error error => .inr ⟨.error error, s.log⟩
  | .ok (s, ⟨call, expectedItems⟩) =>
    let answer := answers s.pageIndex
    let log := s.log ++ [(call, answer)]
    match answer with
    | .error error => .inr ⟨.error (.passed error), log⟩
    | .ok page =>
      match handlePage endpoint termination ctx s expectedItems page with
      | .error error => .inr ⟨.error error, log⟩
      | .ok (.inr out) => .inr ⟨.ok out, log⟩
      | .ok (.inl s) => .inl { s with log := log }

/-- The locals of the loop when it is entered. -/
def CollectState.start (caps : PaginationCaps) (ep : E) (runtime : R) :
    CollectState ε E R Page Item where
  ep := ep
  runtime := runtime
  out := []
  seen := if caps.detectLoops then some [] else none
  seenRequestIdentities := []
  itemsCount := 0
  pageIndex := 0
  log := []

/-- The page index is a `u32` that grows with every turn. -/
def maxTurns : Nat := u32Max + 1

def collectWithPaginationRuntime [PageItems Page Item] (endpoint : PaginatedEndpoint ε E R Page)
    (opts : RequestOptions) (caps : PaginationCaps) (ctx : ErrorContext)
    (answers : Nat → Except ε Page) (ep : E) (runtime : R) :
    Option (Collected ε Page Item) :=
  match endpoint.runtime.init runtime ep ⟨ctx.endpoint, 0, ctx⟩ with
  | .error error => some ⟨.error (.passed error), []⟩
  | .ok runtime =>
    Loop.run (collectTurn endpoint opts caps.termination ctx answers) maxTurns
      (CollectState.start caps ep runtime)

def RequestPlan.errorContext (plan : RequestPlan) : ErrorContext := ⟨plan.name, plan.method⟩

/-- `collect`; `none` would be a loop that does not end. -/
def collect [PageItems Page Item] (endpoint : PaginatedEndpoint ε E R Page)
    (opts : RequestOptions) (caps : PaginationCaps) (answers : Nat → Except ε Page) (ep : E) :
    Option (Collected ε Page Item) :=
  match endpoint.plan ep with
  | .error error => some ⟨.error (.passed error), []⟩
  | .ok firstPlan =>
    let ctx := firstPlan.errorContext
    match validateCollectTermination caps.termination ctx with
    | .error error => some ⟨.error (.own error), []⟩
    | .ok _ =>
      if caps.termination = .takePages 0 ∨ caps.termination = .takeItems 0 then
        some ⟨.ok [], []⟩
      else
        match endpoint.paginationRuntime ep with
        | some runtime =>
          collectWithPaginationRuntime endpoint opts caps ctx answers ep runtime
        | none =>
          if firstPlan.pagination then
            some ⟨.error (.own (.pagination ctx ⟨.unsupportedPagination,
              "pagination requires runtime support"⟩)), []⟩
          else
            some ⟨.error (.own (.pagination ctx ⟨.unsupportedPagination,
              "endpoint is not paginated"⟩)), []⟩

end Concord
