import Concord.Lib.Checked
import Concord.Error

/-!
# Concord.Pagination

Pagination controllers (`concord_core/src/pagination.rs` and the modules
under it): the contract a controller offers the collection loop, the adapter
that binds a controller to an endpoint, and the three built-in controllers.

A `&mut self` method takes the controller state and returns the new one; an
error leaves no state behind, because the loop returns with it.
-/

namespace Concord

open Checked

/-! ## settings -/

inductive PaginationTermination where
  | hardPageCap (n : Nat)
  | hardItemCap (n : Nat)
  | takePages (n : Nat)
  | takeItems (n : Nat)
  deriving DecidableEq, Repr

structure PaginationCaps where
  termination : PaginationTermination
  detectLoops : Bool
  deriving DecidableEq, Repr

inductive Control where
  | continue
  | stop
  deriving DecidableEq, Repr

inductive ProgressKey where
  | u64 (value : Nat)
  | str (value : String)
  | bytes (value : List UInt8)
  deriving DecidableEq, Repr

def ProgressKey.diagnosticSummary : ProgressKey → String
  | .u64 _ => "u64 progress key"
  | .str value => s!"string progress key (len={value.utf8ByteSize} bytes)"
  | .bytes value => s!"bytes progress key (len={value.length} bytes)"

inductive PageDecision where
  | continue
  | stop
  deriving DecidableEq, Repr

def PageDecision.toControl : PageDecision → Control
  | .continue => .continue
  | .stop => .stop

structure PageApply where
  endpoint : String
  pageIndex : Nat
  ctx : ErrorContext
  deriving DecidableEq, Repr

structure PageAdvance where
  endpoint : String
  pageIndex : Nat
  itemCount : Nat
  deriving DecidableEq, Repr

/-- `NonZeroUsize`. -/
structure NonZeroUsize where
  get : Nat
  pos : 0 < get
  deriving Repr

def NonZeroUsize.new (value : Nat) : Option NonZeroUsize :=
  if h : 0 < value then some ⟨value, h⟩ else none

/-- `usize::try_from` on a `u64`. -/
def usizeTryFrom (value : Nat) : Option Nat := if value ≤ usizeMax then some value else none

/-! ## contracts -/

/-- `PageItems`, with the contract of `item_count`: it is the exact number of
items of the page. -/
class PageItems (Page : Type*) (Item : outParam (Type*)) where
  itemCount : Page → Nat
  intoItems : Page → List Item
  length_intoItems : ∀ page, (intoItems page).length = itemCount page

instance {T : Type*} : PageItems (List T) T where
  itemCount := List.length
  intoItems := id
  length_intoItems _ := rfl

/-- `EndpointPagination`: a controller whose state is a `P`. -/
class EndpointPagination (P Page : Type*) where
  apply : P → PageApply → Except ApiClientError P
  expectedItemsPerPage : P → Option NonZeroUsize := fun _ => none
  advance : P → Page → PageAdvance → Except ApiClientError (P × PageDecision)
  progressKey : P → Option ProgressKey := fun _ => none

/-- `PaginateBinding`: where an endpoint keeps the state of its controller. -/
class PaginateBinding (E P : Type*) where
  loadPagination : E → P
  storePagination : E → P → E

/-- `PaginationRuntime`: what the collection loop calls.  `R` is the state
of the runtime, `E` the endpoint it reads and writes, `ε` its errors. -/
structure PaginationRuntime (ε E R Page : Type*) where
  init : R → E → PageApply → Except ε R
  apply : R → E → PageApply → Except ε (R × E)
  advance : R → E → ErrorContext → Page → PageAdvance → Except ε (R × E × PageDecision)
  expectedItemsPerPage : R → Option NonZeroUsize
  progressKey : R → Option ProgressKey

/-- `PaginationRuntimeAdapter`: the controller, once `init` has loaded it. -/
def paginationRuntimeAdapter (E P Page : Type*) [PaginateBinding E P]
    [EndpointPagination P Page] : PaginationRuntime ApiClientError E (Option P) Page where
  init pagination endpoint ctx :=
    match pagination with
    | some _ => .error (.pagination ctx.ctx ⟨.runtimeAlreadyInitialized,
        "pagination runtime was initialized more than once"⟩)
    | none => .ok (some (PaginateBinding.loadPagination endpoint))
  apply pagination endpoint ctx :=
    match pagination with
    | none => .error (.pagination ctx.ctx ⟨.runtimeNotInitialized,
        "pagination runtime was used before initialization"⟩)
    | some pagination =>
      match EndpointPagination.apply Page pagination ctx with
      | .error error => .error error
      | .ok pagination =>
        .ok (some pagination, PaginateBinding.storePagination endpoint pagination)
  advance pagination endpoint errCtx page pageCtx :=
    match pagination with
    | none => .error (.pagination errCtx ⟨.runtimeNotInitialized,
        "pagination runtime was used before initialization"⟩)
    | some pagination =>
      match EndpointPagination.advance pagination page pageCtx with
      | .error error => .error error
      | .ok (pagination, decision) =>
        .ok (some pagination, PaginateBinding.storePagination endpoint pagination, decision)
  expectedItemsPerPage pagination :=
    pagination.bind (EndpointPagination.expectedItemsPerPage Page)
  progressKey pagination := pagination.bind (EndpointPagination.progressKey Page)

/-! ## built-in controllers -/

/-- The context of the errors a controller raises on its own in `advance`. -/
def advanceErrorContext : ErrorContext := ⟨"pagination", .get⟩

/-- The size check the three controllers share: the size fits and is not
zero.  `name` is how the controller's messages call it. -/
def validateSize (value : Nat) (name : String) (ctx : ErrorContext) :
    Except ApiClientError NonZeroUsize :=
  match usizeTryFrom value with
  | none => .error (.pagination ctx ⟨.overflow, s!"{name} does not fit in usize"⟩)
  | some value =>
    match NonZeroUsize.new value with
    | none => .error (.pagination ctx ⟨.invalidSize, s!"{name} must be greater than zero"⟩)
    | some size => .ok size

def validatePageSize (value : Nat) (controller : String) (ctx : ErrorContext) :
    Except ApiClientError NonZeroUsize :=
  validateSize value s!"{controller}: page size" ctx

def validatePerPage (value : Nat) (controller : String) (ctx : ErrorContext) :
    Except ApiClientError NonZeroUsize :=
  validateSize value s!"{controller}: per_page" ctx

def validatePagedPageSize (value : Nat) (ctx : ErrorContext) :
    Except ApiClientError NonZeroUsize :=
  validateSize value "paged: page size" ctx

def validatePagedPage (value : Nat) (ctx : ErrorContext) : Except ApiClientError Unit :=
  if value = 0 then .error (.pagination ctx ⟨.invalidSize, "paged: page=0"⟩) else .ok ()

structure OffsetLimitPagination where
  offset : Nat
  limit : Nat
  deriving DecidableEq, Repr

def OffsetLimitPagination.default : OffsetLimitPagination := ⟨0, 20⟩

instance {Page : Type*} : EndpointPagination OffsetLimitPagination Page where
  apply pagination ctx :=
    match validatePageSize pagination.limit "offset/limit" ctx.ctx with
    | .error error => .error error
    | .ok _ => .ok pagination
  expectedItemsPerPage pagination := (usizeTryFrom pagination.limit).bind NonZeroUsize.new
  advance pagination _ _ :=
    match validatePageSize pagination.limit "offset/limit" advanceErrorContext with
    | .error error => .error error
    | .ok _ =>
      match checkedAdd u64Max pagination.offset pagination.limit with
      | none =>
        .error (.pagination advanceErrorContext ⟨.overflow, "offset/limit: offset overflow"⟩)
      | some offset => .ok ({ pagination with offset := offset }, .continue)
  progressKey pagination := some (.u64 pagination.offset)

structure PagedPagination where
  page : Nat
  perPage : Nat
  deriving DecidableEq, Repr

def PagedPagination.default : PagedPagination := ⟨1, 20⟩

instance {Page : Type*} : EndpointPagination PagedPagination Page where
  apply pagination ctx :=
    match validatePagedPage pagination.page ctx.ctx with
    | .error error => .error error
    | .ok _ =>
      match validatePagedPageSize pagination.perPage ctx.ctx with
      | .error error => .error error
      | .ok _ => .ok pagination
  expectedItemsPerPage pagination := (usizeTryFrom pagination.perPage).bind NonZeroUsize.new
  advance pagination _ _ :=
    match validatePagedPageSize pagination.perPage advanceErrorContext with
    | .error error => .error error
    | .ok _ =>
      match checkedAdd u64Max pagination.page 1 with
      | none => .error (.pagination advanceErrorContext ⟨.overflow, "paged: page overflow"⟩)
      | some page => .ok ({ pagination with page := page }, .continue)
  progressKey pagination := some (.u64 pagination.page)

/-- `HasNextCursor` with `Cursor = String`. -/
class HasNextCursor (Page : Type*) where
  nextCursor : Page → Option String

instance {T : Type*} : HasNextCursor (List T) where
  nextCursor _ := none

structure CursorPagination where
  cursor : Option String
  perPage : Nat
  sendCursorOnFirst : Bool
  stopWhenCursorMissing : Bool
  deriving DecidableEq, Repr

def CursorPagination.default : CursorPagination := ⟨none, 20, false, true⟩

instance {Page : Type*} [HasNextCursor Page] : EndpointPagination CursorPagination Page where
  apply pagination ctx :=
    match validatePerPage pagination.perPage "cursor" ctx.ctx with
    | .error error => .error error
    | .ok _ =>
      if ctx.pageIndex = 0 ∧ ¬ pagination.sendCursorOnFirst then
        .ok { pagination with cursor := none }
      else .ok pagination
  expectedItemsPerPage pagination := (usizeTryFrom pagination.perPage).bind NonZeroUsize.new
  advance pagination page _ :=
    match validatePerPage pagination.perPage "cursor" advanceErrorContext with
    | .error error => .error error
    | .ok _ =>
      let pagination := { pagination with cursor := HasNextCursor.nextCursor page }
      if pagination.cursor.isNone ∧ pagination.stopWhenCursorMissing then .ok (pagination, .stop)
      else .ok (pagination, .continue)
  progressKey pagination := pagination.cursor.map .str

end Concord
