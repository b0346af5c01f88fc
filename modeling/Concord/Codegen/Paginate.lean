import Concord.Lib.LastWrite
import Concord.Progress
import Concord.Sema.Policy
import Concord.Lib.Results

/-!
# Concord.Codegen.Paginate

The binding generated for a `paginate` block (`emit_paginate_binding_impl` of
`concord_macros/src/codegen/endpoints/endpoint.rs`), from the assignments and
bindings that `resolve_paginate` makes of the block.

Loading a controller runs the assignments, storing it the bindings.  A block
may assign a controller field, or use an endpoint field, more than once, and
nothing rejects that.  What is stored is then loaded back exactly if for every
bound controller field the last assignment is an endpoint field that no other
controller field takes later.
-/

namespace Concord.Sema

variable {V : Type*}

/-! ## generated code -/

/-- The Rust field an identifier names: `r#type` and `type` are one field. -/
def rustField (id : Ident) : String :=
  match id.toList with
  | 'r' :: '#' :: rest => String.ofList rest
  | _ => id

/-- The fields of a struct, all of one type of values. -/
abbrev Record (V : Type*) := String → V

/-- What the Rust expressions of a block evaluate to.  Assumed: an expression
reads none of the names `pagination` and `ep` around the generated assignments,
which the macro does not refuse, so that its value is the same in each of them.
A format reads fields of the endpoint. -/
structure Evaluation (V : Type*) where
  litStr : String → V
  expr : Expr → V
  fmt : FmtResolved → Record V → V

/-- The right-hand side of a generated assignment. -/
inductive LoadSource where
  | endpointField (field : String)
  | litStr (value : String)
  | expr (expr : Expr)
  | fmt (fmt : FmtResolved)
  deriving DecidableEq, Repr

/-- A statement of `load_pagination`: `pagination.field = source;`, or an
error for the compiler. -/
inductive LoadStatement where
  | assign (field : String) (source : LoadSource)
  | compileError (message : String)
  deriving DecidableEq, Repr

/-- The last binding of a controller field. -/
def paginationBindingForControllerField (p : PaginateResolved) (field : Ident) :
    Option PaginationBindingIr :=
  p.bindings.reverse.find? (·.controllerField = field)

/-- The statement that sets a controller field. -/
def emitPaginateBindingAssignment (p : PaginateResolved) (assign : PaginationAssignmentResolved) :
    LoadStatement :=
  match assign.value with
  | .epField _ =>
    match paginationBindingForControllerField p assign.field with
    | none => .compileError "missing pagination binding in resolved IR"
    | some binding =>
      .assign (rustField assign.field) (.endpointField (rustField binding.endpointRustField))
  | .litStr value => .assign (rustField assign.field) (.litStr value)
  | .otherExpr expr => .assign (rustField assign.field) (.expr expr)
  | .fmt fmt => .assign (rustField assign.field) (.fmt fmt)

/-- What a statement reads. -/
def LoadSource.value (eval : Evaluation V) (endpoint : Record V) : LoadSource → V
  | .endpointField field => endpoint field
  | .litStr text => eval.litStr text
  | .expr code => eval.expr code
  | .fmt format => eval.fmt format endpoint

/-- Code with a `compile_error!` in it does not run. -/
def LoadStatement.run (eval : Evaluation V) (endpoint pagination : Record V) :
    LoadStatement → Record V
  | .assign field source => Function.update pagination field (source.value eval endpoint)
  | .compileError _ => pagination

/-- The generated binding: what `load_pagination` and `store_pagination`
run. -/
def emitPaginateBindingImpl (eval : Evaluation V) (default : Record V) (p : PaginateResolved) :
    PaginateBlock V (Record V) where
  default := default
  assigns := p.assigns.map fun assign endpoint pagination =>
    (emitPaginateBindingAssignment p assign).run eval endpoint pagination
  bindings := p.bindings.map fun binding =>
    (rustField binding.endpointRustField,
      fun pagination => pagination (rustField binding.controllerField))

/-! ## resolved blocks -/

/-- What `resolve_paginate` makes of one assignment: an endpoint field comes
with its binding, and there is no format. -/
inductive Paired : PaginationAssignmentResolved × Option PaginationBindingIr → Prop
  | field {key name rust : Ident} : Paired (⟨key, .epField name⟩, some ⟨key, rust⟩)
  | litStr {key : Ident} {value : String} : Paired (⟨key, .litStr value⟩, none)
  | expr {key : Ident} {expr : Expr} : Paired (⟨key, .otherExpr expr⟩, none)

/-- An assignment that is resolved, with its binding if it has one. -/
theorem paired_of_resolvePaginateAssign {epVars : VarMap} {assign : PaginateAssign}
    {pair : PaginationAssignmentResolved × Option PaginationBindingIr}
    (h : resolvePaginateAssign epVars assign = .ok pair) : Paired pair := by
  unfold resolvePaginateAssign at h
  obtain ⟨lowered, _, h⟩ := Results.bind_eq_ok_iff.mp h
  obtain ⟨value, hvalue, h⟩ := Results.bind_eq_ok_iff.mp h
  cases lowered with
  | litStr text =>
      simp only [resolveValueKind, paginationValueFromValueKind, Except.ok.injEq] at hvalue
      subst hvalue
      cases h
      exact .litStr
  | cxField field =>
      simp [resolveValueKind, paginationValueFromValueKind, fail] at hvalue
  | epField field =>
      simp only [resolveValueKind, paginationValueFromValueKind, Except.ok.injEq] at hvalue
      subst hvalue
      simp only at h
      cases hvar : epVars field with
      | none => simp [hvar, unknownEndpointVar, fail] at h
      | some var =>
          simp only [hvar, Except.ok.injEq] at h
          subst h
          exact .field
  | _ =>
      obtain ⟨_, _, hvalue⟩ := Results.bind_eq_ok_iff.mp hvalue
      cases hvalue
      cases h
      exact .expr

/-- A resolved block is a list of such pairs. -/
theorem pairs_of_resolvePaginate {spec : PaginateSpec} {epVars : VarMap} {p : PaginateResolved}
    (h : resolvePaginate spec epVars = .ok p) :
    ∃ pairs : List (PaginationAssignmentResolved × Option PaginationBindingIr),
      p.assigns = pairs.map Prod.fst ∧ p.bindings = pairs.filterMap Prod.snd ∧
      ∀ pair ∈ pairs, Paired pair := by
  unfold resolvePaginate at h
  obtain ⟨pairs, hpairs, h⟩ := Results.bind_eq_ok_iff.mp h
  cases h
  refine ⟨pairs, rfl, rfl, ?_⟩
  intro pair hmem
  obtain ⟨assign, _, hassign⟩ := Results.exists_of_mem_mapM hpairs hmem
  exact paired_of_resolvePaginateAssign hassign

/-! ## what is loaded and stored -/

/-- The last endpoint field a controller field is bound to. -/
def lastBound (p : PaginateResolved) (field : String) : Option String :=
  LastWrite.last (fun binding => if rustField binding.controllerField = field then
    some (rustField binding.endpointRustField) else none) p.bindings

/-- The controller field that is stored last in an endpoint field. -/
def lastStored (p : PaginateResolved) (field : String) : Option String :=
  LastWrite.last (fun binding => if rustField binding.endpointRustField = field then
    some (rustField binding.controllerField) else none) p.bindings

/-- The value a controller field is assigned last. -/
def lastAssigned (p : PaginateResolved) (field : String) : Option PaginationValueKind :=
  LastWrite.last (fun assign => if rustField assign.field = field then
    some assign.value else none) p.assigns

/-- Every bound controller field is assigned an endpoint field last, and that
endpoint field is bound to no other controller field later. -/
def KeepsBindings (p : PaginateResolved) : Prop :=
  ∀ binding ∈ p.bindings,
    (∃ name, lastAssigned p (rustField binding.controllerField) = some (.epField name)) ∧
    (lastBound p (rustField binding.controllerField)).bind (lastStored p) =
      some (rustField binding.controllerField)

/-- What a store leaves in an endpoint field. -/
theorem store_apply (eval : Evaluation V) (default : Record V) (p : PaginateResolved)
    (endpoint pagination : Record V) (field : String) :
    (emitPaginateBindingImpl eval default p).binding.storePagination endpoint pagination field =
      ((lastStored p field).map pagination).getD (endpoint field) := by
  have hstep : ∀ (fields : Record V) (binding : String × (Record V → V)),
      PaginateBlock.assign pagination fields binding field =
        (if binding.1 = field then some (binding.2 pagination) else none).getD
          (fields field) := by
    intro fields binding
    unfold PaginateBlock.assign
    by_cases hfield : binding.1 = field
    · subst hfield
      simp
    · rw [Function.update_of_ne (fun h => hfield h.symm), if_neg hfield, Option.getD_none]
  have hread := LastWrite.read_foldl _ (fun fields : Record V => fields field) hstep endpoint
    (emitPaginateBindingImpl eval default p).bindings
  simp only [emitPaginateBindingImpl, LastWrite.last_map] at hread
  simp only [lastStored, LastWrite.map_last, apply_ite (Option.map pagination), Option.map_some,
    Option.map_none]
  exact hread

/-- What a statement of `load_pagination` writes to a controller field. -/
def LoadStatement.write (eval : Evaluation V) (endpoint : Record V) (field : String) :
    LoadStatement → Option V
  | .assign target source => if target = field then some (source.value eval endpoint) else none
  | .compileError _ => none

/-- What a load leaves in a controller field. -/
theorem load_apply (eval : Evaluation V) (default : Record V) (p : PaginateResolved)
    (endpoint : Record V) (field : String) :
    (emitPaginateBindingImpl eval default p).binding.loadPagination endpoint field =
      (LastWrite.last (fun assign =>
        (emitPaginateBindingAssignment p assign).write eval endpoint field) p.assigns).getD
        (default field) := by
  have hstep : ∀ (fields : Record V) (assign : PaginationAssignmentResolved),
      (emitPaginateBindingAssignment p assign).run eval endpoint fields field =
        ((emitPaginateBindingAssignment p assign).write eval endpoint field).getD
          (fields field) := by
    intro fields assign
    cases emitPaginateBindingAssignment p assign with
    | compileError message => rfl
    | assign target source =>
        simp only [LoadStatement.run, LoadStatement.write]
        by_cases hfield : target = field
        · subst hfield
          simp
        · rw [Function.update_of_ne (fun h => hfield h.symm), if_neg hfield, Option.getD_none]
  have hload : (emitPaginateBindingImpl eval default p).binding.loadPagination endpoint =
      p.assigns.foldl (fun fields assign =>
        (emitPaginateBindingAssignment p assign).run eval endpoint fields) default := by
    exact List.foldl_map
  rw [hload]
  exact LastWrite.read_foldl _ (fun fields : Record V => fields field) hstep default p.assigns

/-! ## the round trip -/

section resolved

variable {p : PaginateResolved}
  {pairs : List (PaginationAssignmentResolved × Option PaginationBindingIr)}

/-- The pair of the last assignment to a controller field. -/
def lastPair (pairs : List (PaginationAssignmentResolved × Option PaginationBindingIr))
    (field : String) : Option (PaginationAssignmentResolved × Option PaginationBindingIr) :=
  LastWrite.last (fun pair => if rustField pair.1.field = field then some pair else none) pairs

/-- The value of a field is that of its last assignment. -/
theorem lastAssigned_eq (hassigns : p.assigns = pairs.map Prod.fst) (field : String) :
    lastAssigned p field = (lastPair pairs field).map (·.1.value) := by
  unfold lastAssigned lastPair
  rw [hassigns, LastWrite.last_map, LastWrite.map_last]
  simp only [apply_ite (Option.map _), Option.map_some, Option.map_none]

/-- The last assignment to a controller field, with the pairs around it. -/
theorem lastPair_eq_some {field : String}
    {pair : PaginationAssignmentResolved × Option PaginationBindingIr}
    (h : lastPair pairs field = some pair) :
    ∃ before after, pairs = before ++ pair :: after ∧ rustField pair.1.field = field ∧
      ∀ other ∈ after, rustField other.1.field ≠ field := by
  obtain ⟨before, a, after, rfl, ha, hafter⟩ := (LastWrite.last_eq_some_iff _).mp h
  by_cases hfield : rustField a.1.field = field
  · rw [if_pos hfield, Option.some.injEq] at ha
    subst ha
    refine ⟨before, after, rfl, hfield, ?_⟩
    intro other hother heq
    have hnone := hafter other hother
    rw [if_pos heq] at hnone
    contradiction
  · rw [if_neg hfield] at ha
    contradiction

/-- The bindings after the last assignment to a controller field bind other
fields. -/
theorem bindings_after {after : List (PaginationAssignmentResolved × Option PaginationBindingIr)}
    {field : String} (hpaired : ∀ pair ∈ after, Paired pair)
    (hafter : ∀ other ∈ after, rustField other.1.field ≠ field) :
    ∀ binding ∈ after.filterMap Prod.snd, rustField binding.controllerField ≠ field := by
  intro binding hmem
  obtain ⟨pair, hpair, hsnd⟩ := List.mem_filterMap.mp hmem
  have hne := hafter pair hpair
  cases hpaired pair hpair with
  | field =>
      cases hsnd
      exact hne
  | litStr => contradiction
  | expr => contradiction

/-- The binding of the last assignment to a controller field is the one the
emitter finds, and the last one of that field. -/
theorem binding_of_lastPair (hbindings : p.bindings = pairs.filterMap Prod.snd)
    (hpaired : ∀ pair ∈ pairs, Paired pair) {key name rust : Ident}
    (h : lastPair pairs (rustField key) = some (⟨key, .epField name⟩, some ⟨key, rust⟩)) :
    paginationBindingForControllerField p key = some ⟨key, rust⟩ ∧
      lastBound p (rustField key) = some (rustField rust) := by
  obtain ⟨before, after, rfl, _, hafter⟩ := lastPair_eq_some h
  have hother := bindings_after (fun pair hmem => hpaired pair (by simp [hmem])) hafter
  have hsplit : p.bindings =
      before.filterMap Prod.snd ++ ⟨key, rust⟩ :: after.filterMap Prod.snd := by
    rw [hbindings, List.filterMap_append, List.filterMap_cons]
  constructor
  · have hnone : (after.filterMap Prod.snd).reverse.find? (·.controllerField = key) = none := by
      rw [List.find?_eq_none]
      intro binding hmem heq
      rw [decide_eq_true_eq] at heq
      exact hother binding (List.mem_reverse.mp hmem) (by rw [heq])
    unfold paginationBindingForControllerField
    rw [hsplit, List.reverse_append, List.reverse_cons, List.append_assoc, List.find?_append,
      hnone]
    simp
  · unfold lastBound
    rw [LastWrite.last_eq_some_iff]
    refine ⟨_, ⟨key, rust⟩, _, hsplit, if_pos rfl, ?_⟩
    intro binding hmem
    exact if_neg (hother binding hmem)

/-- A statement leaves the other fields. -/
theorem write_of_ne (eval : Evaluation V) (endpoint : Record V) (p : PaginateResolved)
    {assign : PaginationAssignmentResolved} {field : String} (h : rustField assign.field ≠ field) :
    (emitPaginateBindingAssignment p assign).write eval endpoint field = none := by
  unfold emitPaginateBindingAssignment
  split
  · split
    · rfl
    · exact if_neg h
  · exact if_neg h
  · exact if_neg h
  · exact if_neg h

/-- A controller field is loaded by the last assignment to it. -/
theorem load_of_lastPair (eval : Evaluation V) (default endpoint : Record V)
    (hassigns : p.assigns = pairs.map Prod.fst) {field : String} {value : V}
    {pair : PaginationAssignmentResolved × Option PaginationBindingIr}
    (h : lastPair pairs field = some pair)
    (hwrite : (emitPaginateBindingAssignment p pair.1).write eval endpoint field = some value) :
    (emitPaginateBindingImpl eval default p).binding.loadPagination endpoint field = value := by
  obtain ⟨before, after, rfl, _, hafter⟩ := lastPair_eq_some h
  have hlast : LastWrite.last (fun assign =>
      (emitPaginateBindingAssignment p assign).write eval endpoint field) p.assigns =
        some value := by
    rw [LastWrite.last_eq_some_iff, hassigns, List.map_append, List.map_cons]
    refine ⟨_, _, _, rfl, hwrite, ?_⟩
    intro assign hmem
    obtain ⟨other, hother, rfl⟩ := List.mem_map.mp hmem
    exact write_of_ne eval endpoint p (hafter other hother)
  rw [load_apply, hlast, Option.getD_some]

/-- A binding belongs to an assignment. -/
theorem exists_lastPair (hbindings : p.bindings = pairs.filterMap Prod.snd)
    (hpaired : ∀ pair ∈ pairs, Paired pair) {binding : PaginationBindingIr}
    (hmem : binding ∈ p.bindings) :
    ∃ pair, lastPair pairs (rustField binding.controllerField) = some pair := by
  rw [hbindings] at hmem
  obtain ⟨pair, hpair, hsnd⟩ := List.mem_filterMap.mp hmem
  refine LastWrite.exists_last _ hpair (b := pair) ?_
  cases hpaired pair hpair with
  | field =>
      cases hsnd
      exact if_pos rfl
  | litStr => contradiction
  | expr => contradiction

/-- A field that is bound is stored. -/
theorem exists_lastStored {field : String} {endpointField : String}
    (h : lastBound p field = some endpointField) :
    ∃ stored, lastStored p endpointField = some stored := by
  obtain ⟨before, binding, after, hsplit, hwrite, _⟩ := (LastWrite.last_eq_some_iff _).mp h
  have hmem : binding ∈ p.bindings := by
    rw [hsplit]
    simp
  refine LastWrite.exists_last _ hmem (b := rustField binding.controllerField) ?_
  by_cases hfield : rustField binding.controllerField = field
  · rw [if_pos hfield, Option.some.injEq] at hwrite
    exact if_pos hwrite
  · rw [if_neg hfield] at hwrite
    contradiction

/-- A field assigned a constant last is not loaded back. -/
theorem not_loads_constant [Nontrivial V] (eval : Evaluation V) (default : Record V)
    (hassigns : p.assigns = pairs.map Prod.fst) {field : String} (value : V)
    {pair : PaginationAssignmentResolved × Option PaginationBindingIr}
    (h : lastPair pairs field = some pair)
    (hwrite : ∀ endpoint, (emitPaginateBindingAssignment p pair.1).write eval endpoint field =
      some value) :
    ¬ ∀ endpoint pagination : Record V,
      (emitPaginateBindingImpl eval default p).binding.loadPagination
        ((emitPaginateBindingImpl eval default p).binding.storePagination endpoint pagination)
        field = pagination field := by
  intro hloads
  obtain ⟨other, hother⟩ := exists_ne value
  have hload := hloads default (fun _ => other)
  rw [load_of_lastPair eval default _ hassigns h (hwrite _)] at hload
  exact hother hload.symm

/-- When a bound controller field is loaded back as it was stored. -/
theorem loads_stored_iff [Nontrivial V] (eval : Evaluation V) (default : Record V)
    (hassigns : p.assigns = pairs.map Prod.fst)
    (hbindings : p.bindings = pairs.filterMap Prod.snd) (hpaired : ∀ pair ∈ pairs, Paired pair)
    {field : String} {pair : PaginationAssignmentResolved × Option PaginationBindingIr}
    (h : lastPair pairs field = some pair) :
    (∀ endpoint pagination : Record V,
      (emitPaginateBindingImpl eval default p).binding.loadPagination
        ((emitPaginateBindingImpl eval default p).binding.storePagination endpoint pagination)
        field = pagination field) ↔
      (∃ name, lastAssigned p field = some (.epField name)) ∧
        (lastBound p field).bind (lastStored p) = some field := by
  have hassigned := lastAssigned_eq hassigns field
  rw [h] at hassigned
  obtain ⟨before, after, hsplit, hfield, _⟩ := lastPair_eq_some h
  have hpair : Paired pair := hpaired pair (by rw [hsplit]; simp)
  cases hpair with
  | @litStr key text =>
      have hlost := not_loads_constant eval default hassigns (eval.litStr text) h
        (fun _ => if_pos hfield)
      simp [hassigned, hlost]
  | @expr key code =>
      have hlost := not_loads_constant eval default hassigns (eval.expr code) h
        (fun _ => if_pos hfield)
      simp [hassigned, hlost]
  | @field key name rust =>
      subst hfield
      obtain ⟨hfound, hbound⟩ := binding_of_lastPair hbindings hpaired h
      obtain ⟨stored, hstored⟩ := exists_lastStored hbound
      have hload : ∀ endpoint pagination : Record V,
          (emitPaginateBindingImpl eval default p).binding.loadPagination
            ((emitPaginateBindingImpl eval default p).binding.storePagination endpoint pagination)
            (rustField key) = pagination stored := by
        intro endpoint pagination
        have hwrite : (emitPaginateBindingAssignment p ⟨key, .epField name⟩).write eval
            ((emitPaginateBindingImpl eval default p).binding.storePagination endpoint pagination)
            (rustField key) = some (pagination stored) := by
          simp only [emitPaginateBindingAssignment, hfound, LoadStatement.write, if_pos,
            LoadSource.value]
          rw [store_apply, hstored, Option.map_some, Option.getD_some]
        exact load_of_lastPair eval default _ hassigns h hwrite
      have hcond : ((∃ name, lastAssigned p (rustField key) = some (.epField name)) ∧
          (lastBound p (rustField key)).bind (lastStored p) = some (rustField key)) ↔
          stored = rustField key := by
        rw [hassigned, hbound, Option.bind_some, hstored]
        simp
      rw [hcond]
      constructor
      · intro hloads
        -- A controller that tells the two fields apart.
        obtain ⟨a, b, hab⟩ := exists_pair_ne V
        by_contra hne
        have hapart := hloads (fun _ => a) (Function.update (fun _ => a) (rustField key) b)
        rw [hload, Function.update_of_ne hne, Function.update_self] at hapart
        exact hab hapart
      · intro heq endpoint pagination
        rw [hload, heq]

end resolved

/-- What a store and a load keep: every bound controller field is loaded back
as it was stored, and the endpoint fields that are not bound stay as they
are. -/
def RoundTrips (p : PaginateResolved) (block : PaginateBlock V (Record V)) : Prop :=
  ∀ endpoint pagination : Record V,
    (∀ binding ∈ p.bindings,
      block.binding.loadPagination (block.binding.storePagination endpoint pagination)
        (rustField binding.controllerField) = pagination (rustField binding.controllerField)) ∧
    ∀ field, field ∉ p.bindings.map (fun binding => rustField binding.endpointRustField) →
      block.binding.storePagination endpoint pagination field = endpoint field

/-- The state goes round exactly if no binding shares its field or loses it. -/
theorem roundTrips_iff [Nontrivial V] (eval : Evaluation V) (default : Record V)
    {spec : PaginateSpec} {epVars : VarMap} {p : PaginateResolved}
    (h : resolvePaginate spec epVars = .ok p) :
    RoundTrips p (emitPaginateBindingImpl eval default p) ↔ KeepsBindings p := by
  obtain ⟨pairs, hassigns, hbindings, hpaired⟩ := pairs_of_resolvePaginate h
  constructor
  · intro hround binding hmem
    obtain ⟨pair, hpair⟩ := exists_lastPair hbindings hpaired hmem
    rw [← loads_stored_iff eval default hassigns hbindings hpaired hpair]
    intro endpoint pagination
    exact (hround endpoint pagination).1 binding hmem
  · intro hkeeps endpoint pagination
    constructor
    · intro binding hmem
      obtain ⟨pair, hpair⟩ := exists_lastPair hbindings hpaired hmem
      exact (loads_stored_iff eval default hassigns hbindings hpaired hpair).mpr
        (hkeeps binding hmem) endpoint pagination
    · intro field hfield
      refine PaginateBlock.store_of_notMem _ pagination endpoint ?_
      rw [emitPaginateBindingImpl, List.map_map]
      exact hfield

/-! ## pages -/

/-- In every run of `collect` with the block, the request of a page is planned
from an endpoint that holds the state its controller has then, in the bound
fields, and is otherwise the endpoint the run began with. -/
def PagesCarry (Page Item : Type*) [PageItems Page Item] [EndpointPagination (Record V) Page]
    (p : PaginateResolved) (block : PaginateBlock V (Record V)) : Prop :=
  ∀ (plan : Record V → Except ApiClientError RequestPlan) (opts : RequestOptions)
    (caps : PaginationCaps) (answers : Nat → Except ApiClientError Page) (first : Record V)
    (ctx : ErrorContext)
    (s s' : CollectState ApiClientError (Record V) (Option (Record V)) Page Item)
    (page : PageCall),
    Heads (block.endpoint plan) opts caps answers first ctx s →
    nextCall (block.endpoint plan) opts ctx s = .ok (s', page) →
    ∃ pagination request, s'.runtime = some pagination ∧ plan s'.ep = .ok request ∧
      page.call = opts.applyTo request s.pageIndex ∧
      (∀ binding ∈ p.bindings, block.binding.loadPagination s'.ep
        (rustField binding.controllerField) = pagination (rustField binding.controllerField)) ∧
      ∀ field, field ∉ p.bindings.map (fun binding => rustField binding.endpointRustField) →
        s'.ep field = first field

/-- Then every page request carries it. -/
theorem pagesCarry_of_roundTrips (Page Item : Type*) [PageItems Page Item]
    [EndpointPagination (Record V) Page] {p : PaginateResolved}
    {block : PaginateBlock V (Record V)} (h : RoundTrips p block) :
    PagesCarry Page Item p block := by
  intro plan opts caps answers first ctx s s' page hheads hnext
  let := block.binding
  obtain ⟨_, hb⟩ := pageBound_of_heads hheads
  obtain ⟨pagination, request, hruntime, hep, hplan, hcall⟩ := hb.page_of_nextCall hnext
  obtain ⟨hload, hother⟩ := h first pagination
  refine ⟨pagination, request, hruntime, hplan, hcall, ?_, ?_⟩
  · rw [hep]
    exact hload
  · rw [hep]
    exact hother

/-- **Pagination state**: for every accepted `paginate` block, a controller
that is stored in an endpoint and loaded again agrees with what was stored on
every bound field, no other endpoint field changes, and every page request of
every run carries the state of its controller, if and only if each bound
controller field is assigned an endpoint field last, and no other controller
field takes that endpoint field later. -/
theorem pagination_state_iff [Nontrivial V] {Page Item : Type*} [PageItems Page Item]
    [EndpointPagination (Record V) Page] (eval : Evaluation V) (default : Record V)
    {spec : PaginateSpec} {epVars : VarMap} {p : PaginateResolved}
    (h : resolvePaginate spec epVars = .ok p) :
    (RoundTrips p (emitPaginateBindingImpl eval default p) ∧
      PagesCarry Page Item p (emitPaginateBindingImpl eval default p)) ↔ KeepsBindings p := by
  constructor
  · intro hboth
    exact (roundTrips_iff eval default h).mp hboth.1
  · intro hkeeps
    have hround := (roundTrips_iff eval default h).mpr hkeeps
    exact ⟨hround, pagesCarry_of_roundTrips Page Item hround⟩

/-! ### a block that keeps its state, and one that does not -/

/-- A controller with a page number that grows. -/
@[reducible] def pageCounter : EndpointPagination (Record Nat) (List Nat) where
  apply pagination _ := .ok pagination
  advance pagination _ _ :=
    .ok (Function.update pagination "page" (pagination "page" + 1), .continue)

/-- Numbers for the values of a block. -/
def numbers : Evaluation Nat := ⟨String.length, fun _ => 0, fun _ _ => 0⟩

/-- Two fields of an endpoint. -/
def listingVars : VarMap := fun name =>
  if name = "number" ∨ name = "size" then some ⟨name, false, .other "u64", none⟩ else none

/-- `paginate PageCounter { page = ep.page, count = ep.count }` for two
endpoint fields. -/
def counterSpec (page count : Ident) : PaginateSpec :=
  ⟨.other "PageCounter", [⟨"page", .epField page⟩, ⟨"count", .epField count⟩]⟩

/-- A counter over two of them. -/
def counterBlock (page count : Ident) : PaginateResolved :=
  ⟨.other "PageCounter", [⟨"page", .epField page⟩, ⟨"count", .epField count⟩],
    [⟨"page", page⟩, ⟨"count", count⟩]⟩

/-- A counter over different fields keeps its bindings. -/
theorem keepsBindings_counterBlock : KeepsBindings (counterBlock "number" "size") := by
  intro binding hmem
  rw [counterBlock, List.mem_cons, List.mem_singleton] at hmem
  cases hmem with
  | inl hpage =>
      subst hpage
      exact ⟨⟨"number", by decide⟩, by decide⟩
  | inr hcount =>
      subst hcount
      exact ⟨⟨"size", by decide⟩, by decide⟩

/-- So its state goes round. -/
theorem pagination_state_iff_counter :
    resolvePaginate (counterSpec "number" "size") listingVars =
        .ok (counterBlock "number" "size") ∧
      RoundTrips (counterBlock "number" "size")
        (emitPaginateBindingImpl numbers (fun _ => 0) (counterBlock "number" "size")) ∧
      @PagesCarry Nat (List Nat) Nat _ pageCounter (counterBlock "number" "size")
        (emitPaginateBindingImpl numbers (fun _ => 0) (counterBlock "number" "size")) :=
  ⟨rfl, (@pagination_state_iff Nat ⟨0, 1, Nat.zero_ne_one⟩ (List Nat) Nat _ pageCounter numbers (fun _ => 0)
    (counterSpec "number" "size") listingVars _ rfl).mpr keepsBindings_counterBlock⟩

/-- Two controller fields bound to one endpoint field: page 2 of 10 items
each is loaded back as page 10. -/
theorem pagination_state_shared :
    resolvePaginate (counterSpec "number" "number") listingVars =
        .ok (counterBlock "number" "number") ∧
      ¬ RoundTrips (counterBlock "number" "number")
        (emitPaginateBindingImpl numbers (fun _ => 0) (counterBlock "number" "number")) := by
  refine ⟨rfl, fun hround => ?_⟩
  have hpage := (hround (fun _ => 0) (fun field => if field = "page" then 2 else 10)).1
    ⟨"page", "number"⟩ (by decide)
  exact absurd hpage (by decide)

end Concord.Sema
