import Concord.Codegen.Facade
import Concord.Lib.Transition

/-!
# Concord.Codegen.Handles

What the generated facade does when it is used: scope handles are built, set,
cleared and entered, and an endpoint method builds an endpoint from the handle
it is called on (`concord_macros/src/codegen/endpoints/wrapper.rs`,
`endpoint.rs`).

A call is `none` where the generated code does not compile.  Values are of any
type; a default is evaluated each time it is written out, so each call comes
with its own evaluation.
-/

namespace Concord.Sema

variable {V : Type}

/-! ## fields -/

/-- The value of a field: of the type of its parameter, or an `Option` of it. -/
inductive FieldValue (V : Type) where
  | value (v : V)
  | option (v : Option V)
  deriving DecidableEq, Repr

/-- Whether a field holds an option. -/
def FieldValue.isOption : FieldValue V → Bool
  | .value _ => false
  | .option _ => true

/-- The fields of a struct value. -/
abbrev Fields (V : Type) := Ident → Option (FieldValue V)

/-- The field of a parameter is there and has its type. -/
def Fields.hold (fields : Fields V) (var : VarInfo) : Bool :=
  (fields var.rust).map FieldValue.isOption = some var.optional

/-- What a field is initialised with. -/
def FieldInit.run (eval : String → V) (arg : Option V) : FieldInit → Option (FieldValue V)
  | .arg => arg.map .value
  | .someDefault expr => some (.option (some (eval expr)))
  | .none => some (.option .none)
  | .default expr => some (.value (eval expr))

/-! ## handles -/

/-- A scope handle, with the fields of its parameters; that of the client is
the same in every handle of a run. -/
structure Handle (V : Type) where
  scope : FacadeScope
  fields : Fields V

/-- The body of a scope constructor.  It compiles if the struct expression has
the fields of the struct, each once and each of its type. -/
def ScopeCtor.build (ctor : ScopeCtor) (scope : FacadeScope) (eval : String → V)
    (self : Fields V) (args : Ident → V) : Option (Handle V) :=
  let fields : Fields V := fun name =>
    if name ∈ ctor.parentFields then self name
    else (ctor.newFields.lookup name).bind (FieldInit.run eval (some (args name)))
  if ctor.fields.Perm scope.fields ∧ scope.fields.Nodup ∧ scope.decls.all fields.hold then
    some ⟨scope, fields⟩
  else none

/-- A call of the constructor of a scope, on the handle of the parent or on
the client. -/
def enterScope (facade : FacadeIr) (parent : Option (Handle V)) (path : List Ident)
    (eval : String → V) (args : Ident → V) : Option (Handle V) :=
  match facade.scopeForPath path with
  | none => none
  | some scope =>
    match emitScopeCtorMethod scope (parent.map Handle.scope) with
    | .error _ => none
    | .ok ctor => ctor.build scope eval (parent.elim (fun _ => none) Handle.fields) args

/-- The parameter of a setter (`decls_by_name`). -/
def FacadeScope.setterVar (scope : FacadeScope) (field : Ident) : Option VarInfo :=
  if scope.setters.any (·.field = field) then Keyed.last VarInfo.rust scope.decls field else none

/-- The field a setter writes. -/
def VarInfo.setTo (var : VarInfo) (value : V) : FieldValue V :=
  if var.optional then .option (some value) else .value value

/-- A field is written. -/
def Handle.write (handle : Handle V) (field : Ident) (value : FieldValue V) : Handle V :=
  { handle with fields := Function.update handle.fields field (some value) }

/-- The calls on a handle that give a handle. -/
inductive HandleCall (V : Type) where
  | set (field : Ident) (value : V)
  | clear (field : Ident)
  | enter (path : List Ident) (eval : String → V) (args : Ident → V)

/-- `emit_scope_setter` and the child methods of `emit_facade_scope_struct`. -/
def Handle.call (facade : FacadeIr) (handle : Handle V) : HandleCall V → Option (Handle V × Unit)
  | .set field value =>
    (handle.scope.setterVar field).map (fun var => (handle.write field (var.setTo value), ()))
  | .clear field =>
    ((handle.scope.setterVar field).filter VarInfo.optional).map (fun _ =>
      (handle.write field (.option none), ()))
  | .enter path eval args =>
    if path ∈ handle.scope.methods then
      (enterScope facade (some handle) path eval args).map (fun child => (child, ()))
    else none

/-- A chain of calls: a scope is entered from the client, then handles are set,
cleared and entered. -/
def handleRun (facade : FacadeIr) (root : Ident) (eval : String → V) (args : Ident → V)
    (calls : List (HandleCall V)) : Option (Handle V) := do
  let handle ← enterScope facade none [root] eval args
  let (handle, _) ← Transition.exec (Handle.call facade) handle calls
  some handle

/-! ## endpoint methods -/

/-- An argument of the endpoint constructor. -/
def FacadeConstructorArg.run (self : Fields V) (args : Ident → V) :
    FacadeConstructorArg → Option V
  | .publicArg name => some (args name)
  | .capturedScopeField name =>
    match self name with
    | some (.value v) => some v
    | _ => none

/-- The parameter of `new` for the request body. -/
def bodyArg (ep : ResolvedEndpoint) : List Ident := if hasRequestBody ep then ["body"] else []

/-- The parameters of `new` (`fn_args`). -/
def endpointNewParams (ep : ResolvedEndpoint) : List Ident :=
  (ep.vars.filter VarInfo.required).map VarInfo.rust ++ bodyArg ep

/-- The fields of the endpoint struct (`struct_fields`). -/
def endpointFields (ep : ResolvedEndpoint) : List Ident := ep.vars.map VarInfo.rust ++ bodyArg ep

/-- `new` of an endpoint (`init_fields`). -/
def endpointNew (ep : ResolvedEndpoint) (eval : String → V) (values : List V) :
    Option (Fields V) :=
  let args := (endpointNewParams ep).zip values
  if (endpointFields ep).Nodup ∧ values.length = (endpointNewParams ep).length then
    some (fun name =>
      match Keyed.first VarInfo.rust ep.vars name with
      | some var => var.init.run eval (args.lookup name)
      | none => (args.lookup name).map .value)
  else none

/-- One of `captured_setters`. -/
def FacadeCapturedSetter.run (self : Fields V) (fields : Fields V)
    (captured : FacadeCapturedSetter) : Option (Fields V) :=
  match self captured.field, fields captured.field with
  | some mine, some old =>
    if mine.isOption ≠ old.isOption then none
    else if captured.optional then
      match mine with
      -- `if let Some(value) = self.name`
      | .option (some v) =>
        some (Function.update fields captured.field (some (.option (some v))))
      | .option none => some fields
      | .value _ => none
    else some (Function.update fields captured.field (some mine))
  | _, _ => none

/-- `emit_facade_endpoint_method`: the endpoint that the method builds. -/
def callEndpoint (handle : Handle V) (ep : ResolvedEndpoint) (eval : String → V)
    (args : Ident → V) : Option (Fields V) :=
  let facade := facadeEndpointFromResolved ep
  if facade.scopePath ≠ handle.scope.path then none
  else do
    let values ← facade.constructor.mapM (FacadeConstructorArg.run handle.fields args)
    let fields ← endpointNew ep eval values
    facade.capturedSetters.foldlM (FacadeCapturedSetter.run handle.fields) fields

/-! ## captured setters -/

/-- What a captured setter leaves in its field: a handle's `None` is not
copied. -/
def captureValue (optional : Bool) (mine old : Option (FieldValue V)) : Option (FieldValue V) :=
  match optional, mine with
  | true, some (.option none) => old
  | _, _ => mine

/-- Capturing twice is capturing once. -/
theorem captureValue_idem (optional : Bool) (mine old : Option (FieldValue V)) :
    captureValue optional mine (captureValue optional mine old) =
      captureValue optional mine old := by
  unfold captureValue
  split <;> rfl

/-- A captured setter writes its own field. -/
theorem captured_run_eq_some {self fields fields' : Fields V} {captured : FacadeCapturedSetter}
    (h : captured.run self fields = some fields') (name : Ident) :
    fields' name = if captured.field = name then
      captureValue captured.optional (self name) (fields name) else fields name := by
  unfold FacadeCapturedSetter.run at h
  split at h
  · next mine old hmine hold =>
      split at h
      · cases h
      · split at h
        · next hoptional =>
            split at h
            · next v =>
                cases h
                by_cases hname : captured.field = name
                · subst hname
                  rw [Function.update_self, if_pos rfl, hmine]
                  simp [captureValue]
                · rw [Function.update_of_ne (Ne.symm hname), if_neg hname]
            · cases h
              by_cases hname : captured.field = name
              · subst hname
                rw [if_pos rfl, hmine, hoptional]
                rfl
              · rw [if_neg hname]
            · cases h
        · next hoptional =>
            cases h
            by_cases hname : captured.field = name
            · subst hname
              rw [Function.update_self, if_pos rfl, hmine, Bool.not_eq_true] at *
              rw [hoptional]
              rfl
            · rw [Function.update_of_ne (Ne.symm hname), if_neg hname]
  · cases h

/-- The captured setters, one after the other, leave in a field what one of
them does. -/
theorem captured_foldlM_eq_some {setters : List FacadeCapturedSetter}
    {self fields fields' : Fields V} {name : Ident} {optional : Bool}
    (h : setters.foldlM (FacadeCapturedSetter.run self) fields = some fields')
    (hoptional : ∀ captured ∈ setters, captured.field = name → captured.optional = optional) :
    fields' name = if setters.any (·.field = name) then
      captureValue optional (self name) (fields name) else fields name := by
  induction setters generalizing fields with
  | nil =>
      cases h
      rfl
  | cons captured setters ih =>
      rw [List.foldlM_cons, Option.bind_eq_bind, Option.bind_eq_some_iff] at h
      obtain ⟨next, hnext, hrest⟩ := h
      rw [List.forall_mem_cons] at hoptional
      rw [ih hrest hoptional.2, captured_run_eq_some hnext name, List.any_cons]
      by_cases hname : captured.field = name
      · rw [hoptional.1 hname]
        simp [hname, captureValue_idem]
      · simp [hname]

/-! ## the parameters of an endpoint -/

/-- Every scope has a name: `RawScope` is parsed with one. -/
def ScopesNamed (ast : RawApi) : Prop :=
  ∀ place ∈ places ast.items [], ∀ scope ∈ place.1, scope.scopeName.isSome

/-- How the parameters of an endpoint go with those of its scopes. -/
structure VarsCapture (ep : ResolvedEndpoint) : Prop where
  nodup : (ep.vars.map VarInfo.rust).Nodup
  kept : ∀ var ∈ ep.facadeParamGroups.flatten,
    ∃ own ∈ ep.vars, own.rust = var.rust ∧ own.optional = var.optional
  captured : ∀ own ∈ ep.vars, own.rust ∈ capturedNames ep → own ∈ ep.facadeParamGroups.flatten

/-- The named scopes declare what all do if all are named. -/
theorem flatten_named {scopes : List RawScope} (h : ∀ scope ∈ scopes, scope.scopeName.isSome) :
    ((scopes.filterMap RawScope.named).map Prod.snd).flatten = scopes.flatMap (·.params) := by
  induction scopes with
  | nil => rfl
  | cons scope scopes ih =>
      rw [List.forall_mem_cons] at h
      obtain ⟨name, hname⟩ := Option.isSome_iff_exists.mp h.1
      have hnamed : scope.named = some (name, scope.params) := by
        rw [RawScope.named, hname, Option.map_some]
      rw [List.filterMap_cons_some hnamed, List.map_cons, List.flatten_cons, List.flatMap_cons,
        ih h.2]

/-- An endpoint below named scopes captures their parameters. -/
theorem varsCapture_of_takenFrom {cx : WalkItemsCtx} {inh : Inherited} {ed : RawEndpoint}
    {ep : ResolvedEndpoint} (h : TakenFrom cx inh ed ep)
    (hgroups : ep.facadeParamGroups.flatten = inh.decls) : VarsCapture ep := by
  have hmem : ∀ var ∈ ep.vars, Keyed.first VarInfo.rust (inh.decls ++ ed.params) var.rust =
      some var := by
    intro var hvar
    rw [h.vars] at hvar
    exact Keyed.mem_keepFirst_iff.mp hvar
  constructor
  case nodup =>
    rw [h.vars]
    exact Keyed.nodup_keepFirst _
  case kept =>
    intro var hvar
    rw [hgroups] at hvar
    have hdecl : var ∈ inh.decls ++ ed.params := List.mem_append_left _ hvar
    cases hfirst : Keyed.first VarInfo.rust (inh.decls ++ ed.params) var.rust with
    | none => exact absurd rfl (Keyed.first_eq_none_iff.mp hfirst var hdecl)
    | some own =>
        have hrust : own.rust = var.rust := Keyed.first_key hfirst
        have hagrees := h.consistent var hdecl own hfirst
        refine ⟨own, ?_, hrust, hagrees.1⟩
        rw [h.vars, Keyed.mem_keepFirst_iff, hrust]
        exact hfirst
  case captured =>
    intro own hown hcaptured
    unfold capturedNames at hcaptured
    rw [hgroups] at hcaptured ⊢
    obtain ⟨var, hvar, hrust⟩ := List.mem_map.mp hcaptured
    have hfirst := hmem own hown
    unfold Keyed.first at hfirst
    rw [List.find?_append, Option.or_eq_some_iff] at hfirst
    cases hfirst with
    | inl hinner => exact List.mem_of_find?_eq_some hinner
    | inr houter =>
        have hnone := List.find?_eq_none.mp houter.1 var hvar
        exact absurd (decide_eq_true hrust) hnone

/-- So does every endpoint of an accepted API with named scopes. -/
theorem varsCapture_of_accepted {toUppercase : Char → List Char} {ast : RawApi}
    {pipeline : ResolvedApiPipeline} (h : analyzePipeline toUppercase ast = .ok pipeline)
    (hnamed : ScopesNamed ast) {ep : ResolvedEndpoint} (hep : ep ∈ pipeline.api.endpoints) :
    VarsCapture ep := by
  obtain ⟨cx, place, hplace, inh, henters, hdirect⟩ := exists_place h hep
  have htaken := takenFrom_of_directEndpoint hdirect
  refine varsCapture_of_takenFrom htaken ?_
  rw [htaken.facadeParamGroups, henters.chain.2, flatten_named (hnamed place hplace),
    henters.decls]

/-! ## what an endpoint method builds -/

/-- The name of an argument. -/
def FacadeConstructorArg.name : FacadeConstructorArg → Ident
  | .publicArg name => name
  | .capturedScopeField name => name

/-- The constructor is called with its parameters. -/
theorem map_name_facadeConstructorArgs (ep : ResolvedEndpoint) :
    (facadeConstructorArgs ep).map FacadeConstructorArg.name = endpointNewParams ep := by
  unfold facadeConstructorArgs endpointNewParams bodyArg
  rw [List.map_append, List.map_map]
  congr 1
  · refine List.map_congr_left (fun var _ => ?_)
    rw [Function.comp_apply]
    split <;> rfl
  · split <;> rfl

/-- The constructor's parameters are distinct fields. -/
theorem nodup_endpointNewParams {ep : ResolvedEndpoint} (h : (endpointFields ep).Nodup) :
    (endpointNewParams ep).Nodup :=
  h.sublist ((List.filter_sublist.map _).append_right _)

/-- Among distinct variables, each is the first of its name. -/
theorem first_of_nodup {vars : List VarInfo} (h : (vars.map VarInfo.rust).Nodup) {var : VarInfo}
    (hvar : var ∈ vars) : Keyed.first VarInfo.rust vars var.rust = some var := by
  cases hfirst : Keyed.first VarInfo.rust vars var.rust with
  | none => exact absurd rfl (Keyed.first_eq_none_iff.mp hfirst var hvar)
  | some own =>
      rw [List.inj_on_of_nodup_map h (Keyed.first_mem hfirst) hvar (Keyed.first_key hfirst)]

/-- A required variable is an argument. -/
theorem VarInfo.init_of_required {var : VarInfo} (h : var.required = true) : var.init = .arg := by
  unfold VarInfo.required at h
  rw [Bool.and_eq_true, Bool.not_eq_true', Option.isNone_iff_eq_none] at h
  rw [VarInfo.init, h.1, h.2]

/-- An optional variable starts as its default. -/
theorem VarInfo.init_of_optional {var : VarInfo} (h : var.optional = true) (eval : String → V)
    (arg : Option V) : var.init.run eval arg = some (.option (var.default.map eval)) := by
  unfold VarInfo.init
  rw [h]
  cases var.default <;> rfl

/-- A captured argument is the value of the handle's field. -/
theorem capturedScopeField_run_eq_some {self : Fields V} {args : Ident → V} {name : Ident}
    {v : V} :
    FacadeConstructorArg.run self args (.capturedScopeField name) = some v ↔
      self name = some (.value v) := by
  simp only [FacadeConstructorArg.run]
  split
  · next w hself => simp [hself]
  · next hself =>
      constructor
      · intro h
        cases h
      · intro h
        exact absurd h (hself v)

/-- What `new` writes into the field of a captured parameter that the caller
must give: what the handle holds. -/
theorem endpointNew_required {ep : ResolvedEndpoint} {self fields : Fields V} {eval : String → V}
    {args : Ident → V} {values : List V} {own : VarInfo} (hvars : VarsCapture ep)
    (hvalues : (facadeConstructorArgs ep).mapM (FacadeConstructorArg.run self args) = some values)
    (hnew : endpointNew ep eval values = some fields) (hown : own ∈ ep.vars)
    (hrequired : own.required = true) (hcaptured : own.rust ∈ capturedNames ep) :
    fields own.rust = self own.rust := by
  unfold endpointNew at hnew
  simp only [Option.ite_none_right_eq_some, Option.some.injEq] at hnew
  obtain ⟨⟨hnodup, _⟩, rfl⟩ := hnew
  have harg : FacadeConstructorArg.capturedScopeField own.rust ∈ facadeConstructorArgs ep := by
    refine List.mem_append_left _ (List.mem_map.mpr ⟨own, ?_, ?_⟩)
    · exact List.mem_filter.mpr ⟨hown, hrequired⟩
    · rw [if_pos (List.contains_iff_mem.mpr hcaptured)]
  have hparams : ((facadeConstructorArgs ep).map FacadeConstructorArg.name).Nodup := by
    rw [map_name_facadeConstructorArgs]
    exact nodup_endpointNewParams hnodup
  obtain ⟨v, hv, hlookup⟩ := Keyed.lookup_zip hvalues hparams harg
  rw [map_name_facadeConstructorArgs] at hlookup
  have hlookup' : ((endpointNewParams ep).zip values).lookup own.rust = some v := hlookup
  simp only [first_of_nodup hvars.nodup hown, VarInfo.init_of_required hrequired, hlookup',
    capturedScopeField_run_eq_some.mp hv]
  rfl

/-- A new endpoint has its optional fields at their defaults. -/
theorem endpointNew_optional {ep : ResolvedEndpoint} {fields : Fields V} {eval : String → V}
    {values : List V} {own : VarInfo} (hvars : VarsCapture ep)
    (hnew : endpointNew ep eval values = some fields) (hown : own ∈ ep.vars)
    (hoptional : own.optional = true) :
    fields own.rust = some (.option (own.default.map eval)) := by
  unfold endpointNew at hnew
  simp only [Option.ite_none_right_eq_some, Option.some.injEq] at hnew
  obtain ⟨_, rfl⟩ := hnew
  simp only [first_of_nodup hvars.nodup hown]
  exact VarInfo.init_of_optional hoptional eval _

/-- The fields of captured parameters in a new endpoint have their types. -/
theorem endpointNew_type {ep : ResolvedEndpoint} {self fields : Fields V} {eval : String → V}
    {args : Ident → V} {values : List V} {own : VarInfo} (hvars : VarsCapture ep)
    (hvalues : (facadeConstructorArgs ep).mapM (FacadeConstructorArg.run self args) = some values)
    (hnew : endpointNew ep eval values = some fields) (hown : own ∈ ep.vars)
    (hcaptured : own.rust ∈ capturedNames ep)
    (hself : (self own.rust).map FieldValue.isOption = some own.optional) :
    (fields own.rust).map FieldValue.isOption = some own.optional := by
  cases hoptional : own.optional with
  | true =>
      rw [endpointNew_optional hvars hnew hown hoptional]
      rfl
  | false =>
      cases hdefault : own.default with
      | none =>
          have hrequired : own.required = true := by
            rw [VarInfo.required, hoptional, hdefault]
            rfl
          rw [endpointNew_required hvars hvalues hnew hown hrequired hcaptured, hself, hoptional]
      | some default =>
          unfold endpointNew at hnew
          simp only [Option.ite_none_right_eq_some, Option.some.injEq] at hnew
          obtain ⟨_, rfl⟩ := hnew
          simp only [first_of_nodup hvars.nodup hown, VarInfo.init, hoptional, hdefault]
          rfl

/-- A captured setter knows whether its field is optional. -/
theorem capturedSetters_optional {ep : ResolvedEndpoint} (hvars : VarsCapture ep) {own : VarInfo}
    (hown : own ∈ ep.vars) :
    ∀ captured ∈ (facadeEndpointFromResolved ep).capturedSetters, captured.field = own.rust →
      captured.optional = own.optional := by
  intro captured hcaptured hfield
  obtain ⟨var, hvar, rfl⟩ := List.mem_map.mp hcaptured
  obtain ⟨own', hown', hrust, hoptional⟩ := hvars.kept var (List.mem_filter.mp hvar).1
  have hsame : own' = own :=
    List.inj_on_of_nodup_map hvars.nodup hown' hown (hrust.trans hfield)
  rw [← hsame]
  exact hoptional.symm

/-- A captured variable with a setter is set after the constructor. -/
theorem capturedSetters_any {ep : ResolvedEndpoint} (hvars : VarsCapture ep) {own : VarInfo}
    (hown : own ∈ ep.vars) (hcaptured : own.rust ∈ capturedNames ep)
    (hsetter : own.hasSetter = true) :
    (facadeEndpointFromResolved ep).capturedSetters.any (·.field = own.rust) = true := by
  have hmem := List.mem_filter.mpr ⟨hvars.captured own hown hcaptured, hsetter⟩
  exact List.any_eq_true.mpr ⟨_, List.mem_map.mpr ⟨own, hmem, rfl⟩, decide_eq_true rfl⟩

/-- A variable is an argument or has a setter. -/
theorem VarInfo.required_or_hasSetter (var : VarInfo) :
    var.required = true ∧ var.optional = false ∨ var.hasSetter = true := by
  unfold VarInfo.required VarInfo.hasSetter
  cases var.optional <;> cases var.default <;> simp

/-- An endpoint method builds an endpoint from the handle and its arguments. -/
theorem callEndpoint_eq_some {handle : Handle V} {ep : ResolvedEndpoint} {eval : String → V}
    {args : Ident → V} {endpoint : Fields V} :
    callEndpoint handle ep eval args = some endpoint ↔
      ep.scopeModules = handle.scope.path ∧ ∃ values fields,
        (facadeConstructorArgs ep).mapM (FacadeConstructorArg.run handle.fields args) =
          some values ∧
        endpointNew ep eval values = some fields ∧
        (facadeEndpointFromResolved ep).capturedSetters.foldlM
          (FacadeCapturedSetter.run handle.fields) fields = some endpoint := by
  unfold callEndpoint
  simp only [Option.bind_eq_bind, ne_eq, ite_not, Option.ite_none_right_eq_some,
    Option.bind_eq_some_iff]
  constructor
  · intro h
    obtain ⟨hpath, values, hvalues, fields, hfields, hfold⟩ := h
    exact ⟨hpath, values, fields, hvalues, hfields, hfold⟩
  · intro h
    obtain ⟨hpath, values, fields, hvalues, hfields, hfold⟩ := h
    exact ⟨hpath, values, hvalues, fields, hfields, hfold⟩

/-- The field of a captured parameter in the endpoint: what the handle holds,
unless that is `None`. -/
theorem callEndpoint_field {handle : Handle V} {ep : ResolvedEndpoint} {eval : String → V}
    {args : Ident → V} {endpoint : Fields V} (hvars : VarsCapture ep)
    (h : callEndpoint handle ep eval args = some endpoint) {own : VarInfo} (hown : own ∈ ep.vars)
    (hcaptured : own.rust ∈ capturedNames ep) :
    endpoint own.rust = captureValue own.optional (handle.fields own.rust)
      (some (.option (own.default.map eval))) := by
  obtain ⟨_, values, fields, hvalues, hnew, hfold⟩ := callEndpoint_eq_some.mp h
  have hfield := captured_foldlM_eq_some hfold (capturedSetters_optional hvars hown)
  cases own.required_or_hasSetter with
  | inl hrequired =>
      obtain ⟨hrequired, hoptional⟩ := hrequired
      rw [hfield, endpointNew_required hvars hvalues hnew hown hrequired hcaptured, hoptional]
      split <;> rfl
  | inr hsetter =>
      rw [hfield, if_pos (capturedSetters_any hvars hown hcaptured hsetter)]
      cases hoptional : own.optional with
      | false => rfl
      | true => rw [endpointNew_optional hvars hnew hown hoptional]

/-- Capturing loses a value only if it is `None` against a default. -/
theorem captureValue_eq_mine_iff {optional : Bool} {mine : Option (FieldValue V)}
    {default : Option V} :
    captureValue optional mine (some (.option default)) = mine ↔
      (optional = true → default.isSome = true → mine ≠ some (.option none)) := by
  by_cases hmine : mine = some (.option none)
  · subst hmine
    cases optional with
    | false => simp [captureValue]
    | true => cases default <;> simp [captureValue]
  · have hsame : captureValue optional mine (some (.option default)) = mine := by
      unfold captureValue
      split
      · next heq => exact absurd rfl hmine
      · rfl
    simp [hsame, hmine]

/-! ## handles along a run -/

/-- What every handle of a run is: the struct of a facade scope, with fields
of the declared types. -/
structure HandleOk (facade : FacadeIr) (handle : Handle V) : Prop where
  scope : handle.scope ∈ facade.scopes
  nodup : handle.scope.fields.Nodup
  hold : ∀ var ∈ handle.scope.decls, handle.fields.hold var = true

/-- A handle that is entered is one of its scope. -/
theorem enterScope_ok {facade : FacadeIr} {parent : Option (Handle V)} {path : List Ident}
    {eval : String → V} {args : Ident → V} {handle : Handle V}
    (h : enterScope facade parent path eval args = some handle) : HandleOk facade handle := by
  unfold enterScope at h
  split at h
  · cases h
  · next scope hscope =>
      split at h
      · cases h
      · next ctor _ =>
          unfold ScopeCtor.build at h
          simp only [Option.ite_none_right_eq_some, Option.some.injEq] at h
          obtain ⟨⟨_, hnodup, hhold⟩, rfl⟩ := h
          exact ⟨(FacadeIr.scopeForPath_mem hscope).1, hnodup, List.all_eq_true.mp hhold⟩

/-- A setter is that of a declaration. -/
theorem setterVar_eq_some {scope : FacadeScope} {field : Ident} {var : VarInfo}
    (h : scope.setterVar field = some var) : var ∈ scope.decls ∧ var.rust = field := by
  unfold FacadeScope.setterVar at h
  rw [Option.ite_none_right_eq_some] at h
  have hlast := h.2
  unfold Keyed.last at hlast
  have hkey := List.find?_some hlast
  exact ⟨List.mem_reverse.mp (List.mem_of_find?_eq_some hlast), by simpa using hkey⟩

/-- A setter keeps the types of the fields. -/
theorem Handle.write_ok {facade : FacadeIr} {handle : Handle V} (h : HandleOk facade handle)
    {field : Ident} {var : VarInfo} (hvar : handle.scope.setterVar field = some var)
    {value : FieldValue V} (hvalue : value.isOption = var.optional) :
    HandleOk facade (handle.write field value) := by
  obtain ⟨hdecl, hrust⟩ := setterVar_eq_some hvar
  refine ⟨h.scope, h.nodup, fun other hother => ?_⟩
  unfold Handle.write Fields.hold
  by_cases hfield : other.rust = field
  · have hsame : other = var :=
      List.inj_on_of_nodup_map (List.nodup_cons.mp h.nodup).2 hother hdecl (hfield.trans hrust.symm)
    simp [hsame, hrust, hvalue]
  · simp only [Function.update_of_ne hfield]
    exact h.hold other hother

/-- Setters keep the handle that of its scope. -/
theorem Handle.call_ok {facade : FacadeIr} {handle handle' : Handle V} {call : HandleCall V}
    {answer : Unit} (h : HandleOk facade handle)
    (hcall : handle.call facade call = some (handle', answer)) : HandleOk facade handle' := by
  cases call with
  | set field value =>
      obtain ⟨var, hvar, heq⟩ := Option.map_eq_some_iff.mp hcall
      cases heq
      refine Handle.write_ok h hvar ?_
      unfold VarInfo.setTo
      cases var.optional <;> rfl
  | clear field =>
      obtain ⟨var, hvar, heq⟩ := Option.map_eq_some_iff.mp hcall
      cases heq
      obtain ⟨hvar, hoptional⟩ := Option.filter_eq_some_iff.mp hvar
      exact Handle.write_ok h hvar hoptional.symm
  | enter path eval args =>
      unfold Handle.call at hcall
      rw [Option.ite_none_right_eq_some] at hcall
      obtain ⟨child, hchild, heq⟩ := Option.map_eq_some_iff.mp hcall.2
      cases heq
      exact enterScope_ok hchild

/-- So does every chain of calls. -/
theorem handleRun_ok {facade : FacadeIr} {root : Ident} {eval : String → V} {args : Ident → V}
    {calls : List (HandleCall V)} {handle : Handle V}
    (h : handleRun facade root eval args calls = some handle) : HandleOk facade handle := by
  obtain ⟨first, hfirst, hrest⟩ := Option.bind_eq_some_iff.mp h
  obtain ⟨⟨last, answers⟩, hexec, hlast⟩ := Option.bind_eq_some_iff.mp hrest
  cases hlast
  exact Transition.exec_invariant Handle.call_ok hexec (enterScope_ok hfirst)

/-! ## endpoint methods that compile -/

/-- A captured setter runs where both fields are of one kind. -/
theorem captured_run_defined {self fields : Fields V} {captured : FacadeCapturedSetter}
    (hself : (self captured.field).map FieldValue.isOption = some captured.optional)
    (hfields : (fields captured.field).map FieldValue.isOption = some captured.optional) :
    ∃ fields', captured.run self fields = some fields' ∧
      ∀ name, (fields' name).map FieldValue.isOption = (fields name).map FieldValue.isOption := by
  obtain ⟨mine, hmine, hmineType⟩ := Option.map_eq_some_iff.mp hself
  obtain ⟨old, hold, holdType⟩ := Option.map_eq_some_iff.mp hfields
  have hwrite : ∀ value : FieldValue V, value.isOption = captured.optional → ∀ name,
      ((Function.update fields captured.field (some value)) name).map FieldValue.isOption =
        (fields name).map FieldValue.isOption := by
    intro value hvalue name
    by_cases hname : name = captured.field
    · rw [hname, Function.update_self, hfields, Option.map_some, hvalue]
    · rw [Function.update_of_ne hname]
  unfold FacadeCapturedSetter.run
  simp only [hmine, hold, hmineType, holdType, ne_eq, not_true_eq_false, if_false]
  cases hoptional : captured.optional with
  | false =>
      rw [hoptional] at hmineType hwrite
      exact ⟨_, rfl, hwrite mine hmineType⟩
  | true =>
      rw [hoptional] at hmineType hwrite
      cases mine with
      | value v => cases hmineType
      | option v =>
          cases v with
          | none => exact ⟨fields, rfl, fun _ => rfl⟩
          | some v => exact ⟨_, rfl, hwrite _ rfl⟩

/-- So do all of them. -/
theorem captured_foldlM_defined {setters : List FacadeCapturedSetter} {self fields : Fields V}
    (hself : ∀ captured ∈ setters,
      (self captured.field).map FieldValue.isOption = some captured.optional)
    (hfields : ∀ captured ∈ setters,
      (fields captured.field).map FieldValue.isOption = some captured.optional) :
    ∃ endpoint, setters.foldlM (FacadeCapturedSetter.run self) fields = some endpoint := by
  induction setters generalizing fields with
  | nil => exact ⟨fields, rfl⟩
  | cons captured setters ih =>
      rw [List.forall_mem_cons] at hself hfields
      obtain ⟨fields', hrun, htypes⟩ := captured_run_defined hself.1 hfields.1
      have hfields' : ∀ captured ∈ setters,
          (fields' captured.field).map FieldValue.isOption = some captured.optional := by
        intro other hother
        rw [htypes]
        exact hfields.2 other hother
      obtain ⟨endpoint, hendpoint⟩ := ih hself.2 hfields'
      refine ⟨endpoint, ?_⟩
      rw [List.foldlM_cons, hrun]
      exact hendpoint

/-- An argument that is captured is there. -/
theorem constructorArg_defined {ep : ResolvedEndpoint} {self : Fields V} {args : Ident → V}
    (hself : ∀ own ∈ ep.vars, own.rust ∈ capturedNames ep →
      (self own.rust).map FieldValue.isOption = some own.optional)
    {arg : FacadeConstructorArg} (harg : arg ∈ facadeConstructorArgs ep) :
    ∃ v, FacadeConstructorArg.run self args arg = some v := by
  cases arg with
  | publicArg name => exact ⟨args name, rfl⟩
  | capturedScopeField name =>
      cases List.mem_append.mp harg with
      | inr hbody =>
          split at hbody
          · cases List.mem_singleton.mp hbody
          · cases hbody
      | inl hvar =>
          obtain ⟨own, hown, heq⟩ := List.mem_map.mp hvar
          obtain ⟨hown, hrequired⟩ := List.mem_filter.mp hown
          split at heq
          · next hcaptured =>
              cases heq
              unfold VarInfo.required at hrequired
              rw [Bool.and_eq_true, Bool.not_eq_true'] at hrequired
              have htype := hself own hown (List.contains_iff_mem.mp hcaptured)
              rw [hrequired.1] at htype
              obtain ⟨field, hfield, htype⟩ := Option.map_eq_some_iff.mp htype
              cases field with
              | value v => exact ⟨v, capturedScopeField_run_eq_some.mpr hfield⟩
              | option v => cases htype
          · cases heq

/-- The method compiles if the fields of the endpoint are distinct and the
handle has the captured parameters. -/
theorem callEndpoint_defined {handle : Handle V} {ep : ResolvedEndpoint} (hvars : VarsCapture ep)
    (hpath : ep.scopeModules = handle.scope.path) (hnodup : (endpointFields ep).Nodup)
    (hhold : ∀ var ∈ ep.facadeParamGroups.flatten, handle.fields.hold var = true)
    (eval : String → V) (args : Ident → V) :
    ∃ endpoint, callEndpoint handle ep eval args = some endpoint := by
  have hself : ∀ own ∈ ep.vars, own.rust ∈ capturedNames ep →
      (handle.fields own.rust).map FieldValue.isOption = some own.optional := by
    intro own hown hcaptured
    exact of_decide_eq_true (hhold own (hvars.captured own hown hcaptured))
  have hargs : ∀ arg ∈ facadeConstructorArgs ep,
      ∃ v, FacadeConstructorArg.run handle.fields args arg = some v :=
    fun arg harg => constructorArg_defined hself harg
  obtain ⟨values, hvalues, hlength⟩ := Results.exists_mapM_eq_some hargs
  have hlength' : values.length = (endpointNewParams ep).length := by
    rw [hlength, ← map_name_facadeConstructorArgs, List.length_map]
  obtain ⟨fields, hnew⟩ : ∃ fields, endpointNew ep eval values = some fields := by
    unfold endpointNew
    simp only [hnodup, hlength', and_self, if_true]
    exact ⟨_, rfl⟩
  have hsetters : ∀ captured ∈ (facadeEndpointFromResolved ep).capturedSetters,
      ∃ own ∈ ep.vars, own.rust ∈ capturedNames ep ∧ own.rust = captured.field ∧
        own.optional = captured.optional := by
    intro captured hcaptured
    obtain ⟨var, hvar, rfl⟩ := List.mem_map.mp hcaptured
    have hvar := (List.mem_filter.mp hvar).1
    obtain ⟨own, hown, hrust, hoptional⟩ := hvars.kept var hvar
    refine ⟨own, hown, ?_, hrust, hoptional⟩
    rw [hrust]
    exact List.mem_map_of_mem hvar
  obtain ⟨endpoint, hfold⟩ :
      ∃ endpoint, (facadeEndpointFromResolved ep).capturedSetters.foldlM
        (FacadeCapturedSetter.run handle.fields) fields = some endpoint := by
    refine captured_foldlM_defined ?_ ?_
    · intro captured hcaptured
      obtain ⟨own, hown, hname, hfield, hoptional⟩ := hsetters captured hcaptured
      rw [← hfield, ← hoptional]
      exact hself own hown hname
    · intro captured hcaptured
      obtain ⟨own, hown, hname, hfield, hoptional⟩ := hsetters captured hcaptured
      rw [← hfield, ← hoptional]
      exact endpointNew_type hvars hvalues hnew hown hname (hself own hown hname)
  exact ⟨endpoint, callEndpoint_eq_some.mpr ⟨hpath, values, fields, hvalues, hnew, hfold⟩⟩

/-- Scopes that fit together give every handle of a run the parameters its
endpoints capture. -/
theorem hold_of_alike {toUppercase : Char → List Char} {ast : RawApi}
    {pipeline : ResolvedApiPipeline} (h : analyzePipeline toUppercase ast = .ok pipeline)
    (halike : ScopesReopenAlike (scopeChains ast)) {handle : Handle V}
    (hok : HandleOk pipeline.facadeIr handle) {ep : ResolvedEndpoint}
    (hep : ep ∈ pipeline.api.endpoints) (hpath : ep.scopeModules = handle.scope.path)
    {var : VarInfo} (hvar : var ∈ ep.facadeParamGroups.flatten) :
    handle.fields.hold var = true := by
  have hfacade := facade_of_accepted h
  obtain ⟨scope, hscope, hscopePath, hdecl⟩ := captured_of_alike h halike hep hvar
  obtain ⟨_, chain, hopening, hdecls⟩ := hfacade.opened scope hscope
  obtain ⟨_, chain', hopening', hdecls'⟩ := hfacade.opened handle.scope hok.scope
  rw [hscopePath, hpath] at hopening hdecls
  rw [hopening, Option.some.injEq] at hopening'
  rw [← hopening', ← hdecls] at hdecls'
  rw [← hdecls'] at hdecl
  exact hok.hold var hdecl

/-- Scope parameters reach the request.  At the end of every chain of calls,
an endpoint method builds an endpoint that holds what the handle holds for
every parameter of its scopes, exactly if no optional parameter with a default
is `None` in the handle.  The methods compile if the scopes of the declaration
fit together and no parameter is in the way of the request body. -/
theorem scope_params_reach_endpoint {toUppercase : Char → List Char} {ast : RawApi}
    {pipeline : ResolvedApiPipeline} (h : analyzePipeline toUppercase ast = .ok pipeline)
    (hnamed : ScopesNamed ast) {root : Ident} {rootEval : String → V} {rootArgs : Ident → V}
    {calls : List (HandleCall V)} {handle : Handle V}
    (hrun : handleRun pipeline.facadeIr root rootEval rootArgs calls = some handle)
    {ep : ResolvedEndpoint} (hep : ep ∈ pipeline.api.endpoints)
    (hpath : ep.scopeModules = handle.scope.path) (eval : String → V) (args : Ident → V) :
    (∀ endpoint, callEndpoint handle ep eval args = some endpoint →
      ((∀ var ∈ ep.facadeParamGroups.flatten, endpoint var.rust = handle.fields var.rust) ↔
        ∀ own ∈ ep.vars, own.rust ∈ capturedNames ep → own.optional = true →
          own.default.isSome = true → handle.fields own.rust ≠ some (.option none))) ∧
    (ScopesReopenAlike (scopeChains ast) → (endpointFields ep).Nodup →
      ∃ endpoint, callEndpoint handle ep eval args = some endpoint) := by
  have hvars := varsCapture_of_accepted h hnamed hep
  constructor
  · intro endpoint hcall
    have hfield : ∀ own ∈ ep.vars, own.rust ∈ capturedNames ep →
        (endpoint own.rust = handle.fields own.rust ↔ (own.optional = true →
          own.default.isSome = true → handle.fields own.rust ≠ some (.option none))) := by
      intro own hown hcaptured
      rw [callEndpoint_field hvars hcall hown hcaptured, captureValue_eq_mine_iff,
        Option.isSome_map]
    constructor
    · intro hsame own hown hcaptured
      refine (hfield own hown hcaptured).mp ?_
      exact hsame own (hvars.captured own hown hcaptured)
    · intro hcond var hvar
      obtain ⟨own, hown, hrust, _⟩ := hvars.kept var hvar
      have hcaptured : own.rust ∈ capturedNames ep := by
        rw [hrust]
        exact List.mem_map_of_mem hvar
      rw [← hrust]
      exact (hfield own hown hcaptured).mpr (hcond own hown hcaptured)
  · intro halike hnodup
    have hok := handleRun_ok hrun
    exact callEndpoint_defined hvars hpath hnodup
      (fun var hvar => hold_of_alike h halike hok hep hpath hvar) eval args

/-! ## a declaration with parameters of every kind -/

/-- `users` with a required, an optional, a defaulted and an optional parameter
with a default, and `posts` inside it. -/
def paramKindsApi : RawApi where
  client := RawClient.bare "Api"
  items := .layer
    (RawScope.bare "users"
      [requiredParam "id", ⟨"lang", true, .other "String", none⟩,
        ⟨"page", false, .other "u32", some "1"⟩, ⟨"verbose", true, .other "bool", some "true"⟩])
    (.layer (RawScope.bare "posts" []) (.endpoint (RawEndpoint.bare "List") .nil) .nil) .nil

/-- The language is set and `posts` is entered. -/
def langThenPosts : List (HandleCall String) :=
  [.set "lang" "en", .enter ["users", "posts"] id id]

/-- `verbose` is cleared and `posts` is entered. -/
def clearThenPosts : List (HandleCall String) :=
  [.clear "verbose", .enter ["users", "posts"] id id]

/-- Its scopes are named. -/
theorem scopesNamed_paramKindsApi : ScopesNamed paramKindsApi := by
  unfold ScopesNamed
  decide

/-- Required, optional and defaulted parameters reach an endpoint. -/
theorem scope_params_reach_posts :
    ∃ pipeline handle ep endpoint, analyzePipeline asciiUppercase paramKindsApi = .ok pipeline ∧
      handleRun pipeline.facadeIr "users" id id langThenPosts = some handle ∧
      ep ∈ pipeline.api.endpoints ∧ callEndpoint handle ep id id = some endpoint ∧
      (capturedNames ep).length = 4 ∧
      ∀ var ∈ ep.facadeParamGroups.flatten, endpoint var.rust = handle.fields var.rust := by
  obtain ⟨pipeline, hok, hfound⟩ := Results.exists_ok_of_any
    (x := analyzePipeline asciiUppercase paramKindsApi)
    (p := fun pipeline =>
      (handleRun pipeline.facadeIr "users" id id langThenPosts).any fun handle =>
        pipeline.api.endpoints.any fun ep =>
          ep.scopeModules = handle.scope.path ∧ (callEndpoint handle ep id id).isSome ∧
            (capturedNames ep).length = 4 ∧
            ∀ own ∈ ep.vars, own.default.isSome = true →
              handle.fields own.rust ≠ some (.option none))
    (by decide +kernel)
  obtain ⟨handle, hrun, hep⟩ := (Option.any_eq_true _ _).mp hfound
  obtain ⟨ep, hep, hcalled⟩ := List.any_eq_true.mp hep
  obtain ⟨hpath, hdefined, hlength, hset⟩ := of_decide_eq_true hcalled
  obtain ⟨endpoint, hcall⟩ := Option.isSome_iff_exists.mp hdefined
  have hreach := scope_params_reach_endpoint hok scopesNamed_paramKindsApi hrun hep hpath id id
  refine ⟨pipeline, handle, ep, endpoint, hok, hrun, hep, hcall, hlength, ?_⟩
  exact (hreach.1 endpoint hcall).mpr (fun own hown _ _ hdefault => hset own hown hdefault)

/-- `verbose` is cleared, so the handle holds `None`; the endpoint is built
with the default. -/
theorem cleared_scope_param_restored :
    ∃ pipeline handle ep endpoint, analyzePipeline asciiUppercase paramKindsApi = .ok pipeline ∧
      handleRun pipeline.facadeIr "users" id id clearThenPosts = some handle ∧
      ep ∈ pipeline.api.endpoints ∧ callEndpoint handle ep id id = some endpoint ∧
      "verbose" ∈ capturedNames ep ∧ handle.fields "verbose" = some (.option none) ∧
      endpoint "verbose" = some (.option (some "true")) := by
  obtain ⟨pipeline, hok, hfound⟩ := Results.exists_ok_of_any
    (x := analyzePipeline asciiUppercase paramKindsApi)
    (p := fun pipeline =>
      (handleRun pipeline.facadeIr "users" id id clearThenPosts).any fun handle =>
        pipeline.api.endpoints.any fun ep =>
          (callEndpoint handle ep id id).any fun endpoint =>
            "verbose" ∈ capturedNames ep ∧ handle.fields "verbose" = some (.option none) ∧
              endpoint "verbose" = some (.option (some "true")))
    (by decide +kernel)
  obtain ⟨handle, hrun, hep⟩ := (Option.any_eq_true _ _).mp hfound
  obtain ⟨ep, hep, hcalled⟩ := List.any_eq_true.mp hep
  obtain ⟨endpoint, hcall, hfields⟩ := (Option.any_eq_true _ _).mp hcalled
  obtain ⟨hcaptured, hhandle, hendpoint⟩ := of_decide_eq_true hfields
  exact ⟨pipeline, handle, ep, endpoint, hok, hrun, hep, hcall, hcaptured, hhandle, hendpoint⟩

end Concord.Sema
