import Concord.Sema.Inheritance

/-!
# Concord.Codegen.Facade

The scope handles of the generated facade
(`concord_macros/src/codegen/endpoints/wrapper.rs`): one struct for each
facade scope, with a field for the client and one for each parameter, and the
methods that build one from the client or from the handle of the parent.
-/

namespace Concord.Sema

/-! ## scope handles -/

/-- What the generated code writes into a field of a new value. -/
inductive FieldInit where
  | arg
  | someDefault (default : String)
  | none
  | default (default : String)
  deriving DecidableEq, Repr

/-- The field of a parameter in a new scope handle (`new_fields`) and in a new
endpoint (`init_fields`). -/
def VarInfo.init (var : VarInfo) : FieldInit :=
  match var.optional, var.default with
  | false, none => .arg
  | true, some default => .someDefault default
  | true, none => .none
  | false, some default => .default default

/-- A method that builds a scope handle: `parentFields` are read from `self`. -/
structure ScopeCtor where
  method : Ident
  structName : Ident
  args : List VarInfo
  parentFields : List Ident
  newFields : List (Ident × FieldInit)
  deriving DecidableEq, Repr

/-- The field of every handle that holds the client. -/
def clientField : Ident := "client"

/-- The fields of the struct expression, in order. -/
def ScopeCtor.fields (ctor : ScopeCtor) : List Ident :=
  clientField :: (ctor.parentFields ++ ctor.newFields.map Prod.fst)

/-- The fields of the struct of a scope. -/
def FacadeScope.fields (scope : FacadeScope) : List Ident :=
  clientField :: scope.decls.map VarInfo.rust

/-- The panic of a slice that starts beyond its end. -/
def sliceOutOfRange (start length : Nat) : SemaError :=
  .panic ("range start index " ++ toString start ++ " out of range for slice of length " ++
    toString length)

/-- `emit_scope_ctor_method`. -/
def emitScopeCtorMethod (scope : FacadeScope) (parent : Option FacadeScope) : Result ScopeCtor :=
  let parentDecls := parent.elim [] (·.decls)
  -- `&scope_ir.decls[parent_decl_count..]`
  if scope.decls.length < parentDecls.length then
    .error (sliceOutOfRange parentDecls.length scope.decls.length)
  else
    let newDecls := scope.decls.drop parentDecls.length
    .ok
      { method := scope.publicMethod
        structName := scope.rustTypeName
        args := newDecls.filter VarInfo.required
        parentFields := parentDecls.map VarInfo.rust
        newFields := newDecls.map (fun var => (var.rust, var.init)) }

/-- `scope_for_path`. -/
def FacadeIr.scopeForPath (facade : FacadeIr) (path : List Ident) : Option FacadeScope :=
  facade.scopes.find? (·.path = path)

/-- A method of a scope handle that enters a child. -/
def emitChildMethod (facade : FacadeIr) (scope : FacadeScope) (path : List Ident) :
    Result ScopeCtor :=
  match facade.scopeForPath path with
  | none => fail "FacadeIr must contain one scope entry per resolved facade scope"
  | some child => emitScopeCtorMethod child (some scope)

/-- The type of a field: a reference to the client, or that of a parameter,
which may be an `Option`. -/
inductive FieldType where
  | client
  | param (ty : RustType) (optional : Bool)
  deriving DecidableEq, Repr

/-- The struct of a scope with the methods that enter its children. -/
structure ScopeStruct where
  name : Ident
  fields : List (Ident × FieldType)
  children : List ScopeCtor
  deriving DecidableEq, Repr

/-- `emit_facade_scope_struct`, less the setters and endpoint methods. -/
def emitFacadeScopeStruct (facade : FacadeIr) (scope : FacadeScope) : Result ScopeStruct := do
  let children ← scope.methods.mapM (emitChildMethod facade scope)
  .ok
    { name := scope.rustTypeName
      fields := (clientField, .client) ::
        scope.decls.map (fun var => (var.rust, .param var.ty var.optional))
      children := children }

/-- `emit_tree_facade`, less the endpoint methods: the methods of the client
and the structs. -/
def emitTreeFacade (facade : FacadeIr) : Result (List ScopeCtor × List ScopeStruct) := do
  let roots ← (facade.scopes.filter (·.path.length = 1)).mapM (emitScopeCtorMethod · none)
  let structs ← facade.scopes.mapM (emitFacadeScopeStruct facade)
  .ok (roots, structs)

/-! ## chains of scopes -/

/-- The named scopes around an endpoint, from the outermost, with the
parameters each declares. -/
abbrev ScopeChain := List (Ident × List VarInfo)

/-- The scopes of the chain, from the root. -/
def ScopeChain.modules (chain : ScopeChain) : List Ident := chain.map Prod.fst

/-- The parameters declared by the first `n` scopes of a chain. -/
def ScopeChain.params (chain : ScopeChain) (n : Nat) : List VarInfo :=
  (chain.take n).flatMap Prod.snd

/-- A scope with a name, and its parameters; one without a name adds no module. -/
def RawScope.named (scope : RawScope) : Option (Ident × List VarInfo) :=
  scope.scopeName.map (fun name => (name, scope.params))

/-- The chains of the endpoints of a declaration, in source order. -/
def scopeChains (ast : RawApi) : List ScopeChain :=
  (places ast.items []).map (fun place => place.1.filterMap RawScope.named)

/-- The first chain along a path: its scopes are those a facade scope is made
of. -/
def opening (chains : List ScopeChain) (path : List Ident) : Option ScopeChain :=
  chains.find? (fun chain => path <+: chain.modules)

/-- The facade of an API is coherent. -/
structure FacadeCoherent (chains : List ScopeChain) (pipeline : ResolvedApiPipeline) : Prop where
  /-- The fields of a scope are the parameters declared along its path. -/
  declared : ∀ scope ∈ pipeline.facadeIr.scopes, ∀ var, var ∈ scope.decls ↔
    ∃ chain ∈ chains, scope.path <+: chain.modules ∧ var ∈ chain.params scope.path.length
  /-- Each name is there once. -/
  once : ∀ scope ∈ pipeline.facadeIr.scopes, scope.fields.Nodup
  /-- A child begins with the fields of its parent. -/
  extends_ : ∀ parent ∈ pipeline.facadeIr.scopes, ∀ child ∈ pipeline.facadeIr.scopes,
    child.path ∈ parent.methods → parent.decls <+: child.decls
  /-- No slice is out of range, and the structs have the fields of their scopes. -/
  emitted : ∃ roots structs, emitTreeFacade pipeline.facadeIr = .ok (roots, structs) ∧
    structs.map (fun struct => struct.fields.map Prod.fst) =
      pipeline.facadeIr.scopes.map FacadeScope.fields
  /-- The methods of the client fill the fields of the struct they build. -/
  roots : ∀ scope ∈ pipeline.facadeIr.scopes, scope.path.length = 1 →
    ∃ ctor, emitScopeCtorMethod scope none = .ok ctor ∧ ctor.fields = scope.fields
  /-- So do the methods of the handles. -/
  children : ∀ parent ∈ pipeline.facadeIr.scopes, ∀ path ∈ parent.methods,
    ∃ child ctor, pipeline.facadeIr.scopeForPath path = some child ∧
      emitScopeCtorMethod child (some parent) = .ok ctor ∧ ctor.fields = child.fields
  /-- What an endpoint captures is a field of its scope. -/
  captured : ∀ ep ∈ pipeline.api.endpoints, ∀ var ∈ ep.facadeParamGroups.flatten,
    ∃ scope ∈ pipeline.facadeIr.scopes, scope.path = ep.scopeModules ∧ var ∈ scope.decls

/-- The scopes of a declaration that are opened more than once fit together. -/
structure ScopesReopenAlike (chains : List ScopeChain) : Prop where
  /-- The scopes that open a path name no parameter twice. -/
  once : ∀ path chain, opening chains path = some chain →
    ((chain.params path.length).map VarInfo.rust).Nodup
  /-- None of these takes the name of the field for the client. -/
  client : ∀ path chain, opening chains path = some chain →
    clientField ∉ (chain.params path.length).map VarInfo.rust
  /-- Scopes that open it again declare nothing else. -/
  reopened : ∀ path chain, opening chains path = some chain → ∀ again ∈ chains,
    path <+: again.modules → again.params path.length ⊆ chain.params path.length
  /-- The scopes that open a longer path begin with the same parameters. -/
  nested : ∀ path name chain inner, opening chains path = some chain →
    opening chains (path ++ [name]) = some inner →
    chain.params path.length <+: inner.params (path.length + 1)

/-! ## the chains of resolved endpoints -/

/-- An endpoint below a chain of scopes. -/
def Below (chain : ScopeChain) (ep : ResolvedEndpoint) : Prop :=
  ep.scopeModules = chain.modules ∧ ep.facadeParamGroups = chain.map Prod.snd

/-- What a walk inherits is the chain of the named scopes it has entered. -/
theorem Enters.chain {cx : WalkItemsCtx} {scopes : List RawScope} {inh : Inherited}
    (h : Enters cx scopes inh) :
    inh.scopeModules = (scopes.filterMap RawScope.named).map Prod.fst ∧
      inh.facadeParamGroups = (scopes.filterMap RawScope.named).map Prod.snd := by
  induction h with
  | client => exact ⟨rfl, rfl⟩
  | @scope scopes inh inh' scope id _ hscope ih =>
      obtain ⟨hmodules, hgroups⟩ := ih
      obtain ⟨host, path, facts, _, _, _, rfl⟩ := directScope_eq_ok_iff.mp hscope
      rw [List.filterMap_append, List.map_append, List.map_append, ← hmodules, ← hgroups]
      unfold Inherited.enter
      cases hname : scope.scopeName with
      | none => simp [RawScope.named, hname]
      | some name => simp [RawScope.named, hname]

/-- An endpoint found by the walk stands below the named scopes around it. -/
theorem below_of_endpointAt {cx : WalkItemsCtx} {place : List RawScope × RawEndpoint}
    {ep : ResolvedEndpoint} (h : EndpointAt cx place ep) :
    Below (place.1.filterMap RawScope.named) ep := by
  obtain ⟨inh, henters, hdirect⟩ := h
  obtain ⟨hmodules, hgroups⟩ := henters.chain
  have htaken := takenFrom_of_directEndpoint hdirect
  exact ⟨htaken.scopeModules.trans hmodules, htaken.facadeParamGroups.trans hgroups⟩

/-- The endpoints of an accepted API stand below the chains of its declaration, in order. -/
theorem endpoints_below {toUppercase : Char → List Char} {ast : RawApi}
    {pipeline : ResolvedApiPipeline} (h : analyzePipeline toUppercase ast = .ok pipeline) :
    List.Forall₂ Below (scopeChains ast) pipeline.api.endpoints := by
  obtain ⟨_, _, _, _, _, hplaces⟩ := endpoints_at_places h
  unfold scopeChains
  rw [List.forall₂_map_left_iff]
  exact hplaces.imp (fun _ _ hat => below_of_endpointAt hat)

/-- So each of them has its chain. -/
theorem exists_below {toUppercase : Char → List Char} {ast : RawApi}
    {pipeline : ResolvedApiPipeline} (h : analyzePipeline toUppercase ast = .ok pipeline)
    {ep : ResolvedEndpoint} (hep : ep ∈ pipeline.api.endpoints) :
    ∃ chain ∈ scopeChains ast, Below chain ep :=
  Pairs.exists_left (endpoints_below h) hep

/-! ## facade scopes -/

/-- The facade scopes along a chain. -/
def ScopeChain.infos (chain : ScopeChain) : List FacadeScopeInfo :=
  (List.range chain.length).map (fun idx =>
    ⟨chain.modules.take (idx + 1), chain.params (idx + 1)⟩)

/-- The scopes an endpoint contributes are those along its chain. -/
theorem facadeScopesOf_eq {chain : ScopeChain} {ep : ResolvedEndpoint} (h : Below chain ep) :
    facadeScopesOf ep = chain.infos := by
  obtain ⟨hmodules, hgroups⟩ := h
  unfold facadeScopesOf ScopeChain.infos ScopeChain.params
  rw [hmodules, hgroups]
  simp [ScopeChain.modules, List.flatMap, List.map_take]

/-- So the scopes of all endpoints are those of all chains. -/
theorem flatMap_facadeScopesOf {chains : List ScopeChain} {eps : List ResolvedEndpoint}
    (h : List.Forall₂ Below chains eps) :
    eps.flatMap facadeScopesOf = chains.flatMap ScopeChain.infos := by
  induction h with
  | nil => rfl
  | cons hbelow _ ih =>
      rw [List.flatMap_cons, List.flatMap_cons, facadeScopesOf_eq hbelow, ih]

/-- A chain contributes every nonempty start of itself, with the parameters up to there. -/
theorem ScopeChain.mem_infos_iff {chain : ScopeChain} {info : FacadeScopeInfo} :
    info ∈ chain.infos ↔ info.path ≠ [] ∧ info.path <+: chain.modules ∧
      info.decls = chain.params info.path.length := by
  unfold ScopeChain.infos
  rw [List.mem_map]
  constructor
  · intro h
    obtain ⟨idx, hidx, rfl⟩ := h
    rw [List.mem_range] at hidx
    have hlength : (chain.modules.take (idx + 1)).length = idx + 1 := by
      rw [List.length_take, ScopeChain.modules, List.length_map]
      omega
    refine ⟨?_, List.take_prefix _ _, ?_⟩
    · intro hnil
      have hnil' : chain.modules.take (idx + 1) = [] := hnil
      rw [hnil'] at hlength
      cases hlength
    · simp only [hlength]
  · intro h
    obtain ⟨hne, halong, hdecls⟩ := h
    have hpos : 0 < info.path.length := List.length_pos_of_ne_nil hne
    have hle : info.path.length ≤ chain.length := by
      have hlength := halong.length_le
      rwa [ScopeChain.modules, List.length_map] at hlength
    refine ⟨info.path.length - 1, List.mem_range.mpr (by omega), ?_⟩
    have hsucc : info.path.length - 1 + 1 = info.path.length := by omega
    rw [hsucc, ← hdecls, ← List.prefix_iff_eq_take.mp halong]

/-- The first scope of a path is that of the chain that opens it. -/
theorem first_infos {chains : List ScopeChain} {path : List Ident} (hne : path ≠ []) :
    Keyed.first FacadeScopeInfo.path (chains.flatMap ScopeChain.infos) path =
      (opening chains path).map (fun chain => ⟨path, chain.params path.length⟩) := by
  induction chains with
  | nil => rfl
  | cons chain chains ih =>
      unfold Keyed.first opening at ih ⊢
      rw [List.flatMap_cons, List.find?_append, ih, List.find?_cons]
      by_cases halong : path <+: chain.modules
      · have hmem : (⟨path, chain.params path.length⟩ : FacadeScopeInfo) ∈ chain.infos :=
          ScopeChain.mem_infos_iff.mpr ⟨hne, halong, rfl⟩
        cases hfound : chain.infos.find? (fun info => info.path = path) with
        | none =>
            have hnone := List.find?_eq_none.mp hfound _ hmem
            exact absurd (decide_eq_true rfl) hnone
        | some info =>
            have hpath : info.path = path := by simpa using List.find?_some hfound
            have hinfo := ScopeChain.mem_infos_iff.mp (List.mem_of_find?_eq_some hfound)
            have heq : info = ⟨path, chain.params path.length⟩ := by
              rw [← hpath, ← hinfo.2.2]
            simp [halong, heq]
      · have hnone : chain.infos.find? (fun info => info.path = path) = none := by
          rw [List.find?_eq_none]
          intro info hmem hpath
          have hinfo := ScopeChain.mem_infos_iff.mp hmem
          rw [of_decide_eq_true hpath] at hinfo
          exact halong hinfo.2.1
        simp [halong, hnone]

/-- The facade scopes of an API: one for each path, with the parameters of the
chain that opens it. -/
theorem mem_collectFacadeScopes_iff {chains : List ScopeChain} {api : ResolvedApi}
    (h : List.Forall₂ Below chains api.endpoints) {info : FacadeScopeInfo} :
    info ∈ collectFacadeScopes api ↔ info.path ≠ [] ∧ ∃ chain,
      opening chains info.path = some chain ∧ info.decls = chain.params info.path.length := by
  unfold collectFacadeScopes
  rw [flatMap_facadeScopesOf h, Keyed.mem_keepFirst_iff]
  constructor
  · intro hfirst
    have hmem := Keyed.first_mem hfirst
    obtain ⟨chain, _, hin⟩ := List.mem_flatMap.mp hmem
    have hne := (ScopeChain.mem_infos_iff.mp hin).1
    rw [first_infos hne, Option.map_eq_some_iff] at hfirst
    obtain ⟨first, hopening, heq⟩ := hfirst
    refine ⟨hne, first, hopening, ?_⟩
    rw [← heq]
  · intro hscope
    obtain ⟨hne, chain, hopening, hdecls⟩ := hscope
    rw [first_infos hne, hopening, Option.map_some, ← hdecls]

/-- The facade has one scope for each scope collected. -/
theorem mem_buildFacadeIr_iff {toUppercase : Char → List Char} {api : ResolvedApi}
    {scope : FacadeScope} :
    scope ∈ (buildFacadeIr toUppercase api).scopes ↔ ∃ info ∈ collectFacadeScopes api,
      facadeScopeFromInfo toUppercase api (collectFacadeScopes api) info = scope :=
  List.mem_map

/-- What the facade scopes are made of. -/
structure FacadeOf (chains : List ScopeChain) (facade : FacadeIr) : Prop where
  opened : ∀ scope ∈ facade.scopes, scope.path ≠ [] ∧ ∃ chain,
    opening chains scope.path = some chain ∧ scope.decls = chain.params scope.path.length
  complete : ∀ path chain, path ≠ [] → opening chains path = some chain →
    ∃ scope, facade.scopeForPath path = some scope
  methods : ∀ parent ∈ facade.scopes, ∀ path, path ∈ parent.methods ↔
    ∃ child ∈ facade.scopes, ∃ name, child.path = path ∧ path = parent.path ++ [name]

/-- The facade of an API depends on the chains of its declaration alone. -/
theorem facade_of_chains {toUppercase : Char → List Char} {chains : List ScopeChain}
    {api : ResolvedApi} (h : List.Forall₂ Below chains api.endpoints) :
    FacadeOf chains (buildFacadeIr toUppercase api) := by
  constructor
  case opened =>
    intro scope hscope
    obtain ⟨info, hinfo, rfl⟩ := mem_buildFacadeIr_iff.mp hscope
    exact (mem_collectFacadeScopes_iff h).mp hinfo
  case complete =>
    intro path chain hne hopening
    unfold FacadeIr.scopeForPath
    rw [← Option.isSome_iff_exists, List.find?_isSome]
    have hinfo : ⟨path, chain.params path.length⟩ ∈ collectFacadeScopes api :=
      (mem_collectFacadeScopes_iff h).mpr ⟨hne, chain, hopening, rfl⟩
    exact ⟨_, mem_buildFacadeIr_iff.mpr ⟨_, hinfo, rfl⟩, decide_eq_true rfl⟩
  case methods =>
    intro parent hparent path
    obtain ⟨info, hinfo, rfl⟩ := mem_buildFacadeIr_iff.mp hparent
    have hne := ((mem_collectFacadeScopes_iff h).mp hinfo).1
    have hpos : 0 < info.path.length := List.length_pos_of_ne_nil hne
    simp only [facadeScopeFromInfo, facadeScopeChildren, List.mem_map, List.mem_filter,
      Bool.and_eq_true, decide_eq_true_eq]
    constructor
    · intro hchild
      obtain ⟨child, ⟨hmem, hlength, hparent⟩, rfl⟩ := hchild
      have hchildNe : child.path ≠ [] := List.ne_nil_of_length_pos (by omega)
      refine ⟨_, mem_buildFacadeIr_iff.mpr ⟨child, hmem, rfl⟩, child.path.getLast hchildNe, rfl, ?_⟩
      rw [← hparent, List.dropLast_append_getLast]
    · intro hchild
      obtain ⟨scope, hscope, name, rfl, hpath⟩ := hchild
      obtain ⟨child, hmem, rfl⟩ := mem_buildFacadeIr_iff.mp hscope
      have hpath' : child.path = info.path ++ [name] := hpath
      refine ⟨child, ⟨hmem, ?_, ?_⟩, rfl⟩
      · rw [hpath', List.length_append, List.length_singleton]
        omega
      · rw [hpath', List.dropLast_concat]

/-- A scope looked up by its path is one of the facade's and has that path. -/
theorem FacadeIr.scopeForPath_mem {facade : FacadeIr} {path : List Ident} {scope : FacadeScope}
    (h : facade.scopeForPath path = some scope) : scope ∈ facade.scopes ∧ scope.path = path := by
  have hpath := List.find?_some h
  exact ⟨List.mem_of_find?_eq_some h, by simpa using hpath⟩

/-- The chain that opens a path is one of the chains, and goes along it. -/
theorem opening_mem {chains : List ScopeChain} {path : List Ident} {chain : ScopeChain}
    (h : opening chains path = some chain) : chain ∈ chains ∧ path <+: chain.modules := by
  have halong := List.find?_some h
  exact ⟨List.mem_of_find?_eq_some h, by simpa using halong⟩

/-- A path along some chain is opened by a chain. -/
theorem exists_opening {chains : List ScopeChain} {path : List Ident} {chain : ScopeChain}
    (hmem : chain ∈ chains) (halong : path <+: chain.modules) :
    ∃ first, opening chains path = some first := by
  unfold opening
  rw [← Option.isSome_iff_exists, List.find?_isSome]
  exact ⟨chain, hmem, decide_eq_true halong⟩

/-- The scope of a path that is opened has the parameters of the chain that
opens it. -/
theorem FacadeOf.scope_of_opening {chains : List ScopeChain} {facade : FacadeIr}
    (h : FacadeOf chains facade) {path : List Ident} {chain : ScopeChain} (hne : path ≠ [])
    (hopening : opening chains path = some chain) :
    ∃ scope, facade.scopeForPath path = some scope ∧ scope ∈ facade.scopes ∧
      scope.path = path ∧ scope.decls = chain.params path.length := by
  obtain ⟨scope, hfound⟩ := h.complete path chain hne hopening
  obtain ⟨hmem, hpath⟩ := FacadeIr.scopeForPath_mem hfound
  obtain ⟨_, first, hfirst, hdecls⟩ := h.opened scope hmem
  rw [hpath, hopening, Option.some.injEq] at hfirst
  subst hfirst
  rw [hpath] at hdecls
  exact ⟨scope, hfound, hmem, hpath, hdecls⟩

/-! ## coherence -/

/-- At the root a constructor is emitted for every scope, with all its fields. -/
theorem emitScopeCtorMethod_none (scope : FacadeScope) :
    ∃ ctor, emitScopeCtorMethod scope none = .ok ctor ∧ ctor.fields = scope.fields := by
  refine ⟨_, rfl, ?_⟩
  simp [ScopeCtor.fields, FacadeScope.fields, Function.comp_def]

/-- The struct expression has the fields of the struct if the parent's come
first. -/
theorem emitScopeCtorMethod_of_prefixed {parent child : FacadeScope}
    (h : parent.decls <+: child.decls) :
    ∃ ctor, emitScopeCtorMethod child (some parent) = .ok ctor ∧ ctor.fields = child.fields := by
  unfold emitScopeCtorMethod
  rw [Option.elim_some, if_neg (Nat.not_lt.mpr h.length_le)]
  refine ⟨_, rfl, ?_⟩
  obtain ⟨rest, hrest⟩ := h
  simp [ScopeCtor.fields, FacadeScope.fields, ← hrest, Function.comp_def]

section

variable {toUppercase : Char → List Char} {ast : RawApi} {pipeline : ResolvedApiPipeline}

/-- The facade of an accepted API is that of the chains of its declaration. -/
theorem facade_of_accepted (h : analyzePipeline toUppercase ast = .ok pipeline) :
    FacadeOf (scopeChains ast) pipeline.facadeIr := by
  obtain ⟨_, _, _, hfacade, _⟩ := analyzePipeline_eq_ok h
  rw [hfacade]
  exact facade_of_chains (endpoints_below h)

/-- A coherent facade shows that scopes are reopened alike. -/
theorem scopesReopenAlike_of_coherent (h : analyzePipeline toUppercase ast = .ok pipeline)
    (hcoherent : FacadeCoherent (scopeChains ast) pipeline) :
    ScopesReopenAlike (scopeChains ast) := by
  have hfacade := facade_of_accepted h
  constructor
  case once =>
    intro path chain hopening
    by_cases hne : path = []
    · subst hne
      exact List.nodup_nil
    · obtain ⟨scope, _, hmem, hpath, hdecls⟩ := hfacade.scope_of_opening hne hopening
      rw [← hdecls]
      exact (List.nodup_cons.mp (hcoherent.once scope hmem)).2
  case client =>
    intro path chain hopening
    by_cases hne : path = []
    · subst hne
      exact List.not_mem_nil
    · obtain ⟨scope, _, hmem, hpath, hdecls⟩ := hfacade.scope_of_opening hne hopening
      rw [← hdecls]
      exact (List.nodup_cons.mp (hcoherent.once scope hmem)).1
  case reopened =>
    intro path chain hopening again hagain halong var hvar
    by_cases hne : path = []
    · subst hne
      exact absurd hvar List.not_mem_nil
    · obtain ⟨scope, _, hmem, hpath, hdecls⟩ := hfacade.scope_of_opening hne hopening
      rw [← hdecls]
      refine (hcoherent.declared scope hmem var).mpr ⟨again, hagain, ?_⟩
      rw [hpath]
      exact ⟨halong, hvar⟩
  case nested =>
    intro path name chain inner hopening hinner
    by_cases hne : path = []
    · subst hne
      exact List.nil_prefix
    · obtain ⟨parent, _, hparent, hpath, hdecls⟩ := hfacade.scope_of_opening hne hopening
      have hchildNe : path ++ [name] ≠ [] := by simp
      obtain ⟨child, _, hchild, hchildPath, hchildDecls⟩ :=
        hfacade.scope_of_opening hchildNe hinner
      rw [List.length_append, List.length_singleton] at hchildDecls
      rw [← hdecls, ← hchildDecls]
      refine hcoherent.extends_ parent hparent child hchild ?_
      refine (hfacade.methods parent hparent _).mpr ⟨child, hchild, name, rfl, ?_⟩
      rw [hchildPath, hpath]

/-- Where scopes are reopened alike, a child scope has its parent's fields first. -/
theorem decls_prefix_of_alike (h : analyzePipeline toUppercase ast = .ok pipeline)
    (halike : ScopesReopenAlike (scopeChains ast)) {parent child : FacadeScope}
    (hparent : parent ∈ pipeline.facadeIr.scopes) (hchild : child ∈ pipeline.facadeIr.scopes)
    (hmethod : child.path ∈ parent.methods) : parent.decls <+: child.decls := by
  have hfacade := facade_of_accepted h
  obtain ⟨_, _, name, _, hpath⟩ := (hfacade.methods parent hparent _).mp hmethod
  obtain ⟨_, chain, hopening, hdecls⟩ := hfacade.opened parent hparent
  obtain ⟨_, inner, hinner, hchildDecls⟩ := hfacade.opened child hchild
  rw [hpath] at hinner hchildDecls
  rw [List.length_append, List.length_singleton] at hchildDecls
  rw [hdecls, hchildDecls]
  exact halike.nested _ name _ _ hopening hinner

/-- So every method of a scope builds the scope it names. -/
theorem child_of_alike (h : analyzePipeline toUppercase ast = .ok pipeline)
    (halike : ScopesReopenAlike (scopeChains ast)) {parent : FacadeScope}
    (hparent : parent ∈ pipeline.facadeIr.scopes) {path : List Ident}
    (hmethod : path ∈ parent.methods) :
    ∃ child ctor, pipeline.facadeIr.scopeForPath path = some child ∧
      emitScopeCtorMethod child (some parent) = .ok ctor ∧ ctor.fields = child.fields := by
  have hfacade := facade_of_accepted h
  obtain ⟨scope, hscope, name, hpath, _⟩ := (hfacade.methods parent hparent _).mp hmethod
  obtain ⟨hne, chain, hopening, _⟩ := hfacade.opened scope hscope
  rw [hpath] at hne hopening
  obtain ⟨child, hfound, hchild, hchildPath, _⟩ := hfacade.scope_of_opening hne hopening
  rw [← hchildPath] at hmethod
  obtain ⟨ctor, hctor, hfields⟩ :=
    emitScopeCtorMethod_of_prefixed (decls_prefix_of_alike h halike hparent hchild hmethod)
  exact ⟨child, ctor, hfound, hctor, hfields⟩

/-- The struct of a scope has the fields of the scope. -/
theorem fields_emitFacadeScopeStruct {facade : FacadeIr} {scope : FacadeScope}
    {struct : ScopeStruct} (h : emitFacadeScopeStruct facade scope = .ok struct) :
    struct.fields.map Prod.fst = scope.fields := by
  unfold emitFacadeScopeStruct at h
  obtain ⟨children, _, hok⟩ := Results.bind_eq_ok_iff.mp h
  cases hok
  simp [FacadeScope.fields, Function.comp_def]

/-- So the whole facade is emitted, each struct with its scope's fields. -/
theorem emitTreeFacade_of_alike (h : analyzePipeline toUppercase ast = .ok pipeline)
    (halike : ScopesReopenAlike (scopeChains ast)) :
    ∃ roots structs, emitTreeFacade pipeline.facadeIr = .ok (roots, structs) ∧
      structs.map (fun struct => struct.fields.map Prod.fst) =
        pipeline.facadeIr.scopes.map FacadeScope.fields := by
  have hroots : ∃ roots, (pipeline.facadeIr.scopes.filter (·.path.length = 1)).mapM
      (emitScopeCtorMethod · none) = .ok roots := by
    refine Results.exists_mapM_eq_ok (fun scope _ => ?_)
    obtain ⟨ctor, hctor, _⟩ := emitScopeCtorMethod_none scope
    exact ⟨ctor, hctor⟩
  have hstructs : ∃ structs,
      pipeline.facadeIr.scopes.mapM (emitFacadeScopeStruct pipeline.facadeIr) = .ok structs := by
    refine Results.exists_mapM_eq_ok (fun scope hscope => ?_)
    have hchildren : ∃ children,
        scope.methods.mapM (emitChildMethod pipeline.facadeIr scope) = .ok children := by
      refine Results.exists_mapM_eq_ok (fun path hpath => ?_)
      obtain ⟨child, ctor, hfound, hctor, _⟩ := child_of_alike h halike hscope hpath
      refine ⟨ctor, ?_⟩
      unfold emitChildMethod
      rw [hfound]
      exact hctor
    obtain ⟨children, hchildren⟩ := hchildren
    unfold emitFacadeScopeStruct
    rw [hchildren]
    exact ⟨_, rfl⟩
  obtain ⟨roots, hroots⟩ := hroots
  obtain ⟨structs, hstructs⟩ := hstructs
  refine ⟨roots, structs, ?_, ?_⟩
  · unfold emitTreeFacade
    rw [hroots, Results.ok_bind, hstructs]
    rfl
  · refine (Pairs.map_eq_map ?_ (Results.mapM_eq_ok_iff.mp hstructs)).symm
    intro scope struct hstruct
    exact (fields_emitFacadeScopeStruct hstruct).symm

/-- What an endpoint captures is declared along its own path. -/
theorem captured_of_alike (h : analyzePipeline toUppercase ast = .ok pipeline)
    (halike : ScopesReopenAlike (scopeChains ast)) {ep : ResolvedEndpoint}
    (hep : ep ∈ pipeline.api.endpoints) {var : VarInfo}
    (hvar : var ∈ ep.facadeParamGroups.flatten) :
    ∃ scope ∈ pipeline.facadeIr.scopes, scope.path = ep.scopeModules ∧ var ∈ scope.decls := by
  have hfacade := facade_of_accepted h
  obtain ⟨chain, hchain, hmodules, hgroups⟩ := exists_below h hep
  have hlength : ep.scopeModules.length = chain.length := by
    rw [hmodules, ScopeChain.modules, List.length_map]
  have hparams : var ∈ chain.params ep.scopeModules.length := by
    unfold ScopeChain.params
    rw [hlength, List.take_length]
    rwa [hgroups] at hvar
  have hne : ep.scopeModules ≠ [] := by
    intro hnil
    rw [hnil] at hparams
    exact List.not_mem_nil hparams
  have halong : ep.scopeModules <+: chain.modules :=
    ⟨[], by rw [List.append_nil, hmodules]⟩
  obtain ⟨first, hfirst⟩ := exists_opening hchain halong
  obtain ⟨scope, _, hscope, hpath, hdecls⟩ := hfacade.scope_of_opening hne hfirst
  refine ⟨scope, hscope, hpath, ?_⟩
  rw [hdecls]
  exact halike.reopened _ _ hfirst chain hchain halong hparams

/-- Where scopes are reopened alike, the facade is coherent. -/
theorem coherent_of_scopesReopenAlike (h : analyzePipeline toUppercase ast = .ok pipeline)
    (halike : ScopesReopenAlike (scopeChains ast)) :
    FacadeCoherent (scopeChains ast) pipeline := by
  have hfacade := facade_of_accepted h
  constructor
  case declared =>
    intro scope hscope var
    obtain ⟨_, chain, hopening, hdecls⟩ := hfacade.opened scope hscope
    rw [hdecls]
    constructor
    · intro hvar
      obtain ⟨hmem, halong⟩ := opening_mem hopening
      exact ⟨chain, hmem, halong, hvar⟩
    · intro hex
      obtain ⟨again, hagain, halong, hvar⟩ := hex
      exact halike.reopened _ _ hopening again hagain halong hvar
  case once =>
    intro scope hscope
    obtain ⟨_, chain, hopening, hdecls⟩ := hfacade.opened scope hscope
    unfold FacadeScope.fields
    rw [hdecls]
    exact List.nodup_cons.mpr ⟨halike.client _ _ hopening, halike.once _ _ hopening⟩
  case extends_ =>
    intro parent hparent child hchild hmethod
    exact decls_prefix_of_alike h halike hparent hchild hmethod
  case emitted => exact emitTreeFacade_of_alike h halike
  case roots =>
    intro scope _ _
    exact emitScopeCtorMethod_none scope
  case children =>
    intro parent hparent path hmethod
    exact child_of_alike h halike hparent hmethod
  case captured =>
    intro ep hep var hvar
    exact captured_of_alike h halike hep hvar

/-- The facade of an accepted API is coherent exactly if the scopes that share
a path fit together: the first chain along a path names no parameter twice and
none `client`, the others declare nothing else along it, and nested scopes begin
with the same parameters. -/
theorem facade_scopes_coherent_iff (h : analyzePipeline toUppercase ast = .ok pipeline) :
    FacadeCoherent (scopeChains ast) pipeline ↔ ScopesReopenAlike (scopeChains ast) :=
  ⟨scopesReopenAlike_of_coherent h, coherent_of_scopesReopenAlike h⟩

end

/-! ## declarations of `users` and `posts` -/

/-- A required parameter. -/
def requiredParam (name : Ident) : VarInfo := ⟨name, false, .other "u32", none⟩

/-- `posts` inside `users`, each with a parameter. -/
def nestedScopesApi : RawApi where
  client := RawClient.bare "Api"
  items := .layer (RawScope.bare "users" [requiredParam "user"])
    (.layer (RawScope.bare "posts" [requiredParam "post"])
      (.endpoint (RawEndpoint.bare "List") .nil) .nil) .nil

/-- `users` is opened again, without its parameter, around `posts`. -/
def reopenedScopeApi : RawApi where
  client := RawClient.bare "Api"
  items := .layer (RawScope.bare "users" [requiredParam "id"])
    (.endpoint (RawEndpoint.bare "Get") .nil)
    (.layer (RawScope.bare "users" [])
      (.layer (RawScope.bare "posts" []) (.endpoint (RawEndpoint.bare "List") .nil) .nil) .nil)

/-- `posts` declares the parameter of `users` again. -/
def redeclaredParamApi : RawApi where
  client := RawClient.bare "Api"
  items := .layer (RawScope.bare "users" [requiredParam "id"])
    (.layer (RawScope.bare "posts" [requiredParam "id"])
      (.endpoint (RawEndpoint.bare "List") .nil) .nil) .nil

/-- Further down a chain the parameters are more, and begin alike. -/
theorem ScopeChain.params_prefix_of_le (chain : ScopeChain) {n m : Nat} (h : n ≤ m) :
    chain.params n <+: chain.params m := by
  have htake : chain.take n <+: chain.take m := List.take_prefix_take_left h
  obtain ⟨rest, hrest⟩ := htake
  refine ⟨rest.flatMap Prod.snd, ?_⟩
  unfold ScopeChain.params
  rw [← hrest, List.flatMap_append]

/-- A parameter of a scope is called like the field for the client. -/
def clientParamApi : RawApi where
  client := RawClient.bare "Api"
  items := .layer (RawScope.bare "users" [requiredParam "client"])
    (.endpoint (RawEndpoint.bare "List") .nil) .nil

/-- One chain fits with itself if it names no parameter twice and none `client`. -/
theorem scopesReopenAlike_singleton {chain : ScopeChain}
    (h : ((chain.flatMap Prod.snd).map VarInfo.rust).Nodup)
    (hclient : clientField ∉ (chain.flatMap Prod.snd).map VarInfo.rust) :
    ScopesReopenAlike [chain] := by
  have hopening : ∀ path first, opening [chain] path = some first → first = chain := by
    intro path first hfirst
    exact List.mem_singleton.mp (opening_mem hfirst).1
  constructor
  case once =>
    intro path first hfirst
    rw [hopening path first hfirst]
    rw [← List.take_append_drop path.length chain, List.flatMap_append, List.map_append] at h
    exact h.of_append_left
  case client =>
    intro path first hfirst
    rw [hopening path first hfirst]
    rw [← List.take_append_drop path.length chain, List.flatMap_append, List.map_append] at hclient
    exact fun hmem => hclient (List.mem_append_left _ hmem)
  case reopened =>
    intro path first hfirst again hagain _
    rw [hopening path first hfirst, List.mem_singleton.mp hagain]
    exact List.Subset.refl _
  case nested =>
    intro path name first inner hfirst hinner
    rw [hopening path first hfirst, hopening _ inner hinner]
    exact chain.params_prefix_of_le (Nat.le_succ _)

/-- Two nested scopes, each with a parameter. -/
theorem facade_scopes_coherent_nested :
    ∃ pipeline, analyzePipeline asciiUppercase nestedScopesApi = .ok pipeline ∧
      pipeline.facadeIr.scopes.length = 2 ∧
      FacadeCoherent (scopeChains nestedScopesApi) pipeline := by
  obtain ⟨pipeline, hok, hlength⟩ := Results.exists_ok_of_any
    (x := analyzePipeline asciiUppercase nestedScopesApi)
    (p := fun pipeline => pipeline.facadeIr.scopes.length = 2) (by decide +kernel)
  have halike : ScopesReopenAlike (scopeChains nestedScopesApi) :=
    scopesReopenAlike_singleton (by decide) (by decide)
  exact ⟨pipeline, hok, of_decide_eq_true hlength,
    (facade_scopes_coherent_iff hok).mpr halike⟩

/-- An accepted API one of whose scopes has a field twice. -/
theorem twice_of_incoherent {toUppercase : Char → List Char} {ast : RawApi} {fields : List Ident}
    (htwice : ¬ fields.Nodup)
    (h : (analyzePipeline toUppercase ast).toOption.any (fun pipeline =>
      pipeline.facadeIr.scopes.any (·.fields = fields)) = true) :
    ∃ pipeline, analyzePipeline toUppercase ast = .ok pipeline ∧
      (∃ scope ∈ pipeline.facadeIr.scopes, scope.fields = fields) ∧
      ¬ FacadeCoherent (scopeChains ast) pipeline := by
  obtain ⟨pipeline, hok, hfound⟩ := Results.exists_ok_of_any h
  obtain ⟨scope, hscope, hfields⟩ := List.any_eq_true.mp hfound
  have hfields := of_decide_eq_true hfields
  refine ⟨pipeline, hok, ⟨scope, hscope, hfields⟩, fun hcoherent => ?_⟩
  have honce := hcoherent.once scope hscope
  rw [hfields] at honce
  exact htwice honce

/-- Three accepted declarations with an incoherent facade.  The slice for
`posts` is out of range where `users` is opened again without its parameter;
the handle of `posts` has a field twice where it declares the parameter
again, and that of `users` where a parameter is called `client`. -/
theorem facade_scopes_incoherent :
    (∃ pipeline, analyzePipeline asciiUppercase reopenedScopeApi = .ok pipeline ∧
      emitTreeFacade pipeline.facadeIr = .error (sliceOutOfRange 1 0) ∧
      ¬ FacadeCoherent (scopeChains reopenedScopeApi) pipeline) ∧
    (∃ pipeline, analyzePipeline asciiUppercase redeclaredParamApi = .ok pipeline ∧
      (∃ scope ∈ pipeline.facadeIr.scopes, scope.fields = ["client", "id", "id"]) ∧
      ¬ FacadeCoherent (scopeChains redeclaredParamApi) pipeline) ∧
    ∃ pipeline, analyzePipeline asciiUppercase clientParamApi = .ok pipeline ∧
      (∃ scope ∈ pipeline.facadeIr.scopes, scope.fields = ["client", "client"]) ∧
      ¬ FacadeCoherent (scopeChains clientParamApi) pipeline := by
  refine ⟨?_, twice_of_incoherent (by decide) (by decide +kernel),
    twice_of_incoherent (by decide) (by decide +kernel)⟩
  obtain ⟨pipeline, hok, hpanic⟩ := Results.exists_ok_of_any
    (x := analyzePipeline asciiUppercase reopenedScopeApi)
    (p := fun pipeline => emitTreeFacade pipeline.facadeIr = .error (sliceOutOfRange 1 0))
    (by decide +kernel)
  have hpanic := of_decide_eq_true hpanic
  refine ⟨pipeline, hok, hpanic, fun hcoherent => ?_⟩
  obtain ⟨roots, structs, hgenerated, _⟩ := hcoherent.emitted
  rw [hpanic] at hgenerated
  cases hgenerated

end Concord.Sema
