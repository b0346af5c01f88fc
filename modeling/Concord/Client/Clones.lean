import Concord.Client.Api
import Concord.Lib.Held
import Concord.Lib.Transition

/-!
# Concord.Client.Clones

The clones of a client (`concord_core/src/client/api.rs`): clients behind
shared pointers against clients with settings of their own.

`Agree` relates the two worlds, `Agree.step` says that they answer every step
alike, and the results about whole runs follow from it and from what is plain
of clients with settings of their own.
-/

namespace Concord

open Transition

variable {V W : Type*}

/-! ## pointers and values -/

/-- A client with the settings its pointer leads to. -/
def ApiClient.through (runtimes : Shared.Heap ClientRuntimeState) (client : ApiClient V W Nat Nat) :
    ApiClient V W Nat (Option ClientRuntimeState) :=
  { client with runtimeState := Shared.read runtimes client.runtimeState }

/-- A client with its own settings. -/
def ApiClient.own (client : ApiClient V W Nat ClientRuntimeState) :
    ApiClient V W Nat (Option ClientRuntimeState) :=
  { client with runtimeState := some client.runtimeState }

/-- All pointers to runtime settings. -/
def ClientWorld.pointers (w : ClientWorld V W) : List Nat :=
  w.clients.filterMap (Option.map ApiClient.runtimeState) ++ w.handles.filterMap id

/-- A world of pointers and one of values are the same to its users. -/
structure Agree (w : ClientWorld V W) (t : ClientValues V W) : Prop where
  counted : Shared.Counted w.runtimes w.pointers
  authStates : w.authStates = t.authStates
  clients : w.clients.map (Option.map (ApiClient.through w.runtimes)) =
    t.clients.map (Option.map ApiClient.own)
  handles : w.handles.map (Option.map (Shared.read w.runtimes)) = t.handles.map (Option.map some)

/-! ## one call -/

section call

variable {runtimes runtimes' : Shared.Heap ClientRuntimeState} {c : ApiClient V W Nat Nat}
  {v : ApiClient V W Nat ClientRuntimeState} {rest : List Nat}

/-- A client read through its pointer is the client with the state found there. -/
theorem ApiClient.eq_of_through (h : c.through runtimes = v.own) :
    ∃ state, Shared.read runtimes c.runtimeState = some state ∧
      v = { c with runtimeState := state } := by
  obtain ⟨vars, authVars, authState, level, detect, sink, state, headers⟩ := v
  simp only [through, own, ApiClient.mk.injEq] at h
  obtain ⟨rfl, rfl, rfl, rfl, rfl, rfl, hread, rfl⟩ := h
  exact ⟨state, hread, rfl⟩

/-- What a call leaves behind is what it leaves behind of a client with its
own settings, and no other pointer leads to anything new. -/
structure CallAgrees (runtimes : Shared.Heap ClientRuntimeState) (rest : List Nat)
    (called : Called V W) (client : ApiClient V W Nat ClientRuntimeState) : Prop where
  client : called.client.through called.runtimes = client.own
  counted : Shared.Counted called.runtimes (called.client.runtimeState :: rest)
  frame : ∀ pointer ∈ rest, Shared.read called.runtimes pointer = Shared.read runtimes pointer

/-- A method that does not touch the runtime settings. -/
theorem CallAgrees.of_local (hc : Shared.Counted runtimes (c.runtimeState :: rest))
    {authStates : List ObjectId} {answer : ClientAnswer V W} {c' : ApiClient V W Nat Nat}
    {v' : ApiClient V W Nat ClientRuntimeState} (hpointer : c'.runtimeState = c.runtimeState)
    (hview : c'.through runtimes = v'.own) :
    CallAgrees runtimes rest ⟨runtimes, authStates, c', answer⟩ v' where
  client := hview
  counted := by
    rw [hpointer]
    exact hc
  frame _ _ := rfl

/-- A method that writes the runtime settings. -/
theorem CallAgrees.of_makeMut (hc : Shared.Counted runtimes (c.runtimeState :: rest))
    {state : ClientRuntimeState} (hread : Shared.read runtimes c.runtimeState = some state)
    (f : ClientRuntimeState → ClientRuntimeState) (c' : ApiClient V W Nat Nat)
    {authStates : List ObjectId} {answer : ClientAnswer V W} :
    let made := Shared.makeMut runtimes c.runtimeState f
    CallAgrees runtimes rest ⟨made.1, authStates, { c' with runtimeState := made.2 }, answer⟩
      { c' with runtimeState := f state } where
  client := by
    simp only [ApiClient.through, ApiClient.own, hc.read_makeMut, hread, Option.map_some]
  counted := hc.makeMut f
  frame _ hmem := hc.read_makeMut_of_mem f hmem

/-- Setting the headers does the same to a client that holds its state as to one that
points to it. -/
theorem ApiClient.setApiHeaders_value (c : ApiClient V W Nat Nat) (state : ClientRuntimeState)
    (headers : HeaderMap) :
    ({ c with runtimeState := state } : ApiClient V W Nat ClientRuntimeState).setApiHeaders
        headers =
      ({ (c.setApiHeaders headers).1 with runtimeState := state },
        (c.setApiHeaders headers).2) := by
  unfold setApiHeaders
  cases validatePublicHeaders headers with
  | none => rfl
  | some name => rfl

/-- Setting the headers leaves the pointer where it is. -/
theorem ApiClient.runtimeState_setApiHeaders (c : ApiClient V W Nat Nat) (headers : HeaderMap) :
    (c.setApiHeaders headers).1.runtimeState = c.runtimeState := by
  unfold setApiHeaders
  cases validatePublicHeaders headers with
  | none => rfl
  | some name => rfl

/-- **One call**: a client behind pointers and one with its own settings
either both refuse it or do the same. -/
theorem ApiClient.call_value (hview : c.through runtimes = v.own)
    (hc : Shared.Counted runtimes (c.runtimeState :: rest)) (authStates : List ObjectId)
    (call : ClientCall V W) :
    (c.call runtimes authStates call = none ∧ v.callValue authStates call = none) ∨
      ∃ called client, c.call runtimes authStates call = some called ∧
        v.callValue authStates call = some (called.authStates, client, called.answer) ∧
        CallAgrees runtimes rest called client := by
  obtain ⟨state, hread, rfl⟩ := eq_of_through hview
  have hlocal {c' : ApiClient V W Nat Nat} (hpointer : c'.runtimeState = c.runtimeState) :
      c'.through runtimes = ({ c' with runtimeState := state } : ApiClient V W Nat _).own := by
    simp only [through, own, hpointer, hread]
  cases call with
  | updateVars f => exact .inr ⟨_, _, rfl, rfl, .of_local hc rfl (hlocal rfl)⟩
  | updateAuthVars f => exact .inr ⟨_, _, rfl, rfl, .of_local hc rfl (hlocal rfl)⟩
  | setApiHeaders headers =>
      have hpointer := c.runtimeState_setApiHeaders headers
      refine .inr ⟨_, { (c.setApiHeaders headers).1 with runtimeState := state }, rfl, ?_,
        .of_local hc hpointer (hlocal hpointer)⟩
      simp only [callValue, setApiHeaders_value]
  | setDebugLevel level => exact .inr ⟨_, _, rfl, rfl, .of_local hc rfl (hlocal rfl)⟩
  | setDebugSink sink => exact .inr ⟨_, _, rfl, rfl, .of_local hc rfl (hlocal rfl)⟩
  | setPaginationDetectLoops enabled =>
      exact .inr ⟨_, _, rfl, rfl, .of_local hc rfl (hlocal rfl)⟩
  | setRuntimeHooks hooks =>
      exact .inr ⟨_, _, rfl, rfl, .of_makeMut hc hread (·.setHooks hooks) c⟩
  | setRateLimiter rateLimiter =>
      exact .inr ⟨_, _, rfl, rfl, .of_makeMut hc hread (·.setRateLimiter rateLimiter) c⟩
  | configure f =>
      refine .inr ⟨_, _, ?_, rfl,
        .of_makeMut hc hread (·.applyConfig (f (c.config state))) (c.applyConfig _)⟩
      simp only [ApiClient.call, hread, Option.map_some]
      rfl
  | setAuthState authState => exact .inr ⟨_, _, rfl, rfl, .of_local hc rfl (hlocal rfl)⟩
  | get =>
      cases hauth : authStates[c.authState]? with
      | none => exact .inl (by simp [ApiClient.call, callValue, hread, hauth])
      | some authState =>
          refine .inr ⟨⟨runtimes, authStates, c,
              .client { c with authState := authState, runtimeState := state }⟩, _, ?_, ?_,
            .of_local hc rfl (hlocal rfl)⟩
          · simp only [ApiClient.call, hread, hauth]
          · simp only [callValue, hauth, Option.map_some]

end call

/-! ## one step -/

namespace Agree

variable {w : ClientWorld V W} {t : ClientValues V W}

/-- Before any client both worlds agree. -/
theorem empty : Agree (ClientWorld.empty : ClientWorld V W) ClientValues.empty :=
  ⟨.nil, rfl, rfl, rfl⟩

/-- Both worlds have as many clients. -/
theorem length_clients (h : Agree w t) : w.clients.length = t.clients.length := by
  have hlengths := congrArg List.length h.clients
  simpa using hlengths

/-- And as many handles. -/
theorem length_handles (h : Agree w t) : w.handles.length = t.handles.length := by
  have hlengths := congrArg List.length h.handles
  simpa using hlengths

/-- A client of the one world, read through its pointer, is that of the other. -/
theorem map_client? (h : Agree w t) (i : Nat) :
    (w.client? i).map (ApiClient.through w.runtimes) = (t.client? i).map ApiClient.own := by
  have hget := congrArg (fun clients => (clients[i]?).join) h.clients
  simpa [ClientWorld.client?, ClientValues.client?, Option.join_map_eq_map_join] using hget

/-- So is the state behind a handle. -/
theorem map_handle? (h : Agree w t) (i : Nat) :
    (w.handle? i).map (Shared.read w.runtimes) = (t.handle? i).map some := by
  have hget := congrArg (fun handles => (handles[i]?).join) h.handles
  simpa [ClientWorld.handle?, ClientValues.handle?, Option.join_map_eq_map_join] using hget

/-- A client is there in both worlds or in none. -/
theorem client_cases (h : Agree w t) (i : Nat) :
    (w.client? i = none ∧ t.client? i = none) ∨
      ∃ c v, w.client? i = some c ∧ t.client? i = some v ∧ c.through w.runtimes = v.own := by
  have hmap := h.map_client? i
  cases hc : w.client? i with
  | none =>
      rw [hc, Option.map_none] at hmap
      exact .inl ⟨rfl, Option.map_eq_none_iff.mp hmap.symm⟩
  | some c =>
      rw [hc, Option.map_some] at hmap
      obtain ⟨v, hv, heq⟩ := Option.map_eq_some_iff.mp hmap.symm
      exact .inr ⟨c, v, rfl, hv, heq.symm⟩

/-- A handle is in both worlds or in none. -/
theorem handle_cases (h : Agree w t) (i : Nat) :
    (w.handle? i = none ∧ t.handle? i = none) ∨
      ∃ pointer state, w.handle? i = some pointer ∧ t.handle? i = some state ∧
        Shared.read w.runtimes pointer = some state := by
  have hmap := h.map_handle? i
  cases hc : w.handle? i with
  | none =>
      rw [hc, Option.map_none] at hmap
      exact .inl ⟨rfl, Option.map_eq_none_iff.mp hmap.symm⟩
  | some pointer =>
      rw [hc, Option.map_some] at hmap
      obtain ⟨state, hv, heq⟩ := Option.map_eq_some_iff.mp hmap.symm
      exact .inr ⟨pointer, state, rfl, hv, heq.symm⟩

/-- The pointers of all but one client. -/
def otherPointers (w : ClientWorld V W) (i : Nat) : List Nat :=
  (w.clients.eraseIdx i).filterMap (Option.map ApiClient.runtimeState) ++ w.handles.filterMap id

/-- A client that is alive is in the list. -/
theorem getElem?_of_client? {i : Nat} {c : ApiClient V W Nat Nat} (hc : w.client? i = some c) :
    w.clients[i]? = some (some c) :=
  Option.join_eq_some_iff.mp hc

/-- The pointer of a live client is counted once for it and once for every other holder. -/
theorem counted_client (h : Agree w t) {i : Nat} {c : ApiClient V W Nat Nat}
    (hc : w.client? i = some c) :
    Shared.Counted w.runtimes (c.runtimeState :: otherPointers w i) := by
  have hperm := Held.filterMap_perm (Option.map ApiClient.runtimeState) (getElem?_of_client? hc)
  exact h.counted.perm (hperm.append_right _)

/-- The handles, if no pointer of theirs leads to anything new. -/
theorem handles_frame (h : Agree w t) (runtimes : Shared.Heap ClientRuntimeState)
    (hframe : ∀ pointer ∈ w.handles.filterMap id,
      Shared.read runtimes pointer = Shared.read w.runtimes pointer) :
    w.handles.map (Option.map (Shared.read runtimes)) = t.handles.map (Option.map some) := by
  rw [← h.handles]
  refine List.map_congr_left fun handle hmem => ?_
  cases handle with
  | none => rfl
  | some pointer => simp [hframe pointer (List.mem_filterMap.mpr ⟨_, hmem, rfl⟩)]

/-- The clients, if no pointer of theirs leads to anything new. -/
theorem clients_frame (h : Agree w t) (runtimes : Shared.Heap ClientRuntimeState)
    (hframe : ∀ pointer ∈ w.pointers,
      Shared.read runtimes pointer = Shared.read w.runtimes pointer) :
    w.clients.map (Option.map (ApiClient.through runtimes)) =
      t.clients.map (Option.map ApiClient.own) := by
  rw [← h.clients]
  refine List.map_congr_left fun client hmem => ?_
  cases client with
  | none => rfl
  | some c =>
      have hpointer : c.runtimeState ∈ w.pointers :=
        List.mem_append_left _ (List.mem_filterMap.mpr ⟨_, hmem, rfl⟩)
      simp [ApiClient.through, hframe _ hpointer]

/-- One client has changed, or is gone. -/
theorem replace (h : Agree w t) {i : Nat} {c : ApiClient V W Nat Nat}
    (hc : w.client? i = some c) (runtimes : Shared.Heap ClientRuntimeState)
    (authStates : List ObjectId) {x : Option (ApiClient V W Nat Nat)}
    {y : Option (ApiClient V W Nat ClientRuntimeState)}
    (hcounted : Shared.Counted runtimes
      ((x.map ApiClient.runtimeState).toList ++ otherPointers w i))
    (hframe : ∀ pointer ∈ otherPointers w i,
      Shared.read runtimes pointer = Shared.read w.runtimes pointer)
    (hview : x.map (ApiClient.through runtimes) = y.map ApiClient.own) :
    Agree { w with runtimes := runtimes, authStates := authStates, clients := w.clients.set i x }
      { t with authStates := authStates, clients := t.clients.set i y } where
  counted := by
    have hlt := (List.getElem?_eq_some_iff.mp (getElem?_of_client? hc)).1
    have hperm := Held.filterMap_set (Option.map ApiClient.runtimeState) hlt x
    rw [otherPointers, ← List.append_assoc] at hcounted
    exact hcounted.perm (hperm.symm.append_right _)
  authStates := rfl
  clients := by
    rw [Held.map_set_of_frame (ApiClient.through w.runtimes), h.clients, hview,
      List.map_set]
    intro a hmem
    have hpointer : a.runtimeState ∈ otherPointers w i :=
      List.mem_append_left _ (List.mem_filterMap.mpr ⟨_, hmem, rfl⟩)
    simp only [ApiClient.through, hframe _ hpointer]
  handles := h.handles_frame runtimes fun pointer hmem => hframe pointer (List.mem_append_right _ hmem)

/-- One client has come. -/
theorem push (h : Agree w t) (runtimes : Shared.Heap ClientRuntimeState)
    (authStates : List ObjectId) {c : ApiClient V W Nat Nat}
    {v : ApiClient V W Nat ClientRuntimeState}
    (hcounted : Shared.Counted runtimes (c.runtimeState :: w.pointers))
    (hframe : ∀ pointer ∈ w.pointers,
      Shared.read runtimes pointer = Shared.read w.runtimes pointer)
    (hview : c.through runtimes = v.own) :
    Agree
      { w with runtimes := runtimes, authStates := authStates, clients := w.clients ++ [some c] }
      { t with authStates := authStates, clients := t.clients ++ [some v] } where
  counted := by
    have hpointers : (c.runtimeState :: w.pointers).Perm
        ((w.clients ++ [some c]).filterMap (Option.map ApiClient.runtimeState) ++
          w.handles.filterMap id) := by
      have hcomm : ([c.runtimeState] ++
          w.clients.filterMap (Option.map ApiClient.runtimeState)).Perm
          (w.clients.filterMap (Option.map ApiClient.runtimeState) ++ [c.runtimeState]) :=
        List.perm_append_comm
      have hfront := hcomm.append_right (w.handles.filterMap id)
      simpa [ClientWorld.pointers, List.filterMap_append] using hfront
    exact hcounted.perm hpointers
  authStates := rfl
  clients := by
    rw [Held.map_append_of_frame (ApiClient.through w.runtimes), h.clients, hview]
    · simp
    · intro a hmem
      have hpointer : a.runtimeState ∈ w.pointers :=
        List.mem_append_left _ (List.mem_filterMap.mpr ⟨_, hmem, rfl⟩)
      simp only [ApiClient.through, hframe _ hpointer]
  handles := h.handles_frame runtimes fun pointer hmem => hframe pointer (List.mem_append_right _ hmem)

/-- One handle has come. -/
theorem keep (h : Agree w t) {pointer : Nat} {state : ClientRuntimeState}
    (hlt : pointer < w.runtimes.length) (hread : Shared.read w.runtimes pointer = some state) :
    Agree
      { w with
        runtimes := Shared.retain w.runtimes pointer, handles := w.handles ++ [some pointer] }
      { t with handles := t.handles ++ [some state] } where
  counted := by
    have hfront : ([pointer] ++ w.pointers).Perm (w.pointers ++ [pointer]) :=
      List.perm_append_comm
    refine (h.counted.retain hlt).perm ?_
    simpa [ClientWorld.pointers, List.filterMap_append] using hfront
  authStates := h.authStates
  clients := h.clients_frame _ fun _ _ => Shared.read_retain _ _ _
  handles := by
    have hhandles := h.handles_frame (Shared.retain w.runtimes pointer)
      fun _ _ => Shared.read_retain _ _ _
    simp [hhandles, hread]

/-- One handle is gone. -/
theorem dropHandle (h : Agree w t) {i pointer : Nat}
    (hget : w.handles[i]? = some (some pointer)) :
    Agree
      { w with
        runtimes := Shared.release w.runtimes pointer, handles := w.handles.set i none }
      { t with handles := t.handles.set i none } where
  counted := by
    have hlt := (List.getElem?_eq_some_iff.mp hget).1
    have hfront := (Held.filterMap_perm id hget).append_left
      (w.clients.filterMap (Option.map ApiClient.runtimeState))
    have hrest := (Held.filterMap_set id hlt none).append_left
      (w.clients.filterMap (Option.map ApiClient.runtimeState))
    have hcounted := h.counted.perm (hfront.trans List.perm_middle)
    exact hcounted.release.perm hrest.symm
  authStates := h.authStates
  clients := h.clients_frame _ fun _ _ => Shared.read_release _ _ _
  handles := by
    have hhandles := h.handles_frame (Shared.release w.runtimes pointer)
      fun _ _ => Shared.read_release _ _ _
    rw [List.map_set, hhandles, List.map_set]
    rfl

/-- **One step**: both worlds refuse it or give the same answer. -/
theorem step (h : Agree w t) (a : ClientStep V W) :
    (w.step a = none ∧ t.step a = none) ∨
      ∃ w' t' o, w.step a = some (w', o) ∧ t.step a = some (t', o) ∧ Agree w' t' := by
  cases a with
  | create vars authVars made =>
      right
      refine ⟨_, _, _, rfl, ?_, h.push _ (w.authStates ++ [made.authState])
        (v := .withManagedClient vars authVars w.authStates.length made.debugSink
          made.runtimeState) ?_ ?_ ?_⟩
      · simp only [ClientValues.step, h.authStates, h.length_clients]
      · exact h.counted.alloc made.runtimeState
      · intro pointer hmem
        exact Shared.read_alloc_of_lt _ (h.counted.valid hmem)
      · simp only [ApiClient.through, ApiClient.own, ApiClient.withManagedClient,
          Shared.read_alloc]
  | clone i =>
      rcases h.client_cases i with ⟨hc, hv⟩ | ⟨c, v, hc, hv, hview⟩
      · exact .inl ⟨by simp [ClientWorld.step, hc], by simp [ClientValues.step, hv]⟩
      · right
        have hlt := (h.counted_client hc).valid List.mem_cons_self
        have hview' : c.through (Shared.retain w.runtimes c.runtimeState) = v.own := by
          simpa only [ApiClient.through, Shared.read_retain] using hview
        have hpush := h.push (Shared.retain w.runtimes c.runtimeState) w.authStates
          (h.counted.retain hlt) (fun _ _ => Shared.read_retain _ _ _) hview'
        rw [h.authStates] at hpush
        refine ⟨_, _, .created w.clients.length, ?_, ?_, hpush⟩
        · simp only [ClientWorld.step, hc, Option.map_some, h.authStates]
        · simp only [ClientValues.step, hv, Option.map_some, h.length_clients]
  | drop i =>
      rcases h.client_cases i with ⟨hc, hv⟩ | ⟨c, v, hc, hv, hview⟩
      · exact .inl ⟨by simp [ClientWorld.step, hc], by simp [ClientValues.step, hv]⟩
      · right
        have hreplace := h.replace hc (Shared.release w.runtimes c.runtimeState) w.authStates
          (x := none) (y := none) (h.counted_client hc).release
          (fun _ _ => Shared.read_release _ _ _) rfl
        rw [h.authStates] at hreplace
        refine ⟨_, _, .done, ?_, ?_, hreplace⟩
        · simp only [ClientWorld.step, hc, Option.map_some, h.authStates]
        · simp only [ClientValues.step, hv, Option.map_some]
  | call i call =>
      rcases h.client_cases i with ⟨hc, hv⟩ | ⟨c, v, hc, hv, hview⟩
      · exact .inl ⟨by simp [ClientWorld.step, hc], by simp [ClientValues.step, hv]⟩
      · rcases ApiClient.call_value hview (h.counted_client hc) w.authStates call with
          ⟨hcall, hcall'⟩ | ⟨called, client, hcall, hcall', hagrees⟩
        · rw [h.authStates] at hcall'
          exact .inl ⟨by simp [ClientWorld.step, hc, hcall],
            by simp [ClientValues.step, hv, hcall']⟩
        · right
          rw [h.authStates] at hcall'
          refine ⟨_, _, called.answer, ?_, ?_, h.replace hc called.runtimes called.authStates
            (x := some called.client) (y := some client) hagrees.counted hagrees.frame
            (congrArg some hagrees.client)⟩
          · simp only [ClientWorld.step, hc, hcall, Option.bind_some, Option.map_some]
          · simp only [ClientValues.step, hv, hcall', Option.bind_some, Option.map_some]
  | keepRuntime i =>
      rcases h.client_cases i with ⟨hc, hv⟩ | ⟨c, v, hc, hv, hview⟩
      · exact .inl ⟨by simp [ClientWorld.step, hc], by simp [ClientValues.step, hv]⟩
      · right
        obtain ⟨state, hread, rfl⟩ := ApiClient.eq_of_through hview
        have hlt := (h.counted_client hc).valid List.mem_cons_self
        refine ⟨_, _, .handle w.handles.length, ?_, ?_, h.keep hlt hread⟩
        · simp only [ClientWorld.step, hc, Option.map_some]
        · simp only [ClientValues.step, hv, Option.map_some, h.length_handles]
  | readRuntime i =>
      rcases h.handle_cases i with ⟨hc, hv⟩ | ⟨pointer, state, hc, hv, hread⟩
      · exact .inl ⟨by simp [ClientWorld.step, hc], by simp [ClientValues.step, hv]⟩
      · right
        refine ⟨w, t, .runtime state, ?_, ?_, h⟩
        · simp only [ClientWorld.step, hc, hread, Option.bind_some, Option.map_some]
        · simp only [ClientValues.step, hv, Option.map_some]
  | dropRuntime i =>
      rcases h.handle_cases i with ⟨hc, hv⟩ | ⟨pointer, state, hc, hv, hread⟩
      · exact .inl ⟨by simp [ClientWorld.step, hc], by simp [ClientValues.step, hv]⟩
      · right
        refine ⟨_, _, .done, ?_, ?_, h.dropHandle (Option.join_eq_some_iff.mp hc)⟩
        · simp only [ClientWorld.step, hc, Option.map_some]
        · simp only [ClientValues.step, hv, Option.map_some]

end Agree

/-! ## runs -/

/-- **Clones behind pointers are clients with settings of their own**: every
run of a program, however it makes, clones, shares, changes and drops clients,
gives the same answers as one in which each client has its runtime settings
to itself and each family of clones its authentication state. -/
theorem clients_are_values (steps : List (ClientStep V W)) :
    (exec ClientWorld.step ClientWorld.empty steps).map Prod.snd =
      (exec ClientValues.step ClientValues.empty steps).map Prod.snd :=
  exec_lockstep (R := fun _ w t => Agree w t) (fun a _ _ _ h => h.step a) Agree.empty

/-! ## clones from outside -/

/-- The client that a step may change. -/
def ClientStep.changes : ClientStep V W → Option Nat
  | .drop i => some i
  | .call i _ => some i
  | _ => none

/-- The view of a client, if that was the answer. -/
def ClientAnswer.view? : ClientAnswer V W → Option (ClientView V W)
  | .client view => some view
  | _ => none

/-- What the getters of a client say. -/
def ClientWorld.view (w : ClientWorld V W) (i : Nat) : Option (ClientView V W) :=
  (w.step (.call i .get)).bind fun answered => answered.2.view?

/-- What a client shows of itself. -/
def ClientValues.view (t : ClientValues V W) (i : Nat) : Option (ClientView V W) :=
  (t.step (.call i .get)).bind fun answered => answered.2.view?

/-- Clients of worlds that agree show the same. -/
theorem Agree.view {w : ClientWorld V W} {t : ClientValues V W} (h : Agree w t) (i : Nat) :
    w.view i = t.view i := by
  unfold ClientWorld.view ClientValues.view
  rcases h.step (.call i .get) with ⟨hw, ht⟩ | ⟨w', t', o, hw, ht, _⟩
  · rw [hw, ht]
    rfl
  · rw [hw, ht]
    rfl

namespace ClientValues

variable {t t' : ClientValues V W} {a : ClientStep V W} {o : ClientAnswer V W} {i : Nat}
  {v : ApiClient V W Nat ClientRuntimeState}

/-- A client shows its own value and the auth state behind its pointer. -/
theorem view_eq (t : ClientValues V W) (i : Nat) :
    t.view i = (t.client? i).bind fun v =>
      (t.authStates[v.authState]?).map fun authState => { v with authState := authState } := by
  cases hv : t.client? i with
  | none => simp [view, step, hv]
  | some v =>
      cases hauth : t.authStates[v.authState]? with
      | none => simp [view, step, hv, ApiClient.callValue, hauth]
      | some authState =>
          simp [view, step, hv, ApiClient.callValue, hauth, ClientAnswer.view?]

/-- A new client leaves those before it. -/
theorem client?_append {clients : List (Option (ApiClient V W Nat ClientRuntimeState))}
    (hv : (clients[i]?).join = some v) (x : Option (ApiClient V W Nat ClientRuntimeState)) :
    ((clients ++ [x])[i]?).join = some v := by
  have hget : clients[i]? = some (some v) := Option.join_eq_some_iff.mp hv
  have hlt := (List.getElem?_eq_some_iff.mp hget).1
  rw [List.getElem?_append_left hlt, hget]
  rfl

/-- A call leaves a client's auth pointer, and adds no auth state. -/
theorem callValue_authState {authStates : List ObjectId} {call : ClientCall V W}
    {called : List ObjectId × ApiClient V W Nat ClientRuntimeState × ClientAnswer V W}
    (h : v.callValue authStates call = some called) :
    called.2.1.authState = v.authState ∧ called.1.length = authStates.length := by
  cases call with
  | setApiHeaders headers =>
      have hkept : (v.setApiHeaders headers).1.authState = v.authState := by
        unfold ApiClient.setApiHeaders
        cases validatePublicHeaders headers with
        | none => rfl
        | some name => rfl
      rw [← Option.some.inj h]
      exact ⟨hkept, rfl⟩
  | setAuthState authState =>
      rw [← Option.some.inj h]
      exact ⟨rfl, List.length_set⟩
  | get =>
      obtain ⟨authState, _, rfl⟩ := Option.map_eq_some_iff.mp h
      exact ⟨rfl, rfl⟩
  | updateVars f | updateAuthVars f | setDebugLevel level | setDebugSink sink
  | setPaginationDetectLoops enabled | setRuntimeHooks hooks | setRateLimiter rateLimiter
  | configure f =>
      rw [← Option.some.inj h]
      exact ⟨rfl, rfl⟩

/-- A client number is taken, and its client has this lock. -/
structure InFamily (family i : Nat) (t : ClientValues V W) : Prop where
  taken : i < t.clients.length
  lock : ∀ {v}, t.client? i = some v → v.authState = family

/-- Every client has a lock that is there. -/
def Locked (t : ClientValues V W) : Prop :=
  ∀ ⦃i v⦄, t.client? i = some v → v.authState < t.authStates.length

/-- After one was appended, a client is one of those before or the new one. -/
theorem client?_append_cases {clients : List (Option (ApiClient V W Nat ClientRuntimeState))}
    {x : Option (ApiClient V W Nat ClientRuntimeState)}
    (hv : ((clients ++ [x])[i]?).join = some v) :
    (clients[i]?).join = some v ∨ i = clients.length ∧ x = some v := by
  rw [List.getElem?_append] at hv
  split at hv
  · exact .inl hv
  · next hge =>
      rw [List.getElem?_singleton] at hv
      split at hv
      · next hzero => exact .inr ⟨by omega, by simpa using hv⟩
      · simp at hv

/-- After one was replaced, a client is one of those before or the new one. -/
theorem client?_set_cases {clients : List (Option (ApiClient V W Nat ClientRuntimeState))}
    {j : Nat} {x : Option (ApiClient V W Nat ClientRuntimeState)}
    (hv : ((clients.set j x)[i]?).join = some v) :
    (clients[i]?).join = some v ∨ i = j ∧ x = some v := by
  rw [List.getElem?_set] at hv
  split at hv
  · next heq =>
      split at hv
      · exact .inr ⟨heq.symm, by simpa using hv⟩
      · simp at hv
  · exact .inl hv

/-- What a step does to the clients: nothing, or one comes, or one changes. -/
inductive Changed (t t' : ClientValues V W) (a : ClientStep V W) : Prop
  | same (hclients : t'.clients = t.clients) (hlocks : t'.authStates = t.authStates)
  | came (x : ApiClient V W Nat ClientRuntimeState) (hclients : t'.clients = t.clients ++ [some x])
      (hlocks : t.authStates.length ≤ t'.authStates.length)
      (hlock : (∃ j, t.client? j = some x) ∨ x.authState < t'.authStates.length)
  | changed (j : Nat) (v : ApiClient V W Nat ClientRuntimeState)
      (x : Option (ApiClient V W Nat ClientRuntimeState)) (hj : a.changes = some j)
      (hv : t.client? j = some v) (hclients : t'.clients = t.clients.set j x)
      (hlocks : t'.authStates.length = t.authStates.length)
      (hlock : ∀ {u}, x = some u → u.authState = v.authState)

/-- What a step may change of the clients. -/
theorem changed_of_step (h : t.step a = some (t', o)) : Changed t t' a := by
  cases a with
  | create vars authVars made =>
      simp only [step, Option.some.injEq, Prod.mk.injEq] at h
      rw [← h.1]
      exact .came _ rfl (by simp) (.inr (by simp [ApiClient.withManagedClient]))
  | clone j =>
      simp only [step, Option.map_eq_some_iff, Prod.mk.injEq] at h
      obtain ⟨u, hu, rfl, _⟩ := h
      exact .came u rfl (Nat.le_refl _) (.inl ⟨j, hu⟩)
  | drop j =>
      simp only [step, Option.map_eq_some_iff, Prod.mk.injEq] at h
      obtain ⟨u, hu, rfl, _⟩ := h
      exact .changed j u none rfl hu rfl rfl (fun hnone => by contradiction)
  | call j call =>
      simp only [step, Option.bind_eq_some_iff, Option.map_eq_some_iff, Prod.mk.injEq] at h
      obtain ⟨u, hu, called, hcalled, rfl, _⟩ := h
      obtain ⟨hlock, hlength⟩ := callValue_authState hcalled
      refine .changed j u (some called.2.1) rfl hu rfl hlength fun {u'} hsome => ?_
      rw [← Option.some.inj hsome, hlock]
  | keepRuntime j | readRuntime j | dropRuntime j =>
      simp only [step, Option.map_eq_some_iff, Prod.mk.injEq] at h
      obtain ⟨u, _, rfl, _⟩ := h
      exact .same rfl rfl

/-- A step that is not about a client leaves it as it is. -/
theorem client?_of_step (h : t.step a = some (t', o)) (ha : a.changes ≠ some i)
    (hv : t.client? i = some v) : t'.client? i = some v := by
  unfold client? at hv ⊢
  cases changed_of_step h with
  | same hclients hlocks =>
      rw [hclients]
      exact hv
  | came x hclients hlocks hlock =>
      rw [hclients]
      exact client?_append hv _
  | changed j u x hj hu hclients hlocks hlock =>
      have hne : j ≠ i := fun heq => ha (heq ▸ hj)
      rw [hclients, List.getElem?_set_ne hne]
      exact hv

/-- A client stays in its family. -/
theorem InFamily.step {family : Nat} (hfamily : InFamily family i t)
    (h : t.step a = some (t', o)) : InFamily family i t' := by
  obtain ⟨htaken, hlock'⟩ := hfamily
  unfold client? at hlock'
  cases changed_of_step h with
  | same hclients hlocks =>
      refine ⟨hclients ▸ htaken, fun {u} hu => ?_⟩
      rw [client?, hclients] at hu
      exact hlock' hu
  | came x hclients hlocks hlock =>
      refine ⟨by rw [hclients, List.length_append]; omega, fun {u} hu => ?_⟩
      rw [client?, hclients] at hu
      rcases client?_append_cases hu with hu | ⟨heq, _⟩
      · exact hlock' hu
      · omega
  | changed j w x hj hw hclients hlocks hlock =>
      refine ⟨by rw [hclients, List.length_set]; exact htaken, fun {u} hu => ?_⟩
      rw [client?, hclients] at hu
      rcases client?_set_cases hu with hu | ⟨rfl, hsome⟩
      · exact hlock' hu
      · rw [hlock hsome]
        exact hlock' hw

/-- No client ever points to an auth state that is not there. -/
theorem Locked.step (hlocked : Locked t) (h : t.step a = some (t', o)) : Locked t' := by
  intro i u hu
  cases changed_of_step h with
  | same hclients hlocks =>
      rw [client?, hclients] at hu
      rw [hlocks]
      exact hlocked hu
  | came x hclients hlocks hlock =>
      rw [client?, hclients] at hu
      rcases client?_append_cases hu with hu | ⟨_, hsome⟩
      · exact Nat.lt_of_lt_of_le (hlocked hu) hlocks
      · rw [← Option.some.inj hsome]
        rcases hlock with ⟨j, hj⟩ | hlt
        · exact Nat.lt_of_lt_of_le (hlocked hj) hlocks
        · exact hlt
  | changed j w x hj hw hclients hlocks hlock =>
      rw [client?, hclients] at hu
      rw [hlocks]
      rcases client?_set_cases hu with hu | ⟨_, hsome⟩
      · exact hlocked hu
      · rw [hlock hsome]
        exact hlocked hw

/-- The clients that a step may bring, and the locks that stay. -/
theorem locked_of_exec {steps : List (ClientStep V W)} {os : List (ClientAnswer V W)}
    (h : exec ClientValues.step ClientValues.empty steps = some (t, os)) : Locked t := by
  refine exec_invariant (I := fun t : ClientValues V W => Locked t)
    (fun hlocked hstep => Locked.step hlocked hstep) h ?_
  intro i v hv
  simp [client?, empty] at hv

/-- So every live client shows something. -/
theorem view_of_client? (hlocked : Locked t) (hv : t.client? i = some v) :
    ∃ authState, t.authStates[v.authState]? = some authState ∧
      t.view i = some { v with authState := authState } := by
  have hlt := hlocked hv
  refine ⟨t.authStates[v.authState], List.getElem?_eq_getElem hlt, ?_⟩
  rw [view_eq, hv, Option.bind_some, List.getElem?_eq_getElem hlt, Option.map_some]

/-- The authentication state that a client of a family sees. -/
theorem authState_of_view {family : Nat} (hfamily : InFamily family i t) {view : ClientView V W}
    (hview : t.view i = some view) : t.authStates[family]? = some view.authState := by
  rw [view_eq] at hview
  obtain ⟨v, hv, hmap⟩ := Option.bind_eq_some_iff.mp hview
  obtain ⟨authState, hauth, rfl⟩ := Option.map_eq_some_iff.mp hmap
  rw [hfamily.lock hv] at hauth
  exact hauth

end ClientValues

/-- What a clone and the client it was made of are to each other, in a world
`w'` after the clone was made in a world `w` and after more steps: neither
sees what is done to the other but for the authentication state, and of that
both see the same. -/
structure CloneOf (w w' : ClientWorld V W) (i : Nat) (steps : List (ClientStep V W)) : Prop where
  clone : (∀ a ∈ steps, a.changes ≠ some w.clients.length) →
    ∃ view authState, w.view i = some view ∧
      w'.view w.clients.length = some { view with authState := authState }
  original : (∀ a ∈ steps, a.changes ≠ some i) →
    ∃ view authState, w.view i = some view ∧ w'.view i = some { view with authState := authState }
  shared : ∀ {view view'}, w'.view i = some view → w'.view w.clients.length = some view' →
    view.authState = view'.authState

/-- **A clone is a copy that shares the authentication state**, in every run
and whatever happened before and after it was made. -/
theorem clone_is_copy {before after : List (ClientStep V W)} {i : Nat} {w w' : ClientWorld V W}
    {os os' : List (ClientAnswer V W)}
    (hbefore : exec ClientWorld.step ClientWorld.empty before = some (w, os))
    (hafter : exec ClientWorld.step w (.clone i :: after) = some (w', os')) :
    CloneOf w w' i after := by
  have hlockstep : ∀ (a : ClientStep V W) (as : List (ClientStep V W)) (s : ClientWorld V W)
      (u : ClientValues V W), Agree s u → (s.step a = none ∧ u.step a = none) ∨
        ∃ s' u' o, s.step a = some (s', o) ∧ u.step a = some (u', o) ∧ Agree s' u' :=
    fun a _ _ _ h => h.step a
  obtain ⟨t, ht, hagree⟩ := exec_of_lockstep (R := fun _ s u => Agree s u) hlockstep Agree.empty
    hbefore
  obtain ⟨t', ht', hagree'⟩ := exec_of_lockstep (R := fun _ s u => Agree s u) hlockstep hagree
    hafter
  have hlocked := ClientValues.locked_of_exec ht
  have hlocked' : ClientValues.Locked t' :=
    ClientValues.locked_of_exec (exec_append_eq_some.mpr ⟨t, _, _, ht, ht', rfl⟩)
  -- the clone is made of a client that is there
  obtain ⟨t₁, o, _, hclone, hrest, _⟩ := exec_cons_eq_some.mp ht'
  simp only [ClientValues.step, Option.map_eq_some_iff, Prod.mk.injEq] at hclone
  obtain ⟨v, hv, rfl, rfl⟩ := hclone
  have hlength := hagree.length_clients
  have hnew : (⟨t.authStates, t.clients ++ [some v], t.handles⟩ : ClientValues V W).client?
      w.clients.length = some v := by
    simp [ClientValues.client?, hlength]
  have hold : (⟨t.authStates, t.clients ++ [some v], t.handles⟩ : ClientValues V W).client? i =
      some v := ClientValues.client?_append hv _
  obtain ⟨authState, _, hview⟩ := ClientValues.view_of_client? hlocked hv
  rw [← hagree.view] at hview
  have hkept {j : Nat} (hj : (⟨t.authStates, t.clients ++ [some v], t.handles⟩ :
      ClientValues V W).client? j = some v) (hsteps : ∀ a ∈ after, a.changes ≠ some j) :
      ∃ view authState, w.view i = some view ∧
        w'.view j = some { view with authState := authState } := by
    have hj' : t'.client? j = some v := exec_invariant_of_labels
      (I := fun u : ClientValues V W => u.client? j = some v)
      (P := fun a : ClientStep V W => a.changes ≠ some j)
      (fun hP hI hstep => ClientValues.client?_of_step hstep hP hI) hrest hsteps hj
    obtain ⟨authState', _, hview'⟩ := ClientValues.view_of_client? hlocked' hj'
    exact ⟨_, authState', hview, hagree'.view j ▸ hview'⟩
  have hfamily {j : Nat} (hj : (⟨t.authStates, t.clients ++ [some v], t.handles⟩ :
      ClientValues V W).client? j = some v) : ClientValues.InFamily v.authState j t' := by
    refine exec_invariant (I := fun u : ClientValues V W =>
      ClientValues.InFamily v.authState j u)
      (fun hI hstep => ClientValues.InFamily.step hI hstep) hrest ⟨?_, ?_⟩
    · exact (List.getElem?_eq_some_iff.mp (Option.join_eq_some_iff.mp hj)).1
    · intro u hu
      rw [hj] at hu
      rw [← Option.some.inj hu]
  refine ⟨hkept hnew, hkept hold, fun {view view'} hone htwo => ?_⟩
  rw [hagree'.view] at hone htwo
  have hauth := ClientValues.authState_of_view (hfamily hold) hone
  rw [ClientValues.authState_of_view (hfamily hnew) htwo] at hauth
  exact (Option.some.inj hauth).symm

/-- One client, and what happens to it after it was cloned. -/
def oneClient : List (ClientStep Unit Unit) := [.create () () ⟨1, 2, 3, 4, 5⟩]

/-- Three setters on the client that was cloned. -/
def laterSteps : List (ClientStep Unit Unit) :=
  [.call 0 (.setRuntimeHooks 6), .call 0 (.setAuthState 7), .call 0 (.setDebugLevel .vv)]

/-- A clone after three setters on the original. -/
theorem clone_is_copy_later :
    ∃ w w' : ClientWorld Unit Unit, ∃ view authState, w.view 0 = some view ∧
      w'.view w.clients.length = some { view with authState := authState } := by
  have hone : ∃ w os, exec ClientWorld.step ClientWorld.empty oneClient = some (w, os) ∧
      ∃ w' os', exec ClientWorld.step w (.clone 0 :: laterSteps) = some (w', os') :=
    ⟨_, _, rfl, _, _, rfl⟩
  obtain ⟨w, os, hbefore, w', os', hafter⟩ := hone
  exact ⟨w, w', (clone_is_copy hbefore hafter).clone fun a hmem => by
    have hlength : w.clients.length = 1 := by
      rw [← congrArg (fun world => world.1.clients.length) (Option.some.inj hbefore)]
      rfl
    rw [hlength]
    simp only [laterSteps, List.mem_cons, List.not_mem_nil, or_false] at hmem
    rcases hmem with rfl | rfl | rfl <;> simp [ClientStep.changes]⟩

end Concord
