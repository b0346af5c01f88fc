import Concord.Auth.Error
import Concord.HeaderOwnership
import Concord.Lib.Shared
import Concord.Request

/-!
# Concord.Client.Api

`ApiClient` and its clones (`concord_core/src/client/api.rs`, with
`concord_core/src/runtime_state.rs` and `concord_core/src/runtime/config.rs`).

A client is a record of which two fields are pointers: the lock around the
authentication state, which all clones share, and the runtime settings, which
are copied when one of several holders writes them.  A `ClientWorld` is all
the clients of a program, their runtime settings and the pointers to such
settings that were handed out; a `ClientStep` is a call of one method.

`ClientValues` is what this is for: every client has runtime settings of its
own, and every family of clones one authentication state.
-/

namespace Concord

/-! ## settings -/

/-- An `Arc` of something that only its identity matters of: hooks, a rate
limiter, a sink or an authentication state. -/
abbrev ObjectId := Nat

structure DebugConfig where
  level : DebugLevel
  sink : ObjectId
  deriving DecidableEq, Repr

structure RuntimeConfig where
  hooks : ObjectId
  rateLimiter : ObjectId
  maxRateLimitCooldown : Duration
  paginationDetectLoops : Bool
  debug : DebugConfig
  maxResponseBodyBytes : Option Nat
  maxRequestBodyBytes : Option Nat
  maxStreamResponseBodyBytes : Option Nat
  deriving DecidableEq, Repr

/-- `RuntimeConfig::default`, around objects that were made for it. -/
def RuntimeConfig.default (hooks rateLimiter sink : ObjectId) : RuntimeConfig where
  hooks := hooks
  rateLimiter := rateLimiter
  maxRateLimitCooldown := 60 * 1000000000
  paginationDetectLoops := true
  debug := ⟨.none, sink⟩
  maxResponseBodyBytes := some (16 * 1024 * 1024)
  maxRequestBodyBytes := some (16 * 1024 * 1024)
  maxStreamResponseBodyBytes := some (16 * 1024 * 1024)

structure ClientRuntimeState where
  hooks : ObjectId
  rateLimiter : ObjectId
  maxRateLimitCooldown : Duration
  maxResponseBodyBytes : Option Nat
  maxRequestBodyBytes : Option Nat
  maxStreamResponseBodyBytes : Option Nat
  deriving DecidableEq, Repr

namespace ClientRuntimeState

def fromConfig (config : RuntimeConfig) : ClientRuntimeState where
  hooks := config.hooks
  rateLimiter := config.rateLimiter
  maxRateLimitCooldown := config.maxRateLimitCooldown
  maxResponseBodyBytes := config.maxResponseBodyBytes
  maxRequestBodyBytes := config.maxRequestBodyBytes
  maxStreamResponseBodyBytes := config.maxStreamResponseBodyBytes

def applyConfig (_ : ClientRuntimeState) (config : RuntimeConfig) : ClientRuntimeState :=
  fromConfig config

def setHooks (state : ClientRuntimeState) (hooks : ObjectId) : ClientRuntimeState :=
  { state with hooks := hooks }

def setRateLimiter (state : ClientRuntimeState) (rateLimiter : ObjectId) : ClientRuntimeState :=
  { state with rateLimiter := rateLimiter }

end ClientRuntimeState

/-! ## clients -/

/-- `ApiClient`, less its transport, which no method changes.  `S` stands for
the lock around the authentication state, `R` for the pointer to the runtime
settings. -/
structure ApiClient (V W S R : Type*) where
  vars : V
  authVars : W
  authState : S
  debugLevel : DebugLevel
  paginationDetectLoops : Bool
  debugSink : ObjectId
  runtimeState : R
  apiHeaders : HeaderMap
  deriving DecidableEq

/-- The objects that a new client is made with. -/
structure Made where
  authState : ObjectId
  debugSink : ObjectId
  hooks : ObjectId
  rateLimiter : ObjectId
  configSink : ObjectId
  deriving DecidableEq, Repr

variable {V W S R : Type*}

namespace ApiClient

def withManagedClient (vars : V) (authVars : W) (authState : S) (debugSink : ObjectId)
    (runtimeState : R) : ApiClient V W S R where
  vars := vars
  authVars := authVars
  authState := authState
  debugLevel := .none
  paginationDetectLoops := true
  debugSink := debugSink
  runtimeState := runtimeState
  apiHeaders := ⟨[]⟩

/-- `update_vars`; `set_vars` and `vars_mut` are cases of it. -/
def updateVars (client : ApiClient V W S R) (f : V → V) : ApiClient V W S R :=
  { client with vars := f client.vars }

def updateAuthVars (client : ApiClient V W S R) (f : W → W) : ApiClient V W S R :=
  { client with authVars := f client.authVars }

/-- `set_api_headers`, with the header a rejection names. -/
def setApiHeaders (client : ApiClient V W S R) (headers : HeaderMap) :
    ApiClient V W S R × Option HeaderName :=
  match validatePublicHeaders headers with
  | some name => (client, some name)
  | none => ({ client with apiHeaders := headers }, none)

def setDebugLevel (client : ApiClient V W S R) (level : DebugLevel) : ApiClient V W S R :=
  { client with debugLevel := level }

def setDebugSink (client : ApiClient V W S R) (sink : ObjectId) : ApiClient V W S R :=
  { client with debugSink := sink }

def setPaginationDetectLoops (client : ApiClient V W S R) (enabled : Bool) : ApiClient V W S R :=
  { client with paginationDetectLoops := enabled }

/-- The settings that `configure` hands to its closure. -/
def config (client : ApiClient V W S R) (state : ClientRuntimeState) : RuntimeConfig where
  hooks := state.hooks
  rateLimiter := state.rateLimiter
  maxRateLimitCooldown := state.maxRateLimitCooldown
  paginationDetectLoops := client.paginationDetectLoops
  debug := ⟨client.debugLevel, client.debugSink⟩
  maxResponseBodyBytes := state.maxResponseBodyBytes
  maxRequestBodyBytes := state.maxRequestBodyBytes
  maxStreamResponseBodyBytes := state.maxStreamResponseBodyBytes

/-- What `configure` takes back from its closure for the client itself. -/
def applyConfig (client : ApiClient V W S R) (config : RuntimeConfig) : ApiClient V W S R :=
  { client with
    debugLevel := config.debug.level
    debugSink := config.debug.sink
    paginationDetectLoops := config.paginationDetectLoops }

end ApiClient

/-- A method of a client; `get` is all its getters at once. -/
inductive ClientCall (V W : Type*) where
  | updateVars (f : V → V)
  | updateAuthVars (f : W → W)
  | setApiHeaders (headers : HeaderMap)
  | setDebugLevel (level : DebugLevel)
  | setDebugSink (sink : ObjectId)
  | setPaginationDetectLoops (enabled : Bool)
  | setRuntimeHooks (hooks : ObjectId)
  | setRateLimiter (rateLimiter : ObjectId)
  | configure (f : RuntimeConfig → RuntimeConfig)
  | setAuthState (authState : ObjectId)
  | get

/-- What one sees of a client. -/
abbrev ClientView (V W : Type*) := ApiClient V W ObjectId ClientRuntimeState

inductive ClientAnswer (V W : Type*) where
  | done
  | rejected (name : HeaderName)
  | created (client : Nat)
  | handle (handle : Nat)
  | client (view : ClientView V W)
  | runtime (state : ClientRuntimeState)

/-- `Ok` or the error of a header that a client may not set. -/
def ClientAnswer.ofOwnership : Option HeaderName → ClientAnswer V W
  | none => .done
  | some name => .rejected name

/-- What a call leaves behind. -/
structure Called (V W : Type*) where
  runtimes : Shared.Heap ClientRuntimeState
  authStates : List ObjectId
  client : ApiClient V W Nat Nat
  answer : ClientAnswer V W

/-- A call of a method.  Nothing but the runtime settings is behind a pointer
that is copied on a write, and nothing but the authentication state behind a
lock. -/
def ApiClient.call (client : ApiClient V W Nat Nat) (runtimes : Shared.Heap ClientRuntimeState)
    (authStates : List ObjectId) : ClientCall V W → Option (Called V W)
  | .updateVars f => some ⟨runtimes, authStates, client.updateVars f, .done⟩
  | .updateAuthVars f => some ⟨runtimes, authStates, client.updateAuthVars f, .done⟩
  | .setApiHeaders headers =>
    let set := client.setApiHeaders headers
    some ⟨runtimes, authStates, set.1, .ofOwnership set.2⟩
  | .setDebugLevel level => some ⟨runtimes, authStates, client.setDebugLevel level, .done⟩
  | .setDebugSink sink => some ⟨runtimes, authStates, client.setDebugSink sink, .done⟩
  | .setPaginationDetectLoops enabled =>
    some ⟨runtimes, authStates, client.setPaginationDetectLoops enabled, .done⟩
  | .setRuntimeHooks hooks =>
    let made := Shared.makeMut runtimes client.runtimeState (·.setHooks hooks)
    some ⟨made.1, authStates, { client with runtimeState := made.2 }, .done⟩
  | .setRateLimiter rateLimiter =>
    let made := Shared.makeMut runtimes client.runtimeState (·.setRateLimiter rateLimiter)
    some ⟨made.1, authStates, { client with runtimeState := made.2 }, .done⟩
  | .configure f =>
    (Shared.read runtimes client.runtimeState).map fun state =>
      let config := f (client.config state)
      let made := Shared.makeMut runtimes client.runtimeState (·.applyConfig config)
      ⟨made.1, authStates, { client.applyConfig config with runtimeState := made.2 }, .done⟩
  | .setAuthState authState =>
    some ⟨runtimes, authStates.set client.authState authState, client, .done⟩
  | .get =>
    match Shared.read runtimes client.runtimeState, authStates[client.authState]? with
    | some state, some authState =>
      some ⟨runtimes, authStates, client,
        .client { client with authState := authState, runtimeState := state }⟩
    | _, _ => none

/-! ## clones -/

/-- All clients, by number; one that was dropped is gone. -/
structure ClientWorld (V W : Type*) where
  runtimes : Shared.Heap ClientRuntimeState
  authStates : List ObjectId
  clients : List (Option (ApiClient V W Nat Nat))
  handles : List (Option Nat)

inductive ClientStep (V W : Type*) where
  | create (vars : V) (authVars : W) (made : Made)
  | clone (client : Nat)
  | drop (client : Nat)
  | call (client : Nat) (call : ClientCall V W)
  /-- Keep a clone of `runtime_state()`. -/
  | keepRuntime (client : Nat)
  | readRuntime (handle : Nat)
  | dropRuntime (handle : Nat)

/-- The settings a new client starts with. -/
def Made.runtimeState (made : Made) : ClientRuntimeState :=
  .fromConfig (.default made.hooks made.rateLimiter made.configSink)

namespace ClientWorld

def empty : ClientWorld V W := ⟨[], [], [], []⟩

/-- A client that is there. -/
def client? (w : ClientWorld V W) (i : Nat) : Option (ApiClient V W Nat Nat) := (w.clients[i]?).join

def handle? (w : ClientWorld V W) (i : Nat) : Option Nat := (w.handles[i]?).join

/-- One step of the program; nothing can be asked of what is not there. -/
def step (w : ClientWorld V W) : ClientStep V W → Option (ClientWorld V W × ClientAnswer V W)
  | .create vars authVars made =>
    let runtime := Shared.alloc w.runtimes made.runtimeState
    let client := ApiClient.withManagedClient vars authVars w.authStates.length made.debugSink
      runtime.2
    some ({ w with
      runtimes := runtime.1
      authStates := w.authStates ++ [made.authState]
      clients := w.clients ++ [some client] }, .created w.clients.length)
  | .clone i =>
    (w.client? i).map fun client => ({ w with
      runtimes := Shared.retain w.runtimes client.runtimeState
      clients := w.clients ++ [some client] }, .created w.clients.length)
  | .drop i =>
    (w.client? i).map fun client => ({ w with
      runtimes := Shared.release w.runtimes client.runtimeState
      clients := w.clients.set i none }, .done)
  | .call i call =>
    (w.client? i).bind fun client =>
      (client.call w.runtimes w.authStates call).map fun called => ({ w with
        runtimes := called.runtimes
        authStates := called.authStates
        clients := w.clients.set i (some called.client) }, called.answer)
  | .keepRuntime i =>
    (w.client? i).map fun client => ({ w with
      runtimes := Shared.retain w.runtimes client.runtimeState
      handles := w.handles ++ [some client.runtimeState] }, .handle w.handles.length)
  | .readRuntime i =>
    (w.handle? i).bind fun pointer =>
      (Shared.read w.runtimes pointer).map fun state => (w, .runtime state)
  | .dropRuntime i =>
    (w.handle? i).map fun pointer => ({ w with
      runtimes := Shared.release w.runtimes pointer
      handles := w.handles.set i none }, .done)

end ClientWorld

/-! ## what clones are for -/

/-- Clients with settings of their own, and one authentication state for each
family of clones. -/
structure ClientValues (V W : Type*) where
  authStates : List ObjectId
  clients : List (Option (ApiClient V W Nat ClientRuntimeState))
  handles : List (Option ClientRuntimeState)

/-- A call of a method of a client with settings of its own. -/
def ApiClient.callValue (client : ApiClient V W Nat ClientRuntimeState)
    (authStates : List ObjectId) : ClientCall V W →
      Option (List ObjectId × ApiClient V W Nat ClientRuntimeState × ClientAnswer V W)
  | .updateVars f => some (authStates, client.updateVars f, .done)
  | .updateAuthVars f => some (authStates, client.updateAuthVars f, .done)
  | .setApiHeaders headers =>
    some (authStates, (client.setApiHeaders headers).1,
      .ofOwnership (client.setApiHeaders headers).2)
  | .setDebugLevel level => some (authStates, client.setDebugLevel level, .done)
  | .setDebugSink sink => some (authStates, client.setDebugSink sink, .done)
  | .setPaginationDetectLoops enabled =>
    some (authStates, client.setPaginationDetectLoops enabled, .done)
  | .setRuntimeHooks hooks =>
    some (authStates, { client with runtimeState := client.runtimeState.setHooks hooks }, .done)
  | .setRateLimiter rateLimiter =>
    some (authStates,
      { client with runtimeState := client.runtimeState.setRateLimiter rateLimiter }, .done)
  | .configure f =>
    let config := f (client.config client.runtimeState)
    some (authStates,
      { client.applyConfig config with runtimeState := .fromConfig config }, .done)
  | .setAuthState authState => some (authStates.set client.authState authState, client, .done)
  | .get => (authStates[client.authState]?).map fun authState =>
    (authStates, client, .client { client with authState := authState })

namespace ClientValues

def empty : ClientValues V W := ⟨[], [], []⟩

def client? (t : ClientValues V W) (i : Nat) : Option (ApiClient V W Nat ClientRuntimeState) :=
  (t.clients[i]?).join

def handle? (t : ClientValues V W) (i : Nat) : Option ClientRuntimeState := (t.handles[i]?).join

def step (t : ClientValues V W) : ClientStep V W → Option (ClientValues V W × ClientAnswer V W)
  | .create vars authVars made =>
    let client := ApiClient.withManagedClient vars authVars t.authStates.length made.debugSink
      made.runtimeState
    some ({ t with
      authStates := t.authStates ++ [made.authState]
      clients := t.clients ++ [some client] }, .created t.clients.length)
  | .clone i =>
    (t.client? i).map fun client =>
      ({ t with clients := t.clients ++ [some client] }, .created t.clients.length)
  | .drop i => (t.client? i).map fun _ => ({ t with clients := t.clients.set i none }, .done)
  | .call i call =>
    (t.client? i).bind fun client =>
      (client.callValue t.authStates call).map fun called => ({ t with
        authStates := called.1
        clients := t.clients.set i (some called.2.1) }, called.2.2)
  | .keepRuntime i =>
    (t.client? i).map fun client => ({ t with
      handles := t.handles ++ [some client.runtimeState] }, .handle t.handles.length)
  | .readRuntime i => (t.handle? i).map fun state => (t, .runtime state)
  | .dropRuntime i => (t.handle? i).map fun _ => ({ t with handles := t.handles.set i none }, .done)

end ClientValues

end Concord
