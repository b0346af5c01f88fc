import Concord.Error
import Concord.Lib.Loop
import Concord.Lib.Transition
import Concord.Body.Limit

/-!
# Concord.Body.Reading

A response body that is read in pieces (`next_chunk` and `collect_bytes` of
`BoundedResponseStream` in `concord_core/src/transport.rs`, `StreamResponse` in
`concord_core/src/stream_response.rs`) against one that is buffered
(`buffer_response` in `concord_core/src/client/send_flow.rs`).

The native body is given by what it answers to polls.  A future may be dropped
wherever it waits.  For the body, `patience` is how many times it is left
waiting, and an end of the answers is a body that goes on waiting; for a file,
the file says what waiting for it comes to.  A chunk is taken out of the stream
before it is written, so a write that fails or is dropped loses it.
-/

namespace Concord

open Polled

variable {ε : Type*}

/-! ## errors -/

/-- The errors of a response body and of the file it is written to; the
diagnostics of the file's are left out. -/
inductive ResponseError where
  | bodyLimitExceeded (ctx : ErrorContext) (limit : UInt64)
  | body (ctx : ErrorContext) (kind : BodyErrorKind)
  | file (ctx : ErrorContext) (msg : String)
  deriving DecidableEq, Repr

/-- `sanitize_body_error`. -/
def sanitizeBodyError (ctx : ErrorContext) (source : BodyError) : ResponseError :=
  if source.kind = .limitExceeded then .bodyLimitExceeded ctx (source.limit.getD 0)
  else .body ctx source.kind

/-- `buffer_response` of a body that is not skipped, over what the stream
answers; `none` while it still waits. -/
def bufferResponse (ctx : ErrorContext) (answers : List (Answer BodyError Frame)) :
    Option (Except ResponseError (List UInt8)) :=
  match collectBytes [] answers with
  | none => none
  | some (.ok bytes) => some (.ok bytes)
  | some (.error source) =>
    if source.kind = .limitExceeded then
      some (.error (.bodyLimitExceeded ctx (source.limit.getD 0)))
    else some (.error (.body ctx source.kind))

/-! ## chunks -/

/-- A stream, what the native body will answer to it, and what a read of it
came to: `none` if the future was dropped. -/
structure ChunkRead (ε : Type*) where
  stream : BoundedResponseStream ε
  native : List (Answer ε Frame)
  result : Option (Except BodyError (Option Bytes))

/-- `next_chunk`.  A stream that is shut does not poll the native body. -/
def BoundedResponseStream.nextChunk (patience : Nat) (this : BoundedResponseStream ε)
    (native : List (Answer ε Frame)) : ChunkRead ε :=
  match native with
  | [] => ⟨this, [], if this.terminal then some (.ok none) else none⟩
  | answer :: rest =>
    if this.terminal then ⟨this, answer :: rest, some (.ok none)⟩
    else
      match this.pollFrame answer with
      | (this, .pending) =>
        match patience with
        | 0 => ⟨this, rest, none⟩
        | patience + 1 => nextChunk patience this rest
      | (this, .ready none) => ⟨this, rest, some (.ok none)⟩
      | (this, .ready (some (.error error))) => ⟨this, rest, some (.error error)⟩
      | (this, .ready (some (.ok frame))) =>
        match frame.dataRef with
        | some data => ⟨this, rest, some (.ok (some data))⟩
        | none => nextChunk patience this rest

/-! ## files -/

/-- What waiting for a file comes to. -/
inductive FileAnswer where
  | done
  | failed
  | dropped
  deriving DecidableEq, Repr

/-- A file that bytes are written to: what becomes of creating it, of its k-th
write and of flushing it. -/
structure OutputFile where
  create : FileAnswer
  write : Nat → FileAnswer
  flush : FileAnswer

/-- How a call of `write_to_file` ended. -/
inductive WriteOutcome where
  | done
  | dropped
  | failed (error : ResponseError)
  deriving DecidableEq, Repr

/-- The output file could not be created. -/
def createFailed : String := "failed to create stream response output file"

/-- A chunk could not be written. -/
def writeFailed : String := "failed to write stream response output file"

/-- The file could not be flushed. -/
def flushFailed : String := "failed to flush stream response output file"

/-- How a call ends that waits for a file. -/
def FileAnswer.outcome (ctx : ErrorContext) (msg : String) : FileAnswer → WriteOutcome
  | .done => .done
  | .failed => .failed (.file ctx msg)
  | .dropped => .dropped

/-- The local variables of `write_to_file`: the bytes that the file took, and how
many writes that needed. -/
structure WriteState (ε : Type*) where
  stream : BoundedResponseStream ε
  native : List (Answer ε Frame)
  written : List UInt8
  writes : Nat

/-- What `write_to_file` left: the bytes that the file took, and those of a chunk
that it did not take, or not in full. -/
structure Written (ε : Type*) where
  stream : BoundedResponseStream ε
  native : List (Answer ε Frame)
  written : List UInt8
  lost : List UInt8
  outcome : WriteOutcome

/-- One turn of the loop of `write_to_file`. -/
def writeTurn (ctx : ErrorContext) (patience : Nat) (file : OutputFile) (s : WriteState ε) :
    WriteState ε ⊕ Written ε :=
  let read := s.stream.nextChunk patience s.native
  match read.result with
  | none => .inr ⟨read.stream, read.native, s.written, [], .dropped⟩
  | some (.error source) =>
    .inr ⟨read.stream, read.native, s.written, [], .failed (sanitizeBodyError ctx source)⟩
  | some (.ok none) =>
    .inr ⟨read.stream, read.native, s.written, [], file.flush.outcome ctx flushFailed⟩
  | some (.ok (some chunk)) =>
    if file.write s.writes = .done then
      .inl ⟨read.stream, read.native, s.written ++ chunk.data, s.writes + 1⟩
    else
      .inr ⟨read.stream, read.native, s.written, chunk.data,
        (file.write s.writes).outcome ctx writeFailed⟩

/-- `write_to_file`, with room for `turns` turns; `none` if that is not
enough. -/
def writeToFile (ctx : ErrorContext) (turns patience : Nat) (file : OutputFile)
    (stream : BoundedResponseStream ε) (native : List (Answer ε Frame)) : Option (Written ε) :=
  if file.create = .done then Loop.run (writeTurn ctx patience file) turns ⟨stream, native, [], 0⟩
  else some ⟨stream, native, [], [], file.create.outcome ctx createFailed⟩

/-! ## sessions -/

/-- `StreamResponse`: the stream, and what the native body will answer. -/
structure StreamResponse (ε : Type*) where
  ctx : ErrorContext
  stream : BoundedResponseStream ε
  native : List (Answer ε Frame)

/-- A call of a user. -/
inductive StreamCall where
  | nextChunk (patience : Nat)
  | writeToFile (patience : Nat) (file : OutputFile)

/-- What became of a call: what it told its user, and the bytes that a write
lost. -/
inductive StreamResult where
  | chunk (data : List UInt8)
  | ended
  | dropped
  | failed (error : ResponseError)
  | wrote (written lost : List UInt8) (outcome : WriteOutcome)
  deriving DecidableEq, Repr

namespace StreamResponse

/-- `StreamResponse::next_chunk`. -/
def nextChunk (this : StreamResponse ε) (patience : Nat) : StreamResponse ε × StreamResult :=
  let read := this.stream.nextChunk patience this.native
  ({ this with stream := read.stream, native := read.native },
    match read.result with
    | none => .dropped
    | some (.ok none) => .ended
    | some (.ok (some data)) => .chunk data.data
    | some (.error source) => .failed (sanitizeBodyError this.ctx source))

/-- A call; every chunk takes an answer of the native body, which bounds the
turns of `write_to_file`. -/
def step (this : StreamResponse ε) : StreamCall → Option (StreamResponse ε × StreamResult)
  | .nextChunk patience => some (this.nextChunk patience)
  | .writeToFile patience file =>
    match writeToFile this.ctx (this.native.length + 1) patience file this.stream this.native with
    | none => none
    | some written =>
      some ({ this with stream := written.stream, native := written.native },
        .wrote written.written written.lost written.outcome)

end StreamResponse

/-! ## one read -/

section read

variable {stream : BoundedResponseStream ε} {native : List (Answer ε Frame)}

/-- A stream shuts with its first answer that does not go on. -/
theorem BoundedResponseStream.terminal_pollFrame (hopen : stream.terminal = false)
    (answer : Answer ε Frame) :
    (stream.pollFrame answer).1.terminal = !(stream.pollFrame answer).2.goesOn := by
  match answer with
  | .pending | .ready none | .ready (some (.error _)) =>
      simp [pollFrame, hopen, Answer.goesOn]
  | .ready (some (.ok (.trailers _))) => simp [pollFrame, hopen, Frame.dataRef, Answer.goesOn]
  | .ready (some (.ok (.data data))) =>
      simp only [pollFrame, hopen, Frame.dataRef, Bool.false_eq_true, if_false]
      cases stream.limit with
      | none => simp [Answer.goesOn]
      | some limit =>
          by_cases hbeyond : saturatingAdd stream.seen (.ofNat data.len) > limit
          · simp [hbeyond, Answer.goesOn]
          · simp [hbeyond, Answer.goesOn]

/-- A stream that is closed has no more chunks. -/
theorem BoundedResponseStream.nextChunk_of_terminal (hshut : stream.terminal = true)
    (patience : Nat) (native : List (Answer ε Frame)) :
    stream.nextChunk patience native = ⟨stream, native, some (.ok none)⟩ := by
  cases native with
  | nil => simp [nextChunk, hshut]
  | cons answer rest => simp [nextChunk, hshut]

/-- What a body comes to as a whole, for a reader who took `got` out of it: with
what the stream still answers, or with nothing more if it is shut. -/
def BoundedResponseStream.holds (this : BoundedResponseStream ε) (native : List (Answer ε Frame))
    (got : List UInt8) : Option (Except BodyError (List UInt8)) :=
  if this.terminal then some (.ok got)
  else collectBytes got (run BoundedResponseStream.pollFrame this native)

/-- And holds nothing more. -/
theorem BoundedResponseStream.holds_of_terminal (hshut : stream.terminal = true)
    (native : List (Answer ε Frame)) (got : List UInt8) :
    stream.holds native got = some (.ok got) := if_pos hshut

/-- One that is open holds what its run collects. -/
theorem BoundedResponseStream.holds_of_open (hopen : stream.terminal = false)
    (native : List (Answer ε Frame)) (got : List UInt8) :
    stream.holds native got = collectBytes got (run BoundedResponseStream.pollFrame stream native) := by
  rw [holds, hopen, if_neg Bool.false_ne_true]

/-- What a read makes of a stream of which `got` was taken, of a body that comes
to `whole`. -/
inductive ReadsOn (got : List UInt8) (whole : Option (Except BodyError (List UInt8)))
    (read : ChunkRead ε) : Prop
  | waits (hresult : read.result = none) (hopen : read.stream.terminal = false)
      (hleft : read.stream.holds read.native got = whole)
  | ends (hresult : read.result = some (.ok none)) (hshut : read.stream.terminal = true)
      (hwhole : whole = some (.ok got))
  | fails (source : BodyError) (hresult : read.result = some (.error source))
      (hshut : read.stream.terminal = true) (hwhole : whole = some (.error source))
  | chunk (data : Bytes) (hresult : read.result = some (.ok (some data)))
      (hleft : read.stream.holds read.native (got ++ data.data) = whole)

/-- A read of a stream that is open. -/
theorem readsOn_of_open (hopen : stream.terminal = false) (patience : Nat)
    (native : List (Answer ε Frame)) (got : List UInt8) :
    ReadsOn got (stream.holds native got) (stream.nextChunk patience native) := by
  induction native generalizing stream patience with
  | nil => exact .waits (by simp [BoundedResponseStream.nextChunk, hopen]) hopen rfl
  | cons answer rest ih =>
      have hterminal := BoundedResponseStream.terminal_pollFrame hopen answer
      obtain ⟨next, answered, hpoll⟩ : ∃ next answered, stream.pollFrame answer =
          (next, answered) := ⟨_, _, rfl⟩
      rw [hpoll] at hterminal
      rw [BoundedResponseStream.holds_of_open hopen]
      simp only [run, hpoll]
      rcases answered with _ | (_ | (source | (data | trailers)))
      · have hnext : next.terminal = false := by simpa [Answer.goesOn] using hterminal
        cases patience with
        | zero =>
            refine .waits ?_ ?_ ?_
            · simp [BoundedResponseStream.nextChunk, hopen, hpoll]
            · simpa [BoundedResponseStream.nextChunk, hopen, hpoll] using hnext
            · simp [BoundedResponseStream.nextChunk, hopen, hpoll, collectBytes,
                BoundedResponseStream.holds_of_open hnext]
        | succ patience =>
            have hrest := ih hnext patience
            rw [BoundedResponseStream.holds_of_open hnext] at hrest
            simpa [BoundedResponseStream.nextChunk, hopen, hpoll, collectBytes] using hrest
      · refine .ends ?_ ?_ rfl
        · simp [BoundedResponseStream.nextChunk, hopen, hpoll]
        · simpa [BoundedResponseStream.nextChunk, hopen, hpoll, Answer.goesOn] using hterminal
      · refine .fails source ?_ ?_ rfl
        · simp [BoundedResponseStream.nextChunk, hopen, hpoll]
        · simpa [BoundedResponseStream.nextChunk, hopen, hpoll, Answer.goesOn] using hterminal
      · have hnext : next.terminal = false := by simpa [Answer.goesOn] using hterminal
        refine .chunk data ?_ ?_
        · simp [BoundedResponseStream.nextChunk, hopen, hpoll, Frame.dataRef]
        · simp [BoundedResponseStream.nextChunk, hopen, hpoll, Frame.dataRef, collectBytes,
            Frame.bytes, BoundedResponseStream.holds_of_open hnext]
      · have hnext : next.terminal = false := by simpa [Answer.goesOn] using hterminal
        have hrest := ih hnext patience
        rw [BoundedResponseStream.holds_of_open hnext] at hrest
        simpa [BoundedResponseStream.nextChunk, hopen, hpoll, collectBytes, Frame.dataRef,
          Frame.bytes] using hrest

/-- The next chunk is the next part of what the stream holds. -/
theorem readsOn_nextChunk (stream : BoundedResponseStream ε) (patience : Nat)
    (native : List (Answer ε Frame)) (got : List UInt8) :
    ReadsOn got (stream.holds native got) (stream.nextChunk patience native) := by
  cases hterminal : stream.terminal with
  | false => exact readsOn_of_open hterminal patience native got
  | true =>
      rw [BoundedResponseStream.nextChunk_of_terminal hterminal,
        BoundedResponseStream.holds_of_terminal hterminal]
      exact .ends rfl hterminal rfl

/-- A chunk takes an answer of the native body. -/
theorem BoundedResponseStream.nextChunk_native (patience : Nat) (stream : BoundedResponseStream ε)
    (native : List (Answer ε Frame)) :
    (stream.nextChunk patience native).native.length ≤ native.length ∧
      ∀ data, (stream.nextChunk patience native).result = some (.ok (some data)) →
        (stream.nextChunk patience native).native.length < native.length := by
  induction native generalizing stream patience with
  | nil => simp [nextChunk]
  | cons answer rest ih =>
      cases hterminal : stream.terminal with
      | true => simp [nextChunk_of_terminal hterminal]
      | false =>
          obtain ⟨next, answered, hpoll⟩ : ∃ next answered, stream.pollFrame answer =
              (next, answered) := ⟨_, _, rfl⟩
          have hrest := ih patience next
          match answered with
          | .pending =>
              cases patience with
              | zero => simp [nextChunk, hterminal, hpoll]
              | succ patience =>
                  have hrest := ih patience next
                  simp only [nextChunk, hterminal, hpoll, Bool.false_eq_true, if_false,
                    List.length_cons]
                  exact ⟨by omega, fun data h => by have := hrest.2 data h; omega⟩
          | .ready none | .ready (some (.error _)) => simp [nextChunk, hterminal, hpoll]
          | .ready (some (.ok (.trailers _))) =>
              simp only [nextChunk, hterminal, hpoll, Bool.false_eq_true, if_false,
                List.length_cons, Frame.dataRef]
              exact ⟨by omega, fun data h => by have := hrest.2 data h; omega⟩
          | .ready (some (.ok (.data _))) => simp [nextChunk, hterminal, hpoll, Frame.dataRef]

/-- A reader who waits as long as there are answers is left waiting by a body
that goes on waiting only. -/
theorem BoundedResponseStream.native_of_patient {patience : Nat}
    (stream : BoundedResponseStream ε) {native : List (Answer ε Frame)}
    (hpatience : native.length ≤ patience)
    (hwaits : (stream.nextChunk patience native).result = none) :
    (stream.nextChunk patience native).native = [] := by
  induction native generalizing stream patience with
  | nil => simp [nextChunk]
  | cons answer rest ih =>
      cases hterminal : stream.terminal with
      | true => simp [nextChunk_of_terminal hterminal] at hwaits
      | false =>
          obtain ⟨next, answered, hpoll⟩ : ∃ next answered, stream.pollFrame answer =
              (next, answered) := ⟨_, _, rfl⟩
          rw [List.length_cons] at hpatience
          match answered with
          | .pending =>
              cases patience with
              | zero => omega
              | succ patience =>
                  simp only [nextChunk, hterminal, hpoll, Bool.false_eq_true, if_false]
                    at hwaits ⊢
                  exact ih next (by omega) hwaits
          | .ready none | .ready (some (.error _)) =>
              simp [nextChunk, hterminal, hpoll] at hwaits
          | .ready (some (.ok (.trailers _))) =>
              simp only [nextChunk, hterminal, hpoll, Bool.false_eq_true, if_false,
                Frame.dataRef] at hwaits ⊢
              exact ih next (by omega) hwaits
          | .ready (some (.ok (.data _))) =>
              simp [nextChunk, hterminal, hpoll, Frame.dataRef] at hwaits

end read

/-! ## one call -/

section call

/-- The bytes that a call told its user, or that its file took. -/
def StreamResult.told : StreamResult → List UInt8
  | .chunk data => data
  | .wrote written _ _ => written
  | .ended | .dropped | .failed _ => []

/-- The bytes of a chunk that a call took out of the stream and did not write. -/
def StreamResult.lost : StreamResult → List UInt8
  | .wrote _ lost _ => lost
  | .chunk _ | .ended | .dropped | .failed _ => []

/-- The bytes that a call took out of the stream. -/
def StreamResult.taken (result : StreamResult) : List UInt8 := result.told ++ result.lost

/-- What a call tells of the end of the body: that there is none yet, or that it
came after these bytes, or an error. -/
def StreamResult.tells : StreamResult → Option (Except ResponseError (List UInt8))
  | .ended => some (.ok [])
  | .failed error => some (.error error)
  | .wrote written _ .done => some (.ok written)
  | .wrote written _ (.failed (.file _ msg)) => if msg = flushFailed then some (.ok written) else none
  | .wrote _ _ (.failed error) => some (.error error)
  | .wrote _ _ .dropped | .chunk _ | .dropped => none

/-- A body as its user sees it. -/
def sanitized (ctx : ErrorContext) :
    Option (Except BodyError (List UInt8)) → Option (Except ResponseError (List UInt8))
  | none => none
  | some (.ok bytes) => some (.ok bytes)
  | some (.error source) => some (.error (sanitizeBodyError ctx source))

/-- What is buffered is what a user may conclude. -/
theorem bufferResponse_eq (ctx : ErrorContext) (answers : List (Answer BodyError Frame)) :
    bufferResponse ctx answers = sanitized ctx (collectBytes [] answers) := by
  unfold bufferResponse
  split
  · next h => rw [h]; rfl
  · next h => rw [h]; rfl
  · next source h =>
      rw [h, sanitized, sanitizeBodyError]
      split
      · rfl
      · rfl

/-- A write that failed in the body tells so. -/
theorem tells_sanitized (written : List UInt8) (ctx : ErrorContext) (source : BodyError) :
    (StreamResult.wrote written [] (.failed (sanitizeBodyError ctx source))).tells =
      some (.error (sanitizeBodyError ctx source)) := by
  unfold sanitizeBodyError
  split
  · rfl
  · rfl

/-- A call that stopped at a file before its end tells nothing of the body. -/
theorem tells_outcome (written lost : List UInt8) (ctx : ErrorContext) {msg : String}
    (hmsg : msg ≠ flushFailed) {answer : FileAnswer} (hanswer : answer ≠ .done) :
    (StreamResult.wrote written lost (answer.outcome ctx msg)).tells = none := by
  cases answer with
  | done => exact absurd rfl hanswer
  | failed => simp [FileAnswer.outcome, StreamResult.tells, hmsg]
  | dropped => rfl

/-- To fail in creating is not to fail in flushing. -/
theorem createFailed_ne : createFailed ≠ flushFailed := by decide

/-- Nor is to fail in writing. -/
theorem writeFailed_ne : writeFailed ≠ flushFailed := by decide

/-- What is left of a response after a call, of a body that comes to `whole` and
of which `got` was taken before. -/
inductive GoesOn (whole : Option (Except BodyError (List UInt8))) (got : List UInt8)
    (result : StreamResult) (next : StreamResponse ε) : Prop
  | goes (hnone : result.tells = none)
      (hleft : next.stream.holds next.native (got ++ result.taken) = whole)
  | closed (outcome : Except ResponseError (List UInt8)) (htells : result.tells = some outcome)
      (hlost : result.lost = []) (hwhole : sanitized next.ctx whole = some (outcome.map (got ++ ·)))
      (hshut : next.stream.terminal = true)

/-- A response read by chunks goes on with what is left. -/
theorem goesOn_nextChunk (this : StreamResponse ε) (patience : Nat) (got : List UInt8) :
    GoesOn (this.stream.holds this.native got) got (this.nextChunk patience).2
      (this.nextChunk patience).1 := by
  cases readsOn_nextChunk this.stream patience this.native got with
  | waits hresult _ hleft =>
      refine .goes ?_ ?_
      · simp [StreamResponse.nextChunk, hresult, StreamResult.tells]
      · simpa [StreamResponse.nextChunk, hresult, StreamResult.taken, StreamResult.told,
          StreamResult.lost] using hleft
  | ends hresult hshut hwhole =>
      refine .closed (.ok []) ?_ ?_ ?_ hshut
      · simp [StreamResponse.nextChunk, hresult, StreamResult.tells]
      · simp [StreamResponse.nextChunk, hresult, StreamResult.lost]
      · rw [hwhole, sanitized, Except.map, List.append_nil]
  | fails source hresult hshut hwhole =>
      refine .closed (.error (sanitizeBodyError this.ctx source)) ?_ ?_ ?_ hshut
      · simp [StreamResponse.nextChunk, hresult, StreamResult.tells]
      · simp [StreamResponse.nextChunk, hresult, StreamResult.lost]
      · rw [hwhole, sanitized]
        rfl
  | chunk data hresult hleft =>
      refine .goes ?_ ?_
      · simp [StreamResponse.nextChunk, hresult, StreamResult.tells]
      · simpa [StreamResponse.nextChunk, hresult, StreamResult.taken, StreamResult.told,
          StreamResult.lost] using hleft

/-- What the loop of `write_to_file` keeps, of a body that comes to `whole` and
of which `got` was taken before. -/
def Writing (whole : Option (Except BodyError (List UInt8))) (got : List UInt8)
    (s : WriteState ε) : Prop :=
  s.stream.holds s.native (got ++ s.written) = whole

/-- What is written, lost and left is the whole body, turn after turn. -/
theorem Writing.keep {ctx : ErrorContext} {patience : Nat} {file : OutputFile}
    {whole : Option (Except BodyError (List UInt8))} {got : List UInt8} {s s' : WriteState ε}
    (h : Writing whole got s) (hturn : writeTurn ctx patience file s = .inl s') :
    Writing whole got s' ∧ s'.native.length < s.native.length := by
  have hlength := s.stream.nextChunk_native patience s.native
  have hread := readsOn_nextChunk s.stream patience s.native (got ++ s.written)
  rw [h] at hread
  unfold writeTurn at hturn
  cases hread with
  | waits hresult _ _ => simp [hresult] at hturn
  | ends hresult _ _ => simp [hresult] at hturn
  | fails source hresult _ _ => simp [hresult] at hturn
  | chunk data hresult hleft =>
      have hshorter := hlength.2 data hresult
      simp only [hresult] at hturn
      split at hturn
      · cases hturn
        exact ⟨by rw [Writing, ← List.append_assoc]; exact hleft, hshorter⟩
      · cases hturn

/-- And when the writing ends. -/
theorem Writing.leave {this : StreamResponse ε} {patience : Nat} {file : OutputFile}
    {whole : Option (Except BodyError (List UInt8))} {got : List UInt8} {s : WriteState ε}
    {written : Written ε} (h : Writing whole got s)
    (hturn : writeTurn this.ctx patience file s = .inr written) :
    GoesOn whole got (.wrote written.written written.lost written.outcome)
      { this with stream := written.stream, native := written.native } := by
  have hread := readsOn_nextChunk s.stream patience s.native (got ++ s.written)
  rw [h] at hread
  unfold writeTurn at hturn
  cases hread with
  | waits hresult hopen hleft =>
      simp only [hresult, Sum.inr.injEq] at hturn
      subst hturn
      refine .goes rfl ?_
      simpa [StreamResult.taken, StreamResult.told, StreamResult.lost] using hleft
  | ends hresult hshut hwhole =>
      simp only [hresult, Sum.inr.injEq] at hturn
      subst hturn
      have hok : sanitized this.ctx whole = some ((Except.ok s.written).map (got ++ ·)) := by
        rw [hwhole, sanitized, Except.map]
      cases hflush : file.flush with
      | done => exact .closed (.ok s.written) rfl rfl hok hshut
      | failed =>
          refine .closed (.ok s.written) ?_ rfl hok hshut
          simp [FileAnswer.outcome, StreamResult.tells]
      | dropped =>
          -- the body has come to its end, which the user does not hear of
          refine .goes rfl ?_
          rw [BoundedResponseStream.holds_of_terminal hshut, hwhole]
          simp [StreamResult.taken, StreamResult.told, StreamResult.lost]
  | fails source hresult hshut hwhole =>
      simp only [hresult, Sum.inr.injEq] at hturn
      subst hturn
      refine .closed (.error (sanitizeBodyError this.ctx source)) ?_ rfl ?_ hshut
      · exact tells_sanitized s.written this.ctx source
      · rw [hwhole, sanitized]
        rfl
  | chunk data hresult hleft =>
      simp only [hresult] at hturn
      split at hturn
      · cases hturn
      · next hwrite =>
          cases hturn
          refine .goes (tells_outcome _ _ _ writeFailed_ne hwrite) ?_
          simpa [StreamResult.taken, StreamResult.told, StreamResult.lost] using hleft

/-- The same of every call on the response. -/
theorem goesOn_step (this : StreamResponse ε) (call : StreamCall) (got : List UInt8) :
    ∃ next result, this.step call = some (next, result) ∧ next.ctx = this.ctx ∧
      GoesOn (this.stream.holds this.native got) got result next := by
  cases call with
  | nextChunk patience => exact ⟨_, _, rfl, rfl, goesOn_nextChunk this patience got⟩
  | writeToFile patience file =>
      by_cases hcreate : file.create = .done
      · have hstart : Writing (this.stream.holds this.native got) got
            ⟨this.stream, this.native, [], 0⟩ := by rw [Writing, List.append_nil]
        have hkeep : ∀ {s s' : WriteState ε},
            Writing (this.stream.holds this.native got) got s →
            writeTurn this.ctx patience file s = .inl s' → _ ∧ _ :=
          fun hwriting hturn => hwriting.keep hturn
        have hleave := @Writing.leave ε this patience file (this.stream.holds this.native got) got
        obtain ⟨written, hrun⟩ := Loop.run_isSome
          (m := fun s : WriteState ε => s.native.length) hkeep hstart (Nat.lt_succ_self _)
        refine ⟨{ this with stream := written.stream, native := written.native },
          .wrote written.written written.lost written.outcome, ?_, rfl, ?_⟩
        · simp only [StreamResponse.step, writeToFile, hcreate, if_true]
          rw [hrun]
        · exact Loop.run_rule
            (Q := fun written => GoesOn _ got
              (.wrote written.written written.lost written.outcome)
              { this with stream := written.stream, native := written.native })
            (fun hwriting hturn => (hkeep hwriting hturn).1) hleave hrun hstart
      · refine ⟨this, .wrote [] [] (file.create.outcome this.ctx createFailed), ?_, rfl, ?_⟩
        · simp [StreamResponse.step, writeToFile, hcreate]
        · refine .goes (tells_outcome _ _ _ createFailed_ne hcreate) ?_
          simp [StreamResult.taken, StreamResult.told, StreamResult.lost]

/-- A result that says nothing but that there is no more. -/
def StreamResult.Over (result : StreamResult) : Prop :=
  result.taken = [] ∧ ∀ error, result.tells ≠ some (.error error)

/-- A call on a stream that is shut tells nothing but the end. -/
theorem step_of_terminal {this : StreamResponse ε} (hshut : this.stream.terminal = true)
    (call : StreamCall) : ∃ result, this.step call = some (this, result) ∧ result.Over := by
  cases call with
  | nextChunk patience =>
      refine ⟨.ended, ?_, rfl, by simp [StreamResult.tells]⟩
      simp [StreamResponse.step, StreamResponse.nextChunk,
        BoundedResponseStream.nextChunk_of_terminal hshut]
  | writeToFile patience file =>
      by_cases hcreate : file.create = .done
      · refine ⟨.wrote [] [] (file.flush.outcome this.ctx flushFailed), ?_, rfl, ?_⟩
        · simp [StreamResponse.step, writeToFile, hcreate, Loop.run, writeTurn,
            BoundedResponseStream.nextChunk_of_terminal hshut]
        · cases file.flush <;> simp [FileAnswer.outcome, StreamResult.tells]
      · refine ⟨.wrote [] [] (file.create.outcome this.ctx createFailed), ?_, rfl, ?_⟩
        · simp [StreamResponse.step, writeToFile, hcreate]
        · simp [tells_outcome _ _ _ createFailed_ne hcreate]

/-- The file of a call takes every chunk that is written to it. -/
def StreamCall.WritesThrough : StreamCall → Prop
  | .nextChunk _ => True
  | .writeToFile _ file => ∀ k, file.write k = .done

/-- Only a write that fails or is dropped loses a chunk. -/
theorem lost_of_step {this next : StreamResponse ε} {call : StreamCall} {result : StreamResult}
    (hwrites : call.WritesThrough) (hstep : this.step call = some (next, result)) :
    result.lost = [] := by
  cases call with
  | nextChunk patience =>
      cases hstep
      split <;> rfl
  | writeToFile patience file =>
      have hwrite : ∀ k, file.write k = .done := hwrites
      simp only [StreamResponse.step, writeToFile] at hstep
      by_cases hcreate : file.create = .done
      · rw [if_pos hcreate] at hstep
        cases hrun : Loop.run (writeTurn this.ctx patience file) (this.native.length + 1)
            ⟨this.stream, this.native, [], 0⟩ with
        | none => simp [hrun] at hstep
        | some written =>
            simp only [hrun, Option.some.injEq, Prod.mk.injEq] at hstep
            obtain ⟨rfl, rfl⟩ := hstep
            have hleave : ∀ {s : WriteState ε} {written : Written ε}, True →
                writeTurn this.ctx patience file s = .inr written → written.lost = [] := by
              intro s written _ hturn
              unfold writeTurn at hturn
              cases readsOn_nextChunk s.stream patience s.native [] with
              | waits hresult _ _ | ends hresult _ _ | fails _ hresult _ _ =>
                  simp only [hresult, Sum.inr.injEq] at hturn
                  rw [← hturn]
              | chunk data hresult _ => simp [hresult, hwrite] at hturn
            exact Loop.run_rule (I := fun _ => True) (Q := fun written => written.lost = [])
              (fun _ _ => trivial) hleave hrun trivial
      · rw [if_neg hcreate] at hstep
        cases hstep
        rfl

/-- A patient call whose file takes every byte hears how the body ends, or the
body goes on waiting. -/
theorem native_of_step {this next : StreamResponse ε} {patience : Nat} {file : OutputFile}
    {result : StreamResult} (hpatience : this.native.length ≤ patience)
    (hcreate : file.create = .done) (hwrite : ∀ k, file.write k = .done)
    (hflush : file.flush ≠ .dropped)
    (hstep : this.step (.writeToFile patience file) = some (next, result))
    (hnone : result.tells = none) : next.native = [] ∧ next.stream.terminal = false := by
  simp only [StreamResponse.step, writeToFile, hcreate, if_true] at hstep
  cases hrun : Loop.run (writeTurn this.ctx patience file) (this.native.length + 1)
      ⟨this.stream, this.native, [], 0⟩ with
  | none => simp [hrun] at hstep
  | some written =>
      simp only [hrun, Option.some.injEq, Prod.mk.injEq] at hstep
      obtain ⟨rfl, rfl⟩ := hstep
      have hkeep : ∀ {s s' : WriteState ε}, s.native.length ≤ patience →
          writeTurn this.ctx patience file s = .inl s' → s'.native.length ≤ patience := by
        intro s s' hle hturn
        have hlength := (s.stream.nextChunk_native patience s.native).1
        unfold writeTurn at hturn
        cases readsOn_nextChunk s.stream patience s.native [] with
        | waits hresult _ _ | ends hresult _ _ | fails _ hresult _ _ => simp [hresult] at hturn
        | chunk data hresult _ =>
            simp only [hresult, hwrite, if_true, Sum.inl.injEq] at hturn
            subst hturn
            exact Nat.le_trans hlength hle
      have hleave : ∀ {s : WriteState ε} {r : Written ε}, s.native.length ≤ patience →
          writeTurn this.ctx patience file s = .inr r →
          (StreamResult.wrote r.written r.lost r.outcome).tells = none →
          r.native = [] ∧ r.stream.terminal = false := by
        intro s r hle hturn hnone
        unfold writeTurn at hturn
        cases readsOn_nextChunk s.stream patience s.native [] with
        | waits hresult hopen _ =>
            simp only [hresult, Sum.inr.injEq] at hturn
            subst hturn
            exact ⟨s.stream.native_of_patient hle hresult, hopen⟩
        | fails source hresult _ _ =>
            simp only [hresult, Sum.inr.injEq] at hturn
            subst hturn
            rw [tells_sanitized] at hnone
            contradiction
        | ends hresult _ _ =>
            simp only [hresult, Sum.inr.injEq] at hturn
            subst hturn
            cases hanswer : file.flush with
            | done => simp [hanswer, FileAnswer.outcome, StreamResult.tells] at hnone
            | failed => simp [hanswer, FileAnswer.outcome, StreamResult.tells] at hnone
            | dropped => exact absurd hanswer hflush
        | chunk data hresult _ => simp [hresult, hwrite] at hturn
      exact Loop.run_rule hkeep hleave hrun hpatience hnone

end call

/-! ## a session -/

section session

/-- What a user has of the body after a call, who had `got` before: `none` if a
chunk of it was lost. -/
def StreamResult.keep (got : Option (List UInt8)) (result : StreamResult) : Option (List UInt8) :=
  if result.lost = [] then got.map (· ++ result.told) else none

/-- What a user may conclude about the whole body after some calls, who had `got`
before. -/
def concluded (got : Option (List UInt8)) :
    List StreamResult → Option (Except ResponseError (List UInt8))
  | [] => none
  | result :: results =>
    match result.tells with
    | none => concluded (result.keep got) results
    | some (.ok last) => got.map fun bytes => .ok (bytes ++ last)
    | some (.error error) => some (.error error)

/-- A response that is closed answers every call, and gives nothing. -/
theorem exec_of_terminal {this : StreamResponse ε} (hshut : this.stream.terminal = true)
    (calls : List StreamCall) :
    ∃ results, Transition.exec StreamResponse.step this calls = some (this, results) ∧
      ∀ result ∈ results, result.Over := by
  induction calls with
  | nil => exact ⟨[], rfl, by simp⟩
  | cons call calls ih =>
      obtain ⟨result, hstep, hover⟩ := step_of_terminal hshut call
      obtain ⟨results, hexec, hall⟩ := ih
      have hrun := Transition.exec_cons_eq_some.mpr ⟨this, result, results, hstep, hexec, rfl⟩
      exact ⟨result :: results, hrun, by simpa using ⟨hover, hall⟩⟩

/-- A session on a stream of which `got` was taken before, of a body that comes to
`whole`. -/
structure ReadsAs (whole : Option (Except BodyError (List UInt8))) (got : List UInt8)
    (next : StreamResponse ε) (results : List StreamResult) : Prop where
  concludes : ∀ known, (∀ bytes, known = some bytes → bytes = got) →
    ∀ outcome, concluded known results = some outcome → sanitized next.ctx whole = some outcome
  leaves : (∀ result ∈ results, result.tells = none) →
    next.stream.holds next.native (got ++ results.flatMap StreamResult.taken) = whole
  quiet : ∀ k, (∃ result ∈ results.take k, result.tells ≠ none) →
    ∀ result ∈ results.drop k, result.Over

/-- A user who lost nothing has what was taken. -/
theorem StreamResult.keep_eq_some {known : Option (List UInt8)} {got : List UInt8}
    (h : ∀ bytes, known = some bytes → bytes = got) (result : StreamResult) (bytes : List UInt8)
    (hkeep : result.keep known = some bytes) : bytes = got ++ result.taken := by
  unfold StreamResult.keep at hkeep
  split at hkeep
  · next hlost =>
      obtain ⟨before, hbefore, rfl⟩ := Option.map_eq_some_iff.mp hkeep
      rw [h before hbefore, StreamResult.taken, hlost, List.append_nil]
  · cases hkeep

/-- Any calls read on in what the response holds. -/
theorem exec_reads (this : StreamResponse ε) (calls : List StreamCall) (got : List UInt8) :
    ∃ next results, Transition.exec StreamResponse.step this calls = some (next, results) ∧
      next.ctx = this.ctx ∧ ReadsAs (this.stream.holds this.native got) got next results := by
  induction calls generalizing this got with
  | nil => exact ⟨this, [], rfl, rfl, by simp [concluded], by simp, by simp⟩
  | cons call calls ih =>
      obtain ⟨mid, result, hstep, hctx, hgoes⟩ := goesOn_step this call got
      cases hgoes with
      | goes hnone hleft =>
          obtain ⟨next, results, hexec, hnext, hreads⟩ := ih mid (got ++ result.taken)
          rw [hleft] at hreads
          have hrun := Transition.exec_cons_eq_some.mpr ⟨mid, result, results, hstep, hexec, rfl⟩
          refine ⟨next, result :: results, hrun, hnext.trans hctx, ?_, ?_, ?_⟩
          · intro known hknown outcome houtcome
            simp only [concluded, hnone] at houtcome
            exact hreads.concludes _ (StreamResult.keep_eq_some hknown result) outcome houtcome
          · intro hquiet
            rw [List.forall_mem_cons] at hquiet
            simpa using hreads.leaves hquiet.2
          · intro k
            cases k with
            | zero => simp
            | succ k => simpa [hnone] using hreads.quiet k
      | closed outcome htells _ hwhole hshut =>
          -- The stream is shut, and what is left of the calls only hears so.
          obtain ⟨results, hexec, hall⟩ := exec_of_terminal hshut calls
          have hrun := Transition.exec_cons_eq_some.mpr ⟨mid, result, results, hstep, hexec, rfl⟩
          refine ⟨mid, result :: results, hrun, hctx, ?_, ?_, ?_⟩
          · intro known hknown outcome' houtcome
            rw [hwhole]
            cases outcome with
            | error error => simpa [concluded, htells, Except.map] using houtcome
            | ok last =>
                simp only [concluded, htells] at houtcome
                obtain ⟨bytes, hbytes, rfl⟩ := Option.map_eq_some_iff.mp houtcome
                rw [hknown bytes hbytes, Except.map]
          · intro hquiet
            rw [hquiet result List.mem_cons_self] at htells
            cases htells
          · intro k hquiet later hlater
            cases k with
            | zero => simp at hquiet
            | succ k => exact hall later (List.mem_of_mem_drop hlater)

/-- Files that take every chunk lose none. -/
theorem lost_of_exec {this next : StreamResponse ε} {calls : List StreamCall}
    {results : List StreamResult} (hwrites : ∀ call ∈ calls, call.WritesThrough)
    (hexec : Transition.exec StreamResponse.step this calls = some (next, results)) :
    ∀ result ∈ results, result.lost = [] := by
  induction calls generalizing this results with
  | nil =>
      cases hexec
      simp
  | cons call calls ih =>
      obtain ⟨mid, result, rest, hstep, hrest, rfl⟩ := Transition.exec_cons_eq_some.mp hexec
      obtain ⟨hfirst, hothers⟩ := List.forall_mem_cons.mp hwrites
      exact List.forall_mem_cons.mpr ⟨lost_of_step hfirst hstep, ih hothers hrest⟩

/-- Nothing is concluded from what comes after the end was told. -/
theorem concluded_of_told {results : List StreamResult} (hlost : ∀ result ∈ results, result.lost = [])
    (htold : ∃ result ∈ results, result.tells ≠ none) (got : List UInt8)
    (later : List StreamResult) :
    ∃ outcome, concluded (some got) results = some outcome ∧
      concluded (some got) (results ++ later) = some outcome := by
  induction results generalizing got with
  | nil => simp at htold
  | cons result results ih =>
      obtain ⟨hfirst, hothers⟩ := List.forall_mem_cons.mp hlost
      cases htells : result.tells with
      | none =>
          have hrest : ∃ result ∈ results, result.tells ≠ none := by simpa [htells] using htold
          simpa [concluded, htells, StreamResult.keep, hfirst] using ih hothers hrest _
      | some outcome => cases outcome <;> simp [concluded, htells]

/-- Calls that told nothing conclude nothing. -/
theorem concluded_of_quiet {results : List StreamResult} (hlost : ∀ result ∈ results, result.lost = [])
    (hquiet : ∀ result ∈ results, result.tells = none) (got : List UInt8)
    (later : List StreamResult) :
    concluded (some got) (results ++ later) =
      concluded (some (got ++ results.flatMap StreamResult.taken)) later := by
  induction results generalizing got with
  | nil => simp
  | cons result results ih =>
      obtain ⟨hfirst, hothers⟩ := List.forall_mem_cons.mp hlost
      obtain ⟨hnone, hrest⟩ := List.forall_mem_cons.mp hquiet
      simp [concluded, hnone, StreamResult.keep, hfirst, ih hothers hrest, StreamResult.taken]

/-- With one more full reading the user who lost nothing knows of the body what
there is to know. -/
theorem concluded_of_patient {whole : Option (Except BodyError (List UInt8))}
    {next : StreamResponse ε} {results : List StreamResult} {patience : Nat} {file : OutputFile}
    (h : ReadsAs whole [] next results) (hpatience : next.native.length ≤ patience)
    (hcreate : file.create = .done) (hwrite : ∀ k, file.write k = .done)
    (hflush : file.flush ≠ .dropped) :
    ∃ last result, next.step (.writeToFile patience file) = some (last, result) ∧
      ((∀ result ∈ results, result.lost = []) →
        concluded (some []) (results ++ [result]) = sanitized next.ctx whole) := by
  obtain ⟨last, result, hstep, hlast, hgoes⟩ := goesOn_step next
    (.writeToFile patience file) (results.flatMap StreamResult.taken)
  refine ⟨last, result, hstep, fun hlost => ?_⟩
  by_cases htold : ∃ result ∈ results, result.tells ≠ none
  · obtain ⟨outcome, hconcluded, hsame⟩ := concluded_of_told hlost htold [] [result]
    rw [hsame, h.concludes (some []) (fun _ hbytes => (Option.some.inj hbytes).symm) outcome
      hconcluded]
  · have hquiet : ∀ result ∈ results, result.tells = none := by simpa using htold
    have hleft := h.leaves hquiet
    rw [List.nil_append] at hleft
    rw [hleft] at hgoes
    rw [concluded_of_quiet hlost hquiet, List.nil_append]
    cases hgoes with
    | goes hnone hwhole =>
        obtain ⟨hempty, hopen⟩ := native_of_step hpatience hcreate hwrite hflush hstep hnone
        rw [hempty, BoundedResponseStream.holds_of_open hopen] at hwhole
        rw [← hwhole]
        simp [concluded, hnone, run, collectBytes, sanitized]
    | closed outcome htells _ hwhole _ =>
        rw [hlast] at hwhole
        rw [hwhole]
        cases outcome <;> simp [concluded, htells, Except.map]

end session

end Concord
