import Concord.Body.Wire

/-!
# Concord.Body.Source

Request bodies that are streamed (`concord_core/src/stream_body.rs`): bytes,
streams of chunks, readers and files, and how one becomes the body of a request
(`from_stream_body` and `produce_for_execution` of `concord_core/src/io.rs`).

A reader is given a buffer and says how much of it it has filled, so what it
answers is no longer than the buffer.
-/

namespace Concord

open Checked Polled

variable {ε δ : Type*}

/-! ## readers -/

/-- A `usize` that is not zero. -/
structure ChunkSize where
  toNat : Nat
  pos : 0 < toNat
  le_usizeMax : toNat ≤ usizeMax

/-- `DEFAULT_CHUNK_SIZE`. -/
def ChunkSize.default : ChunkSize := ⟨8 * 1024, by decide, by decide⟩

/-- What an `AsyncRead` answers to a buffer. -/
inductive ReadPoll (size : ChunkSize) where
  | pending
  | filled (bytes : List UInt8) (h : bytes.length ≤ size.toNat)
  | failed

/-- `AsyncReadByteStream`. -/
structure AsyncReadByteStream (size : ChunkSize) where
  eof : Bool

namespace AsyncReadByteStream

variable {size : ChunkSize}

/-- A reader that has not ended. -/
def new (size : ChunkSize) : AsyncReadByteStream size := ⟨false⟩

/-- `poll_next`, given what the reader answers if it is asked. -/
def pollNext (this : AsyncReadByteStream size) (read : ReadPoll size) :
    AsyncReadByteStream size × Answer StreamBodyErrorKind Bytes :=
  if this.eof then (this, .ready none)
  else
    match read with
    | .pending => (this, .pending)
    | .filled bytes h =>
      if bytes = [] then (⟨true⟩, .ready none)
      else (this, .ready (some (.ok ⟨bytes, Nat.le_trans h size.le_usizeMax⟩)))
    | .failed => (⟨true⟩, .ready (some (.error .io)))

/-- What the stream answers to polls. -/
def answers (this : AsyncReadByteStream size) :
    List (ReadPoll size) → List (Answer StreamBodyErrorKind Bytes)
  | [] => []
  | read :: reads => (this.pollNext read).2 :: answers (this.pollNext read).1 reads

end AsyncReadByteStream

/-! ## bodies -/

/-- `StreamBody`, by what its stream answers to polls. -/
structure StreamBody where
  stream : List (Answer StreamBodyErrorKind Bytes)
  sizeHint : SizeHint

/-- A regular file: its length, an `i64`, and what reading it in chunks comes to. -/
structure SourceFile where
  len : UInt64
  len_lt : len.toNat < 2 ^ 63
  reads : List (ReadPoll .default)

namespace StreamBody

/-- `from_bytes`, over `OnceBytesStream`. -/
def fromBytes (bytes : Bytes) : StreamBody :=
  ⟨[.ready (some (.ok bytes)), .ready none], .withExact (.ofNat bytes.len)⟩

/-- `from_async_read_with_chunk_size`; a chunk size of zero is refused. -/
def fromAsyncReadWithChunkSize (chunkSize : Nat) (hsize : chunkSize ≤ usizeMax)
    (reads : (size : ChunkSize) → List (ReadPoll size)) : Except StreamBodyErrorKind StreamBody :=
  if hzero : chunkSize = 0 then .error .invalidChunkSize
  else
    let size : ChunkSize := ⟨chunkSize, Nat.pos_of_ne_zero hzero, hsize⟩
    .ok ⟨(AsyncReadByteStream.new size).answers (reads size), .new⟩

/-- `from_file` of a file that can be opened. -/
def fromFile (file : SourceFile) : StreamBody :=
  ⟨(AsyncReadByteStream.new .default).answers file.reads, .withExact file.len⟩

/-- The body with a size it announces. -/
def withSizeHint (body : StreamBody) (hint : SizeHint) : StreamBody := { body with sizeHint := hint }

end StreamBody

/-- Bodies that are streamed, for the transport. -/
def streamSource : BodySource StreamBody where
  chunks body := body.stream
  hint _ := .new
  frames _ := []
  intoForm _ := none

/-- The request body of a stream, below the limit; what `produce_for_execution` declares is the
exact length of its hint. -/
def StreamBody.prepare (limit : Option UInt64) (body : StreamBody) : Option ReqwestBody :=
  (TerminalBody.oneShotByteStream body).prepare streamSource limit body.sizeHint.exact

/-! ## what a reader delivers -/

section readers

variable {size : ChunkSize}

/-- The data of a reader that comes to its end. -/
def readToEnd : List (ReadPoll size) → Option (List UInt8)
  | [] => none
  | .pending :: reads => readToEnd reads
  | .filled bytes _ :: reads =>
    if bytes = [] then some [] else (readToEnd reads).map (bytes ++ ·)
  | .failed :: _ => none

/-- A reader that has ended gives nothing more. -/
theorem answers_of_eof (reads : List (ReadPoll size)) :
    (AsyncReadByteStream.mk true : AsyncReadByteStream size).answers reads =
      reads.map fun _ => .ready none := by
  induction reads with
  | nil => rfl
  | cons read reads ih => simp [AsyncReadByteStream.answers, AsyncReadByteStream.pollNext, ih]

/-- A stream that goes on answers as its reader does. -/
theorem answers_filled {chunk : List UInt8} (hne : chunk ≠ []) (h : chunk.length ≤ size.toNat)
    (reads : List (ReadPoll size)) :
    (AsyncReadByteStream.new size).answers (.filled chunk h :: reads) =
      .ready (some (.ok ⟨chunk, Nat.le_trans h size.le_usizeMax⟩)) ::
        (AsyncReadByteStream.new size).answers reads := by
  simp [AsyncReadByteStream.answers, AsyncReadByteStream.pollNext, AsyncReadByteStream.new, hne]

/-- One whose reader is at its end, or fails, is over. -/
theorem answers_end (h : ([] : List UInt8).length ≤ size.toNat) (reads : List (ReadPoll size)) :
    (AsyncReadByteStream.new size).answers (.filled [] h :: reads) =
      .ready none :: reads.map fun _ => .ready none := by
  simp [AsyncReadByteStream.answers, AsyncReadByteStream.pollNext, AsyncReadByteStream.new,
    answers_of_eof]

/-- A read that fails is the last. -/
theorem answers_failed (reads : List (ReadPoll size)) :
    (AsyncReadByteStream.new size).answers (.failed :: reads) =
      .ready (some (.error .io)) :: reads.map fun _ => .ready none := by
  simp [AsyncReadByteStream.answers, AsyncReadByteStream.pollNext, AsyncReadByteStream.new,
    answers_of_eof]

/-- The stream of a reader has its data, in chunks. -/
theorem collectBytes_answers (reads : List (ReadPoll size)) (collected bytes : List UInt8) :
    collectBytes collected ((((AsyncReadByteStream.new size).answers reads).map wrapStream).map
        (Answer.mapError fromNative)) = some (.ok bytes) ↔
      ∃ rest, readToEnd reads = some rest ∧ bytes = collected ++ rest := by
  induction reads generalizing collected with
  | nil => simp [AsyncReadByteStream.answers, collectBytes, readToEnd]
  | cons read reads ih =>
      cases read with
      | pending => exact ih collected
      | failed =>
          rw [answers_failed]
          simp [wrapStream, collectBytes, readToEnd]
      | filled chunk h =>
          by_cases hempty : chunk = []
          · subst hempty
            rw [answers_end]
            simp [wrapStream, collectBytes, readToEnd, eq_comm]
          · have hrest := ih (collected ++ chunk)
            simp only [answers_filled hempty h, List.map_cons, wrapStream, Answer.mapError_ok,
              collectBytes, Frame.bytes, hrest, readToEnd, hempty, if_false,
              Option.map_eq_some_iff]
            constructor
            · rintro ⟨rest, hread, rfl⟩
              exact ⟨chunk ++ rest, ⟨rest, hread, rfl⟩, by simp⟩
            · rintro ⟨_, ⟨rest, hread, rfl⟩, rfl⟩
              exact ⟨rest, hread, by simp⟩

/-- Chunks are not empty, and no longer than the buffer. -/
theorem chunk_bounds {this : AsyncReadByteStream size} {reads : List (ReadPoll size)}
    {chunk : Bytes} (h : .ready (some (.ok chunk)) ∈ this.answers reads) :
    0 < chunk.len ∧ chunk.len ≤ size.toNat := by
  induction reads generalizing this with
  | nil => cases h
  | cons read reads ih =>
      rcases List.mem_cons.mp h with hfirst | hrest
      · unfold AsyncReadByteStream.pollNext at hfirst
        split at hfirst
        · cases hfirst
        · split at hfirst
          · cases hfirst
          · next bytes hlen =>
              split at hfirst
              · cases hfirst
              · next hne =>
                  cases hfirst
                  have hpos : 0 < bytes.length := List.length_pos_iff.mpr hne
                  exact ⟨hpos, hlen⟩
          · cases hfirst
      · exact ih hrest

/-- The data that a reader delivers before it fails or comes to its end. -/
def delivered : List (ReadPoll size) → List UInt8
  | [] => []
  | .pending :: reads => delivered reads
  | .filled bytes _ :: reads => if bytes = [] then [] else bytes ++ delivered reads
  | .failed :: _ => []

end readers

/-! ## data -/

section data

variable {size : ChunkSize}

/-- The data of a frame that was answered. -/
def answerData : Answer ε Frame → List UInt8
  | .ready (some (.ok frame)) => frame.bytes
  | _ => []

/-- The data of frames, in order. -/
def frameData (answers : List (Answer ε Frame)) : List UInt8 := answers.flatMap answerData

/-- What of a body reaches the transport, whether or not an error follows. -/
def ReqwestBody.data : ReqwestBody → List UInt8
  | .empty => []
  | .bytes data => data
  | .streaming _ layers answers => frameData (layers.answers answers)

/-- The bytes of an answer come before those after it. -/
@[simp] theorem frameData_cons (answer : Answer ε Frame) (answers : List (Answer ε Frame)) :
    frameData (answer :: answers) = answerData answer ++ frameData answers := rfl

/-- A body has as many bytes as its frames weigh. -/
theorem length_frameData (answers : List (Answer ε Frame)) :
    (frameData answers).length = total Frame.len answers := by
  induction answers with
  | nil => rfl
  | cons answer answers ih =>
      have hweight : (answerData answer).length = answer.weight Frame.len := by
        rcases answer with _ | (_ | (_ | frame))
        · rfl
        · rfl
        · rfl
        · cases frame <;> rfl
      simp [ih, hweight]

/-- Mapping the errors leaves the bytes. -/
theorem frameData_mapError (f : ε → δ) (answers : List (Answer ε Frame)) :
    frameData (answers.map (Answer.mapError f)) = frameData answers := by
  induction answers with
  | nil => rfl
  | cons answer answers ih =>
      have hsame : answerData (answer.mapError f) = answerData answer := by
        rcases answer with _ | (_ | (_ | frame)) <;> rfl
      simp [ih, hsame]

/-- A body that has ended has none. -/
theorem frameData_ended (answers : List (Answer ε Frame)) :
    frameData (ended answers : List (Answer δ Frame)) = [] := by
  induction answers with
  | nil => rfl
  | cons answer answers ih => exact ih

/-- An answer that passes a gate keeps its data, one that shuts it has none. -/
theorem answerData_pass (answer : Answer ε Frame) :
    answerData (answer.pass : Answer δ Frame) = answerData answer := by
  rcases answer with _ | (_ | (_ | frame)) <;> rfl

/-- An answer that stops a body has none. -/
theorem answerData_stop {gate : Gate ε δ Frame} {seen : Nat} {last : Answer ε Frame}
    {answer : Answer δ Frame} (h : gate.stop seen last = some answer) : answerData answer = [] := by
  rcases last with _ | (_ | (error | frame))
  · cases h
  · cases hclose : gate.close seen with
    | none =>
        simp only [Gate.stop, hclose, Option.map_none, Option.some.injEq] at h
        rw [← h]
        rfl
    | some error =>
        simp only [Gate.stop, hclose, Option.map_some, Option.some.injEq] at h
        rw [← h]
        rfl
  · cases h
    rfl
  · simp only [Gate.stop, Option.ite_none_left_eq_some, Option.some.injEq] at h
    rw [← h.2]
    rfl

/-- A gate passes on the data of its stream up to some point. -/
theorem frameData_gate (gate : Gate ε δ Frame) (state : Gate.State) (answers : List (Answer ε Frame)) :
    frameData (run gate.poll state answers) <+: frameData answers := by
  induction answers generalizing state with
  | nil => exact List.nil_prefix
  | cons answer answers ih =>
      obtain ⟨seen, terminal⟩ := state
      cases terminal with
      | true =>
          rw [Gate.run_terminal, frameData_ended]
          exact List.nil_prefix
      | false =>
          cases hstop : gate.stop seen answer with
          | none =>
              have hpoll := (Gate.poll_pass hstop).1
              simp only [run, hpoll, frameData_cons, answerData_pass]
              exact (List.prefix_append_right_inj _).mpr (ih _)
          | some last =>
              have hpoll := Gate.poll_stop hstop
              simp only [run, hpoll, frameData_cons, answerData_stop hstop, Gate.run_terminal,
                frameData_ended, List.append_nil]
              exact List.nil_prefix

/-- The layers over a body pass its data on up to some point. -/
theorem frameData_gated (gate : Option (Gate NativeError BodyError Frame))
    (answers : List (Answer NativeError Frame)) :
    frameData (gated gate answers) <+: frameData answers := by
  cases gate with
  | none =>
      simp only [gated, frameData_mapError, List.prefix_rfl]
  | some gate => exact frameData_gate gate Gate.init answers

/-- What passes the gate on a body is no longer than what is declared, and than the limit. -/
theorem length_gated_le (declared limit : Option UInt64)
    (hfits : ∀ expected ∈ declared, ∀ bound ∈ limit, expected.toNat ≤ bound.toNat)
    (answers : List (Answer NativeError Frame)) :
    (∀ expected ∈ declared,
        (frameData (gated (requestGate declared limit) answers)).length ≤ expected.toNat) ∧
      ∀ bound ∈ limit,
        (frameData (gated (requestGate declared limit) answers)).length ≤ bound.toNat := by
  rw [length_frameData]
  cases declared with
  | some expected =>
      have hle := (lengthGate expected fromNative).total_run_le answers
      constructor
      · intro other hother
        cases hother
        exact hle
      · intro bound hbound
        exact Nat.le_trans hle (hfits expected rfl bound hbound)
  | none =>
      refine ⟨by simp, ?_⟩
      intro bound hbound
      cases hbound
      exact (limitGate bound fromNative).total_run_le answers

/-- Nor has a reader that is over. -/
theorem frameData_over (answers : List (ReadPoll size)) :
    frameData ((answers.map fun _ => (.ready none : Answer StreamBodyErrorKind Bytes)).map
      wrapStream) = [] := by
  induction answers with
  | nil => rfl
  | cons answer answers ih => exact ih

/-- The data of the stream of a reader is what the reader delivers. -/
theorem frameData_answers (reads : List (ReadPoll size)) :
    frameData (((AsyncReadByteStream.new size).answers reads).map wrapStream) = delivered reads := by
  induction reads with
  | nil => rfl
  | cons read reads ih =>
      cases read with
      | pending => exact ih
      | failed =>
          rw [answers_failed, List.map_cons, frameData_cons, frameData_over]
          rfl
      | filled chunk h =>
          by_cases hempty : chunk = []
          · subst hempty
            rw [answers_end, List.map_cons, frameData_cons, frameData_over]
            rfl
          · rw [answers_filled hempty, List.map_cons, frameData_cons, ih]
            simp [delivered, hempty, wrapStream, answerData, Frame.bytes]

end data

/-! ## what is sent -/

/-- What of a body with a declared length is sent: the data of its reader, in full or up to some
point, in chunks that fit the buffer. -/
structure SentOf {size : ChunkSize} (limit declared : Option UInt64) (body : StreamBody)
    (reads : List (ReadPoll size)) : Prop where
  whole : ∀ bytes, (∃ native, body.prepare limit = some native ∧ native.read = some (.ok bytes)) ↔
    readToEnd reads = some bytes ∧ (∀ expected ∈ declared, bytes.length = expected.toNat) ∧
      ∀ bound ∈ limit, bytes.length ≤ bound.toNat
  part : ∀ native, body.prepare limit = some native → native.data <+: delivered reads ∧
    (∀ expected ∈ declared, native.data.length ≤ expected.toNat) ∧
      ∀ bound ∈ limit, native.data.length ≤ bound.toNat
  chunks : ∀ chunk, .ready (some (.ok chunk)) ∈ body.stream →
    0 < chunk.len ∧ chunk.len ≤ size.toNat

section sent

variable {size : ChunkSize} {body : StreamBody} {reads : List (ReadPoll size)}

/-- What a reader delivers can be counted against a declared length. -/
theorem countable_reads {expected : UInt64}
    (hcount : expected = maxU64 → (delivered reads).length ≤ u64Max) :
    Countable expected Frame.len (((AsyncReadByteStream.new size).answers reads).map wrapStream) := by
  by_cases hmax : expected = maxU64
  · right
    have hlive := total_live_le_total Frame.len
      (((AsyncReadByteStream.new size).answers reads).map wrapStream)
    have hall := length_frameData
      (((AsyncReadByteStream.new size).answers reads).map wrapStream)
    rw [frameData_answers] at hall
    rw [← hall] at hlive
    exact Nat.le_trans hlive (hcount hmax)
  · exact .inl (toNat_lt_of_ne hmax)

/-- What a reader gives is counted. -/
theorem counted_of_reads (hstream : body.stream = (AsyncReadByteStream.new size).answers reads)
    (hcount : body.sizeHint.exact = some maxU64 → (delivered reads).length ≤ u64Max) :
    (TerminalBody.oneShotByteStream body).Counted streamSource body.sizeHint.exact := by
  refine ⟨?_, ?_⟩
  · intro bytes h
    cases h
  · intro stream hsome expected hexpected
    have hanswers : stream.2 = ((AsyncReadByteStream.new size).answers reads).map wrapStream := by
      rw [← hstream, ← Option.some.inj hsome]
      rfl
    rw [hanswers]
    refine countable_reads fun hmax => hcount ?_
    rw [← hmax]
    exact hexpected

/-- A body with the stream of a reader. -/
theorem sentOf_reads (hstream : body.stream = (AsyncReadByteStream.new size).answers reads)
    (hcount : body.sizeHint.exact = some maxU64 → (delivered reads).length ≤ u64Max)
    (limit : Option UInt64) : SentOf limit body.sizeHint.exact body reads := by
  have hcounted := counted_of_reads hstream hcount
  have hhonest : (TerminalBody.oneShotByteStream body).Honest streamSource body.sizeHint.exact := by
    rintro _ stream ⟨⟩ bytes _
    exact Nat.zero_le _
  have hlayers : (TerminalBody.oneShotByteStream body).stream streamSource =
      some (.new, ((AsyncReadByteStream.new size).answers reads).map wrapStream) := by
    rw [← hstream]
    rfl
  refine ⟨?_, ?_, ?_⟩
  · intro bytes
    have hsent := sent_stream hcounted hhonest hlayers limit bytes
    have hheld := collectBytes_answers reads [] bytes
    rw [holds_stream hlayers, hheld] at hsent
    simpa [StreamBody.prepare, TerminalBody.declared] using hsent
  · intro native h
    obtain ⟨hfits, rfl⟩ := (prepare_stream hlayers native).mp h
    have hdeclared : ∀ expected ∈ body.sizeHint.exact, ∀ bound ∈ limit,
        expected.toNat ≤ bound.toNat := by
      intro expected hexpected bound hbound
      have hle := hfits bound hbound
      have hannounced : (TerminalBody.oneShotByteStream body).announced body.sizeHint.exact .new =
          expected := by simp [TerminalBody.announced, TerminalBody.declared, Option.mem_def.mp hexpected]
      rwa [hannounced, UInt64.le_iff_toNat_le] at hle
    have hanswers := answers_prepared limit
      (hcounted.stream _ hlayers) hdeclared
    rw [ReqwestBody.data, hanswers, ← frameData_answers]
    have hdata := frameData_gated (requestGate body.sizeHint.exact limit)
      (((AsyncReadByteStream.new size).answers reads).map wrapStream)
    have hlength := length_gated_le body.sizeHint.exact limit hdeclared
      (((AsyncReadByteStream.new size).answers reads).map wrapStream)
    exact ⟨hdata, hlength⟩
  · intro chunk hchunk
    rw [hstream] at hchunk
    exact chunk_bounds hchunk

/-- A body of bytes declares their length, and is sent if that is within the limit. -/
theorem sent_fromBytes (bytes : Bytes) (limit : Option UInt64) (data : List UInt8) :
    (∃ native, (StreamBody.fromBytes bytes).prepare limit = some native ∧
        native.read = some (.ok data)) ↔
      data = bytes.data ∧ ∀ bound ∈ limit, bytes.len ≤ bound.toNat := by
  have hexact : (StreamBody.fromBytes bytes).sizeHint.exact = some (.ofNat bytes.len) := by
    simp [StreamBody.fromBytes, SizeHint.exact, SizeHint.withExact]
  have hlen : (UInt64.ofNat bytes.len).toNat = bytes.len := toNat_ofNat_of_le bytes.len_le_u64Max
  let answers : List (Answer NativeError Frame) := [.ready (some (.ok (.data bytes))), .ready none]
  have hlayers : (TerminalBody.oneShotByteStream (StreamBody.fromBytes bytes)).stream streamSource =
      some (.new, answers) := rfl
  have htotal : total Frame.len (live answers) ≤ u64Max := by
    have hle := bytes.len_le_u64Max
    have hlive : live answers = [.ready (some (.ok (.data bytes)))] := rfl
    rw [hlive, total_cons, total_nil]
    exact hle
  have hcounted : (TerminalBody.oneShotByteStream (StreamBody.fromBytes bytes)).Counted streamSource
      (some (.ofNat bytes.len)) := by
    refine ⟨by simp, ?_⟩
    rintro stream hstream expected _
    rw [hlayers, Option.mem_some_iff] at hstream
    subst hstream
    exact .inr htotal
  have hhonest : (TerminalBody.oneShotByteStream (StreamBody.fromBytes bytes)).Honest streamSource
      (some (.ofNat bytes.len)) := by
    intro h
    cases h
  have hsent := sent_stream hcounted hhonest hlayers limit data
  have hheld : collectBytes [] (answers.map (Answer.mapError fromNative)) = some (.ok bytes.data) := by
    simp [answers, collectBytes, Frame.bytes]
  rw [holds_stream hlayers, hheld] at hsent
  rw [StreamBody.prepare, hexact, hsent]
  simp only [Option.some.injEq, Except.ok.injEq, TerminalBody.declared, Option.mem_def, forall_eq',
    hlen]
  constructor
  · rintro ⟨rfl, _, hle⟩
    exact ⟨rfl, hle⟩
  · rintro ⟨rfl, hle⟩
    exact ⟨rfl, rfl, hle⟩

end sent

/-- **A file is sent in full exactly if reading it comes to its end after as many bytes as it was
long when it was opened**, and the same of a reader, with a length only if it was given one.
Whatever happens, what is sent is what was read up to some point, no longer than declared.  Bytes
are sent in full if they are within the limit.  A reader that was given the length `u64::MAX`
delivers no more than that. -/
theorem reader_sent_whole (limit : Option UInt64) :
    (∀ file, SentOf limit (some file.len) (StreamBody.fromFile file) file.reads) ∧
    (∀ bytes data, (∃ native, (StreamBody.fromBytes bytes).prepare limit = some native ∧
      native.read = some (.ok data)) ↔ data = bytes.data ∧ ∀ bound ∈ limit, bytes.len ≤ bound.toNat) ∧
    ∀ chunkSize (hsize : chunkSize ≤ usizeMax) (reads : (size : ChunkSize) → List (ReadPoll size))
      (hint : SizeHint),
      (hint.exact = some maxU64 → ∀ size, (delivered (reads size)).length ≤ u64Max) →
      (chunkSize = 0 ∧
        StreamBody.fromAsyncReadWithChunkSize chunkSize hsize reads = .error .invalidChunkSize) ∨
      ∃ size body, size.toNat = chunkSize ∧
        StreamBody.fromAsyncReadWithChunkSize chunkSize hsize reads = .ok body ∧
        SentOf limit hint.exact (body.withSizeHint hint) (reads size) := by
  refine ⟨?_, fun bytes data => sent_fromBytes bytes limit data, ?_⟩
  · intro file
    have hexact : (StreamBody.fromFile file).sizeHint.exact = some file.len := by
      simp [StreamBody.fromFile, SizeHint.exact, SizeHint.withExact]
    have hcount : (StreamBody.fromFile file).sizeHint.exact = some maxU64 →
        (delivered file.reads).length ≤ u64Max := by
      rw [hexact]
      intro hsame
      have hlt := file.len_lt
      rw [Option.some.inj hsame, toNat_maxU64] at hlt
      exact absurd hlt (by decide)
    have hsent := sentOf_reads (show (StreamBody.fromFile file).stream = _ from rfl) hcount limit
    rwa [hexact] at hsent
  · intro chunkSize hsize reads hint hcount
    by_cases hzero : chunkSize = 0
    · exact .inl ⟨hzero, by simp [StreamBody.fromAsyncReadWithChunkSize, hzero]⟩
    · right
      have hpos : 0 < chunkSize := Nat.pos_of_ne_zero hzero
      let size : ChunkSize := ⟨chunkSize, hpos, hsize⟩
      let body : StreamBody := ⟨(AsyncReadByteStream.new size).answers (reads size), .new⟩
      have hsent := sentOf_reads (show (body.withSizeHint hint).stream = _ from rfl)
        (fun hmax => hcount hmax size) limit
      exact ⟨size, body, rfl, by simp [StreamBody.fromAsyncReadWithChunkSize, hzero, size, body], hsent⟩

/-- A reader of three bytes, one at a time. -/
def threeReads (size : ChunkSize) : List (ReadPoll size) :=
  [.filled [7] size.pos, .pending, .filled [8] size.pos, .filled [9] size.pos,
    .filled [] (Nat.zero_le _)]

/-- It is sent in full within a limit of ten bytes if it is given its length. -/
theorem reader_sent_whole_three :
    ∃ body, StreamBody.fromAsyncReadWithChunkSize 2 (by decide) threeReads = .ok body ∧
      ∃ native, (body.withSizeHint (.withExact 3)).prepare (some 10) = some native ∧
        native.read = some (.ok [7, 8, 9]) := by
  have hexact : (SizeHint.withExact 3).exact = some 3 := by decide
  have hsome : some (3 : UInt64) ≠ some maxU64 := by decide
  obtain ⟨hzero, _⟩ | ⟨size, body, _, hbody, hsent⟩ :=
    (reader_sent_whole (some 10)).2.2 2 (by decide) threeReads (.withExact 3)
      fun hmax => absurd (hexact.symm.trans hmax) hsome
  · contradiction
  · refine ⟨body, hbody, (hsent.whole [7, 8, 9]).mpr ⟨rfl, ?_, ?_⟩⟩
    · rw [hexact]
      simp
    · simp

end Concord
