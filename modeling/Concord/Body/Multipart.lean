import Concord.Body.Source
import Concord.RateLimit.Response

/-!
# Concord.Body.Multipart

Multipart bodies (`concord_core/src/multipart.rs`, and `MultipartRequest` of
`concord_core/src/io.rs`): what is checked before a request is prepared, and the
form that is made of a body for every execution.

Which texts are media types (`Part::mime_str`) and how `reqwest` writes a form are
parameters.
-/

namespace Concord

open Checked Polled

variable {ε : Type*}

/-- What can be wrong with a form. -/
inductive MultipartBodyErrorKind where
  | invalidPartName
  | invalidPartFileName
  | invalidPartContentType
  | invalidMultipartContentType
  deriving DecidableEq, Repr

/-! ## forms -/

/-- The body of a part, as `reqwest` has it: bytes, or a stream with its length if it has one. -/
inductive PartBody where
  | bytes (data : List UInt8)
  | stream (length : Option UInt64) (answers : List (Answer BodyError Bytes))

/-- A `reqwest` part. -/
structure Part where
  body : PartBody
  fileName : Option String
  mime : Option String

/-- A `reqwest` form: its parts, by name. -/
abbrev Form := List (String × Part)

/-- Visible ASCII but for quotes and backslashes. -/
def isValidDispositionValue (value : String) : Bool :=
  !value.isEmpty && value.toList.all (fun c => c.toNat < 0x80) &&
    value.toList.all fun c =>
      (0x20 ≤ c.toNat && c.toNat ≤ 0x7e) &&
        !(c.toNat == 0x5c || c.toNat == 0x22 || c.toNat == 0x0d || c.toNat == 0x0a)

/-- The name of a part. -/
def validatePartName (value : String) : Except MultipartBodyErrorKind Unit :=
  if isValidDispositionValue value then .ok () else .error .invalidPartName

/-- Its file name. -/
def validatePartFileName (value : String) : Except MultipartBodyErrorKind Unit :=
  if isValidDispositionValue value then .ok () else .error .invalidPartFileName

/-- What an optional value of a part has to pass. -/
def validateOptional {α : Type*} (check : α → Except MultipartBodyErrorKind Unit) :
    Option α → Except MultipartBodyErrorKind Unit
  | none => .ok ()
  | some value => check value

section mime

variable (mimeStr : String → Bool)

/-- `validate_part_content_type`, over an empty part. -/
def validatePartContentType (contentType : HeaderValue) : Except MultipartBodyErrorKind String :=
  match contentType.toStr with
  | none => .error .invalidPartContentType
  | some text => if mimeStr text then .ok text else .error .invalidPartContentType

/-- `build_part`, from its body on. -/
def buildPartBody : RawPartBody StreamBody → PartBody
  | .text text => .bytes (FormUrlencoded.utf8Bytes text)
  | .bytes bytes => .bytes bytes
  | .stream stream =>
    let exactLength := stream.sizeHint.exact
    .stream exactLength
      (run (MultipartByteStream.pollNext BodyError.ofStream) (.new exactLength) stream.stream)

/-- A part is checked field by field, and built. -/
def buildPart (part : RawPart StreamBody) : Except MultipartBodyErrorKind (String × Part) :=
  match validatePartName part.name with
  | .error kind => .error kind
  | .ok _ =>
    match validateOptional validatePartFileName part.fileName with
    | .error kind => .error kind
    | .ok _ =>
      let body : Part := ⟨buildPartBody part.body, part.fileName, none⟩
      match part.contentType with
      | none => .ok (part.name, body)
      | some contentType =>
        match validatePartContentType mimeStr contentType with
        | .error kind => .error kind
        | .ok text =>
          if mimeStr text then .ok (part.name, { body with mime := some text })
          else .error .invalidPartContentType

/-- The parts in order, up to the first that is wrong. -/
def buildParts : List (RawPart StreamBody) → Except MultipartBodyErrorKind Form
  | [] => .ok []
  | part :: parts =>
    match buildPart mimeStr part with
    | .error kind => .error kind
    | .ok built =>
      match buildParts parts with
      | .error kind => .error kind
      | .ok form => .ok (built :: form)

/-- The form that is sent. -/
def MultipartBody.intoForm (body : MultipartBody StreamBody) : Except MultipartBodyErrorKind Form :=
  buildParts mimeStr body.parts

/-- One turn of the loop of `validate`. -/
def validatePart (part : RawPart StreamBody) : Except MultipartBodyErrorKind Unit :=
  match validatePartName part.name with
  | .error kind => .error kind
  | .ok _ =>
    match validateOptional validatePartFileName part.fileName with
    | .error kind => .error kind
    | .ok _ =>
      match part.contentType with
      | none => .ok ()
      | some contentType => (validatePartContentType mimeStr contentType).map fun _ => ()

/-- The same checks with nothing built. -/
def validateParts : List (RawPart StreamBody) → Except MultipartBodyErrorKind Unit
  | [] => .ok ()
  | part :: parts =>
    match validatePart mimeStr part with
    | .error kind => .error kind
    | .ok _ => validateParts parts

/-- Checking the form without taking it. -/
def MultipartBody.validate (body : MultipartBody StreamBody) : Except MultipartBodyErrorKind Unit :=
  validateParts mimeStr body.parts

/-- `MultipartRequest::prepare`; the error is the source of a codec error. -/
def MultipartBody.prepareRequest (body : MultipartBody StreamBody) :
    Except MultipartBodyErrorKind (PreparedBody ε StreamBody) :=
  (body.validate mimeStr).map fun _ => ⟨.multipartRecipe (some body), some .dynamic⟩

/-- Bodies that are streams or forms, for the transport; `encode` writes a form. -/
def formSource (encode : Form → SizeHint × List (Answer NativeError Frame)) : BodySource StreamBody where
  chunks body := body.stream
  hint _ := .new
  frames _ := []
  intoForm body := (body.intoForm mimeStr).toOption.map encode

/-! ## what is checked is what is built -/

/-- A media type that passes is the text of one. -/
theorem mimeStr_of_validated {contentType : HeaderValue} {text : String}
    (h : validatePartContentType mimeStr contentType = .ok text) :
    contentType.toStr = some text ∧ mimeStr text = true := by
  cases htext : contentType.toStr with
  | none => simp [validatePartContentType, htext] at h
  | some other =>
      cases haccepts : mimeStr other with
      | false => simp [validatePartContentType, htext, haccepts] at h
      | true =>
          have hsame : other = text := by simpa [validatePartContentType, htext, haccepts] using h
          subst hsame
          exact ⟨rfl, haccepts⟩

/-- A part is built if it passes the check, and fails with the error of the check. -/
theorem validatePart_eq (part : RawPart StreamBody) :
    validatePart mimeStr part = (buildPart mimeStr part).map fun _ => () := by
  cases hname : validatePartName part.name with
  | error kind => simp [validatePart, buildPart, hname, Except.map]
  | ok _ =>
      cases hfile : validateOptional validatePartFileName part.fileName with
      | error kind => simp [validatePart, buildPart, hname, hfile, Except.map]
      | ok _ =>
          cases htype : part.contentType with
          | none => simp [validatePart, buildPart, hname, hfile, htype, Except.map]
          | some contentType =>
              cases htext : validatePartContentType mimeStr contentType with
              | error kind => simp [validatePart, buildPart, hname, hfile, htype, htext, Except.map]
              | ok text =>
                  have haccepts := (mimeStr_of_validated mimeStr htext).2
                  simp [validatePart, buildPart, hname, hfile, htype, htext, haccepts, Except.map]

/-- Checking a form finds just what building it would. -/
theorem validate_eq (body : MultipartBody StreamBody) :
    body.validate mimeStr = (body.intoForm mimeStr).map fun _ => () := by
  obtain ⟨parts⟩ := body
  simp only [MultipartBody.validate, MultipartBody.intoForm]
  induction parts with
  | nil => rfl
  | cons part parts ih =>
      have hpart := validatePart_eq mimeStr part
      cases hbuilt : buildPart mimeStr part with
      | error kind =>
          rw [hbuilt] at hpart
          simp [validateParts, buildParts, hpart, hbuilt, Except.map]
      | ok built =>
          rw [hbuilt] at hpart
          cases hrest : buildParts mimeStr parts with
          | error kind =>
              rw [hrest] at ih
              simp [validateParts, buildParts, hpart, hbuilt, hrest, ih, Except.map]
          | ok form =>
              rw [hrest] at ih
              simp [validateParts, buildParts, hpart, hbuilt, hrest, ih, Except.map]

end mime

/-! ## what a form holds -/

/-- The data of a part, up to the first error or the end of its stream. -/
def PartBody.read : PartBody → Option (Except BodyError (List UInt8))
  | .bytes data => some (.ok data)
  | .stream _ answers => collectBytes [] (answers.map asFrame)

/-- The body of a part holds these bytes; a stream with a declared length comes to its end after
as many. -/
def RawPartBody.Holds (bytes : List UInt8) : RawPartBody StreamBody → Prop
  | .text value => bytes = FormUrlencoded.utf8Bytes value
  | .bytes value => bytes = value
  | .stream body =>
    collectBytes [] ((body.stream.map asFrame).map (Answer.mapError BodyError.ofStream)) =
        some (.ok bytes) ∧
      ∀ expected ∈ body.sizeHint.exact, bytes.length = expected.toNat

/-- A declared length of a part can be counted. -/
def RawPartBody.Countable : RawPartBody StreamBody → Prop
  | .stream body =>
    ∀ expected ∈ body.sizeHint.exact, Concord.Countable expected Frame.len (body.stream.map asFrame)
  | _ => True

/-- A part of a form is made of a part of a body. -/
structure PartOf (part : RawPart StreamBody) (built : String × Part) : Prop where
  name : built.1 = part.name
  fileName : built.2.fileName = part.fileName
  mime : built.2.mime = part.contentType.bind HeaderValue.toStr
  clean : isValidDispositionValue built.1 = true ∧
    ∀ fileName ∈ built.2.fileName, isValidDispositionValue fileName = true
  data : part.body.Countable → ∀ bytes,
    built.2.body.read = some (.ok bytes) ↔ part.body.Holds bytes

/-- A stream without a declared length is passed on. -/
theorem collectBytes_undeclared (into : ε → BodyError) (seen : UInt64) (collected : List UInt8)
    (answers : List (Answer ε Bytes)) (bytes : List UInt8) :
    collectBytes collected ((run (MultipartByteStream.pollNext into) ⟨none, seen, false⟩
        answers).map asFrame) = some (.ok bytes) ↔
      collectBytes collected ((answers.map asFrame).map (Answer.mapError into)) =
        some (.ok bytes) := by
  induction answers generalizing seen collected with
  | nil => rfl
  | cons answer answers ih =>
      rcases answer with _ | (_ | (error | chunk))
      · exact ih seen collected
      · simp [run, MultipartByteStream.pollNext, asFrame, collectBytes]
      · simp [run, MultipartByteStream.pollNext, asFrame, collectBytes]
      · simpa [run, MultipartByteStream.pollNext, asFrame, collectBytes] using
          ih _ (collected ++ (Frame.data chunk).bytes)

/-- One with a declared length has to hold as much. -/
theorem collectBytes_declared (into : ε → BodyError) {expected : UInt64}
    {answers : List (Answer ε Bytes)}
    (hcount : Countable expected Frame.len (answers.map asFrame)) (bytes : List UInt8) :
    collectBytes [] ((run (MultipartByteStream.pollNext into) (.new (some expected))
        answers).map asFrame) = some (.ok bytes) ↔
      collectBytes [] ((answers.map asFrame).map (Answer.mapError into)) = some (.ok bytes) ∧
        bytes.length = expected.toNat := by
  have hsame := MultipartByteStream.run_eq into expected 0 false answers
  have hlength := ExactLengthBody.run_eq hcount into
  have hgate := collectBytes_gate (lengthGate expected into) rfl into [] (Nat.zero_le _)
    (answers.map asFrame) bytes
  rw [lengthGate_close] at hgate
  rw [MultipartByteStream.new, hsame]
  rw [ExactLengthBody.new] at hlength
  rw [hlength]
  rw [show Gate.init = ⟨([] : List UInt8).length, false⟩ from rfl, hgate]
  have hbound : (lengthGate expected into).bound = expected.toNat := rfl
  rw [hbound]
  constructor
  · rintro ⟨hok, _, heq⟩
    exact ⟨hok, heq⟩
  · rintro ⟨hok, heq⟩
    exact ⟨hok, Nat.le_of_eq heq, heq⟩

/-- The body of a part is read as it is. -/
theorem read_buildPartBody {body : RawPartBody StreamBody} (hcountable : body.Countable)
    (bytes : List UInt8) :
    (buildPartBody body).read = some (.ok bytes) ↔ body.Holds bytes := by
  cases body with
  | text value => simp [buildPartBody, PartBody.read, RawPartBody.Holds, eq_comm]
  | bytes value => simp [buildPartBody, PartBody.read, RawPartBody.Holds, eq_comm]
  | stream body =>
      cases hexact : body.sizeHint.exact with
      | none =>
          have hread := collectBytes_undeclared BodyError.ofStream 0 [] body.stream bytes
          simpa [buildPartBody, PartBody.read, RawPartBody.Holds, hexact, MultipartByteStream.new]
            using hread
      | some expected =>
          have hread := collectBytes_declared BodyError.ofStream (hcountable expected hexact) bytes
          simpa [buildPartBody, PartBody.read, RawPartBody.Holds, hexact] using hread

/-- A name that passes can be quoted. -/
theorem validatePartName_ok {value : String} (h : validatePartName value = .ok ()) :
    isValidDispositionValue value = true := by
  cases hvalid : isValidDispositionValue value with
  | true => rfl
  | false => simp [validatePartName, hvalid] at h

/-- So can a file name. -/
theorem validateFileName_ok {fileName : Option String}
    (h : validateOptional validatePartFileName fileName = .ok ()) :
    ∀ value ∈ fileName, isValidDispositionValue value = true := by
  rintro value hvalue
  rw [Option.mem_def] at hvalue
  subst hvalue
  cases hvalid : isValidDispositionValue value with
  | true => rfl
  | false => simp [validateOptional, validatePartFileName, hvalid] at h

/-- A built part is the one it was built from. -/
theorem partOf_buildPart {mimeStr : String → Bool} {part : RawPart StreamBody}
    {built : String × Part} (h : buildPart mimeStr part = .ok built) : PartOf part built := by
  have hdata : part.body.Countable → ∀ bytes,
      (buildPartBody part.body).read = some (.ok bytes) ↔ part.body.Holds bytes :=
    fun hcountable bytes => read_buildPartBody hcountable bytes
  cases hname : validatePartName part.name with
  | error kind => simp [buildPart, hname] at h
  | ok _ =>
      cases hfile : validateOptional validatePartFileName part.fileName with
      | error kind => simp [buildPart, hname, hfile] at h
      | ok _ =>
          have hclean := And.intro (validatePartName_ok hname) (validateFileName_ok hfile)
          cases htype : part.contentType with
          | none =>
              simp only [buildPart, hname, hfile, htype, Except.ok.injEq] at h
              subst h
              exact ⟨rfl, rfl, by rw [htype]; rfl, hclean, hdata⟩
          | some contentType =>
              cases htext : validatePartContentType mimeStr contentType with
              | error kind => simp [buildPart, hname, hfile, htype, htext] at h
              | ok text =>
                  obtain ⟨hstr, haccepts⟩ := mimeStr_of_validated mimeStr htext
                  simp only [buildPart, hname, hfile, htype, htext, haccepts, if_true,
                    Except.ok.injEq] at h
                  subst h
                  exact ⟨rfl, rfl, by rw [htype, Option.bind_some, hstr], hclean, hdata⟩

/-- The parts of a form are those of its body, in order. -/
theorem partsOf_intoForm {mimeStr : String → Bool} {body : MultipartBody StreamBody} {form : Form}
    (h : body.intoForm mimeStr = .ok form) : List.Forall₂ PartOf body.parts form := by
  obtain ⟨parts⟩ := body
  rw [MultipartBody.intoForm] at h
  induction parts generalizing form with
  | nil =>
      cases h
      exact .nil
  | cons part parts ih =>
      cases hbuilt : buildPart mimeStr part with
      | error kind => simp [buildParts, hbuilt] at h
      | ok built =>
          cases hrest : buildParts mimeStr parts with
          | error kind => simp [buildParts, hbuilt, hrest] at h
          | ok rest =>
              have hform : built :: rest = form := by simpa [buildParts, hbuilt, hrest] using h
              subst hform
              exact .cons (partOf_buildPart hbuilt) (ih hrest)

/-- What the executions of a multipart body get: the same form every time if it can be rebuilt,
and otherwise the form once. -/
theorem productions_multipart (body : MultipartBody StreamBody)
    (mediaType : Option PreparedBodyMediaType) (n : Nat) :
    PreparedBody.productions (⟨.multipartRecipe (some body), mediaType⟩ : PreparedBody ε StreamBody)
        (n + 1) =
      .ok ⟨.multipartRecipe body, none⟩ :: List.replicate n
        (if body.isReconstructible then .ok ⟨.multipartRecipe body, none⟩
          else .error .alreadyConsumed) := by
  cases hclones : body.isReconstructible with
  | true =>
      have hclone : body.cloneIfReconstructible = some body := by
        rw [body.cloneIfReconstructible_eq, if_pos hclones]
      have hfixed : PreparedBody.produceForExecution (⟨.multipartRecipe (some body), mediaType⟩ :
          PreparedBody ε StreamBody) =
            (⟨.multipartRecipe (some body), mediaType⟩, .ok ⟨.multipartRecipe body, none⟩) := by
        simp only [PreparedBody.produceForExecution, hclone]
      rw [PreparedBody.productions_of_fixed hfixed]
      simp [List.replicate_succ]
  | false =>
      have hclone : body.cloneIfReconstructible = none := by
        rw [body.cloneIfReconstructible_eq, hclones]
        rfl
      have hspent : PreparedBody.productions (⟨.multipartRecipe none, mediaType⟩ :
          PreparedBody ε StreamBody) n = List.replicate n (.error .alreadyConsumed) :=
        PreparedBody.productions_of_fixed rfl n
      simp [PreparedBody.productions, PreparedBody.produceForExecution, hclone, hspent]

/-- **What is checked of a multipart body is what is built of it.**  A body is refused before
anything is sent exactly if no form can be made of it, with the same error; of one that is
accepted every execution gets the same form, or finds it consumed if a part is a stream.  The form
has the parts in order, with clean names, and a streamed part is read in full exactly if its
stream holds as much as it declares. -/
theorem multipart_prepared (mimeStr : String → Bool)
    (encode : Form → SizeHint × List (Answer NativeError Frame)) (input : MultipartBody StreamBody) :
    (∀ kind, (input.prepareRequest mimeStr :
        Except MultipartBodyErrorKind (PreparedBody ε StreamBody)) = .error kind ↔
      input.intoForm mimeStr = .error kind) ∧
    ∀ body : PreparedBody ε StreamBody, input.prepareRequest mimeStr = .ok body →
      ∃ form produced native, input.intoForm mimeStr = .ok form ∧
        List.Forall₂ PartOf input.parts form ∧
        native = ReqwestBody.streaming (encode form).1 ⟨none, none⟩ (encode form).2 ∧
        (∀ exactLength, TerminalBody.applyToReqwest (formSource mimeStr encode)
          produced.terminal exactLength = .ok native) ∧
        ∀ n, body.productions (n + 1) = .ok produced :: List.replicate n
          (if input.isReconstructible then .ok produced else .error .alreadyConsumed) := by
  have hsame := validate_eq mimeStr input
  constructor
  · intro kind
    cases hform : input.intoForm mimeStr with
    | error other => simp [MultipartBody.prepareRequest, hsame, hform, Except.map]
    | ok form => simp [MultipartBody.prepareRequest, hsame, hform, Except.map]
  · intro body hbody
    cases hform : input.intoForm mimeStr with
    | error other => simp [MultipartBody.prepareRequest, hsame, hform, Except.map] at hbody
    | ok form =>
        have hprepared : (⟨.multipartRecipe (some input), some .dynamic⟩ :
            PreparedBody ε StreamBody) = body := by
          simpa [MultipartBody.prepareRequest, hsame, hform, Except.map] using hbody
        subst hprepared
        have happly : ∀ exactLength, TerminalBody.applyToReqwest (formSource mimeStr encode)
            (.multipartRecipe input) exactLength =
              .ok (.streaming (encode form).1 ⟨none, none⟩ (encode form).2) := by
          intro exactLength
          simp [TerminalBody.applyToReqwest, formSource, hform, Except.toOption]
        exact ⟨form, ⟨.multipartRecipe input, none⟩, _, rfl, partsOf_intoForm hform, rfl, happly,
          productions_multipart input _⟩

/-- A text and a stream of two bytes that declares them. -/
def twoParts : MultipartBody StreamBody :=
  ⟨[⟨"note", none, none, .text "hi"⟩,
    ⟨"data", some "data.bin", none,
      .stream ⟨[.ready (some (.ok ⟨[7], by decide⟩)), .ready (some (.ok ⟨[8], by decide⟩)),
        .ready none], .withExact 2⟩⟩]⟩

/-- They are accepted, the stream is read in full, and it is there once. -/
theorem multipart_prepared_two :
    ∃ (body : PreparedBody Unit StreamBody) (form : Form) (produced : ProducedBody StreamBody),
      twoParts.prepareRequest (fun _ => true) = .ok body ∧
      twoParts.intoForm (fun _ => true) = .ok form ∧
      (∃ part, ("data", part) ∈ form ∧ part.body.read = some (.ok [7, 8])) ∧
      body.productions 2 = [.ok produced, .error .alreadyConsumed] := by
  have hencode := multipart_prepared (ε := Unit) (fun _ => true) (fun _ => (.new, [])) twoParts
  obtain ⟨form, produced, native, hform, hparts, _, _, hproduced⟩ := hencode.2 _ rfl
  refine ⟨_, form, produced, rfl, hform, ?_, hproduced 1⟩
  cases hparts with
  | cons _ hrest =>
      cases hrest with
      | @cons _ built _ _ hpart _ =>
          obtain ⟨name, part⟩ := built
          have hname : name = "data" := hpart.name
          subst hname
          have hdeclared : ∀ expected ∈ (SizeHint.withExact 2).exact, expected = 2 := by
            simp [SizeHint.exact, SizeHint.withExact]
          refine ⟨part, by simp, (hpart.data ?_ [7, 8]).mpr ⟨rfl, ?_⟩⟩
          · intro expected hexpected
            exact .inl (hdeclared expected hexpected ▸ by decide)
          · intro expected hexpected
            exact hdeclared expected hexpected ▸ rfl

end Concord
