import Mathlib.Data.List.Infix
import Concord.Lib.Ip
import Concord.Client.Head
import Concord.Sema.Items

/-!
# Concord.Host

The host of a URL, as the `url` crate reads it, and the host of a route
(`HostParts` of `concord_core/src/types.rs`): labels that are put before the
domain of the client, or a whole host.
-/

namespace Concord

/-! ## URLs -/

/-- `url::Host`. -/
inductive UrlHost where
  | domain (name : String)
  | ipv4 (address : Ip.Ipv4Addr)
  | ipv6 (address : Ip.Ipv6Addr)
  deriving DecidableEq, Repr

/-- `host_str`. -/
def UrlHost.text : UrlHost → String
  | .domain name => name
  | .ipv4 address => String.ofList address.display
  | .ipv6 address => "[" ++ String.ofList address.urlText ++ "]"

def UrlHost.isDomain : UrlHost → Bool
  | .domain _ => true
  | .ipv4 _ | .ipv6 _ => false

/-- The `url` crate, with how it reads the parts of a URL.  The port is that
of `port_or_known_default`. -/
structure UrlReader (υ : Type*) extends UrlCrate υ where
  scheme : Url → String
  username : Url → String
  password : Url → Option String
  host : Url → Option UrlHost
  port : Url → Option Nat
  path : Url → String
  fragment : Url → Option String

/-- Where a request goes. -/
structure UrlOrigin where
  scheme : String
  host : Option UrlHost
  port : Option Nat
  deriving DecidableEq, Repr

def UrlReader.origin {υ : Type*} (urls : UrlReader υ) (url : Url) : UrlOrigin :=
  ⟨urls.scheme url, urls.host url, urls.port url⟩

/-- `char::is_control`. -/
def isControl (c : Char) : Bool := c.toNat < 0x20 || (0x7f ≤ c.toNat && c.toNat < 0xa0)

/-! ## routes -/

inductive HostLabelInvalidReason where
  | empty
  | containsDot
  | containsSlash
  | containsScheme
  | containsWhitespace
  | startsOrEndsDash
  | invalidByte (byte : UInt8)
  | absoluteModePushLabel
  deriving DecidableEq, Repr

/-- `ApiClientError::InvalidHostLabel`. -/
structure InvalidHostLabel where
  ctx : ErrorContext
  label : String
  index : Nat
  placeholder : Option String
  reason : HostLabelInvalidReason
  deriving DecidableEq, Repr

inductive HostLabelSource where
  | static (text : String)
  | placeholder (name : String)
  | mixed
  deriving DecidableEq, Repr

def HostLabelSource.name? : HostLabelSource → Option String
  | .placeholder name => some name
  | .static _ | .mixed => none

structure HostLabel where
  value : String
  source : HostLabelSource
  deriving DecidableEq, Repr

inductive HostSpec where
  | suffixDomain (labels : List HostLabel)
  | absolute (host : String)
  deriving DecidableEq, Repr

structure HostParts where
  spec : HostSpec
  absolutePushAttempt : Option HostLabel
  deriving DecidableEq, Repr

namespace HostParts

def default : HostParts := ⟨.suffixDomain [], none⟩

def setAbsolute (_host : HostParts) (text : String) : HostParts := ⟨.absolute text, none⟩

/-- A whole host takes no label; the first attempt is kept for `validate`. -/
def pushLabel (host : HostParts) (value : String) (source : HostLabelSource) : HostParts :=
  match host.spec with
  | .suffixDomain labels => { host with spec := .suffixDomain (labels ++ [⟨value, source⟩]) }
  | .absolute _ =>
    { host with absolutePushAttempt := host.absolutePushAttempt.or (some ⟨value, source⟩) }

def pushLabelStatic (host : HostParts) (text : String) : HostParts :=
  host.pushLabel text (.static text)

/-! ## validation -/

/-- The bytes a label may have. -/
def labelChar (c : Char) : Bool := c.isAlphanum || c = '-'

/-- What is wrong with a label, if anything is.  A character that is not ASCII
starts with a byte that is not allowed. -/
def labelError (label : String) : Option HostLabelInvalidReason :=
  if label.toList.isEmpty then some .empty
  else if label.toList.contains '.' then some .containsDot
  else if label.toList.contains '/' then some .containsSlash
  else if label.toList.head? = some '-' || label.toList.getLast? = some '-' then
    some .startsOrEndsDash
  else
    (label.toList.find? (fun c => !labelChar c)).map fun c =>
      .invalidByte ((FormUrlencoded.utf8Bytes (String.ofList [c])).headD 0)

/-- What is wrong with a whole host, if anything is. -/
def absoluteError (host : String) : Option HostLabelInvalidReason :=
  if host.toList.isEmpty then some .empty
  else if host.toList.tails.any ("://".toList.isPrefixOf ·) then some .containsScheme
  else
    -- delimiters that would end the authority, or put user information in it
    match ['@', '?', '#', '\\'].find? (host.toList.contains ·) with
    | some c => some (.invalidByte (.ofNat c.toNat))
    | none =>
      if host.toList.any Sema.isWhitespace then some .containsWhitespace
      else if host.toList.contains '/' then some .containsSlash
      else none

def validate (host : HostParts) (ctx : ErrorContext) : Except InvalidHostLabel Unit :=
  match host.spec with
  | .absolute text =>
    match host.absolutePushAttempt with
    | some label => .error ⟨ctx, label.value, 0, label.source.name?, .absoluteModePushLabel⟩
    | none =>
      match absoluteError text with
      | some reason => .error ⟨ctx, text, 0, none, reason⟩
      | none => .ok ()
  | .suffixDomain labels =>
    match labels.zipIdx.findSome? (fun (label, index) =>
        (labelError label.value).map fun reason =>
          (⟨ctx, label.value, index, label.source.name?, reason⟩ : InvalidHostLabel)) with
    | some error => .error error
    | none => .ok ()

/-- `HostPartsDisplay`. -/
def display (labels : List HostLabel) : String := ".".intercalate (labels.map HostLabel.value)

def join (host : HostParts) (domain : String) : String :=
  match host.spec with
  | .absolute text => text
  | .suffixDomain labels =>
    if labels.isEmpty then domain else display labels ++ "." ++ domain

/-- Labels that have nothing wrong with them are valid. -/
theorem validate_suffixDomain {labels : List HostLabel}
    (h : ∀ label ∈ labels, labelError label.value = none) (ctx : ErrorContext) :
    (⟨.suffixDomain labels, none⟩ : HostParts).validate ctx = .ok () := by
  have hnone : labels.zipIdx.findSome? (fun (label, index) =>
      (labelError label.value).map fun reason =>
        (⟨ctx, label.value, index, label.source.name?, reason⟩ : InvalidHostLabel)) = none := by
    rw [List.findSome?_eq_none_iff]
    intro (label, index) hmem
    have hlabel : label ∈ labels := List.fst_mem_of_mem_zipIdx hmem
    simp [h label hlabel]
  simp only [validate, hnone]

/-- The labels that are pushed one after the other. -/
theorem foldl_pushLabelStatic (labels : List HostLabel) (texts : List String) :
    texts.foldl pushLabelStatic ⟨.suffixDomain labels, none⟩ =
      ⟨.suffixDomain (labels ++ texts.map fun text => ⟨text, .static text⟩), none⟩ := by
  induction texts generalizing labels with
  | nil => simp
  | cons text texts ih =>
      rw [List.foldl_cons]
      simp only [pushLabelStatic, pushLabel]
      rw [ih]
      simp

/-! ## what is valid -/

/-- ASCII letters and digits, with dashes inside. -/
structure IsLabel (label : String) : Prop where
  ne_empty : label ≠ ""
  mem {c : Char} (hc : c ∈ label.toList) : c.isAlphanum = true ∨ c = '-'
  head? : label.toList.head? ≠ some '-'
  getLast? : label.toList.getLast? ≠ some '-'

/-- Nothing in the host ends it or puts something before it. -/
structure IsAuthority (host : String) : Prop where
  ne_empty : host ≠ ""
  scheme : ¬ "://".toList <:+: host.toList
  userinfo : '@' ∉ host.toList
  slash : '/' ∉ host.toList
  backslash : '\\' ∉ host.toList
  query : '?' ∉ host.toList
  fragment : '#' ∉ host.toList
  isWhitespace {c : Char} (hc : c ∈ host.toList) : Sema.isWhitespace c = false

theorem isLabel_of_labelError {label : String} (h : labelError label = none) : IsLabel label := by
  simp only [labelError] at h
  split at h
  · contradiction
  split at h
  · contradiction
  split at h
  · contradiction
  split at h
  · contradiction
  next hempty _ _ hdash =>
    rw [Bool.or_eq_true, decide_eq_true_eq, decide_eq_true_eq, not_or] at hdash
    rw [Option.map_eq_none_iff, List.find?_eq_none] at h
    refine ⟨?_, ?_, hdash.1, hdash.2⟩
    · rintro rfl
      simp at hempty
    · intro c hc
      have hchar := h c hc
      rw [Bool.not_eq_true', Bool.not_eq_false, labelChar, Bool.or_eq_true,
        decide_eq_true_eq] at hchar
      exact hchar

theorem isAuthority_of_absoluteError {host : String} (h : absoluteError host = none) :
    IsAuthority host := by
  simp only [absoluteError] at h
  split at h
  · contradiction
  split at h
  · contradiction
  split at h
  · contradiction
  split at h
  · contradiction
  split at h
  · contradiction
  next hempty hscheme _ hdelimiters hspace hslash =>
    have hnot : ∀ c ∈ ['@', '?', '#', '\\'], c ∉ host.toList := by
      intro c hc hmem
      exact List.find?_eq_none.mp hdelimiters c hc (List.contains_iff_mem.mpr hmem)
    have hany : ∀ c ∈ host.toList, Sema.isWhitespace c = false := by
      simpa using hspace
    refine ⟨?_, ?_, hnot '@' (by simp), ?_, hnot '\\' (by simp), hnot '?' (by simp),
      hnot '#' (by simp), fun hc => hany _ hc⟩
    · rintro rfl
      simp at hempty
    · rintro ⟨before, after, heq⟩
      apply hscheme
      rw [List.any_eq_true]
      refine ⟨"://".toList ++ after, ?_, List.isPrefixOf_iff_prefix.mpr (List.prefix_append _ _)⟩
      rw [List.mem_tails]
      exact ⟨before, by rw [← heq, List.append_assoc]⟩
    · intro hmem
      exact hslash (List.contains_iff_mem.mpr hmem)

theorem isLabel_of_validate {labels : List HostLabel} {attempt : Option HostLabel}
    {ctx : ErrorContext} (h : (⟨.suffixDomain labels, attempt⟩ : HostParts).validate ctx = .ok ())
    {label : HostLabel} (hlabel : label ∈ labels) : IsLabel label.value := by
  simp only [validate] at h
  split at h
  · contradiction
  · next hnone =>
      rw [List.findSome?_eq_none_iff] at hnone
      obtain ⟨index, hget⟩ := List.getElem?_of_mem hlabel
      have hmem : (label, index) ∈ labels.zipIdx := List.mem_zipIdx_iff_getElem?.mpr hget
      have herror := hnone _ hmem
      rw [Option.map_eq_none_iff] at herror
      exact isLabel_of_labelError herror

/-- The labels before the domain. -/
def readLabels (domain host : String) : List String :=
  if host = domain then []
  else
    let joined := host.toList.take (host.toList.length - (domain.toList.length + 1))
    (joined.splitOn '.').map String.ofList

/-- Labels have no dots, and the length says where the domain starts. -/
theorem readLabels_intercalate {labels : List String} (h : ∀ label ∈ labels, IsLabel label)
    (domain : String) : readLabels domain (".".intercalate (labels ++ [domain])) = labels := by
  cases labels with
  | nil => simp [readLabels]
  | cons first rest =>
      have hjoin : ".".intercalate (first :: rest ++ [domain]) =
          ".".intercalate (first :: rest) ++ "." ++ domain := by
        rw [String.intercalate_append_of_ne_nil (by simp) (by simp), String.intercalate_singleton]
      have hne : ".".intercalate (first :: rest) ++ "." ++ domain ≠ domain := by
        intro heq
        have hlength := congrArg String.length heq
        simp only [String.length_append] at hlength
        have hdot : ".".length = 1 := rfl
        omega
      have hdots : ∀ label ∈ (first :: rest).map String.toList, '.' ∉ label := by
        intro chars hchars hdot
        obtain ⟨label, hlabel, rfl⟩ := List.mem_map.mp hchars
        have hchar := (h label hlabel).mem hdot
        simp at hchar
      have hlength (joined : List Char) :
          (joined ++ ".".toList ++ domain.toList).length - (domain.toList.length + 1) =
            joined.length := by
        have hdot : ".".toList.length = 1 := rfl
        simp only [List.length_append]
        omega
      rw [hjoin, readLabels, if_neg hne]
      simp only [String.toList_append]
      rw [hlength, List.append_assoc, List.take_left, String.toList_intercalate,
        show ".".toList = ['.'] from rfl, List.splitOn_intercalate '.' hdots (by simp),
        List.map_map]
      simp

end HostParts

/-! ## calls -/

/-- The calls of the code of a route. -/
inductive HostCall where
  | setAbsolute (text : String)
  | pushLabel (value : String) (source : HostLabelSource)
  | pushLabelStatic (text : String)
  deriving DecidableEq, Repr

/-- The label a call pushes. -/
def HostCall.label? : HostCall → Option HostLabel
  | .setAbsolute _ => none
  | .pushLabel value source => some ⟨value, source⟩
  | .pushLabelStatic text => some ⟨text, .static text⟩

namespace HostParts

def call (host : HostParts) : HostCall → HostParts
  | .setAbsolute text => host.setAbsolute text
  | .pushLabel value source => host.pushLabel value source
  | .pushLabelStatic text => host.pushLabelStatic text

def calls (host : HostParts) (calls : List HostCall) : HostParts := calls.foldl call host

theorem call_of_label? {c : HostCall} {label : HostLabel} (h : c.label? = some label)
    (host : HostParts) : host.call c = host.pushLabel label.value label.source := by
  cases c with
  | setAbsolute text => simp [HostCall.label?] at h
  | pushLabel value source =>
      simp only [HostCall.label?, Option.some.injEq] at h
      simp [call, ← h]
  | pushLabelStatic text =>
      simp only [HostCall.label?, Option.some.injEq] at h
      simp [call, pushLabelStatic, ← h]

theorem calls_suffixDomain {cs : List HostCall} {pushed : List HostLabel}
    (h : cs.map HostCall.label? = pushed.map some) (labels : List HostLabel) :
    (⟨.suffixDomain labels, none⟩ : HostParts).calls cs =
      ⟨.suffixDomain (labels ++ pushed), none⟩ := by
  induction cs generalizing labels pushed with
  | nil =>
      have hpushed : pushed = [] := by simpa using h.symm
      simp [calls, hpushed]
  | cons c cs ih =>
      cases pushed with
      | nil => simp at h
      | cons label pushed =>
          simp only [List.map_cons, List.cons.injEq] at h
          have hstep : (⟨.suffixDomain labels, none⟩ : HostParts).call c =
              ⟨.suffixDomain (labels ++ [label]), none⟩ := by
            rw [call_of_label? h.1, pushLabel]
          have hrest := ih h.2 (labels ++ [label])
          simp only [calls] at hrest
          simp [calls, hstep, hrest]

/-- The first label that is pushed stays. -/
theorem calls_absolute {cs : List HostCall} {pushed : List HostLabel}
    (h : cs.map HostCall.label? = pushed.map some) (text : String) (attempt : Option HostLabel) :
    (⟨.absolute text, attempt⟩ : HostParts).calls cs =
      ⟨.absolute text, attempt.or pushed.head?⟩ := by
  induction cs generalizing attempt pushed with
  | nil =>
      have hpushed : pushed = [] := by simpa using h.symm
      simp [calls, hpushed]
  | cons c cs ih =>
      cases pushed with
      | nil => simp at h
      | cons label pushed =>
          simp only [List.map_cons, List.cons.injEq] at h
          have hstep : (⟨.absolute text, attempt⟩ : HostParts).call c =
              ⟨.absolute text, attempt.or (some label)⟩ := by
            rw [call_of_label? h.1, pushLabel]
          have hrest := ih h.2 (attempt.or (some label))
          simp only [calls] at hrest
          rw [calls, List.foldl_cons, hstep, hrest, Option.or_assoc]
          simp

/-- Calls that only push labels, or the last one that does not. -/
theorem calls_split (cs : List HostCall) :
    (∃ labels : List HostLabel, cs.map HostCall.label? = labels.map some) ∨
      ∃ earlier text later, ∃ labels : List HostLabel, cs = earlier ++ .setAbsolute text :: later ∧
        later.map HostCall.label? = labels.map some := by
  induction cs with
  | nil => exact .inl ⟨[], rfl⟩
  | cons c cs ih =>
      rcases ih with ⟨labels, h⟩ | ⟨earlier, text, later, labels, rfl, h⟩
      · cases hlabel : c.label? with
        | some label => exact .inl ⟨label :: labels, by simp [hlabel, h]⟩
        | none =>
            cases c with
            | setAbsolute text => exact .inr ⟨[], text, cs, labels, rfl, h⟩
            | pushLabel value source => simp [HostCall.label?] at hlabel
            | pushLabelStatic text => simp [HostCall.label?] at hlabel
      · exact .inr ⟨c :: earlier, text, later, labels, rfl, h⟩

/-- What the calls build after the last whole host. -/
theorem calls_setAbsolute {later : List HostCall} {labels : List HostLabel}
    (h : later.map HostCall.label? = labels.map some) (host : HostParts)
    (earlier : List HostCall) (text : String) :
    host.calls (earlier ++ .setAbsolute text :: later) = ⟨.absolute text, labels.head?⟩ := by
  have hrest := calls_absolute h text none
  simp only [calls] at hrest
  rw [calls, List.foldl_append, List.foldl_cons, call, setAbsolute, hrest, Option.none_or]

theorem validate_absolute {text : String} {attempt : Option HostLabel} {ctx : ErrorContext}
    (h : (⟨.absolute text, attempt⟩ : HostParts).validate ctx = .ok ()) :
    attempt = none ∧ IsAuthority text := by
  simp only [validate] at h
  cases attempt with
  | some label => contradiction
  | none =>
      cases herror : absoluteError text with
      | some reason => simp [herror] at h
      | none => exact ⟨rfl, isAuthority_of_absoluteError herror⟩

/-- `intercalate` is what `join` writes. -/
theorem join_suffixDomain (labels : List HostLabel) (attempt : Option HostLabel)
    (domain : String) :
    (⟨.suffixDomain labels, attempt⟩ : HostParts).join domain =
      ".".intercalate (labels.map HostLabel.value ++ [domain]) := by
  cases labels with
  | nil => simp [join]
  | cons label labels =>
      rw [join, String.intercalate_append_of_ne_nil (by simp) (by simp),
        String.intercalate_singleton]
      simp [display]

/-- A valid host is the domain after the labels that were pushed, and they can
be told from it, or it is the last whole host, with nothing pushed on it. -/
theorem calls_not_escaped (cs : List HostCall) (domain : String) (ctx : ErrorContext) :
    (∃ labels : List HostLabel, cs.map HostCall.label? = labels.map some ∧
      ((default.calls cs).validate ctx = .ok () →
        (default.calls cs).join domain =
            ".".intercalate (labels.map HostLabel.value ++ [domain]) ∧
          (∀ label ∈ labels, IsLabel label.value) ∧
          readLabels domain ((default.calls cs).join domain) = labels.map HostLabel.value)) ∨
    (∃ earlier text later, cs = earlier ++ .setAbsolute text :: later ∧
      (∀ c ∈ later, ∃ label, c.label? = some label) ∧
      (∀ c ∈ later, (default.calls cs).validate ctx ≠ .ok ()) ∧
      ((default.calls cs).validate ctx = .ok () →
        (default.calls cs).join domain = text ∧ IsAuthority text)) := by
  rcases calls_split cs with ⟨labels, h⟩ | ⟨earlier, text, later, labels, rfl, h⟩
  · left
    refine ⟨labels, h, ?_⟩
    have hbuilt : default.calls cs = ⟨.suffixDomain labels, none⟩ := by
      have hcalls := calls_suffixDomain h []
      rwa [List.nil_append] at hcalls
    rw [hbuilt, join_suffixDomain]
    intro hvalid
    have hlabels : ∀ label ∈ labels, IsLabel label.value := fun _ hlabel =>
      isLabel_of_validate hvalid hlabel
    have hvalues : ∀ label ∈ labels.map HostLabel.value, IsLabel label := by
      simpa using hlabels
    exact ⟨rfl, hlabels, readLabels_intercalate hvalues domain⟩
  · right
    refine ⟨earlier, text, later, rfl, ?_, ?_, ?_⟩
    · intro c hc
      have hmem : c.label? ∈ labels.map some := h ▸ List.mem_map_of_mem hc
      obtain ⟨label, _, hlabel⟩ := List.mem_map.mp hmem
      exact ⟨label, hlabel.symm⟩
    · rw [calls_setAbsolute h]
      intro c hc hvalid
      have hnone := (validate_absolute hvalid).1
      have hlabels : labels = [] := List.head?_eq_none_iff.mp hnone
      simp only [hlabels, List.map_nil, List.map_eq_nil_iff] at h
      simp [h] at hc
    · rw [calls_setAbsolute h]
      intro hvalid
      exact ⟨rfl, (validate_absolute hvalid).2⟩

end HostParts

end Concord
