import Concord.HeaderOwnership

/-!
# Concord.Redaction

The names whose values debug output and errors do not show, and what they
show of headers (`concord_core/src/redaction.rs`).

The names whose values are redacted and the names of headers that are taken
for credentials are two lists with rules of their own.  Names with `password`
or `auth`, or with both `api` and `key`, are taken for credentials but are
redacted only if another rule applies (`credential_headers_redacted_iff`).
-/

namespace Concord

open FormUrlencoded (utf8Bytes)

/-! ## names -/

/-- The names that are sensitive as they are. -/
def sensitiveNames : List String :=
  ["authorization", "proxy-authorization", "cookie", "set-cookie", "www-authenticate", "x-api-key",
    "x-api-token", "x-auth-token", "x-access-token", "x-refresh-token", "x-session-token",
    "access_token", "refresh_token", "api_key", "apikey", "key", "token", "secret", "password",
    "auth"]

/-- A name is sensitive by itself or by a part of it. -/
def isSensitiveName (name : String) : Bool :=
  sensitiveNames.any (eqIgnoreAsciiCase name) ||
    containsIgnoreAsciiCase name "token" ||
    containsIgnoreAsciiCase name "secret" ||
    containsIgnoreAsciiCase name "api-key" ||
    containsIgnoreAsciiCase name "apikey" ||
    containsIgnoreAsciiCase name "session" ||
    containsIgnoreAsciiCase name "credential" ||
    containsIgnoreAsciiCase name "authorization" ||
    endsWithIgnoreAsciiCase name "_key" ||
    endsWithIgnoreAsciiCase name "-key"

/-! ## headers -/

/-- A header with a sensitive name is redacted. -/
def shouldRedactHeaderName (name : HeaderName) : Bool := isSensitiveName name

/-- `HeaderValue::from_static("<redacted>")`. -/
def redactedValue : HeaderValue := utf8Bytes "<redacted>"

/-- The headers with sensitive values redacted. -/
def sanitizeHeaderMap (headers : HeaderMap) : HeaderMap :=
  headers.entries.foldl (fun sanitized (name, value) =>
    if shouldRedactHeaderName name then sanitized.append name redactedValue
    else sanitized.append name value) .empty

/-- What is shown of a value of a header. -/
def shownValue (name : HeaderName) (value : HeaderValue) : HeaderValue :=
  if shouldRedactHeaderName name then redactedValue else value

/-- Every header is kept, with the value that may be shown. -/
theorem entries_sanitizeHeaderMap (headers : HeaderMap) :
    (sanitizeHeaderMap headers).entries =
      headers.entries.map fun (name, value) => (name, shownValue name value) := by
  have hfold (entries : List (HeaderName × HeaderValue)) (shown : HeaderMap) :
      (entries.foldl (fun sanitized (name, value) =>
        if shouldRedactHeaderName name then sanitized.append name redactedValue
        else sanitized.append name value) shown).entries =
        shown.entries ++ entries.map fun (name, value) => (name, shownValue name value) := by
    induction entries generalizing shown with
    | nil => simp
    | cons entry entries ih =>
        obtain ⟨name, value⟩ := entry
        rw [List.foldl_cons, ih]
        cases hname : shouldRedactHeaderName name <;>
          simp [shownValue, hname, Multimap.append]
  rw [sanitizeHeaderMap, hfold]
  rfl

/-- So are the values of one name. -/
theorem getAll_sanitizeHeaderMap (headers : HeaderMap) (name : HeaderName) :
    (sanitizeHeaderMap headers).getAll name = (headers.getAll name).map (shownValue name) := by
  rw [Multimap.getAll, entries_sanitizeHeaderMap, Multimap.getAll]
  induction headers.entries with
  | nil => rfl
  | cons entry entries ih =>
      obtain ⟨found, value⟩ := entry
      by_cases hfound : found = name
      · simp [hfound] at ih ⊢
        exact ih
      · simp [hfound] at ih ⊢
        exact ih

/-! ## credentials -/

/-- Names that say what a header is for, in part or in whole. -/
def namesSecret (name : String) : Bool :=
  containsIgnoreAsciiCase name "password" || containsIgnoreAsciiCase name "auth" ||
    (containsIgnoreAsciiCase name "api" && containsIgnoreAsciiCase name "key")

/-- Names for which the two lists agree. -/
def redactionCovers (name : String) : Bool :=
  !namesSecret name ||
    ["password", "auth", "www-authenticate", "proxy-authenticate"].any (eqIgnoreAsciiCase name) ||
    ["token", "secret", "api-key", "apikey", "session", "credential", "authorization"].any
      (containsIgnoreAsciiCase name) ||
    ["_key", "-key"].any (endsWithIgnoreAsciiCase name)

section
variable {a b : String} (h : eqIgnoreAsciiCase a b = true)
include h

/-- Names that differ in case only have the same parts. -/
theorem containsIgnoreAsciiCase_congr (needle : String) :
    containsIgnoreAsciiCase a needle = containsIgnoreAsciiCase b needle := by
  have heq : a.toLower = b.toLower := of_decide_eq_true h
  have hlength : a.length = b.length := by
    have hlower := congrArg (fun s : String => s.toList.length) heq
    simpa [toList_toLower, String.length_toList] using hlower
  rw [containsIgnoreAsciiCase, containsIgnoreAsciiCase, heq, hlength]

/-- And end alike. -/
theorem endsWithIgnoreAsciiCase_congr (needle : String) :
    endsWithIgnoreAsciiCase a needle = endsWithIgnoreAsciiCase b needle := by
  have heq : a.toLower = b.toLower := of_decide_eq_true h
  rw [endsWithIgnoreAsciiCase, endsWithIgnoreAsciiCase, heq]

/-- And are equal to the same. -/
theorem eqIgnoreAsciiCase_congr : eqIgnoreAsciiCase a = eqIgnoreAsciiCase b := by
  have heq : a.toLower = b.toLower := of_decide_eq_true h
  funext c
  rw [eqIgnoreAsciiCase, eqIgnoreAsciiCase, heq]

/-- So they are sensitive alike. -/
theorem isSensitiveName_congr : isSensitiveName a = isSensitiveName b := by
  simp only [isSensitiveName, containsIgnoreAsciiCase_congr h, endsWithIgnoreAsciiCase_congr h,
    eqIgnoreAsciiCase_congr h]

/-- Name a secret alike. -/
theorem namesSecret_congr : namesSecret a = namesSecret b := by
  simp only [namesSecret, containsIgnoreAsciiCase_congr h]

/-- And are covered alike. -/
theorem redactionCovers_congr : redactionCovers a = redactionCovers b := by
  have hcontains : containsIgnoreAsciiCase a = containsIgnoreAsciiCase b :=
    funext (containsIgnoreAsciiCase_congr h)
  have hends : endsWithIgnoreAsciiCase a = endsWithIgnoreAsciiCase b :=
    funext (endsWithIgnoreAsciiCase_congr h)
  rw [redactionCovers, redactionCovers, namesSecret_congr h, eqIgnoreAsciiCase_congr h, hcontains,
    hends]

end

/-- A name that is listed has what holds of all listed names. -/
theorem of_any_eqIgnoreAsciiCase {listed : List String} {name : String} {p : String → Bool}
    (hcongr : ∀ {a b : String}, eqIgnoreAsciiCase a b = true → p a = p b)
    (hlisted : listed.all p = true) (h : listed.any (eqIgnoreAsciiCase name) = true) :
    p name = true := by
  obtain ⟨found, hfound, heq⟩ := List.any_eq_true.mp h
  rw [hcongr heq]
  exact List.all_eq_true.mp hlisted found hfound

/-- A covered name of a credential is sensitive. -/
theorem isSensitiveName_of_redactionCovers {name : String} (hcovers : redactionCovers name = true)
    (hcredential : isCredentialBearingHeaderName name = true) : isSensitiveName name = true := by
  simp only [isCredentialBearingHeaderName] at hcredential
  split at hcredential
  · contradiction
  split at hcredential
  · contradiction
  next _ hexcluded =>
    -- the rules that are not rules for sensitive names
    have hsecret : namesSecret name = true → isSensitiveName name = true := by
      intro hsecret
      simp only [redactionCovers, hsecret, Bool.not_true, Bool.false_or, Bool.or_eq_true,
        List.any_cons, List.any_nil, Bool.or_false] at hcovers
      rcases hcovers with ((hname | hname | hname | hname) |
        (hname | hname | hname | hname | hname | hname | hname)) | hname | hname
      case inl.inl.inr.inr.inr => exact absurd (by simp [hname]) hexcluded
      all_goals simp [isSensitiveName, sensitiveNames, hname]
    have hlisted : credentialHeaderNames.all isSensitiveName = true := by decide +kernel
    simp only [Bool.or_eq_true, Bool.and_eq_true] at hcredential
    rcases hcredential with ((((((((hname | hname) | hname) | hname) | hname) | hname) | hname) |
      ⟨hapi, hname | hname⟩) | hname) | hname
    · exact of_any_eqIgnoreAsciiCase isSensitiveName_congr hlisted hname
    · simp [isSensitiveName, hname]
    · simp [isSensitiveName, hname]
    · simp [isSensitiveName, hname]
    · exact hsecret (by simp [namesSecret, hname])
    · simp [isSensitiveName, hname]
    · exact hsecret (by simp [namesSecret, hname])
    · exact hsecret (by simp [namesSecret, hapi, hname])
    · simp [isSensitiveName, hname]
    · simp [isSensitiveName, hname]
    · simp [isSensitiveName, hname]

/-- A name that is sensitive whenever it bears a credential is covered. -/
theorem redactionCovers_of_isSensitiveName {name : String}
    (h : isCredentialBearingHeaderName name = true → isSensitiveName name = true) :
    redactionCovers name = true := by
  by_cases hsecret : namesSecret name = true
  · by_cases hcredential : isCredentialBearingHeaderName name = true
    · have hsensitive := h hcredential
      have hlisted : sensitiveNames.all redactionCovers = true := by decide +kernel
      simp only [isSensitiveName, Bool.or_eq_true] at hsensitive
      rcases hsensitive with ((((((((hname | hname) | hname) | hname) | hname) | hname) | hname) |
        hname) | hname) | hname
      · exact of_any_eqIgnoreAsciiCase redactionCovers_congr hlisted hname
      all_goals simp [redactionCovers, hname]
    · simp only [isCredentialBearingHeaderName] at hcredential
      split at hcredential
      · next hidentity =>
          have hlisted : requestIdentityHeaders.all redactionCovers = true := by decide +kernel
          exact of_any_eqIgnoreAsciiCase redactionCovers_congr hlisted hidentity
      split at hcredential
      · next _ hexcluded =>
          exact of_any_eqIgnoreAsciiCase redactionCovers_congr (by decide +kernel) hexcluded
      · simp only [namesSecret, Bool.or_eq_true, Bool.and_eq_true] at hsecret
        exfalso
        rcases hsecret with (hname | hname) | ⟨hapi, hkey⟩
        · simp [hname] at hcredential
        · simp [hname] at hcredential
        · simp [hapi, hkey] at hcredential
  · simp [redactionCovers, hsecret]

/-- Headers that are taken for credentials are redacted exactly if no rule for
credentials is missing among those for sensitive names; names and the other
values are kept whatever the names are. -/
theorem credential_headers_redacted_iff (name : HeaderName) :
    ((isCredentialBearingHeaderName name = true → isSensitiveName name = true ∧
        ∀ headers : HeaderMap, (sanitizeHeaderMap headers).getAll name =
          List.replicate (headers.getAll name).length redactedValue) ↔
      redactionCovers name = true) ∧
    ∀ headers : HeaderMap,
      (sanitizeHeaderMap headers).entries.map Prod.fst = headers.entries.map Prod.fst ∧
      ((sanitizeHeaderMap headers).getAll name).length = (headers.getAll name).length ∧
      (isSensitiveName name = false →
        (sanitizeHeaderMap headers).getAll name = headers.getAll name) := by
  refine ⟨⟨?_, ?_⟩, ?_⟩
  · intro h
    exact redactionCovers_of_isSensitiveName fun hcredential => (h hcredential).1
  · intro hcovers hcredential
    have hsensitive := isSensitiveName_of_redactionCovers hcovers hcredential
    refine ⟨hsensitive, fun headers => ?_⟩
    have hshown : shownValue name = fun _ => redactedValue := by
      funext value
      simp [shownValue, shouldRedactHeaderName, hsensitive]
    rw [getAll_sanitizeHeaderMap, hshown, List.map_const']
  · intro headers
    refine ⟨?_, ?_, ?_⟩
    · rw [entries_sanitizeHeaderMap, List.map_map]
      rfl
    · rw [getAll_sanitizeHeaderMap, List.length_map]
    · intro hsensitive
      have hshown : shownValue name = id := by
        funext value
        simp [shownValue, shouldRedactHeaderName, hsensitive]
      rw [getAll_sanitizeHeaderMap, hshown, List.map_id]

/-- The value of a header for a password is shown. -/
theorem credential_header_shown :
    ¬ (isCredentialBearingHeaderName "x-password" = true → isSensitiveName "x-password" = true) ∧
      (sanitizeHeaderMap ⟨[("x-password", utf8Bytes "hunter2")]⟩).getAll "x-password" =
        [utf8Bytes "hunter2"] := by
  have hcredential : isCredentialBearingHeaderName "x-password" = true := by decide +kernel
  have hsensitive : isSensitiveName "x-password" = false := by decide +kernel
  refine ⟨?_, ?_⟩
  · rw [hsensitive]
    intro h
    exact Bool.false_ne_true (h hcredential)
  · rw [getAll_sanitizeHeaderMap]
    simp [Multimap.getAll, shownValue, shouldRedactHeaderName, hsensitive]

end Concord
