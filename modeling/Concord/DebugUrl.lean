import Mathlib.Data.List.TakeWhile
import Concord.Lib.Replace
import Concord.Redaction

/-!
# Concord.DebugUrl

The URLs debug output and errors show (`sanitize_url_for_debug` of
`concord_core/src/redaction.rs`).

A debug URL is built from the pairs of the query, with the values of sensitive
keys replaced, and then searched for the escaped replacement, wherever that
stands.  It still has the same pairs, since the text that is replaced is
decoded to the one that replaces it.
-/

namespace Concord

open FormUrlencoded (utf8Bytes encode)
open Replace (replace)

/-! ## URLs -/

/-- The byte before the query. -/
def questionMark : UInt8 := 0x3F

/-- The byte before the fragment. -/
def hashSign : UInt8 := 0x23

/-- The byte that is serialized as `+`. -/
def spaceByte : UInt8 := 0x20

/-- A `url::Url` with its fragment, as it is serialized.  The path of a URL
that cannot be a base is opaque. -/
structure UrlText where
  base : List UInt8
  cannotBeABase : Bool
  query : Option (List UInt8)
  fragment : Option (List UInt8)
  base_plain : questionMark ∉ base ∧ hashSign ∉ base
  query_plain {text : List UInt8} (h : query = some text) : hashSign ∉ text

namespace UrlText

/-- `query_pairs`. -/
def queryPairs (url : UrlText) : List (String × String) :=
  FormUrlencoded.parse (url.query.getD [])

/-- `to_string`, of the parts. -/
def serialize (base : List UInt8) (query fragment : Option (List UInt8)) : List UInt8 :=
  base ++ (query.map (questionMark :: ·)).getD [] ++ (fragment.map (hashSign :: ·)).getD []

/-- The URL as it is written. -/
def toText (url : UrlText) : List UInt8 := serialize url.base url.query url.fragment

/-- What `set_query(None)` leaves before the query: without a fragment, spaces
at the end of an opaque path go. -/
def baseWithoutQuery (url : UrlText) : List UInt8 :=
  if url.cannotBeABase && url.fragment.isNone then
    (url.base.reverse.dropWhile (· = spaceByte)).reverse
  else url.base

end UrlText

/-- Whether the value of a query key is redacted. -/
def isSensitiveKey (keys : List String) (key : String) : Bool :=
  keys.any (eqIgnoreAsciiCase key) || isSensitiveName key

/-- What is shown of a pair of a query. -/
def shownPair (keys : List String) (pair : String × String) : String × String :=
  if isSensitiveKey keys pair.1 then (pair.1, "<redacted>") else pair

/-- What is replaced. -/
def escapedMark : List UInt8 := utf8Bytes "%3Credacted%3E"

/-- What it is replaced by. -/
def mark : List UInt8 := utf8Bytes "<redacted>"

/-- The URL with the values of sensitive keys marked. -/
def sanitizeUrlForDebug (url : UrlText) (keys : List String) : List UInt8 :=
  match url.query with
  | none => url.toText
  | some _ =>
    let query := url.queryPairs.foldl (fun query pair =>
      if isSensitiveKey keys pair.1 then FormUrlencoded.appendPair query pair.1 "<redacted>"
      else FormUrlencoded.appendPair query pair.1 pair.2) []
    replace escapedMark mark
      (UrlText.serialize url.baseWithoutQuery (some query) url.fragment)

/-- The pairs of the query of a URL, read from its text. -/
def readPairs (text : List UInt8) : List (String × String) :=
  let beforeFragment := text.takeWhile (· ≠ hashSign)
  FormUrlencoded.parse ((beforeFragment.dropWhile (· ≠ questionMark)).drop 1)

/-! ## parts -/

/-- Characters of a form that is serialized. -/
theorem hashSign_notMem_encode (s : String) : hashSign ∉ encode s := by
  intro h
  rcases FormUrlencoded.mem_byteSerialize h with hkept | hplus | hpercent
  · exact absurd hkept (by decide)
  · exact absurd hplus (by decide)
  · exact absurd hpercent (by decide)

/-- A fragment begins with its sign. -/
theorem takeWhile_fragment (fragment : Option (List UInt8)) :
    ((fragment.map (hashSign :: ·)).getD []).takeWhile (· ≠ hashSign) = [] := by
  cases fragment <;> simp

/-- A written URL is read back to the pairs of its query. -/
theorem readPairs_serialize {base : List UInt8} (hbase : questionMark ∉ base ∧ hashSign ∉ base)
    {query : List UInt8} (hquery : hashSign ∉ query) (fragment : Option (List UInt8)) :
    readPairs (UrlText.serialize base (some query) fragment) = FormUrlencoded.parse query := by
  have hbefore : hashSign ∉ base ++ questionMark :: query := by
    simp only [List.mem_append, List.mem_cons, not_or]
    exact ⟨hbase.2, by decide, hquery⟩
  simp only [readPairs, UrlText.serialize, Option.map_some, Option.getD_some]
  rw [List.takeWhile_append_of_pos (FormUrlencoded.decide_ne_of_notMem hbefore),
    takeWhile_fragment, List.append_nil,
    List.dropWhile_append_of_pos (FormUrlencoded.decide_ne_of_notMem hbase.1)]
  simp

/-- Without a query it is read back to none. -/
theorem readPairs_serialize_none {base : List UInt8} (hbase : questionMark ∉ base ∧ hashSign ∉ base)
    (fragment : Option (List UInt8)) : readPairs (UrlText.serialize base none fragment) = [] := by
  have hpath : base.dropWhile (· ≠ questionMark) = [] :=
    List.dropWhile_eq_nil_iff.mpr (FormUrlencoded.decide_ne_of_notMem hbase.1)
  simp only [readPairs, UrlText.serialize, Option.map_none, Option.getD_none, List.append_nil]
  rw [List.takeWhile_append_of_pos (FormUrlencoded.decide_ne_of_notMem hbase.2),
    takeWhile_fragment, List.append_nil, hpath]
  rfl

/-- The base has neither sign. -/
theorem UrlText.baseWithoutQuery_plain (url : UrlText) :
    questionMark ∉ url.baseWithoutQuery ∧ hashSign ∉ url.baseWithoutQuery := by
  have hsubset : ∀ b ∈ url.baseWithoutQuery, b ∈ url.base := by
    intro b hb
    unfold baseWithoutQuery at hb
    split at hb
    · rw [List.mem_reverse] at hb
      exact List.mem_reverse.mp ((List.dropWhile_suffix _).subset hb)
    · exact hb
  exact ⟨fun h => url.base_plain.1 (hsubset _ h), fun h => url.base_plain.2 (hsubset _ h)⟩

/-! ## the replacement -/

/-- The mark as it is escaped in a query. -/
theorem escapedMark_eq : escapedMark = mark.flatMap FormUrlencoded.serializeByte := by
  decide +kernel

/-- The escaped mark is not empty. -/
theorem escapedMark_ne_nil : escapedMark ≠ [] := by decide +kernel

/-- Nor is the mark. -/
theorem mark_ne_nil : mark ≠ [] := by decide +kernel

/-- Nothing that means something in a URL is in either text. -/
theorem marks_plain {separator : UInt8}
    (h : separator ∈ [FormUrlencoded.ampersand, FormUrlencoded.equals, questionMark, hashSign]) :
    separator ∉ escapedMark ∧ separator ∉ mark := by
  simp only [List.mem_cons, List.not_mem_nil, or_false] at h
  rcases h with rfl | rfl | rfl | rfl <;> decide +kernel

/-- Replacing the escaped mark brings in no separator. -/
theorem notMem_replace {separator : UInt8}
    (h : separator ∈ [FormUrlencoded.ampersand, FormUrlencoded.equals, questionMark, hashSign])
    {text : List UInt8} (htext : separator ∉ text) : separator ∉ replace escapedMark mark text := by
  intro hmem
  rcases Replace.mem_replace escapedMark_ne_nil hmem with hmem | hmem
  · exact htext hmem
  · exact (marks_plain h).2 hmem

/-- Only the first byte of an escape is the percent sign. -/
theorem percent_notMem_tail (b : UInt8) :
    FormUrlencoded.percent ∉ (FormUrlencoded.serializeByte b).tail := by
  unfold FormUrlencoded.serializeByte
  split
  · simp
  · split
    · simp
    · obtain ⟨hhigh, hlow, _⟩ := FormUrlencoded.nibbles b
      have hdigit {n : Nat} (h : n < 16) : FormUrlencoded.percent ≠ FormUrlencoded.hexDigit n :=
        fun heq => (FormUrlencoded.isUnreserved_plain
          (FormUrlencoded.isUnreserved_hexDigit h)).2.2.2 heq.symm
      simp [hdigit hhigh, hdigit hlow]

/-- What is replaced in a component is decoded to the same text. -/
theorem decode_replace_encode (s : String) :
    FormUrlencoded.decode (replace escapedMark mark (encode s)) = s := by
  have hall : mark.all (fun b => b ≠ FormUrlencoded.plus ∧ b ≠ FormUrlencoded.percent) = true := by
    decide +kernel
  have hmark : ∀ b ∈ mark, b ≠ FormUrlencoded.plus ∧ b ≠ FormUrlencoded.percent := by
    simpa using hall
  have hbytes : FormUrlencoded.decodeBytes (replace escapedMark mark (encode s)) = utf8Bytes s := by
    rw [escapedMark_eq]
    exact Replace.decode_replace FormUrlencoded.decodeBytes_serializeByte rfl mark_ne_nil
      (by decide +kernel) percent_notMem_tail
      (fun rest => FormUrlencoded.decodeBytes_append hmark rest) (utf8Bytes s)
  rw [FormUrlencoded.decode, hbytes, FormUrlencoded.fromUtf8Lossy_utf8Bytes]

/-- A replacement stops at a separator. -/
theorem replace_append_separator {separator : UInt8}
    (h : separator ∈ [FormUrlencoded.ampersand, FormUrlencoded.equals, questionMark, hashSign])
    (text rest : List UInt8) :
    replace escapedMark mark (text ++ separator :: rest) =
      replace escapedMark mark text ++ separator :: replace escapedMark mark rest :=
  Replace.replace_append_cons escapedMark_ne_nil (marks_plain h).1 text rest

/-- A pair stays the last one. -/
theorem parse_replace_appendPair (query : List UInt8) (name value : String) :
    FormUrlencoded.parse (replace escapedMark mark (FormUrlencoded.appendPair query name value)) =
      FormUrlencoded.parse (replace escapedMark mark query) ++ [(name, value)] := by
  have hplain {separator : UInt8}
      (h : separator ∈ [FormUrlencoded.ampersand, FormUrlencoded.equals]) (s : String) :
      separator ∉ replace escapedMark mark (encode s) := by
    apply notMem_replace (by simp only [List.mem_cons] at h ⊢; tauto)
    intro hmem
    have hencoded := FormUrlencoded.byteSerialize_plain hmem
    simp only [List.mem_cons, List.not_mem_nil, or_false] at h
    rcases h with rfl | rfl
    · exact hencoded.1 rfl
    · exact hencoded.2 rfl
  have hpair : replace escapedMark mark (FormUrlencoded.appendPair query name value) =
      (if replace escapedMark mark query = [] then []
        else replace escapedMark mark query ++ [FormUrlencoded.ampersand]) ++
      (replace escapedMark mark (encode name) ++
        FormUrlencoded.equals :: replace escapedMark mark (encode value)) := by
    rw [FormUrlencoded.appendPair]
    by_cases hquery : query = []
    · simp [hquery, replace_append_separator]
    · have hne : replace escapedMark mark query ≠ [] := fun hnil =>
        hquery ((Replace.replace_eq_nil_iff escapedMark_ne_nil mark_ne_nil).mp hnil)
      rw [if_neg hquery, if_neg hne, List.append_assoc, List.singleton_append,
        replace_append_separator (by simp), replace_append_separator (by simp), List.append_assoc,
        List.singleton_append]
  rw [hpair, FormUrlencoded.parse_append_sequence _ (hplain (by simp) name) (hplain (by simp) name)
    (hplain (by simp) value), decode_replace_encode, decode_replace_encode]

/-! ## debug URLs -/

/-- The query that is shown, from the pairs that are shown. -/
def shownQuery (pairs : List (String × String)) : List UInt8 :=
  pairs.foldl (fun query pair => FormUrlencoded.appendPair query pair.1 pair.2) []

/-- The URL that is shown, where there is a query. -/
theorem sanitizeUrlForDebug_some (url : UrlText) (keys : List String) (h : url.query.isSome) :
    sanitizeUrlForDebug url keys = replace escapedMark mark (UrlText.serialize
      url.baseWithoutQuery (some (shownQuery (url.queryPairs.map (shownPair keys))))
      url.fragment) := by
  obtain ⟨query, hquery⟩ := Option.isSome_iff_exists.mp h
  have hstep : (fun (query : List UInt8) (pair : String × String) =>
      if isSensitiveKey keys pair.1 then FormUrlencoded.appendPair query pair.1 "<redacted>"
      else FormUrlencoded.appendPair query pair.1 pair.2) =
      fun query pair => FormUrlencoded.appendPair query (shownPair keys pair).1
        (shownPair keys pair).2 := by
    funext query pair
    unfold shownPair
    split <;> rfl
  simp only [sanitizeUrlForDebug, hquery]
  rw [hstep, shownQuery, List.foldl_map]

/-- The query that is shown is read back to the pairs shown. -/
theorem parse_replace_shownQuery (pairs : List (String × String)) :
    FormUrlencoded.parse (replace escapedMark mark (shownQuery pairs)) = pairs := by
  have hfold (query : List UInt8) : FormUrlencoded.parse (replace escapedMark mark
      (pairs.foldl (fun query pair => FormUrlencoded.appendPair query pair.1 pair.2) query)) =
      FormUrlencoded.parse (replace escapedMark mark query) ++ pairs := by
    induction pairs generalizing query with
    | nil => simp
    | cons pair pairs ih =>
        rw [List.foldl_cons, ih, parse_replace_appendPair, List.append_assoc,
          List.singleton_append]
  rw [shownQuery, hfold]
  rfl

/-- It has no sign of a fragment. -/
theorem hashSign_notMem_shownQuery (pairs : List (String × String)) :
    hashSign ∉ shownQuery pairs := by
  have hfold (query : List UInt8) (hquery : hashSign ∉ query) : hashSign ∉
      pairs.foldl (fun query pair => FormUrlencoded.appendPair query pair.1 pair.2) query := by
    induction pairs generalizing query with
    | nil => exact hquery
    | cons pair pairs ih =>
        apply ih
        have hsequence : hashSign ∉ encode pair.1 ++ FormUrlencoded.equals :: encode pair.2 := by
          simp only [List.mem_append, List.mem_cons, not_or]
          exact ⟨hashSign_notMem_encode pair.1, by decide, hashSign_notMem_encode pair.2⟩
        show hashSign ∉ FormUrlencoded.appendPair query pair.1 pair.2
        unfold FormUrlencoded.appendPair
        rw [List.mem_append, not_or]
        refine ⟨?_, hsequence⟩
        split
        · simp
        · simp only [List.mem_append, List.mem_singleton, not_or]
          exact ⟨hquery, by decide⟩
  exact hfold [] (by simp)

/-- Replacing in a URL is replacing in each of its parts. -/
theorem replace_serialize (base query : List UInt8) (fragment : Option (List UInt8)) :
    replace escapedMark mark (UrlText.serialize base (some query) fragment) =
      UrlText.serialize (replace escapedMark mark base) (some (replace escapedMark mark query))
        (fragment.map (replace escapedMark mark)) := by
  cases fragment with
  | none => simp [UrlText.serialize, replace_append_separator]
  | some text =>
      simp only [UrlText.serialize, Option.map_some, Option.getD_some]
      rw [replace_append_separator (by simp), replace_append_separator (by simp)]

/-- The same key, and the same value unless the key is sensitive. -/
def SamePair (keys : List String) (p q : String × String) : Prop :=
  p.1 = q.1 ∧ (isSensitiveKey keys p.1 = false → p.2 = q.2)

/-- Equal but for the values of sensitive keys. -/
structure SameButSecrets (keys : List String) (a b : UrlText) : Prop where
  base : a.base = b.base
  cannotBeABase : a.cannotBeABase = b.cannotBeABase
  fragment : a.fragment = b.fragment
  query : a.query.isSome = b.query.isSome
  pairs : List.Forall₂ (SamePair keys) a.queryPairs b.queryPairs

/-- Pairs that differ in sensitive values only are shown alike. -/
theorem map_shownPair {keys : List String} {ps qs : List (String × String)}
    (h : List.Forall₂ (SamePair keys) ps qs) :
    ps.map (shownPair keys) = qs.map (shownPair keys) := by
  induction h with
  | nil => rfl
  | @cons p q _ _ hpair _ ih =>
      obtain ⟨hkey, hvalue⟩ := hpair
      have hshown : shownPair keys p = shownPair keys q := by
        unfold shownPair
        rw [hkey] at hvalue ⊢
        split
        · rfl
        · next hsensitive =>
            rw [Bool.not_eq_true] at hsensitive
            exact Prod.ext hkey (hvalue hsensitive)
      rw [List.map_cons, List.map_cons, hshown, ih]

/-- Debug URLs do not depend on secrets, and they have all the pairs, the
values of sensitive keys apart. -/
theorem debug_url_without_secrets (keys : List String) :
    (∀ a b : UrlText, SameButSecrets keys a b →
      sanitizeUrlForDebug a keys = sanitizeUrlForDebug b keys) ∧
    ∀ url : UrlText,
      readPairs (sanitizeUrlForDebug url keys) = url.queryPairs.map (shownPair keys) := by
  refine ⟨?_, ?_⟩
  · intro a b h
    cases hquery : a.query with
    | none =>
        have hnone : b.query = none := by
          have hsome := h.query
          rw [hquery, Option.isSome_none, eq_comm, Option.isSome_eq_false_iff,
            Option.isNone_iff_eq_none] at hsome
          exact hsome
        simp only [sanitizeUrlForDebug, hquery, hnone, UrlText.toText, h.base, h.fragment]
    | some query =>
        have ha : a.query.isSome := by rw [hquery]; rfl
        have hbase : a.baseWithoutQuery = b.baseWithoutQuery := by
          rw [UrlText.baseWithoutQuery, UrlText.baseWithoutQuery, h.base, h.cannotBeABase,
            h.fragment]
        rw [sanitizeUrlForDebug_some a keys ha, sanitizeUrlForDebug_some b keys (h.query ▸ ha),
          map_shownPair h.pairs, hbase, h.fragment]
  · intro url
    cases hquery : url.query with
    | none =>
        have hempty : url.queryPairs = [] := by
          rw [UrlText.queryPairs, hquery]
          rfl
        simp only [sanitizeUrlForDebug, hquery, UrlText.toText, hempty, List.map_nil]
        exact readPairs_serialize_none url.base_plain url.fragment
    | some query =>
        have hbase := url.baseWithoutQuery_plain
        rw [sanitizeUrlForDebug_some url keys (by rw [hquery]; rfl), replace_serialize,
          readPairs_serialize, parse_replace_shownQuery]
        · exact ⟨notMem_replace (by simp) hbase.1, notMem_replace (by simp) hbase.2⟩
        · exact notMem_replace (by simp) (hashSign_notMem_shownQuery _)

end Concord
