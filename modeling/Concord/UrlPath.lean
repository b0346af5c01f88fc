import Concord.Lib.PercentEncoding
import Concord.Lib.Segments
import Concord.Sema.Items

/-!
# Concord.UrlPath

The path of a route (`UrlPath` of `concord_core/src/types.rs`).

Literals are pushed as they are, values are pushed as one encoded segment.
Both go through `push_raw`, which joins with one slash: it drops a slash at the
end of the path, and puts one before the piece if it has none
(`pushRaw_inner`).
-/

namespace Concord

open PercentEncoding (encode)
open Segments (chop push)

/-- The characters of the path. -/
structure UrlPath where
  inner : List Char
  deriving DecidableEq, Repr

namespace UrlPath

/-- The path `/`. -/
def new : UrlPath := ⟨['/']⟩

/-- The path before anything was pushed. -/
def default : UrlPath := ⟨[]⟩

/-- The path as it is put into a URL. -/
def asStr (path : UrlPath) : List Char := if path.inner.isEmpty then ['/'] else path.inner

/-- A piece is pushed with one slash before it and none after. -/
def pushRaw (path : UrlPath) (piece : String) : UrlPath :=
  let piece := Sema.trim piece.toList
  if piece.isEmpty || piece = ['/'] then path
  else
    let inner :=
      if path.inner.isEmpty then ['/']
      else if path.inner.head? = some '/' then path.inner
      else '/' :: path.inner
    let inner :=
      match decide (inner.getLast? = some '/'), decide (piece.head? = some '/') with
      | true, true => inner.dropLast ++ piece
      | false, false => inner ++ '/' :: piece
      | _, _ => inner ++ piece
    -- no slash at the end, but for the root
    ⟨if inner.length > 1 && inner.getLast? = some '/' then inner.dropLast else inner⟩

/-- RFC 3986 "unreserved". -/
def unreserved (b : UInt8) : Bool :=
  (0x41 ≤ b && b ≤ 0x5A) || (0x61 ≤ b && b ≤ 0x7A) || (0x30 ≤ b && b ≤ 0x39) || b = 0x2D ||
    b = 0x2E || b = 0x5F || b = 0x7E

/-- A segment with every byte but the unreserved ones encoded. -/
def percentEncodePathSegment (seg : String) : List Char := encode unreserved seg

/-- A segment is pushed encoded; an empty one or a lone slash is not pushed. -/
def pushSegmentEncoded (path : UrlPath) (seg : String) : UrlPath :=
  if seg = "" || seg = "/" then path
  else path.pushRaw (String.ofList (percentEncodePathSegment seg))

/-- A segment is pushed as it stands. -/
def pushSegment (path : UrlPath) (seg : String) : UrlPath := path.pushRaw seg

/-- `push_display`, with the text of the value. -/
def pushDisplay (path : UrlPath) (text : String) : UrlPath := path.pushRaw text

/-- The paths there are. -/
inductive Reachable : UrlPath → Prop
  | new : Reachable new
  | default : Reachable default
  | pushRaw {path : UrlPath} (h : Reachable path) (piece : String) : Reachable (path.pushRaw piece)
  | pushSegmentEncoded {path : UrlPath} (h : Reachable path) (seg : String) :
      Reachable (path.pushSegmentEncoded seg)
  | pushSegment {path : UrlPath} (h : Reachable path) (seg : String) :
      Reachable (path.pushSegment seg)
  | pushDisplay {path : UrlPath} (h : Reachable path) (text : String) :
      Reachable (path.pushDisplay text)

/-! ## encoded segments -/

/-- The percent sign is not unreserved. -/
theorem unreserved_percent : unreserved FormUrlencoded.percent = false := by decide

/-- Unreserved bytes are ASCII. -/
theorem unreserved_lt {b : UInt8} (h : unreserved b = true) : b < 0x80 := by
  simp only [unreserved, Bool.or_eq_true, Bool.and_eq_true, decide_eq_true_eq,
    UInt8.le_iff_toNat_le, UInt8.lt_iff_toNat_lt, ← UInt8.toNat_inj, UInt8.reduceToNat] at h ⊢
  omega

/-- An encoded segment is decoded to itself. -/
theorem decode_percentEncodePathSegment (seg : String) :
    PercentEncoding.decode (percentEncodePathSegment seg) = seg :=
  PercentEncoding.decode_encode (fun _ h => unreserved_lt h) unreserved_percent seg

/-- So no two segments are encoded alike. -/
theorem percentEncodePathSegment_inj {a b : String}
    (h : percentEncodePathSegment a = percentEncodePathSegment b) : a = b :=
  PercentEncoding.encode_inj (fun _ h => unreserved_lt h) unreserved_percent h

/-- The digits of an encoded byte are unreserved. -/
theorem unreserved_hexDigit {n : Nat} (h : n < 16) :
    unreserved (FormUrlencoded.hexDigit n) = true := by
  have hall : ∀ n : Fin 16, unreserved (FormUrlencoded.hexDigit n) = true := by decide
  exact hall ⟨n, h⟩

/-- An unreserved byte is neither blank nor a slash. -/
theorem ofUInt8_unreserved {b : UInt8} (h : unreserved b = true) :
    Sema.isWhitespace (Char.ofUInt8 b) = false ∧ Char.ofUInt8 b ≠ '/' := by
  have hnat : (Char.ofUInt8 b).toNat = b.toNat := PercentEncoding.toNat_ofUInt8 b
  simp only [unreserved, Bool.or_eq_true, Bool.and_eq_true, decide_eq_true_eq,
    UInt8.le_iff_toNat_le, ← UInt8.toNat_inj, UInt8.reduceToNat] at h
  constructor
  · simp only [Sema.isWhitespace, hnat]
    simp
    omega
  · intro heq
    have hslash := congrArg Char.toNat heq
    rw [hnat] at hslash
    simp at hslash
    omega

/-- There are no slashes in an encoded segment, and nothing to trim. -/
theorem mem_percentEncodePathSegment {seg : String} {c : Char}
    (h : c ∈ percentEncodePathSegment seg) : Sema.isWhitespace c = false ∧ c ≠ '/' := by
  have hencoded := PercentEncoding.encoded_encode unreserved seg
  rcases PercentEncoding.mem_of_encoded (fun _ hn => unreserved_hexDigit hn) hencoded h with
    rfl | ⟨b, hb, rfl⟩
  · decide
  · exact ofUInt8_unreserved hb

/-- An encoded segment has no slash. -/
theorem notMem_percentEncodePathSegment (seg : String) : '/' ∉ percentEncodePathSegment seg :=
  fun h => (mem_percentEncodePathSegment h).2 rfl

/-- Nothing is trimmed from a text without blanks. -/
theorem trim_of_isWhitespace {text : List Char} (h : ∀ c ∈ text, Sema.isWhitespace c = false) :
    Sema.trim text = text := by
  have hdrop {text : List Char} (h : ∀ c ∈ text, Sema.isWhitespace c = false) :
      text.dropWhile Sema.isWhitespace = text := by
    cases text with
    | nil => rfl
    | cons c text => simp [h c]
  have hreverse : ∀ c ∈ text.reverse, Sema.isWhitespace c = false := by simpa using h
  rw [Sema.trim, hdrop h, hdrop hreverse, List.reverse_reverse]

/-! ## joining -/

/-- A piece that is left out. -/
def ignored (piece : List Char) : Bool := piece.isEmpty || piece = ['/']

/-- A slash before the piece, and none after it. -/
def chunk (piece : List Char) : List Char :=
  chop '/' (if piece.head? = some '/' then piece else '/' :: piece)

/-- The four ways to join. -/
theorem join_slashes (inner piece : List Char) :
    (match decide (inner.getLast? = some '/'), decide (piece.head? = some '/') with
      | true, true => inner.dropLast ++ piece
      | false, false => inner ++ '/' :: piece
      | _, _ => inner ++ piece) =
      chop '/' inner ++ (if piece.head? = some '/' then piece else '/' :: piece) := by
  by_cases hleft : inner.getLast? = some '/' <;> by_cases hright : piece.head? = some '/'
  · simp [chop, hleft, hright]
  · have hlast : inner = inner.dropLast ++ ['/'] := (List.dropLast_append_getLast? '/' hleft).symm
    simp only [hleft, hright, decide_true, decide_false, chop, if_true, if_false]
    nth_rewrite 1 [hlast]
    simp
  · simp [chop, hleft, hright]
  · simp [chop, hleft, hright]

/-- A piece with its slash is longer than the slash. -/
theorem length_slashed {piece : List Char} (h : ignored piece = false) :
    1 < (if piece.head? = some '/' then piece else '/' :: piece).length := by
  simp only [ignored, Bool.or_eq_false_iff, List.isEmpty_eq_false_iff,
    decide_eq_false_iff_not] at h
  have hpos : 0 < piece.length := List.length_pos_iff.mpr h.1
  split
  · next hhead =>
      cases piece with
      | nil => simp at hhead
      | cons c rest =>
          have hc : c = '/' := by simpa using hhead
          cases rest with
          | nil => simp [hc] at h
          | cons => simp
  · simp only [List.length_cons]
    omega

/-- A path that ends in a slash loses it. -/
theorem trailing_slash {inner : List Char} (h : 1 < inner.length) :
    (if inner.length > 1 && inner.getLast? = some '/' then inner.dropLast else inner) =
      chop '/' inner := by
  unfold chop
  simp [h]

/-- `push_raw` on paths that are empty or start with a slash: whichever of the
two slashes there are, one is left. -/
theorem pushRaw_inner {path : UrlPath} (hpath : path.inner = [] ∨ path.inner.head? = some '/')
    (piece : String) :
    (path.pushRaw piece).inner =
      if ignored (Sema.trim piece.toList) then path.inner
      else push '/' path.inner (chunk (Sema.trim piece.toList)) := by
  simp only [pushRaw]
  by_cases hignored : ignored (Sema.trim piece.toList) = true
  · have hcheck := hignored
    unfold ignored at hcheck
    rw [if_pos hignored, if_pos hcheck]
  · have hcheck := hignored
    unfold ignored at hcheck
    rw [if_neg hignored, if_neg hcheck]
    have hlength := length_slashed (Bool.not_eq_true _ ▸ hignored)
    have hrooted : chop '/' (if path.inner.isEmpty then ['/']
        else if path.inner.head? = some '/' then path.inner else '/' :: path.inner) =
          chop '/' path.inner := by
      rcases hpath with hnil | hhead
      · simp [hnil]
      · cases hinner : path.inner with
        | nil => simp [hinner] at hhead
        | cons c rest =>
            rw [hinner] at hhead
            simp [hhead]
    rw [join_slashes, hrooted]
    generalize hslashed : (if (Sema.trim piece.toList).head? = some '/' then
      Sema.trim piece.toList else '/' :: Sema.trim piece.toList) = slashed at hlength
    have hne : slashed ≠ [] := by
      rintro rfl
      simp at hlength
    have hlong : 1 < (chop '/' path.inner ++ slashed).length := by
      rw [List.length_append]
      omega
    rw [push, chunk, hslashed, ← Segments.chop_append hne, trailing_slash hlong]

/-- A piece is pushed with a slash before it. -/
theorem head?_chunk {piece : List Char} (h : ignored piece = false) :
    (chunk piece).head? = some '/' := by
  unfold chunk
  refine Segments.head?_chop_of_length ?_ (length_slashed h)
  split
  · next hhead => exact hhead
  · rfl

/-- A path that begins with a slash does so after a push. -/
theorem pushRaw_rooted {path : UrlPath} (h : path.inner = [] ∨ path.inner.head? = some '/')
    (piece : String) :
    (path.pushRaw piece).inner = [] ∨ (path.pushRaw piece).inner.head? = some '/' := by
  rw [pushRaw_inner h]
  split
  · exact h
  · next hignored =>
      rw [Bool.not_eq_true] at hignored
      exact .inr (Segments.head?_push h (head?_chunk hignored))

/-- Every path that is built begins with a slash or is empty. -/
theorem Reachable.rooted {path : UrlPath} (h : path.Reachable) :
    path.inner = [] ∨ path.inner.head? = some '/' := by
  induction h with
  | new => exact .inr rfl
  | default => exact .inl rfl
  | pushRaw _ piece ih => exact pushRaw_rooted ih piece
  | pushSegmentEncoded _ seg ih =>
      unfold UrlPath.pushSegmentEncoded
      split
      · exact ih
      · exact pushRaw_rooted ih _
  | pushSegment _ seg ih => exact pushRaw_rooted ih seg
  | pushDisplay _ text ih => exact pushRaw_rooted ih text

/-- In a URL every path begins with a slash. -/
theorem Reachable.head?_asStr {path : UrlPath} (h : path.Reachable) :
    path.asStr.head? = some '/' := by
  unfold asStr
  rcases h.rooted with hnil | hhead
  · simp [hnil]
  · split
    · rfl
    · exact hhead

/-- A slash at the end is chopped in a URL as in the path. -/
theorem chop_asStr (path : UrlPath) : chop '/' path.asStr = chop '/' path.inner := by
  unfold asStr
  split
  · next hempty =>
      rw [List.isEmpty_iff.mp hempty]
      simp
  · rfl

/-- A path that is not empty is put into a URL as it stands. -/
theorem asStr_of_ne_nil {path : UrlPath} (h : path.inner ≠ []) : path.asStr = path.inner := by
  unfold asStr
  rw [if_neg]
  simpa using h

/-- What a push does to the path of the URL. -/
theorem pushRaw_asStr {path : UrlPath} (hpath : path.Reachable) (piece : String) :
    (path.pushRaw piece).asStr =
      if ignored (Sema.trim piece.toList) then path.asStr
      else push '/' path.asStr (chunk (Sema.trim piece.toList)) := by
  have hinner := pushRaw_inner hpath.rooted piece
  split at hinner
  · next hignored => rw [if_pos hignored, asStr, hinner, asStr]
  · next hignored =>
      have hhead := head?_chunk (Bool.not_eq_true _ ▸ hignored)
      have hne : (path.pushRaw piece).inner ≠ [] := by
        intro hnil
        rw [hnil, push, eq_comm, List.append_eq_nil_iff] at hinner
        simp [hinner.2] at hhead
      rw [if_neg hignored, asStr_of_ne_nil hne, hinner, push, push, chop_asStr]

/-! ## values -/

/-- The values that are taken as path segments. -/
structure IsSegment (value : String) : Prop where
  ne_empty : value ≠ ""
  ne_dot : value ≠ "."
  ne_dots : value ≠ ".."
  slash : '/' ∉ value.toList
  backslash : '\\' ∉ value.toList

/-- The text a value adds. -/
def segmentChunk (value : String) : List Char := '/' :: percentEncodePathSegment value

/-- A value that is not empty is pushed as its encoded segment. -/
theorem chunk_percentEncodePathSegment {value : String} (h : value ≠ "") :
    ignored (percentEncodePathSegment value) = false ∧
      chunk (percentEncodePathSegment value) = segmentChunk value := by
  have hne : percentEncodePathSegment value ≠ [] := PercentEncoding.encode_ne_nil unreserved h
  have hslash := notMem_percentEncodePathSegment value
  have hhead : (percentEncodePathSegment value).head? ≠ some '/' := fun hhead =>
    hslash (List.mem_of_mem_head? hhead)
  constructor
  · simp only [ignored, Bool.or_eq_false_iff, List.isEmpty_eq_false_iff,
      decide_eq_false_iff_not]
    refine ⟨hne, fun heq => hslash ?_⟩
    rw [heq]
    exact List.mem_singleton_self _
  · rw [chunk, if_neg hhead, Segments.chop_cons hne hslash, segmentChunk]

/-- One segment more, whatever the path ends with. -/
theorem pushSegmentEncoded_asStr {path : UrlPath} (hpath : path.Reachable) {value : String}
    (h : IsSegment value) :
    (path.pushSegmentEncoded value).asStr = chop '/' path.asStr ++ segmentChunk value := by
  have hslash : value ≠ "/" := by
    rintro rfl
    exact h.slash (by decide)
  have htrim : Sema.trim (percentEncodePathSegment value) = percentEncodePathSegment value :=
    trim_of_isWhitespace fun _ hc => (mem_percentEncodePathSegment hc).1
  obtain ⟨hignored, hchunk⟩ := chunk_percentEncodePathSegment h.ne_empty
  simp only [pushSegmentEncoded, h.ne_empty, hslash, decide_false, Bool.or_self,
    Bool.false_eq_true, if_false]
  rw [pushRaw_asStr hpath, String.toList_ofList, htrim, hignored, hchunk]
  rfl

end UrlPath

end Concord
