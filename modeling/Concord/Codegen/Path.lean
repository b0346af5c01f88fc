import Concord.UrlPath
import Concord.Codegen.Origin

/-!
# Concord.Codegen.Path

The paths of requests (`emit_path_route_apply` of
`concord_macros/src/codegen/policy/route.rs`).

A value takes one segment of the path, from which it can be decoded.  Pieces
only add chunks that start with a slash, so that for a given route the values
can be told from the path.
-/

namespace Concord.Sema

open UrlPath

/-! ## generated routes -/

/-- `ApiClientError::InvalidParam`. -/
structure InvalidParam where
  ctx : ErrorContext
  param : String
  deriving DecidableEq, Repr

/-- `emit_dynamic_path_segment_push`. -/
def dynamicPathSegmentPush (ctx : ErrorContext) (label : String) (path : UrlPath)
    (segment : String) : Except InvalidParam UrlPath :=
  if segment = "" || segment = "." || segment = ".." || segment.toList.contains '/' ||
      segment.toList.contains '\\' then
    .error ⟨ctx, label⟩
  else .ok (path.pushSegmentEncoded segment)

/-- The segment of a field.  An optional one is pushed if it has a value. -/
def pushPathField (ctx : ErrorContext) (label : String) (path : UrlPath) (optional : Bool)
    (value : Option String) : Except InvalidParam UrlPath :=
  if optional then
    match value with
    | some text => dynamicPathSegmentPush ctx label path text
    | none => .ok path
  else dynamicPathSegmentPush ctx label path (value.getD "")

section
variable (ctx : ErrorContext) (optionals : Ident → Option Bool) (values : RouteValues)

/-- One piece of the path; an optional without a value adds nothing. -/
def applyPathPiece (path : UrlPath) : PathPiece → Except InvalidParam UrlPath
  | .static text => .ok (path.pushRaw text)
  | .cxVar field optional =>
    pushPathField ctx ("vars." ++ field) path optional (values.cx field)
  | .epVar field =>
    pushPathField ctx ("ep." ++ field) path ((optionals field).getD false) (values.ep field)
  | .fmt format =>
    if format.requireAll && !fmtRequireAllGuard optionals values format then .ok path
    else dynamicPathSegmentPush ctx "fmt" path (fmtBuildString values format)

/-- `emit_path_route_apply`. -/
def applyPathRoute (pieces : List PathPiece) (path : UrlPath) : Except InvalidParam UrlPath :=
  pieces.foldlM (applyPathPiece ctx optionals values) path

end

/-- The path of a generated route. -/
def routePath (endpoint : ResolvedEndpoint) (values : RouteValues) (ctx : ErrorContext) :
    Except InvalidParam (List Char) := do
  let path ← applyPathRoute ctx (epOptionals endpoint) values endpoint.scopePathPieces UrlPath.new
  let path ← applyPathRoute ctx (epOptionals endpoint) values endpoint.routePieces path
  .ok path.asStr

/-! ## values -/

section
variable (optionals : Ident → Option Bool) (values : RouteValues)

/-- The value of a dynamic piece that is there: the text of a field, or what a
format builds. -/
def pieceValue? : PathPiece → Option String
  | .static _ => none
  | .cxVar field optional => if optional then values.cx field else some ((values.cx field).getD "")
  | .epVar field =>
    if (optionals field).getD false then values.ep field else some ((values.ep field).getD "")
  | .fmt format =>
    if format.requireAll && !fmtRequireAllGuard optionals values format then none
    else some (fmtBuildString values format)

/-- What a piece adds to the path. -/
def pieceChunk? : PathPiece → Option (List Char)
  | .static text =>
    if ignored (trim text.toList) then none else some (chunk (trim text.toList))
  | piece => (pieceValue? optionals values piece).map segmentChunk

end

/-- What errors call a piece. -/
def pieceLabel : PathPiece → String
  | .static text => text
  | .cxVar field _ => "vars." ++ field
  | .epVar field => "ep." ++ field
  | .fmt _ => "fmt"

/-- A value that is one segment is pushed. -/
theorem dynamicPathSegmentPush_of_isSegment {segment : String} (h : IsSegment segment)
    (ctx : ErrorContext) (label : String) (path : UrlPath) :
    dynamicPathSegmentPush ctx label path segment = .ok (path.pushSegmentEncoded segment) := by
  obtain ⟨hempty, hdot, hdots, hslash, hbackslash⟩ := h
  simp [dynamicPathSegmentPush, hempty, hdot, hdots, hslash, hbackslash]

/-- Any other is refused. -/
theorem dynamicPathSegmentPush_of_not_isSegment {segment : String} (h : ¬ IsSegment segment)
    (ctx : ErrorContext) (label : String) (path : UrlPath) :
    dynamicPathSegmentPush ctx label path segment = .error ⟨ctx, label⟩ := by
  unfold dynamicPathSegmentPush
  split
  · rfl
  · next hchecks =>
      simp only [Bool.or_eq_true, decide_eq_true_eq, List.contains_iff_mem, not_or] at hchecks
      obtain ⟨⟨⟨⟨hempty, hdot⟩, hdots⟩, hslash⟩, hbackslash⟩ := hchecks
      exact absurd ⟨hempty, hdot, hdots, hslash, hbackslash⟩ h

section
variable {ctx : ErrorContext} {optionals : Ident → Option Bool} {values : RouteValues}

/-- The four kinds of dynamic pieces. -/
theorem applyPathPiece_of_value {piece : PathPiece} {value : String}
    (h : pieceValue? optionals values piece = some value) (path : UrlPath) :
    applyPathPiece ctx optionals values path piece =
      dynamicPathSegmentPush ctx (pieceLabel piece) path value := by
  cases piece with
  | static text => simp [pieceValue?] at h
  | cxVar field optional =>
      cases optional with
      | true =>
          simp only [pieceValue?, if_true] at h
          simp [applyPathPiece, pushPathField, pieceLabel, h]
      | false =>
          simp only [pieceValue?, Bool.false_eq_true, if_false, Option.some.injEq] at h
          simp [applyPathPiece, pushPathField, pieceLabel, h]
  | epVar field =>
      cases hoptional : (optionals field).getD false with
      | true =>
          simp only [pieceValue?, hoptional, if_true] at h
          simp [applyPathPiece, pushPathField, pieceLabel, hoptional, h]
      | false =>
          simp only [pieceValue?, hoptional, Bool.false_eq_true, if_false,
            Option.some.injEq] at h
          simp [applyPathPiece, pushPathField, pieceLabel, hoptional, h]
  | fmt format =>
      simp only [pieceValue?] at h
      split at h
      · contradiction
      · next hguard =>
          simp only [Option.some.injEq] at h
          rw [applyPathPiece, if_neg hguard, h, pieceLabel]

/-- What the generated code does with a value: it is a segment, or an error. -/
theorem applyPathPiece_of_not_isSegment {piece : PathPiece} {value : String}
    (h : pieceValue? optionals values piece = some value) (hvalue : ¬ IsSegment value)
    (path : UrlPath) :
    applyPathPiece ctx optionals values path piece = .error ⟨ctx, pieceLabel piece⟩ := by
  rw [applyPathPiece_of_value h, dynamicPathSegmentPush_of_not_isSegment hvalue]

/-- A piece whose value is one segment is applied. -/
theorem applyPathPiece_of_isSegment {piece : PathPiece} {value : String}
    (h : pieceValue? optionals values piece = some value) (hvalue : IsSegment value)
    (path : UrlPath) :
    applyPathPiece ctx optionals values path piece = .ok (path.pushSegmentEncoded value) := by
  rw [applyPathPiece_of_value h, dynamicPathSegmentPush_of_isSegment hvalue]

/-- A dynamic piece without a value is left out. -/
theorem applyPathPiece_of_none {piece : PathPiece} (hpiece : ∀ text, piece ≠ .static text)
    (h : pieceValue? optionals values piece = none) (path : UrlPath) :
    applyPathPiece ctx optionals values path piece = .ok path := by
  cases piece with
  | static text => exact absurd rfl (hpiece text)
  | cxVar field optional =>
      cases optional with
      | true =>
          simp only [pieceValue?, if_true] at h
          simp [applyPathPiece, pushPathField, h]
      | false => simp [pieceValue?] at h
  | epVar field =>
      cases hoptional : (optionals field).getD false with
      | true =>
          simp only [pieceValue?, hoptional, if_true] at h
          simp [applyPathPiece, pushPathField, hoptional, h]
      | false => simp [pieceValue?, hoptional] at h
  | fmt format =>
      simp only [pieceValue?] at h
      split at h
      · next hguard => rw [applyPathPiece, if_pos hguard]
      · contradiction

/-- A dynamic piece adds its value's segment. -/
theorem pieceChunk?_of_dynamic {piece : PathPiece} (hpiece : ∀ text, piece ≠ .static text) :
    pieceChunk? optionals values piece =
      (pieceValue? optionals values piece).map segmentChunk := by
  cases piece with
  | static text => exact absurd rfl (hpiece text)
  | cxVar field optional => rfl
  | epVar field => rfl
  | fmt format => rfl

/-- What one piece does: it adds its chunk, and its value is a segment. -/
structure PieceApplied (optionals : Ident → Option Bool) (values : RouteValues)
    (path next : UrlPath) (piece : PathPiece) : Prop where
  reachable : next.Reachable
  asStr : next.asStr =
    (pieceChunk? optionals values piece).toList.foldl (Segments.push '/') path.asStr
  isSegment {value : String} (h : pieceValue? optionals values piece = some value) :
    IsSegment value

/-- A static piece is pushed as it stands. -/
theorem pieceApplied_static {path : UrlPath} (hpath : path.Reachable) (text : String) :
    PieceApplied optionals values path (path.pushRaw text) (.static text) where
  reachable := .pushRaw hpath text
  asStr := by
    rw [pushRaw_asStr hpath, pieceChunk?]
    split <;> rfl
  isSegment h := by simp [pieceValue?] at h

/-- What a piece that is applied adds. -/
theorem pieceApplied_of_ok {path next : UrlPath} (hpath : path.Reachable) {piece : PathPiece}
    (h : applyPathPiece ctx optionals values path piece = .ok next) :
    PieceApplied optionals values path next piece := by
  by_cases hpiece : ∃ text, piece = .static text
  · obtain ⟨text, rfl⟩ := hpiece
    simp only [applyPathPiece, Except.ok.injEq] at h
    exact h ▸ pieceApplied_static hpath text
  · have hdynamic : ∀ text, piece ≠ .static text := fun text heq => hpiece ⟨text, heq⟩
    have hchunk : pieceChunk? optionals values piece =
        (pieceValue? optionals values piece).map segmentChunk := pieceChunk?_of_dynamic hdynamic
    cases hvalue : pieceValue? optionals values piece with
    | none =>
        rw [applyPathPiece_of_none hdynamic hvalue, Except.ok.injEq] at h
        rw [hvalue] at hchunk
        subst h
        exact ⟨hpath, by simp [hchunk], by simp [hvalue]⟩
    | some value =>
        by_cases hsegment : IsSegment value
        · rw [applyPathPiece_of_isSegment hvalue hsegment, Except.ok.injEq] at h
          rw [hvalue] at hchunk
          subst h
          refine ⟨.pushSegmentEncoded hpath value, ?_, ?_⟩
          · simp [pushSegmentEncoded_asStr hpath hsegment, hchunk, Segments.push]
          · intro found hfound
            rw [hvalue, Option.some.injEq] at hfound
            exact hfound ▸ hsegment
        · rw [applyPathPiece_of_not_isSegment hvalue hsegment] at h
          contradiction

/-- What a route does: the chunks of its pieces are added one after the other. -/
theorem applyPathRoute_ok {pieces : List PathPiece} {path next : UrlPath}
    (hpath : path.Reachable) (h : applyPathRoute ctx optionals values pieces path = .ok next) :
    next.Reachable ∧
      next.asStr = (pieces.filterMap (pieceChunk? optionals values)).foldl (Segments.push '/')
        path.asStr ∧
      ∀ piece ∈ pieces, ∀ value, pieceValue? optionals values piece = some value →
        IsSegment value := by
  unfold applyPathRoute at h
  induction pieces generalizing path with
  | nil =>
      have hsame : path = next := by simpa [pure, Except.pure] using h
      subst hsame
      simp [hpath]
  | cons piece pieces ih =>
      rw [List.foldlM_cons, Results.bind_eq_ok_iff] at h
      obtain ⟨middle, hpiece, hrest⟩ := h
      have happlied := pieceApplied_of_ok hpath hpiece
      obtain ⟨hreachable, hjoined, hvalues⟩ := ih happlied.reachable hrest
      refine ⟨hreachable, ?_, ?_⟩
      · rw [hjoined, happlied.asStr, List.filterMap_cons]
        cases pieceChunk? optionals values piece with
        | none => rfl
        | some chunk => rfl
      · intro found hfound value hvalue
        rcases List.mem_cons.mp hfound with rfl | hfound
        · exact happlied.isSegment hvalue
        · exact hvalues found hfound value hvalue

/-- Values that are segments make a path. -/
theorem applyPathRoute_of_isSegment {pieces : List PathPiece}
    (h : ∀ piece ∈ pieces, ∀ value, pieceValue? optionals values piece = some value →
      IsSegment value) (path : UrlPath) :
    ∃ next, applyPathRoute ctx optionals values pieces path = .ok next := by
  unfold applyPathRoute
  induction pieces generalizing path with
  | nil => exact ⟨path, rfl⟩
  | cons piece pieces ih =>
      have hrest := ih fun found hfound => h found (List.mem_cons_of_mem _ hfound)
      have hstep : ∃ middle, applyPathPiece ctx optionals values path piece = .ok middle := by
        by_cases hpiece : ∃ text, piece = .static text
        · obtain ⟨text, rfl⟩ := hpiece
          exact ⟨_, rfl⟩
        · have hdynamic : ∀ text, piece ≠ .static text := fun text heq => hpiece ⟨text, heq⟩
          cases hvalue : pieceValue? optionals values piece with
          | none => exact ⟨_, applyPathPiece_of_none hdynamic hvalue path⟩
          | some value =>
              have hsegment := h piece List.mem_cons_self value hvalue
              exact ⟨_, applyPathPiece_of_isSegment hvalue hsegment path⟩
      obtain ⟨middle, hmiddle⟩ := hstep
      obtain ⟨next, hnext⟩ := hrest middle
      exact ⟨next, by rw [List.foldlM_cons, hmiddle, Results.ok_bind, hnext]⟩

/-- What a piece adds begins with a slash. -/
theorem head?_pieceChunk {piece : PathPiece} {text : List Char}
    (h : pieceChunk? optionals values piece = some text) : text.head? = some '/' := by
  by_cases hpiece : ∃ text, piece = .static text
  · obtain ⟨literal, rfl⟩ := hpiece
    simp only [pieceChunk?] at h
    split at h
    · contradiction
    · next hignored =>
        rw [Bool.not_eq_true] at hignored
        rw [Option.some.injEq] at h
        exact h ▸ head?_chunk hignored
  · rw [pieceChunk?_of_dynamic fun text heq => hpiece ⟨text, heq⟩, Option.map_eq_some_iff] at h
    obtain ⟨value, _, hchunk⟩ := h
    rw [← hchunk]
    rfl

end

/-! ## two requests -/

section
variable {optionals : Ident → Option Bool} {values values' : RouteValues}

/-- The same literals, or values that are both there or both not. -/
inductive SamePiece (optionals : Ident → Option Bool) (values values' : RouteValues)
    (piece : PathPiece) : Prop
  | absent (hvalue : pieceValue? optionals values piece = none)
      (hvalue' : pieceValue? optionals values' piece = none)
      (hchunk : pieceChunk? optionals values' piece = pieceChunk? optionals values piece)
  | segment {value value' : String} (hvalue : pieceValue? optionals values piece = some value)
      (hvalue' : pieceValue? optionals values' piece = some value')
      (hchunk : pieceChunk? optionals values piece = some (segmentChunk value))
      (hchunk' : pieceChunk? optionals values' piece = some (segmentChunk value'))

/-- Two values of one piece are both there or both missing. -/
theorem samePiece_of_isSome {piece : PathPiece}
    (h : (pieceValue? optionals values' piece).isSome =
      (pieceValue? optionals values piece).isSome) :
    SamePiece optionals values values' piece := by
  by_cases hpiece : ∃ text, piece = .static text
  · obtain ⟨text, rfl⟩ := hpiece
    exact .absent rfl rfl rfl
  · have hdynamic : ∀ text, piece ≠ .static text := fun text heq => hpiece ⟨text, heq⟩
    have hchunk (given : RouteValues) : pieceChunk? optionals given piece =
        (pieceValue? optionals given piece).map segmentChunk := pieceChunk?_of_dynamic hdynamic
    cases hvalue : pieceValue? optionals values piece with
    | none =>
        rw [hvalue, Option.isSome_none, Option.isSome_eq_false_iff, Option.isNone_iff_eq_none] at h
        exact .absent hvalue h (by rw [hchunk, hchunk, hvalue, h])
    | some value =>
        rw [hvalue, Option.isSome_some, Option.isSome_iff_exists] at h
        obtain ⟨value', hvalue'⟩ := h
        exact .segment hvalue hvalue' (by rw [hchunk, hvalue]; rfl) (by rw [hchunk, hvalue']; rfl)

section
variable {pieces : List PathPiece}
  (hsame : ∀ piece ∈ pieces, SamePiece optionals values values' piece)
include hsame

/-- Pieces that add the same have the same values. -/
theorem matches_chunks
    (hsegment : ∀ piece ∈ pieces, ∀ value, pieceValue? optionals values piece = some value →
      IsSegment value)
    (hsegment' : ∀ piece ∈ pieces, ∀ value, pieceValue? optionals values' piece = some value →
      IsSegment value) :
    List.Forall₂ (Segments.Matches '/') (pieces.filterMap (pieceChunk? optionals values))
      (pieces.filterMap (pieceChunk? optionals values')) := by
  induction pieces with
  | nil => exact .nil
  | cons piece pieces ih =>
      have hrest := ih (fun found hfound => hsame found (List.mem_cons_of_mem _ hfound))
        (fun found hfound => hsegment found (List.mem_cons_of_mem _ hfound))
        (fun found hfound => hsegment' found (List.mem_cons_of_mem _ hfound))
      rw [List.filterMap_cons, List.filterMap_cons]
      cases hsame piece List.mem_cons_self with
      | absent hvalue hvalue' hchunk =>
          rw [hchunk]
          cases pieceChunk? optionals values piece with
          | none => exact hrest
          | some chunk => exact .cons (.refl chunk) hrest
      | @segment value value' hvalue hvalue' hchunk hchunk' =>
          have hfirst := hsegment piece List.mem_cons_self value hvalue
          have hfirst' := hsegment' piece List.mem_cons_self value' hvalue'
          rw [hchunk, hchunk']
          refine .cons (.segment ?_ ?_ ?_ ?_) hrest
          · exact PercentEncoding.encode_ne_nil unreserved hfirst.ne_empty
          · exact PercentEncoding.encode_ne_nil unreserved hfirst'.ne_empty
          · exact notMem_percentEncodePathSegment value
          · exact notMem_percentEncodePathSegment value'

/-- So the values are read off the path. -/
theorem values_of_chunks
    (h : pieces.filterMap (pieceChunk? optionals values) =
      pieces.filterMap (pieceChunk? optionals values')) :
    pieces.filterMap (pieceValue? optionals values) =
      pieces.filterMap (pieceValue? optionals values') := by
  induction pieces with
  | nil => rfl
  | cons piece pieces ih =>
      have hrest := ih fun found hfound => hsame found (List.mem_cons_of_mem _ hfound)
      rw [List.filterMap_cons, List.filterMap_cons] at h
      rw [List.filterMap_cons, List.filterMap_cons]
      cases hsame piece List.mem_cons_self with
      | absent hvalue hvalue' hchunk =>
          rw [hchunk] at h
          rw [hvalue, hvalue']
          apply hrest
          cases hpiece : pieceChunk? optionals values piece with
          | none => simpa [hpiece] using h
          | some chunk => simpa [hpiece] using h
      | @segment value value' hvalue hvalue' hchunk hchunk' =>
          rw [hchunk, hchunk'] at h
          simp only [segmentChunk, List.cons.injEq, true_and] at h
          rw [hvalue, hvalue']
          simp only [percentEncodePathSegment_inj h.1, hrest h.2]

end

/-- The values can be told from the path. -/
theorem values_of_path {ctx : ErrorContext} {pieces : List PathPiece}
    {start path path' : UrlPath} (hstart : start.Reachable)
    (hpresent : ∀ piece ∈ pieces, (pieceValue? optionals values' piece).isSome =
      (pieceValue? optionals values piece).isSome)
    (h : applyPathRoute ctx optionals values pieces start = .ok path)
    (h' : applyPathRoute ctx optionals values' pieces start = .ok path')
    (hpath : path.asStr = path'.asStr) :
    pieces.filterMap (pieceValue? optionals values) =
      pieces.filterMap (pieceValue? optionals values') := by
  obtain ⟨_, hjoined, hsegment⟩ := applyPathRoute_ok hstart h
  obtain ⟨_, hjoined', hsegment'⟩ := applyPathRoute_ok hstart h'
  have hsame : ∀ piece ∈ pieces, SamePiece optionals values values' piece :=
    fun piece hpiece => samePiece_of_isSome (hpresent piece hpiece)
  have hheads (given : RouteValues) : ∀ chunk ∈ pieces.filterMap (pieceChunk? optionals given),
      chunk.head? = some '/' := by
    intro chunk hchunk
    obtain ⟨piece, _, hpiece⟩ := List.mem_filterMap.mp hchunk
    exact head?_pieceChunk hpiece
  rw [hjoined, hjoined'] at hpath
  apply values_of_chunks hsame
  exact Segments.foldl_push_inj (matches_chunks hsame hsegment hsegment') (hheads values)
    (hheads values') hpath

end

/-- A generated route is one route, of the pieces of its scopes and its own. -/
theorem routePath_eq (endpoint : ResolvedEndpoint) (values : RouteValues) (ctx : ErrorContext) :
    routePath endpoint values ctx =
      (applyPathRoute ctx (epOptionals endpoint) values
        (endpoint.scopePathPieces ++ endpoint.routePieces) UrlPath.new).map UrlPath.asStr := by
  unfold routePath applyPathRoute
  rw [List.foldlM_append]
  cases endpoint.scopePathPieces.foldlM (applyPathPiece ctx (epOptionals endpoint) values)
      UrlPath.new with
  | error error => rfl
  | ok path =>
      simp only [Results.ok_bind]
      cases endpoint.routePieces.foldlM (applyPathPiece ctx (epOptionals endpoint) values) path with
      | error error => rfl
      | ok path => rfl

/-- It has a path exactly if every value in it is a segment. -/
theorem routePath_ok_iff (endpoint : ResolvedEndpoint) (values : RouteValues)
    (ctx : ErrorContext) :
    (∃ path, routePath endpoint values ctx = .ok path) ↔
      ∀ piece ∈ endpoint.scopePathPieces ++ endpoint.routePieces, ∀ value,
        pieceValue? (epOptionals endpoint) values piece = some value → IsSegment value := by
  rw [routePath_eq]
  constructor
  · intro h
    obtain ⟨path, hpath⟩ := h
    obtain ⟨next, hnext, _⟩ := Results.map_eq_ok_iff.mp hpath
    exact (applyPathRoute_ok .new hnext).2.2
  · intro h
    obtain ⟨next, hnext⟩ := applyPathRoute_of_isSegment h UrlPath.new
    exact ⟨next.asStr, by rw [hnext]; rfl⟩

/-- Dynamic pieces of a route.  A value is taken exactly if it is a segment.
It is then put after the path, which keeps no slash of its own at the end, in
an encoding from which it is decoded.  For a route, and given which optional
pieces are there, different values give different paths. -/
theorem dynamic_path_segments (ctx : ErrorContext) (optionals : Ident → Option Bool)
    (pieces : List PathPiece) (values : RouteValues) :
    (∀ piece ∈ pieces, ∀ value, pieceValue? optionals values piece = some value → ∀ path,
      ((∃ next, applyPathPiece ctx optionals values path piece = .ok next) ↔ IsSegment value) ∧
      (path.Reachable → IsSegment value →
        ∃ next, applyPathPiece ctx optionals values path piece = .ok next ∧
          next.asStr = Segments.chop '/' path.asStr ++ '/' :: percentEncodePathSegment value)) ∧
    (∀ value, PercentEncoding.Encoded unreserved (percentEncodePathSegment value) ∧
      PercentEncoding.decode (percentEncodePathSegment value) = value) ∧
    (∀ path : UrlPath, path.Reachable → path.asStr.head? = some '/') ∧
    (∀ start : UrlPath, start.Reachable →
      ((∃ path, applyPathRoute ctx optionals values pieces start = .ok path) ↔
        ∀ value ∈ pieces.filterMap (pieceValue? optionals values), IsSegment value) ∧
      ∀ path, applyPathRoute ctx optionals values pieces start = .ok path →
        path.Reachable ∧
        ∀ values' path', applyPathRoute ctx optionals values' pieces start = .ok path' →
          (∀ piece ∈ pieces, (pieceValue? optionals values' piece).isSome =
            (pieceValue? optionals values piece).isSome) →
          pieces.filterMap (pieceValue? optionals values) ≠
            pieces.filterMap (pieceValue? optionals values') →
          path.asStr ≠ path'.asStr) := by
  refine ⟨?_, ?_, fun path hpath => hpath.head?_asStr, ?_⟩
  · intro piece _ value hvalue path
    have htaken : IsSegment value →
        applyPathPiece ctx optionals values path piece = .ok (path.pushSegmentEncoded value) :=
      fun hsegment => applyPathPiece_of_isSegment hvalue hsegment path
    refine ⟨⟨?_, fun hsegment => ⟨_, htaken hsegment⟩⟩, ?_⟩
    · rintro ⟨next, hnext⟩
      by_contra hsegment
      rw [applyPathPiece_of_not_isSegment hvalue hsegment] at hnext
      contradiction
    · intro hpath hsegment
      exact ⟨_, htaken hsegment, pushSegmentEncoded_asStr hpath hsegment⟩
  · intro value
    exact ⟨PercentEncoding.encoded_encode unreserved value, decode_percentEncodePathSegment value⟩
  · intro start hstart
    refine ⟨⟨?_, ?_⟩, ?_⟩
    · rintro ⟨path, hpath⟩ value hvalue
      obtain ⟨piece, hpiece, hvalue⟩ := List.mem_filterMap.mp hvalue
      exact (applyPathRoute_ok hstart hpath).2.2 piece hpiece value hvalue
    · intro hsegments
      apply applyPathRoute_of_isSegment
      intro piece hpiece value hvalue
      exact hsegments value (List.mem_filterMap.mpr ⟨piece, hpiece, hvalue⟩)
    · intro path hpath
      refine ⟨(applyPathRoute_ok hstart hpath).1, ?_⟩
      intro values' path' hpath' hpresent hvalues heq
      exact hvalues (values_of_path hstart hpresent hpath hpath' heq)

end Concord.Sema
