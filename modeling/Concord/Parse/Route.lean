import Concord.Lib.Results
import Concord.Parse.PublicExpr
import Concord.Sema.Ast

/-!
# Concord.Parse.Route

The routes of a declaration as they are written: `host[...]` and `path[...]`, with
references and `fmt[...]` in them (the end of
`concord_macros/src/parse/policy.rs`).

A bare name is read as a reference only if no dot follows it, so the parsers are
sure of it up to what may follow; the content of a group is read to its end.
-/

namespace Concord.Parse

open Parsing

/-! ## parsers -/

/-- The scope that the word before a dot names. -/
def resolveScopedRefBase (base : String) : Except ParseError Sema.RefScope :=
  if base = "vars" then .ok .cx
  else if base = "secret" then .ok .auth
  else if base = "ep" then .ok .ep
  else
    match publicExprForbiddenIdentKind (unrawIdentText base) with
    | some .auth => .error (.refused
        "auth references are not allowed in public route expressions; use an auth declaration/use instead")
    | some .secret =>
      .error (.refused "secret references are only allowed in credential declarations")
    | some .generatedLocal => .error (.refused
        "generated implementation locals are not part of the public DSL expression scope")
    | some .secretExposure => .error (.refused
        "secret exposure methods are not allowed in public route expressions")
    | none => .error (.refused "unknown scoped reference prefix; expected `vars.` or `ep.`")

/-- Whether a dot is ahead. -/
def peekDot : List Token → Bool
  | .atom (.punct char) :: _ => char = '.'
  | _ => false

/-- The part of a reference from its dot on. -/
def parseAfterBase (base : Ident) : TokenParser Sema.ScopedRef := do
  punct '.'
  let name ← ident
  (fun scope => ⟨scope, name.name, true⟩) <$> Parser.ofExcept (resolveScopedRefBase base.name)

/-- `parse_scoped_ref_from_ident`. -/
def parseScopedRefFromIdent : TokenParser Sema.ScopedRef := do
  let first ← ident
  if ← Parser.peek peekDot then parseAfterBase first
  else pure ⟨.ep, first.name, false⟩

/-- The words of `{vars.x}`, `{ep.y}` and `{secret.z}`, with the dot. -/
def peekScopedWord : List Token → Bool
  | .atom (.ident base) :: rest => (base = "vars" ∨ base = "ep" ∨ base = "secret") && peekDot rest
  | _ => false

/-- The reference between braces; anything else there is refused. -/
def parsePlaceholder (message : String) (inner : List Token) : Except ParseError Sema.ScopedRef :=
  if peekScopedWord inner then
    match parseScopedRefFromIdent.run inner with
    | .error error => .error error
    | .ok (ref, []) => .ok ref
    | .ok (_, _ :: _) => .error (.refused message)
  else .error (.refused message)

/-- Whether an identifier is ahead. -/
def peekIdent : List Token → Bool
  | .atom (.ident name) :: _ => name ∉ reservedWords
  | _ => false

/-- A piece of `fmt[...]` that refers to something other than a secret. -/
def fmtRef (ref : Sema.ScopedRef) : Except ParseError Sema.FmtPiece :=
  if ref.scope = .auth then .error (.refused "secret.* is not allowed in fmt[...]")
  else .ok (.ref ref)

def fmtPlaceholderMessage : String :=
  "template parameter declarations are not supported in `fmt[...]`; use identifier or scoped refs (`vars.x`, `ep.y`, `secret.z`)"

/-- A reference in braces within `fmt[...]`. -/
def fmtPlaceholder (inner : List Token) : Except ParseError Sema.FmtPiece :=
  match parsePlaceholder fmtPlaceholderMessage inner with
  | .error error => .error error
  | .ok ref => fmtRef ref

/-- A reference within `fmt[...]`. -/
def parseFmtRef : TokenParser Sema.FmtPiece := do
  let ref ← parseScopedRefFromIdent
  Parser.ofExcept (fmtRef ref)

/-- A piece of `fmt[...]`. -/
def parseFmtPiece : TokenParser Sema.FmtPiece := do
  if ← Parser.peek peekLitStr then Sema.FmtPiece.lit <$> litStr
  else if ← Parser.peek (peekKeyword "fmt") then
    throw (.refused "nested fmt[...] is not allowed")
  else if ← Parser.peek (peekGroup .brace) then
    let inner ← braced
    Parser.ofExcept (fmtPlaceholder inner)
  else if ← Parser.peek peekIdent then parseFmtRef
  else throw (.refused
    "expected string literal, identifier, or scoped reference in `fmt[...]`")

/-- The pieces between the brackets. -/
def fmtPieces (content : List Token) : Except ParseError Sema.FmtSpec :=
  match toEnd (pushing parseFmtPiece) isComma [] content with
  | .error error => .error error
  | .ok pieces =>
    if pieces = [] then .error (.refused "fmt[...] requires at least one piece")
    else .ok ⟨true, pieces⟩

/-- `parse_fmt_spec`. -/
def parseFmtSpec : TokenParser Sema.FmtSpec := do
  keyword "fmt"
  let content ← bracketed
  Parser.ofExcept (fmtPieces content)

def routePlaceholderMessage : String :=
  "route placeholder declarations are not supported; declare params in scope/endpoint signatures and reference them in route items"

/-- A reference in braces within a route. -/
def routePlaceholder (inner : List Token) : Except ParseError Sema.RouteAtom :=
  (parsePlaceholder routePlaceholderMessage inner).map .ref

/-- `parse_route_atom`. -/
def parseRouteAtom : TokenParser Sema.RouteAtom := do
  if ← Parser.peek (peekKeyword "fmt") then Sema.RouteAtom.fmt <$> parseFmtSpec
  else if ← Parser.peek peekLitStr then Sema.RouteAtom.static <$> litStr
  else if ← Parser.peek peekIdent then Sema.RouteAtom.ref <$> parseScopedRefFromIdent
  else if ← Parser.peek (peekGroup .brace) then
    let inner ← braced
    Parser.ofExcept (routePlaceholder inner)
  else throw (.refused
    "expected string literal, identifier, scoped reference, or `fmt[...]` in route")

def missingComma : ParseError := .refused "expected `,` between route items"

/-- The items between the brackets. -/
def routeAtoms (content : List Token) : Except ParseError Sema.RouteExpr :=
  (readSeparated parseRouteAtom isComma missingComma content.length [] content).map .mk

/-- `parse_route_expr_bracket`. -/
def parseRouteExprBracket : TokenParser Sema.RouteExpr := do
  let content ← bracketed
  Parser.ofExcept (routeAtoms content)

/-- A literal of `fmt[...]` with a slash. -/
def hasSlash : Sema.FmtPiece → Bool
  | .lit value => value.toList.contains '/'
  | .ref _ => false

/-- A format with a slash in one of its literals. -/
def hasSlashes : Sema.RouteAtom → Bool
  | .fmt spec => spec.pieces.any hasSlash
  | _ => false

/-- A path has no such format. -/
def checkPath (route : Sema.RouteExpr) : Except ParseError Sema.RouteExpr :=
  if route.atoms.any hasSlashes then .error (.refused
    "path fmt string literals must not contain `/`; use separate path atoms")
  else .ok route

/-- `parse_path_route_expr_bracket`. -/
def parsePathRouteExprBracket : TokenParser Sema.RouteExpr := do
  let route ← parseRouteExprBracket
  Parser.ofExcept (checkPath route)

/-! ## texts -/

/-- The word of a scope. -/
def scopeWord : Sema.RefScope → String
  | .cx => "vars"
  | .ep => "ep"
  | .auth => "secret"

/-- A reference with its scope. -/
def scopedTokens (scope : Sema.RefScope) (name : String) : List Token :=
  [.atom (.ident (scopeWord scope)), .atom (.punct '.'), .atom (.ident name)]

/-- A reference by its name, or with its scope. -/
inductive RefText : List Token → Sema.ScopedRef → Prop
  | bare (name : Ident) : RefText [.atom (.ident name.name)] ⟨.ep, name.name, false⟩
  | dotted (scope : Sema.RefScope) (name : Ident) :
      RefText (scopedTokens scope name.name) ⟨scope, name.name, true⟩

/-- A reference as an item, which is not `fmt`, or between braces. -/
inductive RefItemText : List Token → Sema.ScopedRef → Prop
  | plain {t : List Token} {ref : Sema.ScopedRef} (href : RefText t ref)
      (hfmt : peekKeyword "fmt" t = false) : RefItemText t ref
  | braced (scope : Sema.RefScope) (name : Ident) :
      RefItemText [.group .brace (scopedTokens scope name.name)] ⟨scope, name.name, true⟩

/-- The text of a piece. -/
inductive PieceText : List Token → Sema.FmtPiece → Prop
  | lit (value : String) : PieceText [.atom (.str value)] (.lit value)
  | ref {t : List Token} {ref : Sema.ScopedRef} (href : RefItemText t ref)
      (hscope : ref.scope ≠ .auth) : PieceText t (.ref ref)

/-- The text of an item of a route. -/
inductive AtomText : List Token → Sema.RouteAtom → Prop
  | static (value : String) : AtomText [.atom (.str value)] (.static value)
  | ref {t : List Token} {ref : Sema.ScopedRef} (href : RefItemText t ref) : AtomText t (.ref ref)
  | fmt {content : List Token} {pieces : List Sema.FmtPiece}
      (hpieces : Listed isComma PieceText content pieces) (hne : pieces ≠ []) :
      AtomText [.atom (.ident "fmt"), .group .bracket content] (.fmt ⟨true, pieces⟩)

/-- The text of a route: its items, with commas between them. -/
def RouteText (t : List Token) (route : Sema.RouteExpr) : Prop :=
  ∃ content, t = [.group .bracket content] ∧ Separated isComma AtomText content route.atoms

/-! ## references -/

/-- A scope is read from its own word alone. -/
theorem resolveScopedRefBase_eq_ok_iff {base : String} {scope : Sema.RefScope} :
    resolveScopedRefBase base = .ok scope ↔ base = scopeWord scope := by
  constructor
  · intro h
    unfold resolveScopedRefBase at h
    split at h
    · next hbase =>
        cases h
        exact hbase
    · split at h
      · next hbase =>
          cases h
          exact hbase
      · split at h
        · next hbase =>
            cases h
            exact hbase
        · split at h <;> cases h
  · rintro rfl
    cases scope with
    | cx => rfl
    | ep => simp [resolveScopedRefBase, scopeWord]
    | auth => simp [resolveScopedRefBase, scopeWord]

/-- A reference with a scope is read after its base. -/
theorem reads_afterBase (base : Ident) :
    (parseAfterBase base).Reads fun t ref => ∃ scope, ∃ name : Ident, base.name = scopeWord scope ∧
      t = [.atom (.punct '.'), .atom (.ident name.name)] ∧ ref = ⟨scope, name.name, true⟩ := by
  refine ((reads_punct '.').bind fun _ => reads_ident.bind fun name =>
    (Parser.reads_ofExcept (resolveScopedRefBase base.name)).map).congr fun t ref => ?_
  constructor
  · rintro ⟨_, _, _, rfl, ⟨name, _, _, rfl, ⟨scope, ⟨rfl, hscope⟩, rfl⟩, rfl⟩, rfl⟩
    exact ⟨scope, name, resolveScopedRefBase_eq_ok_iff.mp hscope, rfl, rfl⟩
  · rintro ⟨scope, name, hbase, rfl, rfl⟩
    have hscope := resolveScopedRefBase_eq_ok_iff.mpr hbase
    exact ⟨(), _, _, rfl, ⟨name, _, _, rfl, ⟨scope, ⟨rfl, hscope⟩, rfl⟩, rfl⟩, rfl⟩

/-- No dot comes next. -/
def NoDot (rest : List Token) : Prop := peekDot rest = false

/-- The words of the scopes are identifiers. -/
theorem not_reserved_scopeWord (scope : Sema.RefScope) : scopeWord scope ∉ reservedWords := by
  cases scope with
  | cx => decide +kernel
  | ep => decide +kernel
  | auth => decide +kernel

/-- A reference is read as it is written before anything but a dot. -/
theorem before_scopedRef : parseScopedRefFromIdent.ReadsBefore NoDot RefText := by
  have hrest := fun first : Ident => Parser.before_ite_follows
    ((reads_afterBase first).before NoDot)
    ((Parser.reads_pure (⟨.ep, first.name, false⟩ : Sema.ScopedRef)).before NoDot)
    (show ∀ t ref rest, _ → peekDot (t ++ rest) = true by
      rintro t ref rest ⟨scope, name, _, rfl, _⟩
      rfl)
    (show ∀ t ref rest, _ → NoDot rest → peekDot (t ++ rest) = false by
      rintro t ref rest ⟨rfl, _⟩ hfollows
      exact hfollows)
  refine (reads_ident.bind_before hrest).congr fun t ref => ?_
  constructor
  · rintro ⟨first, _, _, rfl, ⟨scope, name, hbase, rfl, rfl⟩ | ⟨rfl, rfl⟩, rfl⟩
    · rw [hbase]
      exact .dotted scope name
    · exact .bare first
  · intro h
    cases h with
    | bare name => exact ⟨name, _, _, rfl, .inr ⟨rfl, rfl⟩, rfl⟩
    | dotted scope name =>
        exact ⟨⟨scopeWord scope, not_reserved_scopeWord scope⟩, _, _, rfl,
          .inl ⟨scope, name, rfl, rfl, rfl⟩, rfl⟩

/-- A placeholder is a reference with a scope. -/
theorem parsePlaceholder_eq_ok_iff {message : String} {inner : List Token} {ref : Sema.ScopedRef} :
    parsePlaceholder message inner = .ok ref ↔
      ∃ scope, ∃ name : Ident, inner = scopedTokens scope name.name ∧
        ref = ⟨scope, name.name, true⟩ := by
  constructor
  · intro h
    cases hword : peekScopedWord inner with
    | false => simp [parsePlaceholder, hword] at h
    | true =>
        cases hrun : parseScopedRefFromIdent.run inner with
        | error error => simp [parsePlaceholder, hword, hrun] at h
        | ok read =>
            obtain ⟨found, rest⟩ := read
            cases rest with
            | cons first rest => simp [parsePlaceholder, hword, hrun] at h
            | nil =>
                have hsame : found = ref := by simpa [parsePlaceholder, hword, hrun] using h
                subst hsame
                obtain ⟨t, ht, rfl⟩ := before_scopedRef.sound _ _ _ hrun
                rw [List.append_nil] at hword ⊢
                cases ht with
                | bare name => simp [peekScopedWord, peekDot] at hword
                | dotted scope name => exact ⟨scope, name, rfl, rfl⟩
  · rintro ⟨scope, name, rfl, rfl⟩
    have hword : peekScopedWord (scopedTokens scope name.name) = true := by
      cases scope with
      | cx => simp [peekScopedWord, scopedTokens, scopeWord, peekDot]
      | ep => simp [peekScopedWord, scopedTokens, scopeWord, peekDot]
      | auth => simp [peekScopedWord, scopedTokens, scopeWord, peekDot]
    have hrun := before_scopedRef.run _ _ [] (.dotted scope name) rfl
    rw [List.append_nil] at hrun
    simp [parsePlaceholder, hword, hrun]

/-- A reference starts with an identifier. -/
theorem RefText.starts {t : List Token} {ref : Sema.ScopedRef} (h : RefText t ref) :
    ∃ name rest, t = .atom (.ident name) :: rest ∧ name ∉ reservedWords := by
  cases h with
  | bare name => exact ⟨_, _, rfl, name.not_reserved⟩
  | dotted scope name => exact ⟨_, _, rfl, not_reserved_scopeWord scope⟩

/-- What is ahead is decided by a text that is not empty. -/
theorem peekIdent_append {t : List Token} (h : t ≠ []) (rest : List Token) :
    peekIdent (t ++ rest) = peekIdent t := by
  obtain ⟨first, tail, rfl⟩ := List.exists_cons_of_ne_nil h
  cases first with
  | group _ _ => rfl
  | atom atom => cases atom <;> rfl

/-! ## pieces of `fmt[...]` -/

/-- A format refers to no secret. -/
theorem fmtRef_eq_ok_iff {ref : Sema.ScopedRef} {piece : Sema.FmtPiece} :
    fmtRef ref = .ok piece ↔ ref.scope ≠ .auth ∧ piece = .ref ref := by
  by_cases hscope : ref.scope = .auth
  · simp [fmtRef, hscope]
  · simp [fmtRef, hscope, eq_comm]

/-- Nor does it in braces. -/
theorem fmtPlaceholder_eq_ok_iff (inner : List Token) (piece : Sema.FmtPiece) :
    fmtPlaceholder inner = .ok piece ↔ ∃ scope, ∃ name : Ident, scope ≠ .auth ∧
      inner = scopedTokens scope name.name ∧ piece = .ref ⟨scope, name.name, true⟩ := by
  constructor
  · intro h
    unfold fmtPlaceholder at h
    split at h
    · cases h
    · next ref hplaceholder =>
        obtain ⟨scope, name, hinner, rfl⟩ := parsePlaceholder_eq_ok_iff.mp hplaceholder
        obtain ⟨hscope, hpiece⟩ := fmtRef_eq_ok_iff.mp h
        exact ⟨scope, name, hscope, hinner, hpiece⟩
  · rintro ⟨scope, name, hscope, hinner, rfl⟩
    have hplaceholder : ∀ message, parsePlaceholder message inner = .ok ⟨scope, name.name, true⟩ :=
      fun message => parsePlaceholder_eq_ok_iff.mpr ⟨scope, name, hinner, rfl⟩
    have hpiece := fmtRef_eq_ok_iff.mpr
      ⟨show (⟨scope, name.name, true⟩ : Sema.ScopedRef).scope ≠ .auth from hscope, rfl⟩
    simp only [fmtPlaceholder, hplaceholder, hpiece]

/-- What a text starts with that is no group, no literal and no `fmt`. -/
theorem RefText.tests {t : List Token} {ref : Sema.ScopedRef} (h : RefText t ref) :
    t ≠ [] ∧ peekLitStr t = false ∧ peekGroup .brace t = false ∧ peekIdent t = true := by
  obtain ⟨name, rest, rfl, hname⟩ := h.starts
  exact ⟨List.cons_ne_nil _ _, rfl, rfl, by simpa [peekIdent] using hname⟩

/-- A piece is read as it is written before anything but a dot. -/
theorem before_fmtPiece : parseFmtPiece.ReadsBefore NoDot PieceText := by
  have hrefused := fun error : ParseError =>
    (Parser.reads_throw error : Parser.Reads (throw error : TokenParser Sema.FmtPiece) _).before NoDot
  have hbraced := (Parser.reads_group fmtPlaceholder_eq_ok_iff :
    Parser.Reads (Parser.delimited (.expected "curly braces") .brace >>= fun inner =>
      Parser.ofExcept (fmtPlaceholder inner)) _).before NoDot
  have href := before_scopedRef.bind_ofExcept fmtRef
  refine (Parser.before_ite (reads_litStr.map.before NoDot)
    (Parser.before_ite (hrefused _)
      (Parser.before_ite hbraced (Parser.before_ite href (hrefused _) ?_) ?_) ?_) ?_).congr ?_
  · rintro t piece rest (⟨ref, ht, _⟩ | hfalse)
    · exact peekIdent_append ht.tests.1 rest
    · exact hfalse.elim
  · rintro t piece rest (⟨inner, rfl, _⟩ | ⟨_, ref, ht, _⟩ | ⟨_, hfalse⟩)
    · rfl
    · exact peekGroup_append .brace ht.tests.1 rest
    · exact hfalse.elim
  · rintro t piece rest (hfalse | ⟨_, inner, rfl, _⟩ | ⟨_, ⟨_, ref, ht, _⟩ | ⟨_, hfalse⟩⟩)
    · exact hfalse.elim
    · rfl
    · exact peekKeyword_append "fmt" ht.tests.1 rest
    · exact hfalse.elim
  · rintro t piece rest (⟨value, rfl, _⟩ | ⟨_, hfalse⟩ |
      ⟨_, ⟨_, inner, rfl, _⟩ | ⟨_, ⟨_, ref, ht, _⟩ | ⟨_, hfalse⟩⟩⟩)
    · rfl
    · exact hfalse.elim
    · rfl
    · exact peekLitStr_append ht.tests.1 rest
    · exact hfalse.elim
  · intro t piece
    constructor
    · rintro (⟨_, value, rfl, rfl⟩ | ⟨_, ⟨_, hfalse⟩ | ⟨hfmt, ⟨_, inner, rfl, hinner⟩ |
        ⟨_, ⟨_, ref, ht, href⟩ | ⟨_, hfalse⟩⟩⟩⟩)
      · exact .lit value
      · exact hfalse.elim
      · obtain ⟨scope, name, hscope, rfl, rfl⟩ := hinner
        exact .ref (.braced scope name) hscope
      · obtain ⟨hscope, rfl⟩ := fmtRef_eq_ok_iff.mp href
        exact .ref (.plain ht hfmt) hscope
      · exact hfalse.elim
    · intro h
      cases h with
      | lit value => exact .inl ⟨rfl, value, rfl, rfl⟩
      | ref href hscope =>
          cases href with
          | plain ht hfmt =>
              obtain ⟨_, hlit, hgroup, hident⟩ := ht.tests
              have hpiece := fmtRef_eq_ok_iff.mpr ⟨hscope, rfl⟩
              exact .inr ⟨hlit, .inr ⟨hfmt, .inr ⟨hgroup, .inl ⟨hident, _, ht, hpiece⟩⟩⟩⟩
          | braced scope name =>
              exact .inr ⟨rfl, .inr ⟨rfl, .inl ⟨rfl, _, rfl, scope, name, hscope, rfl, rfl⟩⟩⟩

/-- A piece starts with something that is no comma and no dot. -/
theorem PieceText.starts {t : List Token} {piece : Sema.FmtPiece} (h : PieceText t piece) :
    ∃ first rest, t = first :: rest ∧ isComma first = false ∧ ∀ more, NoDot (first :: more) := by
  cases h with
  | lit value => exact ⟨_, _, rfl, rfl, fun _ => rfl⟩
  | ref href _ =>
      cases href with
      | plain ht _ =>
          obtain ⟨name, rest, rfl, _⟩ := ht.starts
          exact ⟨_, _, rfl, rfl, fun _ => rfl⟩
      | braced scope name => exact ⟨_, _, rfl, rfl, fun _ => rfl⟩

/-- After a comma comes no dot. -/
theorem noDot_comma (separator : Token) (rest : List Token) (h : isComma separator = true) :
    NoDot (separator :: rest) := by
  cases separator with
  | group _ _ => cases h
  | atom atom =>
      cases atom with
      | punct char =>
          have hcomma : char = ',' := by simpa [isComma] using h
          subst hcomma
          rfl
      | ident _ | int _ _ | str _ | literal _ => cases h

/-- Pieces are read exactly from their text, and there is one. -/
theorem fmtPieces_eq_ok_iff (content : List Token) (spec : Sema.FmtSpec) :
    fmtPieces content = .ok spec ↔
      ∃ pieces, Listed isComma PieceText content pieces ∧ pieces ≠ [] ∧ spec = ⟨true, pieces⟩ := by
  have hread : ∀ pieces, toEnd (pushing parseFmtPiece) isComma [] content = .ok pieces ↔
      Listed isComma PieceText content pieces := by
    intro pieces
    rw [toEnd_eq_ok_iff_listed_before (before_pushing before_fmtPiece) ?_ rfl noDot_comma ?_]
    · simp only [foldlM_pushing, List.nil_append, Option.some.injEq]
      constructor
      · rintro ⟨_, hlisted, rfl⟩
        exact hlisted
      · exact fun hlisted => ⟨pieces, hlisted, rfl⟩
    · intro t piece ht
      obtain ⟨first, rest, rfl, hfirst, _⟩ := ht.starts
      exact ⟨first, rest, rfl, hfirst⟩
    · intro t piece rest ht
      obtain ⟨first, tail, rfl, _, hdot⟩ := ht.starts
      exact hdot _
  have hspec : fmtPieces content = .ok spec ↔
      ∃ pieces, toEnd (pushing parseFmtPiece) isComma [] content = .ok pieces ∧ pieces ≠ [] ∧
        spec = ⟨true, pieces⟩ := by
    cases hpieces : toEnd (pushing parseFmtPiece) isComma [] content with
    | error error => simp [fmtPieces, hpieces]
    | ok pieces =>
        by_cases hempty : pieces = []
        · simp [fmtPieces, hpieces, hempty]
        · simp [fmtPieces, hpieces, hempty, eq_comm]
  simp only [hspec, hread]

/-! ## routes -/

/-- A format is read as it is written. -/
theorem reads_fmtSpec :
    parseFmtSpec.Reads fun t spec => ∃ content pieces,
      t = [.atom (.ident "fmt"), .group .bracket content] ∧
        Listed isComma PieceText content pieces ∧ pieces ≠ [] ∧ spec = ⟨true, pieces⟩ := by
  refine ((reads_keyword "fmt").bind fun _ => Parser.reads_group fmtPieces_eq_ok_iff).congr
    fun t spec => ?_
  constructor
  · rintro ⟨_, _, _, rfl, ⟨content, rfl, pieces, hpieces, hne, rfl⟩, rfl⟩
    exact ⟨content, pieces, rfl, hpieces, hne, rfl⟩
  · rintro ⟨content, pieces, rfl, hpieces, hne, rfl⟩
    exact ⟨(), _, _, rfl, ⟨content, rfl, pieces, hpieces, hne, rfl⟩, rfl⟩

/-- A placeholder of a route is a reference with a scope. -/
theorem routePlaceholder_eq_ok_iff (inner : List Token) (atom : Sema.RouteAtom) :
    routePlaceholder inner = .ok atom ↔ ∃ scope, ∃ name : Ident,
      inner = scopedTokens scope name.name ∧ atom = .ref ⟨scope, name.name, true⟩ := by
  rw [routePlaceholder, Results.map_eq_ok_iff]
  constructor
  · rintro ⟨ref, href, rfl⟩
    obtain ⟨scope, name, hinner, rfl⟩ := parsePlaceholder_eq_ok_iff.mp href
    exact ⟨scope, name, hinner, rfl⟩
  · rintro ⟨scope, name, hinner, rfl⟩
    exact ⟨_, parsePlaceholder_eq_ok_iff.mpr ⟨scope, name, hinner, rfl⟩, rfl⟩

/-- An item is read as it is written before anything but a dot. -/
theorem before_routeAtom : parseRouteAtom.ReadsBefore NoDot AtomText := by
  have hrefused := fun error : ParseError =>
    (Parser.reads_throw error : Parser.Reads (throw error : TokenParser Sema.RouteAtom) _).before NoDot
  have hbraced := (Parser.reads_group routePlaceholder_eq_ok_iff :
    Parser.Reads (Parser.delimited (.expected "curly braces") .brace >>= fun inner =>
      Parser.ofExcept (routePlaceholder inner)) _).before NoDot
  refine (Parser.before_ite (reads_fmtSpec.map.before NoDot)
    (Parser.before_ite (reads_litStr.map.before NoDot)
      (Parser.before_ite before_scopedRef.map (Parser.before_ite hbraced (hrefused _) ?_) ?_) ?_)
      ?_).congr ?_
  · rintro t atom rest (⟨inner, rfl, _⟩ | hfalse)
    · rfl
    · exact hfalse.elim
  · rintro t atom rest (⟨ref, ht, _⟩ | ⟨_, inner, rfl, _⟩ | ⟨_, hfalse⟩)
    · exact peekIdent_append ht.tests.1 rest
    · rfl
    · exact hfalse.elim
  · rintro t atom rest (⟨value, rfl, _⟩ | ⟨_, ref, ht, _⟩ | ⟨_, ⟨_, inner, rfl, _⟩ | ⟨_, hfalse⟩⟩)
    · rfl
    · exact peekLitStr_append ht.tests.1 rest
    · rfl
    · exact hfalse.elim
  · rintro t atom rest (⟨spec, ⟨content, pieces, rfl, _⟩, _⟩ | ⟨_, value, rfl, _⟩ |
      ⟨_, ⟨_, ref, ht, _⟩ | ⟨_, ⟨_, inner, rfl, _⟩ | ⟨_, hfalse⟩⟩⟩)
    · rfl
    · rfl
    · exact peekKeyword_append "fmt" ht.tests.1 rest
    · rfl
    · exact hfalse.elim
  · intro t atom
    constructor
    · rintro (⟨_, spec, ⟨content, pieces, rfl, hpieces, hne, rfl⟩, rfl⟩ | ⟨hfmt, ⟨_, value, rfl, rfl⟩ |
        ⟨_, ⟨_, ref, ht, rfl⟩ | ⟨_, ⟨_, inner, rfl, hinner⟩ | ⟨_, hfalse⟩⟩⟩⟩)
      · exact .fmt hpieces hne
      · exact .static value
      · exact .ref (.plain ht hfmt)
      · obtain ⟨scope, name, rfl, rfl⟩ := hinner
        exact .ref (.braced scope name)
      · exact hfalse.elim
    · intro h
      cases h with
      | static value => exact .inr ⟨rfl, .inl ⟨rfl, value, rfl, rfl⟩⟩
      | fmt hpieces hne => exact .inl ⟨rfl, _, ⟨_, _, rfl, hpieces, hne, rfl⟩, rfl⟩
      | ref href =>
          cases href with
          | plain ht hfmt =>
              obtain ⟨_, hlit, _, hident⟩ := ht.tests
              exact .inr ⟨hfmt, .inr ⟨hlit, .inl ⟨hident, _, ht, rfl⟩⟩⟩
          | braced scope name =>
              exact .inr ⟨rfl, .inr ⟨rfl, .inr ⟨rfl, .inl ⟨rfl, _, rfl, scope, name, rfl, rfl⟩⟩⟩⟩

/-- An item has a text. -/
theorem AtomText.ne_nil {t : List Token} {atom : Sema.RouteAtom} (h : AtomText t atom) : t ≠ [] := by
  cases h with
  | static value => exact List.cons_ne_nil _ _
  | fmt _ _ => exact List.cons_ne_nil _ _
  | ref href =>
      cases href with
      | plain ht _ => exact ht.tests.1
      | braced scope name => exact List.cons_ne_nil _ _

/-- A route is read exactly from its text. -/
theorem routeAtoms_eq_ok_iff (content : List Token) (route : Sema.RouteExpr) :
    routeAtoms content = .ok route ↔ Separated isComma AtomText content route.atoms := by
  have hread : ∀ atoms,
      readSeparated parseRouteAtom isComma missingComma content.length [] content = .ok atoms ↔
        Separated isComma AtomText content atoms := fun atoms =>
    readSeparated_eq_ok_iff before_routeAtom (fun _ _ => AtomText.ne_nil) _ rfl noDot_comma
  rw [routeAtoms, Results.map_eq_ok_iff]
  constructor
  · rintro ⟨atoms, hatoms, rfl⟩
    exact (hread atoms).mp hatoms
  · intro hroute
    exact ⟨route.atoms, (hread _).mpr hroute, rfl⟩

/-- So is one in brackets. -/
theorem reads_route : parseRouteExprBracket.Reads RouteText :=
  Parser.reads_group routeAtoms_eq_ok_iff

/-- And a path, if no literal in it has a slash. -/
theorem reads_pathRoute :
    parsePathRouteExprBracket.Reads fun t route =>
      RouteText t route ∧ route.atoms.any hasSlashes = false := by
  refine (reads_route.bind fun route => Parser.reads_ofExcept (checkPath route)).congr
    fun t route => ?_
  have hcheck : ∀ read : Sema.RouteExpr, checkPath read = .ok route ↔
      read.atoms.any hasSlashes = false ∧ read = route := by
    intro read
    cases hslash : read.atoms.any hasSlashes with
    | true => simp [checkPath, hslash]
    | false => simp [checkPath, hslash]
  constructor
  · rintro ⟨read, before, _, hbefore, ⟨rfl, hok⟩, rfl⟩
    obtain ⟨hslash, rfl⟩ := (hcheck read).mp hok
    rw [List.append_nil]
    exact ⟨hbefore, hslash⟩
  · rintro ⟨hroute, hslash⟩
    exact ⟨route, t, [], hroute, ⟨rfl, (hcheck route).mpr ⟨hslash, rfl⟩⟩, (List.append_nil t).symm⟩

/-! ## what can be written -/

/-- A name that is not reserved. -/
def isIdent (name : String) : Bool := name ∉ reservedWords

/-- A reference that can be written: its name is an identifier, and one without its scope is of
the endpoint and is not called `fmt`. -/
def Writable.ref (ref : Sema.ScopedRef) : Bool :=
  isIdent ref.ident && (ref.explicit || ref.scope = .ep && ref.ident ≠ "fmt")

/-- A piece that can be written. -/
def Writable.piece : Sema.FmtPiece → Bool
  | .lit _ => true
  | .ref ref => Writable.ref ref && ref.scope ≠ .auth

/-- An item that can be written. -/
def Writable.atom : Sema.RouteAtom → Bool
  | .static _ => true
  | .ref ref => Writable.ref ref
  | .fmt spec => spec.requireAll && spec.pieces ≠ [] && spec.pieces.all Writable.piece

/-- The tokens of a reference. -/
def refTokens (ref : Sema.ScopedRef) : List Token :=
  if ref.explicit then scopedTokens ref.scope ref.ident else [.atom (.ident ref.ident)]

/-- How a piece is written. -/
def pieceTokens : Sema.FmtPiece → List Token
  | .lit value => [.atom (.str value)]
  | .ref ref => refTokens ref

/-- How an item is written. -/
def atomTokens : Sema.RouteAtom → List Token
  | .static value => [.atom (.str value)]
  | .ref ref => refTokens ref
  | .fmt spec => [.atom (.ident "fmt"), .group .bracket (spec.pieces.flatMap pieceTokens)]

/-- The plain text of a route, with a comma after every item. -/
def routeTokens (route : Sema.RouteExpr) : List Token :=
  [.group .bracket (route.atoms.flatMap fun atom => atomTokens atom ++ [.atom (.punct ',')])]

/-- What can be written is spelled by its tokens. -/
theorem refItemText_tokens {ref : Sema.ScopedRef} (h : Writable.ref ref = true) :
    RefItemText (refTokens ref) ref := by
  obtain ⟨scope, name, explicit⟩ := ref
  simp only [Writable.ref, Bool.and_eq_true, Bool.or_eq_true, decide_eq_true_eq] at h
  obtain ⟨hident, hscope⟩ := h
  have hname : name ∉ reservedWords := by simpa [isIdent] using hident
  cases explicit with
  | true =>
      have hfmt : peekKeyword "fmt" (scopedTokens scope name) = false := by
        cases scope with
        | cx => simp [scopedTokens, scopeWord, peekKeyword]
        | ep => simp [scopedTokens, scopeWord, peekKeyword]
        | auth => simp [scopedTokens, scopeWord, peekKeyword]
      exact .plain (.dotted scope ⟨name, hname⟩) hfmt
  | false =>
      obtain ⟨rfl, hne⟩ : scope = .ep ∧ name ≠ "fmt" := by simpa using hscope
      have hfmt : peekKeyword "fmt" [.atom (.ident name)] = false := by simpa [peekKeyword] using hne
      exact .plain (.bare ⟨name, hname⟩) hfmt

/-- A reference that is spelled can be written. -/
theorem RefItemText.writable {t : List Token} {ref : Sema.ScopedRef} (h : RefItemText t ref) :
    Writable.ref ref = true := by
  cases h with
  | braced scope name => simp [Writable.ref, isIdent, name.not_reserved]
  | plain ht hfmt =>
      cases ht with
      | dotted scope name => simp [Writable.ref, isIdent, name.not_reserved]
      | bare name =>
          have hne : name.name ≠ "fmt" := by simpa [peekKeyword] using hfmt
          simp [Writable.ref, isIdent, name.not_reserved, hne]

/-- A piece is spelled as it is written. -/
theorem pieceText_tokens {piece : Sema.FmtPiece} (h : Writable.piece piece = true) :
    PieceText (pieceTokens piece) piece := by
  cases piece with
  | lit value => exact .lit value
  | ref ref =>
      simp only [Writable.piece, Bool.and_eq_true, decide_eq_true_eq] at h
      exact .ref (refItemText_tokens h.1) h.2

/-- A piece that is spelled can be written. -/
theorem PieceText.writable {t : List Token} {piece : Sema.FmtPiece} (h : PieceText t piece) :
    Writable.piece piece = true := by
  cases h with
  | lit value => rfl
  | ref href hscope => simp [Writable.piece, href.writable, hscope]

/-- An item is spelled as it is written. -/
theorem atomText_tokens {atom : Sema.RouteAtom} (h : Writable.atom atom = true) :
    AtomText (atomTokens atom) atom := by
  cases atom with
  | static value => exact .static value
  | ref ref => exact .ref (refItemText_tokens h)
  | fmt spec =>
      obtain ⟨requireAll, pieces⟩ := spec
      simp only [Writable.atom, Bool.and_eq_true, decide_eq_true_eq, List.all_eq_true] at h
      obtain ⟨⟨rfl, hne⟩, hpieces⟩ := h
      exact .fmt (listed_flatMap fun piece hmem => pieceText_tokens (hpieces piece hmem)) hne

/-- An item that is spelled can be written. -/
theorem AtomText.writable {t : List Token} {atom : Sema.RouteAtom} (h : AtomText t atom) :
    Writable.atom atom = true := by
  cases h with
  | static value => rfl
  | ref href => exact href.writable
  | fmt hpieces hne =>
      have hall : ∀ piece ∈ _, Writable.piece piece = true := fun piece hmem =>
        (hpieces.spelled piece hmem).elim fun _ ht => ht.writable
      simpa [Writable.atom, hne] using hall

/-- **Routes are read as they are written.**  The parser accepts exactly the texts of routes and
leaves what follows, and a text spells at most one route; a path is a route whose `fmt[...]` has no
slash in a literal.  Every route that can be written is read back from its tokens, and no other
route is ever read: a reference in `fmt[...]` is never one to a secret. -/
theorem route_grammar :
    parseRouteExprBracket.Reads RouteText ∧
    (parsePathRouteExprBracket.Reads fun t route =>
      RouteText t route ∧ route.atoms.any hasSlashes = false) ∧
    (∀ t route route', RouteText t route → RouteText t route' → route = route') ∧
    ∀ route : Sema.RouteExpr,
      (route.atoms.all Writable.atom = true → ∀ rest,
        parseRouteExprBracket.run (routeTokens route ++ rest) = .ok (route, rest) ∧
        (route.atoms.any hasSlashes = false →
          parsePathRouteExprBracket.run (routeTokens route ++ rest) = .ok (route, rest))) ∧
      ∀ input rest, parseRouteExprBracket.run input = .ok (route, rest) →
        route.atoms.all Writable.atom = true := by
  have hunique : ∀ t route route', RouteText t route → RouteText t route' → route = route' :=
    fun t route route' ht ht' => (reads_route.unique ht ht' (show t ++ [] = t ++ [] from rfl)).2
  refine ⟨reads_route, reads_pathRoute, hunique, fun route => ⟨?_, ?_⟩⟩
  · intro hwritable rest
    rw [List.all_eq_true] at hwritable
    have htext : RouteText (routeTokens route) route :=
      ⟨_, rfl, separated_flatMap rfl fun atom hmem => atomText_tokens (hwritable atom hmem)⟩
    exact ⟨reads_route.run htext rest, fun hslash => reads_pathRoute.run ⟨htext, hslash⟩ rest⟩
  · intro input rest hrun
    obtain ⟨_, ⟨content, rfl, hatoms⟩, _⟩ := (reads_route _ _ _).mp hrun
    rw [List.all_eq_true]
    intro atom hmem
    obtain ⟨t, ht⟩ := hatoms.spelled atom hmem
    exact ht.writable

end Concord.Parse
