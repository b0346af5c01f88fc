import Mathlib.Data.List.Basic
import Concord.Parse.Tokens

/-!
# Concord.Parse.PublicExpr

What a public expression must not name
(`concord_macros/src/emit_helpers.rs`, `validate_public_expr` in
`concord_macros/src/sema/policy.rs`): the search for names of the generated code
and for methods that expose secrets, in the expression and in the tokens of the
macros in it.

An expression is given by what `syn::visit` finds in it: paths, calls of
methods and macros, and anything else by the nodes below it.
-/

namespace Concord.Parse

open Parsing

/-! ## names -/

/-- Why a word is forbidden. -/
inductive PublicExprForbiddenKind where
  | auth
  | secret
  | generatedLocal
  | secretExposure
  deriving DecidableEq, Repr

/-- A forbidden word. -/
structure PublicExprForbidden where
  ident : String
  kind : PublicExprForbiddenKind
  deriving DecidableEq, Repr

/-- The words that are forbidden wherever they stand. -/
def publicExprForbiddenIdentKind (ident : String) : Option PublicExprForbiddenKind :=
  if ident = "auth" then some .auth
  else if ident ∈ ["secret", "secrets"] then some .secret
  else if ident ∈ ["ctx", "cx", "ep", "vars", "client", "runtime", "policy", "req", "request",
      "headers", "url", "transport", "self"] then some .generatedLocal
  else none

/-- A raw identifier without its mark. -/
def unrawIdentText (ident : String) : String :=
  match ident.toList with
  | 'r' :: '#' :: text => String.ofList text
  | _ => ident

/-- The methods that show a secret. -/
def isSecretExposureMethod (ident : String) : Bool := ident ∈ ["expose", "expose_secret"]

/-! ## tokens -/

/-- How deep groups of tokens may be nested. -/
def maxPublicExprTokenGroupDepth : Nat := 64

/-- They are nested deeper. -/
def publicExprTokenGroupDepthError : ParseError :=
  .refused "public expression token nesting exceeds maximum supported depth of 64"

/-- An identifier among tokens, and whether a dot comes right before it. -/
structure Word where
  afterDot : Bool
  ident : String
  deriving DecidableEq, Repr

/-- The check of an identifier in `public_token_stream_forbidden`. -/
def Word.forbidden (word : Word) : Option PublicExprForbidden :=
  let text := unrawIdentText word.ident
  if word.afterDot ∧ isSecretExposureMethod text then some ⟨text, .secretExposure⟩
  else (publicExprForbiddenIdentKind text).map (⟨text, ·⟩)

/-- What was found so far, if anything. -/
abbrev Found := Except ParseError (Option PublicExprForbidden)

/-- The loop of `public_token_stream_forbidden`, from some token on; a group is
scanned one level deeper, if there is one. -/
def scanTokens (depth : Nat) (prevWasDot : Bool) : List Token → Found
  | [] => .ok none
  | .atom (.ident ident) :: rest =>
    match (Word.mk prevWasDot ident).forbidden with
    | some found => .ok (some found)
    | none => scanTokens depth false rest
  | .atom (.punct char) :: rest => scanTokens depth (char = '.') rest
  | .atom (.int _ _) :: rest => scanTokens depth false rest
  | .atom (.str _) :: rest => scanTokens depth false rest
  | .atom (.literal _) :: rest => scanTokens depth false rest
  | .group _ stream :: rest =>
    if depth + 1 > maxPublicExprTokenGroupDepth then .error publicExprTokenGroupDepthError
    else
      match scanTokens (depth + 1) false stream with
      | .error error => .error error
      | .ok (some found) => .ok (some found)
      | .ok none => scanTokens depth false rest

/-- The tokens of a macro are looked at word by word. -/
def publicTokenStreamForbidden (tokens : List Token) (depth : Nat) : Found :=
  if depth > maxPublicExprTokenGroupDepth then .error publicExprTokenGroupDepthError
  else scanTokens depth false tokens

/-- The identifiers of a stream and of the groups in it, in reading order. -/
def words (prevWasDot : Bool) : List Token → List Word
  | [] => []
  | .atom (.ident ident) :: rest => ⟨prevWasDot, ident⟩ :: words false rest
  | .atom (.punct char) :: rest => words (char = '.') rest
  | .atom (.int _ _) :: rest => words false rest
  | .atom (.str _) :: rest => words false rest
  | .atom (.literal _) :: rest => words false rest
  | .group _ stream :: rest => words false stream ++ words false rest

/-- How deep the groups of a stream go. -/
def nesting : List Token → Nat
  | [] => 0
  | .atom _ :: rest => nesting rest
  | .group _ stream :: rest => max (nesting stream + 1) (nesting rest)

section tokens

variable {depth : Nat} {prevWasDot : Bool} {tokens : List Token}

/-- A scan that ends reports the first name that is forbidden, wherever it is;
one that reports none has been through all groups. -/
theorem scanTokens_eq_ok {found : Option PublicExprForbidden}
    (h : scanTokens depth prevWasDot tokens = .ok found) :
    (words prevWasDot tokens).findSome? Word.forbidden = found ∧
      (found = none → depth ≤ maxPublicExprTokenGroupDepth →
        depth + nesting tokens ≤ maxPublicExprTokenGroupDepth) := by
  fun_induction scanTokens depth prevWasDot tokens generalizing found with
  | case1 depth prevWasDot =>
      cases h
      simp [words, nesting]
  | case2 depth prevWasDot ident rest found' hfound =>
      cases h
      exact ⟨by simp [words, hfound], fun hnone => by cases hnone⟩
  | case3 depth prevWasDot ident rest hnone ih =>
      simpa [words, nesting, hnone] using ih h
  | case4 depth prevWasDot char rest ih => simpa [words, nesting] using ih h
  | case5 depth prevWasDot value suffix rest ih => simpa [words, nesting] using ih h
  | case6 depth prevWasDot value rest ih => simpa [words, nesting] using ih h
  | case7 depth prevWasDot text rest ih => simpa [words, nesting] using ih h
  | case8 depth prevWasDot delimiter stream rest hdeep => cases h
  | case9 depth prevWasDot delimiter stream rest hdeep error herror ih => cases h
  | case10 depth prevWasDot delimiter stream rest hdeep found' hfound ih =>
      cases h
      obtain ⟨hinner, _⟩ := ih hfound
      exact ⟨by simp [words, List.findSome?_append, hinner], fun hnone => by cases hnone⟩
  | case11 depth prevWasDot delimiter stream rest hdeep hnone ih ihrest =>
      obtain ⟨hinner, hnesting⟩ := ih hnone
      obtain ⟨hrest, hnestingRest⟩ := ihrest h
      refine ⟨by simp [words, List.findSome?_append, hinner, hrest], fun hfound hdepth => ?_⟩
      have hstream := hnesting rfl (by omega)
      have hafter := hnestingRest hfound hdepth
      simp only [nesting]
      omega

/-- A scan fails only for a group that is too deep. -/
theorem scanTokens_ne_error (h : depth + nesting tokens ≤ maxPublicExprTokenGroupDepth)
    (error : ParseError) : scanTokens depth prevWasDot tokens ≠ .error error := by
  fun_induction scanTokens depth prevWasDot tokens with
  | case1 | case2 | case10 => simp
  | case3 _ _ _ _ _ ih | case4 _ _ _ _ ih | case5 _ _ _ _ _ ih | case6 _ _ _ _ ih
  | case7 _ _ _ _ ih => exact ih (by simpa [nesting] using h)
  | case8 depth prevWasDot delimiter stream rest hdeep =>
      simp only [nesting] at h
      omega
  | case9 depth prevWasDot delimiter stream rest hdeep error' herror ih =>
      simp only [nesting] at h
      intro hsame
      cases hsame
      exact ih (by omega) herror
  | case11 depth prevWasDot delimiter stream rest hdeep hnone ih ihrest =>
      simp only [nesting] at h
      exact ihrest (by omega)

/-- Looking at tokens fails only for their depth. -/
theorem scanTokens_error {error : ParseError}
    (h : scanTokens depth prevWasDot tokens = .error error) :
    error = publicExprTokenGroupDepthError := by
  fun_induction scanTokens depth prevWasDot tokens with
  | case1 | case2 | case10 => cases h
  | case3 _ _ _ _ _ ih | case4 _ _ _ _ ih | case5 _ _ _ _ _ ih | case6 _ _ _ _ ih
  | case7 _ _ _ _ ih => exact ih h
  | case8 => exact (Except.error.inj h).symm
  | case9 depth prevWasDot delimiter stream rest hdeep error' herror ih =>
      cases h
      exact ih herror
  | case11 depth prevWasDot delimiter stream rest hdeep hnone ih ihrest => exact ihrest h

/-- An identifier somewhere in a stream, however deep. -/
inductive Within (name : String) : List Token → Prop
  | here {tokens : List Token} (h : .atom (.ident name) ∈ tokens) : Within name tokens
  | deeper {tokens stream : List Token} {delimiter : Delimiter}
      (hgroup : .group delimiter stream ∈ tokens) (h : Within name stream) : Within name tokens

/-- The words of a token come before those after it. -/
theorem words_of_cons (prevWasDot : Bool) (token : Token) (rest : List Token) :
    ∃ before after, words prevWasDot (token :: rest) = before ++ words after rest ∧
      (∀ name, token = .atom (.ident name) → ⟨prevWasDot, name⟩ ∈ before) ∧
      ∀ delimiter stream, token = .group delimiter stream → words false stream ⊆ before := by
  cases token with
  | group delimiter stream =>
      refine ⟨words false stream, false, by simp [words], by simp, ?_⟩
      rintro _ _ ⟨⟩
      exact fun _ hmem => hmem
  | atom atom =>
      cases atom with
      | ident name => exact ⟨[⟨prevWasDot, name⟩], false, by simp [words], by simp, by simp⟩
      | punct char => exact ⟨[], char = '.', by simp [words], by simp, by simp⟩
      | int value suffix => exact ⟨[], false, by simp [words], by simp, by simp⟩
      | str value => exact ⟨[], false, by simp [words], by simp, by simp⟩
      | literal text => exact ⟨[], false, by simp [words], by simp, by simp⟩

/-- Every identifier is looked at, also inside groups. -/
theorem words_of_mem {token : Token} (h : token ∈ tokens) (prevWasDot : Bool) :
    (∀ name, token = .atom (.ident name) → ∃ word ∈ words prevWasDot tokens, word.ident = name) ∧
      ∀ delimiter stream, token = .group delimiter stream →
        words false stream ⊆ words prevWasDot tokens := by
  induction tokens generalizing prevWasDot with
  | nil => contradiction
  | cons first rest ih =>
      obtain ⟨before, after, heq, hident, hgroup⟩ := words_of_cons prevWasDot first rest
      rw [heq]
      rcases List.mem_cons.mp h with rfl | hrest
      · refine ⟨fun name hname => ?_, fun delimiter stream hstream => ?_⟩
        · exact ⟨_, List.mem_append_left _ (hident name hname), rfl⟩
        · exact fun word hword => List.mem_append_left _ (hgroup delimiter stream hstream hword)
      · obtain ⟨hident, hgroup⟩ := ih hrest after
        refine ⟨fun name hname => ?_, fun delimiter stream hstream => ?_⟩
        · obtain ⟨word, hword, hsame⟩ := hident name hname
          exact ⟨word, List.mem_append_right _ hword, hsame⟩
        · exact fun word hword => List.mem_append_right _ (hgroup delimiter stream hstream hword)

/-- Every identifier is among the words. -/
theorem Within.mem_words {name : String} (h : Within name tokens) (prevWasDot : Bool) :
    ∃ word ∈ words prevWasDot tokens, word.ident = name := by
  induction h generalizing prevWasDot with
  | here hmem => exact (words_of_mem hmem prevWasDot).1 name rfl
  | deeper hgroup _ ih =>
      obtain ⟨word, hword, hsame⟩ := ih false
      exact ⟨word, (words_of_mem hgroup prevWasDot).2 _ _ rfl hword, hsame⟩

/-- A word that may stand has no forbidden name. -/
theorem Word.kind_of_forbidden {word : Word} (h : word.forbidden = none) :
    publicExprForbiddenIdentKind (unrawIdentText word.ident) = none := by
  unfold Word.forbidden at h
  simp only at h
  split at h
  · contradiction
  · simpa using h

end tokens

/-! ## expressions -/

/-- The nodes of an expression; a path and a macro come with the first segment
of their path. -/
inductive PublicNode where
  | exprPath (first : String) (children : List PublicNode)
  | methodCall (method : String) (children : List PublicNode)
  | macroCall (first : String) (tokens : List Token)
  | other (children : List PublicNode)

/-- What the finder looks at. -/
inductive Looked where
  | ident (name : String)
  | method (name : String)
  | tokens (stream : List Token)

/-- `record_ident`, `record_secret_exposure` and `scan_tokens` of the finder,
when nothing was found. -/
def Looked.found : Looked → Found
  | .ident name =>
    .ok ((publicExprForbiddenIdentKind (unrawIdentText name)).map (⟨unrawIdentText name, ·⟩))
  | .method name =>
    if isSecretExposureMethod (unrawIdentText name) then
      .ok (some ⟨unrawIdentText name, .secretExposure⟩)
    else .ok none
  | .tokens stream => publicTokenStreamForbidden stream 0

/-- The finder keeps what it found first. -/
def Looked.record (found : Found) (looked : Looked) : Found :=
  match found with
  | .ok none => looked.found
  | .ok (some _) => found
  | .error _ => found

/-- Whether a word was found. -/
def Found.isSome : Found → Bool
  | .ok (some _) => true
  | .ok none => false
  | .error _ => false

/-- The finder over nodes that follow each other.  A node whose name is
forbidden is not gone into. -/
def visit (found : Found) : List PublicNode → Found
  | [] => found
  | .exprPath first children :: rest =>
    let found := Looked.record found (.ident first)
    visit (if Found.isSome found then found else visit found children) rest
  | .methodCall method children :: rest =>
    let found := Looked.record found (.method method)
    visit (if Found.isSome found then found else visit found children) rest
  | .macroCall first tokens :: rest =>
    let found := Looked.record found (.ident first)
    visit (if Found.isSome found then found else Looked.record found (.tokens tokens)) rest
  | .other children :: rest => visit (visit found children) rest

/-- `public_expr_forbidden`. -/
def publicExprForbidden (expr : PublicNode) : Found := visit (.ok none) [expr]

/-- The refusal, by the kind of the word. -/
def publicExprForbiddenError (found : PublicExprForbidden) : ParseError :=
  .refused (match found.kind with
    | .auth => "auth references are not allowed in public policy expressions; use an auth declaration/use instead"
    | .secret => "secret references are only allowed in credential declarations"
    | .generatedLocal => "generated implementation local `" ++ found.ident ++
      "` is not part of the public DSL expression scope"
    | .secretExposure =>
      "secret exposure methods are not allowed in public policy expressions")

/-- An expression is refused for the word that is found. -/
def validatePublicExpr (expr : PublicNode) : Except ParseError Unit :=
  match publicExprForbidden expr with
  | .error error => .error error
  | .ok (some found) => .error (publicExprForbiddenError found)
  | .ok none => .ok ()

/-- What the finder looks at in nodes, in its order. -/
def looks : List PublicNode → List Looked
  | [] => []
  | .exprPath first children :: rest => .ident first :: (looks children ++ looks rest)
  | .methodCall method children :: rest => .method method :: (looks children ++ looks rest)
  | .macroCall first tokens :: rest => .ident first :: .tokens tokens :: looks rest
  | .other children :: rest => looks children ++ looks rest

section nodes

variable {found : Found} {nodes : List PublicNode}

/-- The first finding stays. -/
theorem foldl_record_of_ne (h : found ≠ .ok none) (all : List Looked) :
    all.foldl Looked.record found = found := by
  induction all with
  | nil => rfl
  | cons looked all ih =>
      have hrecord : Looked.record found looked = found := by
        match found, h with
        | .ok none, h => exact absurd rfl h
        | .ok (some _), _ => rfl
        | .error _, _ => rfl
      rw [List.foldl_cons, hrecord, ih]

/-- Not going into a node makes no difference. -/
theorem visit_eq (found : Found) (nodes : List PublicNode) :
    visit found nodes = (looks nodes).foldl Looked.record found := by
  have hskip : ∀ (found : Found) (all : List Looked),
      (if Found.isSome found then found else all.foldl Looked.record found) =
        all.foldl Looked.record found := by
    intro found all
    split
    · next hsome =>
        refine (foldl_record_of_ne ?_ all).symm
        rintro rfl
        contradiction
    · rfl
  fun_induction visit found nodes with
  | case1 found => simp [looks]
  | case2 found first children rest found' ih _ ihrest
  | case3 found method children rest found' ih _ ihrest =>
      simp only [dite_eq_ite] at ihrest
      rw [ihrest, ih, hskip]
      simp [looks, found']
  | case4 found first tokens rest found' ihrest =>
      simp only [dite_eq_ite] at ihrest
      rw [ihrest]
      have hone := hskip found' [.tokens tokens]
      simp only [List.foldl_cons, List.foldl_nil] at hone
      rw [hone]
      simp [looks, found']
  | case5 found children rest ih ihrest =>
      rw [ihrest, ih]
      simp [looks]

/-- Nothing is found if no look finds anything. -/
theorem foldl_record_eq_ok_none_iff {all : List Looked} :
    all.foldl Looked.record (.ok none) = .ok none ↔ ∀ looked ∈ all, looked.found = .ok none := by
  induction all with
  | nil => simp
  | cons looked all ih =>
      rw [List.foldl_cons, List.forall_mem_cons]
      by_cases hlooked : looked.found = .ok none
      · have hrecord : Looked.record (.ok none) looked = .ok none := hlooked
        rw [hrecord, ih]
        exact (and_iff_right hlooked).symm
      · have hrecord : Looked.record (.ok none) looked = looked.found := rfl
        rw [hrecord, foldl_record_of_ne hlooked]
        exact ⟨fun h => absurd h hlooked, fun h => absurd h.1 hlooked⟩

/-- What is found was looked at, and nothing was found before. -/
theorem exists_of_foldl_record {all : List Looked} (h : all.foldl Looked.record (.ok none) = found)
    (hfound : found ≠ .ok none) : ∃ before looked after, all = before ++ looked :: after ∧
      (∀ other ∈ before, other.found = .ok none) ∧ looked.found = found := by
  induction all with
  | nil => exact absurd h.symm hfound
  | cons looked all ih =>
      rw [List.foldl_cons] at h
      by_cases hlooked : looked.found = .ok none
      · have hrecord : Looked.record (.ok none) looked = .ok none := hlooked
        rw [hrecord] at h
        obtain ⟨before, later, after, rfl, hbefore, hlater⟩ := ih h
        exact ⟨looked :: before, later, after, rfl, List.forall_mem_cons.mpr ⟨hlooked, hbefore⟩,
          hlater⟩
      · have hrecord : Looked.record (.ok none) looked = looked.found := rfl
        rw [hrecord, foldl_record_of_ne hlooked] at h
        exact ⟨[], looked, all, rfl, by simp, h⟩

end nodes

/-! ## what passes -/

/-- A name, a method or the tokens of a macro that may be in a public
expression. -/
def Looked.Clean : Looked → Prop
  | .ident name => publicExprForbiddenIdentKind (unrawIdentText name) = none
  | .method name => isSecretExposureMethod (unrawIdentText name) = false
  | .tokens stream => nesting stream ≤ maxPublicExprTokenGroupDepth ∧
    ∀ word ∈ words false stream, word.forbidden = none

/-- A look finds nothing if what it looks at is clean. -/
theorem Looked.found_eq_ok_none_iff (looked : Looked) : looked.found = .ok none ↔ looked.Clean := by
  cases looked with
  | ident name => simp [Looked.found, Looked.Clean]
  | method name =>
      by_cases h : isSecretExposureMethod (unrawIdentText name) = true
      · simp [Looked.found, Looked.Clean, h]
      · simp [Looked.found, Looked.Clean, h]
  | tokens stream =>
      have hscan : (Looked.tokens stream).found = scanTokens 0 false stream := rfl
      rw [hscan]
      constructor
      · intro h
        obtain ⟨hnone, hnesting⟩ := scanTokens_eq_ok h
        rw [List.findSome?_eq_none_iff] at hnone
        have hdepth := hnesting rfl (Nat.zero_le _)
        exact ⟨by omega, hnone⟩
      · rintro ⟨hnesting, hwords⟩
        cases hresult : scanTokens 0 false stream with
        | error error => exact absurd hresult (scanTokens_ne_error (by omega) error)
        | ok found =>
            rw [← (scanTokens_eq_ok hresult).1, List.findSome?_eq_none_iff.mpr hwords]

/-- What is forbidden in what is looked at. -/
def Looked.names : Looked → Option PublicExprForbidden
  | .ident name =>
    (publicExprForbiddenIdentKind (unrawIdentText name)).map (⟨unrawIdentText name, ·⟩)
  | .method name =>
    if isSecretExposureMethod (unrawIdentText name) then
      some ⟨unrawIdentText name, .secretExposure⟩
    else none
  | .tokens stream => (words false stream).findSome? Word.forbidden

/-- A look names what it finds. -/
theorem Looked.names_of_found {looked : Looked} {found : Option PublicExprForbidden}
    (h : looked.found = .ok found) : looked.names = found := by
  cases looked with
  | ident name => exact Except.ok.inj h
  | method name =>
      simp only [Looked.found] at h
      simp only [Looked.names]
      split at h
      · next hexposes => rw [if_pos hexposes, Except.ok.inj h]
      · next hexposes => rw [if_neg hexposes, Except.ok.inj h]
  | tokens stream => exact (scanTokens_eq_ok h).1

/-- A look fails only for tokens that are too deep. -/
theorem Looked.error_of_found {looked : Looked} {error : ParseError}
    (h : looked.found = .error error) : error = publicExprTokenGroupDepthError ∧
      ∃ stream, looked = .tokens stream ∧ maxPublicExprTokenGroupDepth < nesting stream := by
  cases looked with
  | ident name => cases h
  | method name =>
      simp only [Looked.found] at h
      split at h <;> cases h
  | tokens stream =>
      have hscan : scanTokens 0 false stream = .error error := h
      refine ⟨scanTokens_error hscan, stream, rfl, ?_⟩
      by_contra hle
      exact scanTokens_ne_error (by omega) error hscan

/-- What is found is the first finding of all looks. -/
theorem publicExprForbidden_eq (expr : PublicNode) :
    publicExprForbidden expr = (looks [expr]).foldl Looked.record (.ok none) :=
  visit_eq _ _

end Concord.Parse
