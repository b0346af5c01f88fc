import Concord.Lib.TokenTree

/-!
# Concord.Parse.Tokens

What the parsers of `concord_macros/src/parse` read with `syn`: keywords,
identifiers, literals, punctuation and groups.

A literal comes with its value and its suffix.  Spans, and groups without
delimiters, which other macros leave behind, are left out.
-/

namespace Concord.Parse

open Parsing

/-- A token that is no group; `literal` is any literal but an integer and a
string. -/
inductive Atom where
  | ident (name : String)
  | punct (char : Char)
  | int (value : Nat) (suffix : String)
  | str (value : String)
  | literal (text : String)
  deriving DecidableEq, Repr

/-- The tokens a macro gets. -/
abbrev Token := TokenTree Atom

/-- An error of `syn`, by what it expected, or one of the parsers' own. -/
inductive ParseError where
  | expected (what : String)
  | refused (message : String)
  deriving DecidableEq, Repr

/-- A parser over them. -/
abbrev TokenParser (α : Type) := Parser ParseError Token α

/-! ## identifiers -/

/-- The words that `syn` takes for no identifier. -/
def reservedWords : List String :=
  ["_", "abstract", "as", "async", "await", "become", "box", "break", "const", "continue", "crate",
    "do", "dyn", "else", "enum", "extern", "false", "final", "fn", "for", "if", "impl", "in", "let",
    "loop", "macro", "match", "mod", "move", "mut", "override", "priv", "pub", "ref", "return",
    "Self", "self", "static", "struct", "super", "trait", "true", "try", "type", "typeof", "unsafe",
    "unsized", "use", "virtual", "where", "while", "yield"]

/-- `syn::Ident`, with its `r#` if it is raw. -/
structure Ident where
  name : String
  not_reserved : name ∉ reservedWords
  deriving DecidableEq, Repr

/-- An identifier that is not reserved. -/
def ident : TokenParser Ident :=
  Parser.token (.expected "identifier") fun
    | .atom (.ident name) =>
      if h : name ∉ reservedWords then .ok ⟨name, h⟩ else .error (.expected "identifier")
    | _ => .error (.expected "identifier")

/-- One particular token. -/
def exactly (what : String) (wanted : Atom) : TokenParser Unit :=
  Parser.token (.expected what) fun
    | .atom found => if found = wanted then .ok () else .error (.expected what)
    | .group _ _ => .error (.expected what)

/-- A keyword of the language, which is an identifier to `syn`. -/
def keyword (word : String) : TokenParser Unit := exactly word (.ident word)

/-- One character of punctuation. -/
def punct (char : Char) : TokenParser Unit := exactly char.toString (.punct char)

/-- Whether a word comes next. -/
def peekKeyword (word : String) : List Token → Bool
  | .atom (.ident name) :: _ => name = word
  | _ => false

/-! ## literals and separators -/

/-- `syn::LitInt`. -/
structure LitInt where
  negative : Bool
  value : Nat
  suffix : String
  deriving DecidableEq, Repr

/-- The tokens of a literal; the sign of a negative one is its own. -/
def LitInt.tokens (lit : LitInt) : List Token :=
  (if lit.negative then [.atom (.punct '-')] else []) ++ [.atom (.int lit.value lit.suffix)]

/-- An integer, with a sign if it has one. -/
def litInt : TokenParser LitInt
  | .atom (.int value suffix) :: rest => .ok (⟨false, value, suffix⟩, rest)
  | .atom (.punct '-') :: .atom (.int value suffix) :: rest => .ok (⟨true, value, suffix⟩, rest)
  | _ => .error (.expected "integer literal")

/-- Whether an integer comes next. -/
def peekLitInt : List Token → Bool
  | .atom (.int _ _) :: _ => true
  | .atom (.punct '-') :: .atom (.int _ _) :: _ => true
  | _ => false

/-- A string. -/
def litStr : TokenParser String :=
  Parser.token (.expected "string literal") fun
    | .atom (.str value) => .ok value
    | _ => .error (.expected "string literal")

/-- Whether a string comes next. -/
def peekLitStr : List Token → Bool
  | .atom (.str _) :: _ => true
  | _ => false

/-- `Token![,]`. -/
def isComma : Token → Bool
  | .atom (.punct char) => char = ','
  | _ => false

/-! ## groups -/

/-- What stands in braces. -/
def braced : TokenParser (List Token) := Parser.delimited (.expected "curly braces") .brace

/-- What stands in brackets. -/
def bracketed : TokenParser (List Token) := Parser.delimited (.expected "square brackets") .bracket

/-- Whether a group comes next. -/
def peekGroup (delimiter : Delimiter) : List Token → Bool
  | .group found _ :: _ => found = delimiter
  | _ => false

/-! ## grammars -/

/-- An identifier is read from its token. -/
theorem reads_ident : ident.Reads fun t id => t = [.atom (.ident id.name)] := by
  refine (Parser.reads_token _ _).congr fun t id => ?_
  constructor
  · rintro ⟨first, rfl, hread⟩
    split at hread
    · next name =>
        split at hread
        · next hname =>
            cases hread
            rfl
        · cases hread
    · cases hread
  · rintro rfl
    exact ⟨_, rfl, dif_pos id.not_reserved⟩

/-- A wanted token is read from itself. -/
theorem reads_exactly (what : String) (wanted : Atom) :
    (exactly what wanted).Reads fun t _ => t = [.atom wanted] := by
  refine (Parser.reads_token _ _).congr fun t _ => ?_
  constructor
  · rintro ⟨first, rfl, hread⟩
    split at hread
    · split at hread
      · next heq => rw [heq]
      · cases hread
    · cases hread
  · rintro rfl
    exact ⟨_, rfl, if_pos rfl⟩

/-- A word is read from its token. -/
theorem reads_keyword (word : String) :
    (keyword word).Reads fun t _ => t = [.atom (.ident word)] :=
  reads_exactly word _

/-- An integer is read from its tokens. -/
theorem reads_litInt : litInt.Reads fun t lit => t = lit.tokens := by
  intro input lit rest
  constructor
  · intro h
    rw [StateT.run] at h
    unfold litInt at h
    split at h
    · cases h
      exact ⟨_, rfl, rfl⟩
    · cases h
      exact ⟨_, rfl, rfl⟩
    · cases h
  · rintro ⟨_, rfl, rfl⟩
    obtain ⟨negative, value, suffix⟩ := lit
    cases negative <;> rfl

/-- A string is read from its token. -/
theorem reads_litStr : litStr.Reads fun t value => t = [.atom (.str value)] := by
  refine (Parser.reads_token _ _).congr fun t value => ?_
  constructor
  · rintro ⟨first, rfl, hread⟩
    split at hread
    · cases hread
      rfl
    · cases hread
  · rintro rfl
    exact ⟨_, rfl, rfl⟩

/-- A character is read from its token. -/
theorem reads_punct (char : Char) : (punct char).Reads fun t _ => t = [.atom (.punct char)] :=
  reads_exactly char.toString _

/-! ## looking ahead -/

variable {t : List Token}

/-- What comes next does not depend on what comes later. -/
theorem peekKeyword_append (word : String) (h : t ≠ []) (rest : List Token) :
    peekKeyword word (t ++ rest) = peekKeyword word t := by
  obtain ⟨first, tail, rfl⟩ := List.exists_cons_of_ne_nil h
  cases first with
  | group _ _ => rfl
  | atom atom => cases atom <;> rfl

/-- The same of a string. -/
theorem peekLitStr_append (h : t ≠ []) (rest : List Token) :
    peekLitStr (t ++ rest) = peekLitStr t := by
  obtain ⟨first, tail, rfl⟩ := List.exists_cons_of_ne_nil h
  cases first with
  | group _ _ => rfl
  | atom atom => cases atom <;> rfl

/-- And of a group. -/
theorem peekGroup_append (delimiter : Delimiter) (h : t ≠ []) (rest : List Token) :
    peekGroup delimiter (t ++ rest) = peekGroup delimiter t := by
  obtain ⟨first, tail, rfl⟩ := List.exists_cons_of_ne_nil h
  cases first <;> rfl

/-- An integer literal starts a text if it is the whole of it up to a sign. -/
theorem peekLitInt_tokens (lit : LitInt) (rest : List Token) :
    peekLitInt (lit.tokens ++ rest) = true := by
  obtain ⟨negative, value, suffix⟩ := lit
  cases negative <;> rfl

end Concord.Parse
