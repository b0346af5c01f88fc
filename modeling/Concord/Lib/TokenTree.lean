import Concord.Lib.Parsing

/-!
# Concord.Lib.TokenTree

Token trees: single tokens, and streams of trees between delimiters.
-/

namespace Parsing

inductive Delimiter where
  | parenthesis
  | brace
  | bracket
  deriving DecidableEq, Repr

inductive TokenTree (A : Type) where
  | atom (token : A)
  | group (delimiter : Delimiter) (stream : List (TokenTree A))

variable {ε A α : Type}

namespace Parser

/-- What is between delimiters. -/
def delimited (expected : ε) (delimiter : Delimiter) :
    Parser ε (TokenTree A) (List (TokenTree A)) :=
  token expected fun
    | .group found stream => if found = delimiter then .ok stream else .error expected
    | .atom _ => .error expected

theorem reads_delimited (expected : ε) (delimiter : Delimiter) :
    (delimited expected delimiter : Parser ε (TokenTree A) _).Reads fun t stream =>
      t = [.group delimiter stream] := by
  refine (reads_token expected _).congr fun t stream => ?_
  constructor
  · rintro ⟨first, rfl, hread⟩
    cases first with
    | atom _ => cases hread
    | group found stream' =>
        simp only at hread
        split at hread
        · next heq =>
            cases hread
            rw [heq]
        · cases hread
  · rintro rfl
    exact ⟨_, rfl, if_pos rfl⟩

/-- A group whose stream is read to its end by other means. -/
theorem reads_group {expected : ε} {delimiter : Delimiter}
    {inner : List (TokenTree A) → Except ε α} {Spells : List (TokenTree A) → α → Prop}
    (h : ∀ stream x, inner stream = .ok x ↔ Spells stream x) :
    (delimited expected delimiter >>= fun stream => ofExcept (inner stream)).Reads fun t x =>
      ∃ stream, t = [.group delimiter stream] ∧ Spells stream x := by
  refine ((reads_delimited expected delimiter).bind fun stream =>
    reads_ofExcept (inner stream)).congr fun t x => ?_
  constructor
  · rintro ⟨stream, _, _, rfl, ⟨rfl, hinner⟩, rfl⟩
    exact ⟨stream, rfl, (h stream x).mp hinner⟩
  · rintro ⟨stream, rfl, hspells⟩
    exact ⟨stream, _, _, rfl, ⟨rfl, (h stream x).mpr hspells⟩, rfl⟩

end Parser

end Parsing
