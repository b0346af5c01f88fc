import Mathlib.Data.List.Basic

/-!
# Concord.Lib.Parsing

Parsers that read off the front of their input, against the grammar they are
written for.

A grammar of `α` relates texts to what they spell.  `Parser.Reads` is all there
is to say about a parser and its grammar: it succeeds exactly on the inputs that
start with a spelling, and leaves what comes after it, whatever that is.  So a
text spells at most one value (`Reads.unique`), and no spelling goes on to
another one.

A parser that looks at what follows is only sure of its spellings before what
may follow them (`Parser.ReadsBefore`); up to the end of an input that is enough.
-/

namespace Parsing

/-- Reads off the front of its input. -/
abbrev Parser (ε T : Type) := StateT (List T) (Except ε)

variable {ε T α β σ : Type}

/-- The parser accepts spellings, whatever comes after them, and nothing else. -/
def Parser.Reads (p : Parser ε T α) (Spells : List T → α → Prop) : Prop :=
  ∀ input x rest, p.run input = .ok (x, rest) ↔ ∃ t, Spells t x ∧ input = t ++ rest

/-- The parser accepts spellings, if what comes after them may follow, and nothing else. -/
structure Parser.ReadsBefore (p : Parser ε T α) (Follows : List T → Prop)
    (Spells : List T → α → Prop) : Prop where
  sound : ∀ input x rest, p.run input = .ok (x, rest) → ∃ t, Spells t x ∧ input = t ++ rest
  run : ∀ t x rest, Spells t x → Follows rest → p.run (t ++ rest) = .ok (x, rest)

namespace Parser

variable {p : Parser ε T α} {P Q : List T → α → Prop} {Follows : List T → Prop}

/-- A parser reads what is spelled the same. -/
theorem Reads.congr (h : p.Reads P) (hiff : ∀ t x, P t x ↔ Q t x) : p.Reads Q := by
  intro input x rest
  simp only [h input x rest, hiff]

/-- A parser reads a text before any rest. -/
theorem Reads.run (h : p.Reads P) {t : List T} {x : α} (ht : P t x) (rest : List T) :
    p.run (t ++ rest) = .ok (x, rest) :=
  (h _ _ _).mpr ⟨t, ht, rfl⟩

/-- A text spells one value, and no spelling begins another. -/
theorem Reads.unique (h : p.Reads P) {t t' : List T} {x x' : α} (ht : P t x) (ht' : P t' x')
    {rest rest' : List T} (heq : t ++ rest = t' ++ rest') : t = t' ∧ x = x' := by
  have hrun := h.run ht rest
  rw [heq, h.run ht' rest'] at hrun
  simp only [Except.ok.injEq, Prod.mk.injEq] at hrun
  obtain ⟨hx, rfl⟩ := hrun
  exact ⟨List.append_cancel_right heq, hx.symm⟩

/-- A parser that reads before every rest reads before some. -/
theorem Reads.before (h : p.Reads P) (Follows : List T → Prop) : p.ReadsBefore Follows P where
  sound input x rest hrun := (h input x rest).mp hrun
  run _ _ rest ht _ := h.run ht rest

/-- A parser that reads before everything does not look at what follows. -/
theorem ReadsBefore.reads (h : p.ReadsBefore (fun _ => True) P) : p.Reads P := by
  intro input x rest
  constructor
  · exact h.sound input x rest
  · rintro ⟨t, ht, rfl⟩
    exact h.run t x rest ht trivial

/-- The same before some rests. -/
theorem ReadsBefore.congr (h : p.ReadsBefore Follows P) (hiff : ∀ t x, P t x ↔ Q t x) :
    p.ReadsBefore Follows Q where
  sound input x rest hrun := by
    obtain ⟨t, ht, heq⟩ := h.sound input x rest hrun
    exact ⟨t, (hiff t x).mp ht, heq⟩
  run t x rest ht := h.run t x rest ((hiff t x).mpr ht)

/-- A function of what is read. -/
theorem ReadsBefore.map {f : α → β} (h : p.ReadsBefore Follows P) :
    (f <$> p).ReadsBefore Follows fun t y => ∃ x, P t x ∧ y = f x where
  sound input y rest hrun := by
    rw [StateT.run_map] at hrun
    cases hread : p.run input with
    | error error =>
        rw [hread] at hrun
        cases hrun
    | ok read =>
        obtain ⟨x, after⟩ := read
        rw [hread] at hrun
        cases hrun
        obtain ⟨t, ht, heq⟩ := h.sound _ _ _ hread
        exact ⟨t, ⟨x, ht, rfl⟩, heq⟩
  run t y rest := by
    rintro ⟨x, ht, rfl⟩ hfollows
    rw [StateT.run_map, h.run t x rest ht hfollows]
    rfl

/-! ## sequences -/

/-- A value without a text. -/
theorem reads_pure (x : α) : (pure x : Parser ε T α).Reads fun t y => t = [] ∧ y = x := by
  intro input y rest
  rw [StateT.run_pure]
  constructor
  · rintro ⟨⟩
    exact ⟨[], ⟨rfl, rfl⟩, rfl⟩
  · rintro ⟨t, ⟨rfl, rfl⟩, rfl⟩
    rfl

/-- A parser that fails reads nothing. -/
theorem reads_throw (error : ε) : (throw error : Parser ε T α).Reads fun _ _ => False := by
  intro input x rest
  constructor
  · intro h
    cases h
  · rintro ⟨_, hfalse, _⟩
    exact hfalse.elim

/-- What was computed from other input. -/
def ofExcept (result : Except ε α) : Parser ε T α := fun input =>
  result.map fun x => (x, input)

/-- A result without a text. -/
theorem reads_ofExcept (result : Except ε α) :
    (ofExcept result : Parser ε T α).Reads fun t x => t = [] ∧ result = .ok x := by
  intro input x rest
  cases result with
  | error error =>
      constructor
      · intro h
        cases h
      · rintro ⟨_, ⟨_, h⟩, _⟩
        cases h
  | ok y =>
      constructor
      · intro h
        cases h
        exact ⟨[], ⟨rfl, rfl⟩, rfl⟩
      · rintro ⟨t, ⟨rfl, h⟩, rfl⟩
        cases h
        rfl

/-- One parser after another, before some rests. -/
theorem Reads.bind_before {f : α → Parser ε T β} {R : α → List T → β → Prop} (hp : p.Reads P)
    (hf : ∀ x, (f x).ReadsBefore Follows (R x)) :
    (p >>= f).ReadsBefore Follows fun t y =>
      ∃ x before after, P before x ∧ R x after y ∧ t = before ++ after where
  sound input y rest h := by
    rw [StateT.run_bind] at h
    cases hrun : p.run input with
    | error error =>
        rw [hrun] at h
        cases h
    | ok read =>
        obtain ⟨x, between⟩ := read
        rw [hrun] at h
        obtain ⟨before, hbefore, rfl⟩ := (hp _ _ _).mp hrun
        obtain ⟨after, hafter, rfl⟩ := (hf x).sound _ _ _ h
        exact ⟨before ++ after, ⟨x, before, after, hbefore, hafter, rfl⟩,
          (List.append_assoc _ _ _).symm⟩
  run t y rest := by
    rintro ⟨x, before, after, hbefore, hafter, rfl⟩ hfollows
    rw [StateT.run_bind, List.append_assoc, hp.run hbefore]
    exact (hf x).run after y rest hafter hfollows

/-- One parser after another reads one text after another. -/
theorem Reads.bind {f : α → Parser ε T β} {R : α → List T → β → Prop} (hp : p.Reads P)
    (hf : ∀ x, (f x).Reads (R x)) :
    (p >>= f).Reads fun t y => ∃ x before after, P before x ∧ R x after y ∧ t = before ++ after :=
  (hp.bind_before fun x => (hf x).before _).reads

/-- A function of what is read. -/
theorem Reads.map {f : α → β} (hp : p.Reads P) :
    (f <$> p).Reads fun t y => ∃ x, P t x ∧ y = f x := by
  rw [← bind_pure_comp]
  refine (hp.bind fun x => reads_pure (f x)).congr fun t y => ?_
  constructor
  · rintro ⟨x, before, _, hbefore, ⟨rfl, rfl⟩, rfl⟩
    exact ⟨x, by rwa [List.append_nil], rfl⟩
  · rintro ⟨x, ht, rfl⟩
    exact ⟨x, t, [], ht, ⟨rfl, rfl⟩, (List.append_nil t).symm⟩

/-- What is read is checked, or made into something else. -/
theorem ReadsBefore.bind_ofExcept (h : p.ReadsBefore Follows P) (f : α → Except ε β) :
    (p >>= fun x => ofExcept (f x)).ReadsBefore Follows fun t y => ∃ x, P t x ∧ f x = .ok y where
  sound input y rest hrun := by
    rw [StateT.run_bind] at hrun
    cases hread : p.run input with
    | error error =>
        rw [hread] at hrun
        cases hrun
    | ok read =>
        obtain ⟨x, between⟩ := read
        rw [hread] at hrun
        obtain ⟨t, ht, heq⟩ := h.sound _ _ _ hread
        obtain ⟨_, ⟨rfl, hf⟩, rfl⟩ := (reads_ofExcept (f x) _ _ _).mp hrun
        exact ⟨t, ⟨x, ht, hf⟩, heq⟩
  run t y rest := by
    rintro ⟨x, ht, hf⟩ hfollows
    rw [StateT.run_bind, h.run t x rest ht hfollows]
    exact (reads_ofExcept (f x) _ _ _).mpr ⟨[], ⟨rfl, hf⟩, rfl⟩

/-! ## single tokens -/

/-- One token, if there is one and it is as it should be. -/
def token (atEnd : ε) (read : T → Except ε α) : Parser ε T α
  | [] => .error atEnd
  | first :: rest => (read first).map fun x => (x, rest)

/-- One token is read. -/
theorem reads_token (atEnd : ε) (read : T → Except ε α) :
    (token atEnd read).Reads fun t x => ∃ first, t = [first] ∧ read first = .ok x := by
  intro input x rest
  cases input with
  | nil =>
      constructor
      · intro h
        cases h
      · rintro ⟨_, ⟨first, rfl, _⟩, h⟩
        cases h
  | cons first tokens =>
      show (read first).map (fun x => (x, tokens)) = .ok (x, rest) ↔ _
      cases hread : read first with
      | error error =>
          constructor
          · intro h
            cases h
          · rintro ⟨_, ⟨other, rfl, hother⟩, h⟩
            cases h
            rw [hread] at hother
            cases hother
      | ok y =>
          constructor
          · intro h
            cases h
            exact ⟨[first], ⟨first, rfl, hread⟩, rfl⟩
          · rintro ⟨_, ⟨other, rfl, hother⟩, h⟩
            cases h
            rw [hread] at hother
            cases hother
            rfl

/-! ## choices -/

/-- Look at the input without reading any of it. -/
def peek (test : List T → Bool) : Parser ε T Bool := fun input => .ok (test input, input)

/-- To look ahead takes nothing. -/
theorem run_peek_bind (test : List T → Bool) (f : Bool → Parser ε T α) (input : List T) :
    (peek test >>= f).run input = (f (test input)).run input := rfl

/-- A choice by what comes next, for a test that looks no further than a
spelling. -/
theorem before_ite {test : List T → Bool} {q : Parser ε T α} (hp : p.ReadsBefore Follows P)
    (hq : q.ReadsBefore Follows Q)
    (hlocal : ∀ t x rest, P t x ∨ Q t x → test (t ++ rest) = test t) :
    (do if ← peek test then p else q).ReadsBefore Follows fun t x =>
      test t = true ∧ P t x ∨ test t = false ∧ Q t x where
  sound input x rest h := by
    rw [run_peek_bind] at h
    cases hinput : test input with
    | true =>
        rw [hinput, if_pos rfl] at h
        obtain ⟨t, ht, rfl⟩ := hp.sound _ _ _ h
        exact ⟨t, .inl ⟨hlocal t x rest (.inl ht) ▸ hinput, ht⟩, rfl⟩
    | false =>
        rw [hinput, if_neg Bool.false_ne_true] at h
        obtain ⟨t, ht, rfl⟩ := hq.sound _ _ _ h
        exact ⟨t, .inr ⟨hlocal t x rest (.inr ht) ▸ hinput, ht⟩, rfl⟩
  run t x rest ht hfollows := by
    rw [run_peek_bind]
    rcases ht with ⟨htest, ht⟩ | ⟨htest, ht⟩
    · rw [hlocal t x rest (.inl ht), htest, if_pos rfl]
      exact hp.run t x rest ht hfollows
    · rw [hlocal t x rest (.inr ht), htest, if_neg Bool.false_ne_true]
      exact hq.run t x rest ht hfollows

/-- A choice by what comes next, which may be what follows. -/
theorem before_ite_follows {test : List T → Bool} {q : Parser ε T α} (hp : p.ReadsBefore Follows P)
    (hq : q.ReadsBefore Follows Q) (htrue : ∀ t x rest, P t x → test (t ++ rest) = true)
    (hfalse : ∀ t x rest, Q t x → Follows rest → test (t ++ rest) = false) :
    (do if ← peek test then p else q).ReadsBefore Follows fun t x => P t x ∨ Q t x where
  sound input x rest h := by
    rw [run_peek_bind] at h
    cases hinput : test input with
    | true =>
        rw [hinput, if_pos rfl] at h
        obtain ⟨t, ht, heq⟩ := hp.sound _ _ _ h
        exact ⟨t, .inl ht, heq⟩
    | false =>
        rw [hinput, if_neg Bool.false_ne_true] at h
        obtain ⟨t, ht, heq⟩ := hq.sound _ _ _ h
        exact ⟨t, .inr ht, heq⟩
  run t x rest ht hfollows := by
    rw [run_peek_bind]
    rcases ht with ht | ht
    · rw [htrue t x rest ht, if_pos rfl]
      exact hp.run t x rest ht hfollows
    · rw [hfalse t x rest ht hfollows, if_neg Bool.false_ne_true]
      exact hq.run t x rest ht hfollows

/-- A choice by what is ahead, if that is decided by the text alone. -/
theorem reads_ite {test : List T → Bool} {q : Parser ε T α} (hp : p.Reads P) (hq : q.Reads Q)
    (hlocal : ∀ t x rest, P t x ∨ Q t x → test (t ++ rest) = test t) :
    (do if ← peek test then p else q).Reads fun t x =>
      test t = true ∧ P t x ∨ test t = false ∧ Q t x :=
  (before_ite (hp.before _) (hq.before _) hlocal).reads

end Parser

/-! ## up to the end -/

/-- Take off a separator, if one comes next. -/
def skipSeparator (separates : T → Bool) : List T → List T
  | [] => []
  | first :: rest => if separates first then rest else first :: rest

/-- Items up to the end of the input, each with what was read before it, and
separators that may be left out.  There is room for as many items as there are
tokens, and each takes one. -/
def readItems (item : σ → Parser ε T σ) (separates : T → Bool) :
    Nat → σ → List T → Except ε σ
  | _, s, [] => .ok s
  | 0, s, _ :: _ => .ok s
  | room + 1, s, first :: rest =>
    match (item s).run (first :: rest) with
    | .error error => .error error
    | .ok (s, rest) => readItems item separates room s (skipSeparator separates rest)

/-- Items up to the end of the input. -/
def toEnd (item : σ → Parser ε T σ) (separates : T → Bool) (s : σ) (input : List T) :
    Except ε σ :=
  readItems item separates input.length s input

/-- Texts that are made of items, and what they lead to. -/
inductive Items (separates : T → Bool) (Step : σ → List T → σ → Prop) : σ → List T → σ → Prop
  | done (s : σ) : Items separates Step s [] s
  | item {s s' s'' : σ} {t rest : List T} (hitem : Step s t s')
      (hrest : Items separates Step s' rest s'') : Items separates Step s (t ++ rest) s''
  | separated {s s' s'' : σ} {t rest : List T} {separator : T} (hitem : Step s t s')
      (hseparates : separates separator = true) (hrest : Items separates Step s' rest s'') :
      Items separates Step s (t ++ separator :: rest) s''

section items

variable {item : σ → Parser ε T σ} {separates : T → Bool} {Step : σ → List T → σ → Prop}

/-- Items take a token that is no separator. -/
def Starts (separates : T → Bool) (Step : σ → List T → σ → Prop) : Prop :=
  ∀ s t s', Step s t s' → ∃ first rest, t = first :: rest ∧ separates first = false

/-- Items do not begin with a separator. -/
theorem Items.skipSeparator (hstarts : Starts separates Step) {s s' : σ} {t : List T}
    (h : Items separates Step s t s') : skipSeparator separates t = t := by
  cases h with
  | done => rfl
  | item hitem _ | separated hitem _ _ =>
      obtain ⟨first, rest, rfl, hfirst⟩ := hstarts _ _ _ hitem
      simp [Parsing.skipSeparator, hfirst]

/-- The end, a separator and every item may follow an item. -/
structure MayFollow (separates : T → Bool) (Step : σ → List T → σ → Prop)
    (Follows : List T → Prop) : Prop where
  nil : Follows []
  separator : ∀ separator rest, separates separator = true → Follows (separator :: rest)
  item : ∀ s t s' rest, Step s t s' → Follows (t ++ rest)

/-- Items may follow an item. -/
theorem MayFollow.items {Follows : List T → Prop} (h : MayFollow separates Step Follows) {s s' : σ}
    {t : List T} (hitems : Items separates Step s t s') : Follows t := by
  cases hitems with
  | done => exact h.nil
  | item hitem _ => exact h.item _ _ _ _ hitem
  | separated hitem _ _ => exact h.item _ _ _ _ hitem

variable {Follows : List T → Prop}

/-- Items that are read are written in the input. -/
theorem readItems_sound (hreads : ∀ s, (item s).ReadsBefore Follows (Step s))
    (hstarts : Starts separates Step) {room : Nat} {s s' : σ} {input : List T}
    (hroom : input.length ≤ room) (h : readItems item separates room s input = .ok s') :
    Items separates Step s input s' := by
  induction room generalizing s input with
  | zero =>
      rw [Nat.le_zero, List.length_eq_zero_iff] at hroom
      subst hroom
      cases h
      exact .done _
  | succ room ih =>
      cases input with
      | nil =>
          cases h
          exact .done _
      | cons first rest =>
          rw [readItems] at h
          cases hrun : (item s).run (first :: rest) with
          | error error =>
              rw [hrun] at h
              cases h
          | ok read =>
              obtain ⟨next, after⟩ := read
              rw [hrun] at h
              change readItems item separates room next (skipSeparator separates after) = _ at h
              obtain ⟨t, ht, hinput⟩ := (hreads s).sound _ _ _ hrun
              obtain ⟨head, tail, rfl, _⟩ := hstarts _ _ _ ht
              have hlength : after.length ≤ room := by
                have hlengths := congrArg List.length hinput
                simp only [List.length_cons, List.cons_append, List.length_append] at hlengths hroom
                omega
              rw [hinput]
              cases after with
              | nil =>
                  exact .item ht (ih (Nat.zero_le _) h)
              | cons separator after =>
                  rw [List.length_cons] at hlength
                  by_cases hseparates : separates separator = true
                  · have hskip : skipSeparator separates (separator :: after) = after := by
                      simp [skipSeparator, hseparates]
                    rw [hskip] at h
                    exact .separated ht hseparates (ih (by omega) h)
                  · have hskip : skipSeparator separates (separator :: after) =
                        separator :: after := by
                      simp [skipSeparator, hseparates]
                    rw [hskip] at h
                    exact .item ht (ih (by rw [List.length_cons]; omega) h)

/-- Items that are written are read. -/
theorem readItems_complete (hreads : ∀ s, (item s).ReadsBefore Follows (Step s))
    (hstarts : Starts separates Step) (hfollows : MayFollow separates Step Follows) {s s' : σ}
    {input : List T}
    (h : Items separates Step s input s') {room : Nat} (hroom : input.length ≤ room) :
    readItems item separates room s input = .ok s' := by
  induction h generalizing room with
  | done s => cases room <;> rfl
  | @item s next _ t rest hitem hrest ih =>
      have hrun := (hreads s).run _ _ rest hitem (hfollows.items hrest)
      have hskip := hrest.skipSeparator hstarts
      obtain ⟨first, tail, rfl, _⟩ := hstarts _ _ _ hitem
      simp only [List.cons_append, List.length_cons, List.length_append] at hroom hrun
      obtain ⟨room, rfl⟩ : ∃ left, room = left + 1 := ⟨room - 1, by omega⟩
      rw [List.cons_append, readItems, hrun]
      show readItems item separates room next (skipSeparator separates rest) = _
      rw [hskip]
      exact ih (by omega)
  | @separated s next _ t rest separator hitem hseparates hrest ih =>
      have hrun := (hreads s).run _ _ (separator :: rest) hitem
        (hfollows.separator separator rest hseparates)
      have hskip : skipSeparator separates (separator :: rest) = rest := by
        simp [skipSeparator, hseparates]
      obtain ⟨first, tail, rfl, _⟩ := hstarts _ _ _ hitem
      simp only [List.cons_append, List.length_cons, List.length_append] at hroom hrun
      obtain ⟨room, rfl⟩ : ∃ left, room = left + 1 := ⟨room - 1, by omega⟩
      rw [List.cons_append, readItems, hrun]
      show readItems item separates room next (skipSeparator separates (separator :: rest)) = _
      rw [hskip]
      exact ih (by omega)

/-- Reading to the end succeeds exactly on texts that are made of items. -/
theorem toEnd_eq_ok_iff (hreads : ∀ s, (item s).ReadsBefore Follows (Step s))
    (hstarts : Starts separates Step) (hfollows : MayFollow separates Step Follows) {s s' : σ}
    {input : List T} :
    toEnd item separates s input = .ok s' ↔ Items separates Step s input s' :=
  ⟨readItems_sound hreads hstarts (Nat.le_refl _),
    fun h => readItems_complete hreads hstarts hfollows h (Nat.le_refl _)⟩

end items

/-! ## lists -/

/-- A list, with separators that may be left out. -/
inductive Listed (separates : T → Bool) (Spells : List T → α → Prop) : List T → List α → Prop
  | nil : Listed separates Spells [] []
  | cons {t rest : List T} {x : α} {xs : List α} (hspells : Spells t x)
      (hrest : Listed separates Spells rest xs) : Listed separates Spells (t ++ rest) (x :: xs)
  | separated {t rest : List T} {separator : T} {x : α} {xs : List α} (hspells : Spells t x)
      (hseparates : separates separator = true) (hrest : Listed separates Spells rest xs) :
      Listed separates Spells (t ++ separator :: rest) (x :: xs)

/-- Items that each lead from what was read to more of it are a list whose
members do so in turn. -/
theorem items_iff_listed {separates : T → Bool} {Spells : List T → α → Prop} {step : σ → α → Option σ}
    {s s' : σ} {t : List T} :
    Items separates (fun s t s' => ∃ x, Spells t x ∧ step s x = some s') s t s' ↔
      ∃ xs, Listed separates Spells t xs ∧ xs.foldlM step s = some s' := by
  constructor
  · intro h
    induction h with
    | done s => exact ⟨[], .nil, rfl⟩
    | item hitem _ ih =>
        obtain ⟨x, hspells, hstep⟩ := hitem
        obtain ⟨xs, hlisted, hfold⟩ := ih
        exact ⟨x :: xs, .cons hspells hlisted, by simp [hstep, hfold]⟩
    | separated hitem hseparates _ ih =>
        obtain ⟨x, hspells, hstep⟩ := hitem
        obtain ⟨xs, hlisted, hfold⟩ := ih
        exact ⟨x :: xs, .separated hspells hseparates hlisted, by simp [hstep, hfold]⟩
  · rintro ⟨xs, hlisted, hfold⟩
    induction hlisted generalizing s with
    | nil =>
        cases hfold
        exact .done _
    | cons hspells _ ih =>
        rw [List.foldlM_cons, Option.bind_eq_bind, Option.bind_eq_some_iff] at hfold
        obtain ⟨next, hstep, hfold⟩ := hfold
        exact .item ⟨_, hspells, hstep⟩ (ih hfold)
    | separated hspells hseparates _ ih =>
        rw [List.foldlM_cons, Option.bind_eq_bind, Option.bind_eq_some_iff] at hfold
        obtain ⟨next, hstep, hfold⟩ := hfold
        exact .separated ⟨_, hspells, hstep⟩ hseparates (ih hfold)

/-- Reading items up to the end is reading a list. -/
theorem toEnd_eq_ok_iff_listed_before {item : σ → Parser ε T σ} {separates : T → Bool}
    {Spells : List T → α → Prop} {step : σ → α → Option σ} {Follows : List T → Prop}
    (hreads : ∀ s, (item s).ReadsBefore Follows fun t s' => ∃ x, Spells t x ∧ step s x = some s')
    (hstarts : ∀ t x, Spells t x → ∃ first rest, t = first :: rest ∧ separates first = false)
    (hnil : Follows [])
    (hseparator : ∀ separator rest, separates separator = true → Follows (separator :: rest))
    (hspelled : ∀ t x rest, Spells t x → Follows (t ++ rest)) {s s' : σ} {input : List T} :
    toEnd item separates s input = .ok s' ↔
      ∃ xs, Listed separates Spells input xs ∧ xs.foldlM step s = some s' := by
  rw [toEnd_eq_ok_iff hreads ?_ ?_, items_iff_listed]
  · rintro s t s' ⟨x, hspells, _⟩
    exact hstarts t x hspells
  · refine ⟨hnil, hseparator, ?_⟩
    rintro s t s' rest ⟨x, hspells, _⟩
    exact hspelled t x rest hspells

/-- A list is read to the end exactly from its text. -/
theorem toEnd_eq_ok_iff_listed {item : σ → Parser ε T σ} {separates : T → Bool}
    {Spells : List T → α → Prop} {step : σ → α → Option σ}
    (hreads : ∀ s, (item s).Reads fun t s' => ∃ x, Spells t x ∧ step s x = some s')
    (hstarts : ∀ t x, Spells t x → ∃ first rest, t = first :: rest ∧ separates first = false)
    {s s' : σ} {input : List T} :
    toEnd item separates s input = .ok s' ↔
      ∃ xs, Listed separates Spells input xs ∧ xs.foldlM step s = some s' :=
  toEnd_eq_ok_iff_listed_before (fun s => (hreads s).before fun _ => True) hstarts
    trivial (fun _ _ _ => trivial) (fun _ _ _ _ => trivial)

/-- What is read is put at the end of what was read before. -/
def pushing (p : Parser ε T α) (out : List α) : Parser ε T (List α) :=
  (fun x => out ++ [x]) <$> p

/-- An item is pushed to those before it. -/
theorem reads_pushing {p : Parser ε T α} {Spells : List T → α → Prop} (h : p.Reads Spells)
    (out : List α) :
    (pushing p out).Reads fun t out' => ∃ x, Spells t x ∧ some (out ++ [x]) = some out' :=
  h.map.congr fun t out' => by simp only [Option.some.injEq, eq_comm]

/-- The same before some rests. -/
theorem before_pushing {p : Parser ε T α} {Follows : List T → Prop} {Spells : List T → α → Prop}
    (h : p.ReadsBefore Follows Spells) (out : List α) :
    (pushing p out).ReadsBefore Follows fun t out' =>
      ∃ x, Spells t x ∧ some (out ++ [x]) = some out' :=
  h.map.congr fun t out' => by simp only [Option.some.injEq, eq_comm]

/-- Items that are pushed are appended. -/
theorem foldlM_pushing (xs out : List α) :
    xs.foldlM (fun out x => some (out ++ [x])) out = some (out ++ xs) := by
  induction xs generalizing out with
  | nil => simp
  | cons x xs ih => simp [ih]

/-- The plain spelling of a list. -/
theorem listed_flatMap {separates : T → Bool} {Spells : List T → α → Prop} {render : α → List T}
    {xs : List α} (h : ∀ x ∈ xs, Spells (render x) x) :
    Listed separates Spells (xs.flatMap render) xs := by
  induction xs with
  | nil => exact .nil
  | cons x xs ih =>
      rw [List.flatMap_cons]
      exact .cons (h x List.mem_cons_self) (ih fun y hy => h y (List.mem_cons_of_mem x hy))

/-- The members of a list are spelled in it. -/
theorem Listed.spelled {separates : T → Bool} {Spells : List T → α → Prop} {t : List T}
    {xs : List α} (h : Listed separates Spells t xs) : ∀ x ∈ xs, ∃ t, Spells t x := by
  induction h with
  | nil => simp
  | cons hspells _ ih | separated hspells _ _ ih =>
      intro x hx
      rcases List.mem_cons.mp hx with rfl | hmem
      · exact ⟨_, hspells⟩
      · exact ih x hmem

/-! ## lists with separators -/

/-- Items up to the end of the input, with a separator between two of them; there may be one after
the last. -/
def readSeparated (item : Parser ε T α) (separates : T → Bool) (missing : ε) :
    Nat → List α → List T → Except ε (List α)
  | _, out, [] => .ok out
  | 0, out, _ :: _ => .ok out
  | room + 1, out, first :: rest =>
    match item.run (first :: rest) with
    | .error error => .error error
    | .ok (x, []) => .ok (out ++ [x])
    | .ok (x, separator :: rest) =>
      if separates separator then readSeparated item separates missing room (out ++ [x]) rest
      else .error missing

/-- A list with separators between its members, and perhaps one after the last. -/
inductive Separated (separates : T → Bool) (Spells : List T → α → Prop) : List T → List α → Prop
  | nil : Separated separates Spells [] []
  | last {t : List T} {x : α} (hspells : Spells t x) : Separated separates Spells t [x]
  | cons {t rest : List T} {separator : T} {x : α} {xs : List α} (hspells : Spells t x)
      (hseparates : separates separator = true) (hrest : Separated separates Spells rest xs) :
      Separated separates Spells (t ++ separator :: rest) (x :: xs)

section separated

variable {item : Parser ε T α} {separates : T → Bool} {Spells : List T → α → Prop}
  {Follows : List T → Prop}

/-- Separated items that are read are written in the input. -/
theorem readSeparated_sound (hreads : item.ReadsBefore Follows Spells)
    (hstarts : ∀ t x, Spells t x → t ≠ []) (missing : ε) {room : Nat} {out xs : List α}
    {input : List T} (hroom : input.length ≤ room)
    (h : readSeparated item separates missing room out input = .ok xs) :
    ∃ read, Separated separates Spells input read ∧ xs = out ++ read := by
  induction room generalizing out input with
  | zero =>
      rw [Nat.le_zero, List.length_eq_zero_iff] at hroom
      subst hroom
      cases h
      exact ⟨[], .nil, (List.append_nil _).symm⟩
  | succ room ih =>
      cases input with
      | nil =>
          cases h
          exact ⟨[], .nil, (List.append_nil _).symm⟩
      | cons first rest =>
          rw [readSeparated] at h
          cases hrun : item.run (first :: rest) with
          | error error => simp [hrun] at h
          | ok read =>
              obtain ⟨x, after⟩ := read
              obtain ⟨t, ht, hinput⟩ := hreads.sound _ _ _ hrun
              rw [hinput]
              cases after with
              | nil =>
                  have hxs : out ++ [x] = xs := by simpa [hrun] using h
                  exact ⟨[x], by rw [List.append_nil]; exact .last ht, hxs.symm⟩
              | cons separator after =>
                  have hpos := List.length_pos_iff.mpr (hstarts t x ht)
                  have hlength : after.length ≤ room := by
                    have hlengths := congrArg List.length hinput
                    simp only [List.length_cons, List.length_append] at hlengths hroom
                    omega
                  cases hseparates : separates separator with
                  | false => simp [hrun, hseparates] at h
                  | true =>
                      simp only [hrun, hseparates, if_true] at h
                      obtain ⟨read, hread, rfl⟩ := ih hlength h
                      exact ⟨x :: read, .cons ht hseparates hread, by simp⟩

/-- Separated items that are written are read. -/
theorem readSeparated_complete (hreads : item.ReadsBefore Follows Spells)
    (hstarts : ∀ t x, Spells t x → t ≠ []) (missing : ε) (hnil : Follows [])
    (hseparator : ∀ separator rest, separates separator = true → Follows (separator :: rest))
    {read : List α} {input : List T} (h : Separated separates Spells input read) {room : Nat}
    (hroom : input.length ≤ room) (out : List α) :
    readSeparated item separates missing room out input = .ok (out ++ read) := by
  induction h generalizing room out with
  | nil => cases room <;> simp [readSeparated]
  | @last t x ht =>
      obtain ⟨first, tail, rfl⟩ := List.exists_cons_of_ne_nil (hstarts t x ht)
      have hrun := hreads.run _ _ [] ht hnil
      rw [List.append_nil] at hrun
      rw [List.length_cons] at hroom
      obtain ⟨room, rfl⟩ : ∃ left, room = left + 1 := ⟨room - 1, by omega⟩
      simp [readSeparated, hrun]
  | @cons t rest separator x xs ht hseparates _ ih =>
      have hrun := hreads.run _ _ (separator :: rest) ht (hseparator separator rest hseparates)
      obtain ⟨first, tail, rfl⟩ := List.exists_cons_of_ne_nil (hstarts t x ht)
      simp only [List.cons_append, List.length_cons, List.length_append] at hroom hrun
      obtain ⟨room, rfl⟩ : ∃ left, room = left + 1 := ⟨room - 1, by omega⟩
      have hrest := ih (show rest.length ≤ room by omega) (out ++ [x])
      simp [readSeparated, hrun, hseparates, hrest]

/-- Reading a list with separators to the end succeeds exactly on its texts. -/
theorem readSeparated_eq_ok_iff (hreads : item.ReadsBefore Follows Spells)
    (hstarts : ∀ t x, Spells t x → t ≠ []) (missing : ε) (hnil : Follows [])
    (hseparator : ∀ separator rest, separates separator = true → Follows (separator :: rest))
    {xs : List α} {input : List T} :
    readSeparated item separates missing input.length [] input = .ok xs ↔
      Separated separates Spells input xs := by
  constructor
  · intro h
    obtain ⟨read, hread, rfl⟩ := readSeparated_sound hreads hstarts missing (Nat.le_refl _) h
    exact hread
  · intro h
    exact readSeparated_complete hreads hstarts missing hnil hseparator h (Nat.le_refl _) []

/-- The plain spelling of a list, with a separator after every member. -/
theorem separated_flatMap {render : α → List T} {separator : T}
    (hseparates : separates separator = true) {xs : List α} (h : ∀ x ∈ xs, Spells (render x) x) :
    Separated separates Spells (xs.flatMap fun x => render x ++ [separator]) xs := by
  induction xs with
  | nil => exact .nil
  | cons x xs ih =>
      have hrest := ih fun y hy => h y (List.mem_cons_of_mem x hy)
      have htext : ((x :: xs).flatMap fun x => render x ++ [separator]) =
          render x ++ separator :: xs.flatMap fun x => render x ++ [separator] := by
        simp
      rw [htext]
      exact .cons (h x List.mem_cons_self) hseparates hrest

/-- The members of a list are spelled in it. -/
theorem Separated.spelled {t : List T} {xs : List α} (h : Separated separates Spells t xs) :
    ∀ x ∈ xs, ∃ t, Spells t x := by
  induction h with
  | nil => simp
  | last hspells =>
      intro x hx
      rw [List.mem_singleton] at hx
      subst hx
      exact ⟨_, hspells⟩
  | cons hspells _ _ ih =>
      intro x hx
      rcases List.mem_cons.mp hx with rfl | hmem
      · exact ⟨_, hspells⟩
      · exact ih x hmem

end separated

end Parsing
