import Mathlib.Data.List.Nodup
import Concord.Parse.Tokens
import Concord.Sema.Ast

/-!
# Concord.Parse.RateLimit

The rate limits of a declaration as they are written
(`concord_macros/src/parse/rate_limit.rs`): what the parser accepts, and the
tree that it makes of it.

What the parser refuses cannot be in a tree: a list of profiles is not empty
and names none twice, a block has buckets, and the unit of a duration is that
of its suffix.
-/

namespace Concord.Parse

open Parsing

/-! ## trees -/

/-- The words that name no key of the declaration. -/
def plainKeys : List String := ["host", "endpoint", "method"]

/-- A part of a key; a named part has none of the plain names. -/
inductive RateLimitKeySpec where
  | routeHost
  | endpoint
  | method
  | named (name : Ident) (not_plain : name.name ∉ plainKeys)
  | static (value : String)
  deriving DecidableEq, Repr

/-- The unit of a shorthand duration. -/
def durationUnit : String → Option Sema.RateLimitDurationUnit
  | "s" => some .seconds
  | "m" => some .minutes
  | _ => none

/-- A window as it is written; its unit is that of its suffix. -/
structure RateLimitWindowSpec where
  max : LitInt
  every : LitInt
  unit : Sema.RateLimitDurationUnit
  unit_eq : durationUnit every.suffix = some unit
  deriving DecidableEq, Repr

/-- A bucket as it is written. -/
structure RateLimitBucketSpec where
  kind : Ident
  key : List RateLimitKeySpec
  cost : Option LitInt
  windows : List RateLimitWindowSpec
  deriving DecidableEq, Repr

/-- A plan has a bucket. -/
structure RateLimitPlanSpec where
  buckets : List RateLimitBucketSpec
  buckets_ne : buckets ≠ []
  deriving DecidableEq, Repr

/-- The profiles of a list, in which no name is there twice. -/
structure ProfileNames where
  names : List Ident
  names_ne : names ≠ []
  names_nodup : names.Nodup
  deriving DecidableEq, Repr

/-- A directive. -/
inductive RateLimitSpec where
  | profiles (only : Bool) (profiles : ProfileNames)
  | inline (only : Bool) (plan : RateLimitPlanSpec)
  | off
  deriving DecidableEq, Repr

/-- A named plan. -/
structure RateLimitProfileDef where
  name : Ident
  extends_ : Option Ident
  plan : RateLimitPlanSpec
  deriving DecidableEq, Repr

/-! ## parsers -/

/-- A plain name, or the name of a part. -/
def keySpecOf (first : Ident) : RateLimitKeySpec :=
  if hhost : first.name = "host" then .routeHost
  else if hendpoint : first.name = "endpoint" then .endpoint
  else if hmethod : first.name = "method" then .method
  else .named first (by simp [plainKeys, hhost, hendpoint, hmethod])

/-- `parse_rate_limit_key_spec`. -/
def parseRateLimitKeySpec : TokenParser RateLimitKeySpec := do
  if ← Parser.peek peekLitStr then RateLimitKeySpec.static <$> litStr
  else keySpecOf <$> ident

/-- `parse_rate_limit_key_list`. -/
def parseRateLimitKeyList : TokenParser (List RateLimitKeySpec) := do
  let content ← bracketed
  Parser.ofExcept (toEnd (pushing parseRateLimitKeySpec) isComma [] content)

/-- What was read of the body of a bucket. -/
structure BucketBody where
  cost : Option LitInt
  windows : List RateLimitWindowSpec

/-- A window of two literals, the second with its unit. -/
def windowOf (max every : LitInt) : Except ParseError RateLimitWindowSpec :=
  match h : durationUnit every.suffix with
  | some unit => .ok ⟨max, every, unit, h⟩
  | none =>
    .error (.refused "rate_limit shorthand duration must use `s` or `m`, e.g. `500 / 10s`")

/-- The window of a bucket. -/
def parseWindow : TokenParser RateLimitWindowSpec := do
  let max ← litInt
  punct '/'
  let every ← litInt
  Parser.ofExcept (windowOf max every)

/-- The cost of a bucket, which it has once. -/
def parseBucketCost (body : BucketBody) : TokenParser BucketBody :=
  if body.cost.isSome then throw (.refused "duplicate rate_limit bucket cost")
  else do
    keyword "cost"
    let cost ← litInt
    pure { body with cost := some cost }

/-- An item of a bucket. -/
def parseBucketItem (body : BucketBody) : TokenParser BucketBody := do
  if ← Parser.peek (peekKeyword "cost") then parseBucketCost body
  else if ← Parser.peek peekLitInt then
    (fun window => { body with windows := body.windows ++ [window] }) <$> parseWindow
  else
    throw (.refused
      "unexpected token in rate_limit bucket; expected `cost` or `500 / 10s` shorthand")

/-- The items between the braces of a bucket. -/
def parseBucketBody : TokenParser BucketBody := do
  let content ← braced
  Parser.ofExcept (toEnd parseBucketItem isComma ⟨none, []⟩ content)

/-- `parse_rate_limit_bucket`. -/
def parseRateLimitBucket : TokenParser RateLimitBucketSpec := do
  keyword "bucket"
  let kind ← ident
  keyword "by"
  let key ← parseRateLimitKeyList
  let body ← parseBucketBody
  pure ⟨kind, key, body.cost, body.windows⟩

/-- A plan consists of buckets. -/
def parsePlanItem (buckets : List RateLimitBucketSpec) : TokenParser (List RateLimitBucketSpec) := do
  if ← Parser.peek (peekKeyword "bucket") then pushing parseRateLimitBucket buckets
  else throw (.refused "unexpected token in rate_limit plan; expected `bucket`")

/-- `parse_rate_limit_plan_body`. -/
def parseRateLimitPlanBody (input : List Token) : Except ParseError RateLimitPlanSpec :=
  match toEnd parsePlanItem isComma [] input with
  | .error error => .error error
  | .ok buckets =>
    if h : buckets ≠ [] then .ok ⟨buckets, h⟩
    else .error (.refused "empty rate_limit block has no effect")

/-- A plan between braces. -/
def parsePlanBlock : TokenParser RateLimitPlanSpec := do
  let content ← braced
  Parser.ofExcept (parseRateLimitPlanBody content)

/-- Names that are seen, in the order they are listed in. -/
abbrev SeenNames := { names : List Ident // names.Nodup }

/-- A name that is new. -/
def SeenNames.insert (seen : SeenNames) (name : Ident) : Option SeenNames :=
  if h : name ∈ seen.val then none
  else some ⟨seen.val ++ [name], List.nodup_append.mpr ⟨seen.property, List.nodup_singleton name,
    by
      intro other hother same hsame heq
      rw [List.mem_singleton] at hsame
      exact h (hsame ▸ heq ▸ hother)⟩⟩

/-- A name of a list, in which it stands once. -/
def parseListedProfile (seen : SeenNames) : TokenParser SeenNames := do
  let name ← ident
  match seen.insert name with
  | some seen => pure seen
  | none => throw (.refused
      ("duplicate rate_limit profile `" ++ name.name ++ "` in rate_limit list"))

/-- The names between brackets. -/
def parseProfileNames (input : List Token) : Except ParseError ProfileNames :=
  match toEnd parseListedProfile isComma ⟨[], List.nodup_nil⟩ input with
  | .error error => .error error
  | .ok seen =>
    if h : seen.val ≠ [] then .ok ⟨seen.val, h, seen.property⟩
    else .error (.refused "empty rate_limit list; expected at least one profile name")

/-- A name without brackets. -/
def ProfileNames.single (name : Ident) : ProfileNames :=
  ⟨[name], List.cons_ne_nil _ _, List.nodup_singleton name⟩

/-- `parse_rate_limit_profile_list`. -/
def parseRateLimitProfileList : TokenParser ProfileNames := do
  if ← Parser.peek (peekGroup .bracket) then
    let content ← bracketed
    Parser.ofExcept (parseProfileNames content)
  else ProfileNames.single <$> ident

/-- `parse_rate_limit_spec` from `only` on. -/
def parseRateLimitUse (only : Bool) : TokenParser RateLimitSpec := do
  if ← Parser.peek (peekGroup .brace) then RateLimitSpec.inline only <$> parsePlanBlock
  else RateLimitSpec.profiles only <$> parseRateLimitProfileList

/-- `parse_rate_limit_spec`. -/
def parseRateLimitSpec : TokenParser RateLimitSpec := do
  keyword "rate_limit"
  if ← Parser.peek (peekKeyword "off") then
    keyword "off"
    pure .off
  else if ← Parser.peek (peekKeyword "only") then
    keyword "only"
    parseRateLimitUse true
  else parseRateLimitUse false

/-- The body of a profile. -/
def parseProfileBody (name : Ident) (extends_ : Option Ident) : TokenParser RateLimitProfileDef :=
  RateLimitProfileDef.mk name extends_ <$> parsePlanBlock

/-- `parse_rate_limit_profile_decl_after_keyword`. -/
def parseRateLimitProfileDeclAfterKeyword : TokenParser RateLimitProfileDef := do
  let name ← ident
  if ← Parser.peek (peekKeyword "extends") then
    keyword "extends"
    let parent ← ident
    parseProfileBody name (some parent)
  else parseProfileBody name none

/-! ## texts -/

/-- How a part of a key is written. -/
def RateLimitKeySpec.tokens : RateLimitKeySpec → List Token
  | .routeHost => [.atom (.ident "host")]
  | .endpoint => [.atom (.ident "endpoint")]
  | .method => [.atom (.ident "method")]
  | .named name _ => [.atom (.ident name.name)]
  | .static value => [.atom (.str value)]

/-- How a window is written. -/
def RateLimitWindowSpec.tokens (window : RateLimitWindowSpec) : List Token :=
  window.max.tokens ++ .atom (.punct '/') :: window.every.tokens

/-- An item in the body of a bucket. -/
inductive BucketItem where
  | cost (lit : LitInt)
  | window (spec : RateLimitWindowSpec)

namespace BucketItem

/-- How an item is written. -/
def tokens : BucketItem → List Token
  | .cost lit => .atom (.ident "cost") :: lit.tokens
  | .window spec => spec.tokens

/-- The cost that an item sets. -/
def cost? : BucketItem → Option LitInt
  | .cost lit => some lit
  | .window _ => none

/-- The window that an item adds. -/
def window? : BucketItem → Option RateLimitWindowSpec
  | .cost _ => none
  | .window spec => some spec

end BucketItem

/-- A list of things that are written in one way each. -/
abbrev ListText {α : Type} (tokens : α → List Token) : List Token → List α → Prop :=
  Listed isComma fun t x => t = tokens x

/-- A bucket: its items come in any order, the cost once at most. -/
inductive BucketText : List Token → RateLimitBucketSpec → Prop
  | mk {key body : List Token} {items : List BucketItem} {bucket : RateLimitBucketSpec}
      (hkey : ListText RateLimitKeySpec.tokens key bucket.key)
      (hbody : ListText BucketItem.tokens body items)
      (hcost : items.filterMap BucketItem.cost? = bucket.cost.toList)
      (hwindows : items.filterMap BucketItem.window? = bucket.windows) :
      BucketText [.atom (.ident "bucket"), .atom (.ident bucket.kind.name), .atom (.ident "by"),
        .group .bracket key, .group .brace body] bucket

/-- The text of a plan. -/
def PlanText (t : List Token) (plan : RateLimitPlanSpec) : Prop :=
  Listed isComma BucketText t plan.buckets

/-- How a name is written. -/
def nameTokens (name : Ident) : List Token := [.atom (.ident name.name)]

/-- The text of a list of names. -/
inductive NamesText : List Token → ProfileNames → Prop
  | list {stream : List Token} {names : ProfileNames} (h : ListText nameTokens stream names.names) :
      NamesText [.group .bracket stream] names
  | single (name : Ident) : NamesText (nameTokens name) (.single name)

/-- The text after `rate_limit` or `only`. -/
inductive UseText (only : Bool) : List Token → RateLimitSpec → Prop
  | inline {stream : List Token} {plan : RateLimitPlanSpec} (h : PlanText stream plan) :
      UseText only [.group .brace stream] (.inline only plan)
  | profiles {t : List Token} {names : ProfileNames} (h : NamesText t names) :
      UseText only t (.profiles only names)

/-- A rate limit: `off` and `only` are not names after `rate_limit`. -/
inductive SpecText : List Token → RateLimitSpec → Prop
  | off : SpecText [.atom (.ident "rate_limit"), .atom (.ident "off")] .off
  | only {t : List Token} {spec : RateLimitSpec} (h : UseText true t spec) :
      SpecText (.atom (.ident "rate_limit") :: .atom (.ident "only") :: t) spec
  | plain {t : List Token} {spec : RateLimitSpec} (h : UseText false t spec)
      (hoff : peekKeyword "off" t = false) (honly : peekKeyword "only" t = false) :
      SpecText (.atom (.ident "rate_limit") :: t) spec

/-- A profile after its keyword. -/
inductive ProfileDefText : List Token → RateLimitProfileDef → Prop
  | plain (name : Ident) {stream : List Token} {plan : RateLimitPlanSpec}
      (h : PlanText stream plan) :
      ProfileDefText [.atom (.ident name.name), .group .brace stream] ⟨name, none, plan⟩
  | extending (name parent : Ident) {stream : List Token} {plan : RateLimitPlanSpec}
      (h : PlanText stream plan) :
      ProfileDefText [.atom (.ident name.name), .atom (.ident "extends"),
        .atom (.ident parent.name), .group .brace stream] ⟨name, some parent, plan⟩

/-! ## the parsers accept just these texts -/

section reads

/-- A part of a key is written as its name. -/
theorem tokens_keySpecOf (first : Ident) : (keySpecOf first).tokens = nameTokens first := by
  unfold keySpecOf
  split
  · next h => rw [nameTokens, h, RateLimitKeySpec.tokens]
  · split
    · next h => rw [nameTokens, h, RateLimitKeySpec.tokens]
    · split
      · next h => rw [nameTokens, h, RateLimitKeySpec.tokens]
      · rfl

/-- A part of a key is read as it is written. -/
theorem reads_keySpec : parseRateLimitKeySpec.Reads fun t key => t = key.tokens := by
  refine (Parser.reads_ite reads_litStr.map reads_ident.map ?_).congr ?_
  · rintro t key rest (⟨value, rfl, _⟩ | ⟨first, rfl, _⟩) <;> rfl
  · intro t key
    constructor
    · rintro (⟨_, value, rfl, rfl⟩ | ⟨_, first, rfl, rfl⟩)
      · rfl
      · exact (tokens_keySpecOf first).symm
    · rintro rfl
      cases key with
      | routeHost => exact .inr ⟨rfl, ⟨"host", by decide⟩, rfl, rfl⟩
      | endpoint => exact .inr ⟨rfl, ⟨"endpoint", by decide⟩, rfl, rfl⟩
      | method => exact .inr ⟨rfl, ⟨"method", by decide⟩, rfl, rfl⟩
      | static value => exact .inl ⟨rfl, value, rfl, rfl⟩
      | named name hname =>
          refine .inr ⟨rfl, name, rfl, ?_⟩
          simp only [plainKeys, List.mem_cons, List.not_mem_nil, or_false, not_or] at hname
          simp [keySpecOf, hname]

/-- A list of things that start with a token that is no comma. -/
theorem toEnd_listText {α : Type} {p : TokenParser α} {tokens : α → List Token}
    (hreads : p.Reads fun t x => t = tokens x)
    (hstarts : ∀ x, ∃ first rest, tokens x = first :: rest ∧ isComma first = false)
    {input : List Token} {xs : List α} :
    toEnd (pushing p) isComma [] input = .ok xs ↔ ListText tokens input xs := by
  rw [toEnd_eq_ok_iff_listed (reads_pushing hreads) ?_]
  · simp only [foldlM_pushing, List.nil_append, Option.some.injEq]
    constructor
    · rintro ⟨_, hlisted, rfl⟩
      exact hlisted
    · exact fun hlisted => ⟨xs, hlisted, rfl⟩
  · rintro t x rfl
    exact hstarts x

/-- So is a key. -/
theorem reads_keyList : parseRateLimitKeyList.Reads fun t keys =>
    ∃ stream, t = [.group .bracket stream] ∧ ListText RateLimitKeySpec.tokens stream keys := by
  refine Parser.reads_group fun stream keys => toEnd_listText reads_keySpec fun key => ?_
  cases key <;> exact ⟨_, _, rfl, rfl⟩

/-- A window keeps both of its numbers as they are written. -/
theorem windowOf_eq_ok_iff {max every : LitInt} {window : RateLimitWindowSpec} :
    windowOf max every = .ok window ↔ window.max = max ∧ window.every = every := by
  obtain ⟨max', every', unit, hunit⟩ := window
  unfold windowOf
  split
  · next unit' hunit' =>
      simp only [Except.ok.injEq, RateLimitWindowSpec.mk.injEq]
      constructor
      · rintro ⟨rfl, rfl, _⟩
        exact ⟨rfl, rfl⟩
      · rintro ⟨rfl, rfl⟩
        exact ⟨rfl, rfl, Option.some.inj (hunit'.symm.trans hunit)⟩
  · next hnone =>
      constructor
      · intro h
        cases h
      · rintro ⟨_, rfl⟩
        rw [hunit] at hnone
        cases hnone

/-- A window is read as it is written. -/
theorem reads_window : parseWindow.Reads fun t window => t = window.tokens := by
  refine (reads_litInt.bind fun max => (reads_punct '/').bind fun _ =>
    reads_litInt.bind fun every => Parser.reads_ofExcept (windowOf max every)).congr ?_
  intro t window
  constructor
  · rintro ⟨max, _, _, rfl, ⟨_, _, _, rfl, ⟨every, _, _, rfl, ⟨rfl, hwindow⟩, rfl⟩, rfl⟩, rfl⟩
    obtain ⟨rfl, rfl⟩ := windowOf_eq_ok_iff.mp hwindow
    simp [RateLimitWindowSpec.tokens]
  · rintro rfl
    exact ⟨window.max, _, _, rfl, ⟨(), _, _, rfl, ⟨window.every, _, [], rfl,
      ⟨rfl, windowOf_eq_ok_iff.mpr ⟨rfl, rfl⟩⟩, rfl⟩, rfl⟩, by simp [RateLimitWindowSpec.tokens]⟩

/-- What an item adds to a body; a second cost is refused. -/
def BucketBody.add (body : BucketBody) : BucketItem → Option BucketBody
  | .cost lit => if body.cost.isSome then none else some { body with cost := some lit }
  | .window spec => some { body with windows := body.windows ++ [spec] }

/-- A number begins with a token that is no comma and no word. -/
theorem LitInt.tokens_eq_cons (lit : LitInt) : ∃ first rest, lit.tokens = first :: rest ∧
    isComma first = false ∧ ∀ word, peekKeyword word lit.tokens = false := by
  obtain ⟨negative, value, suffix⟩ := lit
  cases negative <;> exact ⟨_, _, rfl, rfl, fun _ => rfl⟩

/-- So does a window. -/
theorem RateLimitWindowSpec.tokens_eq_cons (window : RateLimitWindowSpec) :
    ∃ first rest, window.tokens = first :: rest ∧ isComma first = false ∧
      ∀ word, peekKeyword word window.tokens = false := by
  obtain ⟨first, rest, hmax, hcomma, hword⟩ := window.max.tokens_eq_cons
  refine ⟨first, rest ++ .atom (.punct '/') :: window.every.tokens, ?_, hcomma, ?_⟩
  · rw [RateLimitWindowSpec.tokens, hmax, List.cons_append]
  · intro word
    have hne : window.max.tokens ≠ [] := by simp [hmax]
    rw [RateLimitWindowSpec.tokens, peekKeyword_append word hne, hword]

/-- An item does not begin with a comma. -/
theorem BucketItem.tokens_eq_cons (item : BucketItem) :
    ∃ first rest, item.tokens = first :: rest ∧ isComma first = false := by
  cases item with
  | cost lit => exact ⟨_, _, rfl, rfl⟩
  | window spec =>
      obtain ⟨first, rest, htokens, hcomma, _⟩ := spec.tokens_eq_cons
      exact ⟨first, rest, htokens, hcomma⟩

/-- A cost is read as it is written, if it is the first. -/
theorem reads_bucketCost (body : BucketBody) : (parseBucketCost body).Reads fun t body' =>
    ∃ lit, t = (BucketItem.cost lit).tokens ∧ body.add (.cost lit) = some body' := by
  unfold parseBucketCost
  split
  · next hcost =>
      refine (Parser.reads_throw _).congr fun t body' => ?_
      simp [BucketBody.add, hcost]
  · next hcost =>
      refine ((reads_keyword "cost").bind fun _ => reads_litInt.bind fun lit =>
        Parser.reads_pure _).congr fun t body' => ?_
      simp only [BucketBody.add, if_neg hcost, Option.some.injEq]
      constructor
      · rintro ⟨_, _, _, rfl, ⟨lit, _, _, rfl, ⟨rfl, rfl⟩, rfl⟩, rfl⟩
        exact ⟨lit, by simp [BucketItem.tokens], rfl⟩
      · rintro ⟨lit, rfl, rfl⟩
        exact ⟨(), _, _, rfl, ⟨lit, _, [], rfl, ⟨rfl, rfl⟩, rfl⟩, by simp [BucketItem.tokens]⟩

/-- An item is read as it is written. -/
theorem reads_bucketItem (body : BucketBody) : (parseBucketItem body).Reads fun t body' =>
    ∃ item, t = BucketItem.tokens item ∧ body.add item = some body' := by
  refine (Parser.reads_ite (reads_bucketCost body) (Parser.reads_ite reads_window.map
    (Parser.reads_throw _) ?_) ?_).congr ?_
  · rintro t body' rest (⟨window, rfl, _⟩ | hfalse)
    · rw [RateLimitWindowSpec.tokens, List.append_assoc, peekLitInt_tokens, peekLitInt_tokens]
    · exact hfalse.elim
  · rintro t body' rest (⟨lit, rfl, _⟩ | ⟨_, window, rfl, _⟩ | ⟨_, hfalse⟩)
    · rfl
    · obtain ⟨first, tail, htokens, _, _⟩ := window.tokens_eq_cons
      exact peekKeyword_append "cost" (by simp [htokens]) rest
    · exact hfalse.elim
  · intro t body'
    constructor
    · rintro (⟨_, lit, rfl, hadd⟩ | ⟨_, ⟨_, window, rfl, rfl⟩ | ⟨_, hfalse⟩⟩)
      · exact ⟨.cost lit, rfl, hadd⟩
      · exact ⟨.window window, rfl, rfl⟩
      · exact hfalse.elim
    · rintro ⟨item, rfl, hadd⟩
      cases item with
      | cost lit => exact .inl ⟨by simp [BucketItem.tokens, peekKeyword], lit, rfl, hadd⟩
      | window spec =>
          obtain ⟨_, _, _, _, hword⟩ := spec.tokens_eq_cons
          have hlit : peekLitInt spec.tokens = true := peekLitInt_tokens spec.max _
          exact .inr ⟨hword "cost", .inl ⟨hlit, spec, rfl, (Option.some.inj hadd).symm⟩⟩

/-- A body is its items, of which one at most is a cost. -/
theorem foldlM_add_eq_some_iff {items : List BucketItem} {body body' : BucketBody} :
    items.foldlM BucketBody.add body = some body' ↔
      body.cost.toList ++ items.filterMap BucketItem.cost? = body'.cost.toList ∧
        body.windows ++ items.filterMap BucketItem.window? = body'.windows := by
  induction items generalizing body with
  | nil =>
      obtain ⟨cost, windows⟩ := body
      obtain ⟨cost', windows'⟩ := body'
      cases cost <;> cases cost' <;> simp
  | cons item items ih =>
      cases item with
      | window spec =>
          simp [BucketBody.add, ih, List.filterMap_cons, BucketItem.cost?, BucketItem.window?]
      | cost lit =>
          obtain ⟨cost, windows⟩ := body
          obtain ⟨cost', windows'⟩ := body'
          cases cost with
          | none =>
              simp [BucketBody.add, ih, List.filterMap_cons, BucketItem.cost?, BucketItem.window?]
          | some first =>
              cases cost' <;>
                simp [BucketBody.add, List.filterMap_cons, BucketItem.cost?, BucketItem.window?]

/-- The items of a bucket come to its cost and its windows, in order. -/
theorem reads_bucketBody : parseBucketBody.Reads fun t body =>
    ∃ stream, t = [.group .brace stream] ∧ ∃ items, ListText BucketItem.tokens stream items ∧
      items.filterMap BucketItem.cost? = body.cost.toList ∧
      items.filterMap BucketItem.window? = body.windows := by
  refine Parser.reads_group fun stream body => ?_
  rw [toEnd_eq_ok_iff_listed reads_bucketItem (by rintro t item rfl; exact item.tokens_eq_cons)]
  simp only [foldlM_add_eq_some_iff, Option.toList_none, List.nil_append]

/-- A bucket is read as it is written. -/
theorem reads_bucket : parseRateLimitBucket.Reads BucketText := by
  refine ((reads_keyword "bucket").bind fun _ => reads_ident.bind fun kind =>
    (reads_keyword "by").bind fun _ => reads_keyList.bind fun key =>
    reads_bucketBody.bind fun body => Parser.reads_pure _).congr ?_
  intro t bucket
  constructor
  · rintro ⟨_, _, _, rfl, ⟨kind, _, _, rfl, ⟨_, _, _, rfl, ⟨key, _, _, ⟨keys, rfl, hkey⟩,
      ⟨body, _, _, ⟨stream, rfl, items, hitems, hcost, hwindows⟩, ⟨rfl, rfl⟩, rfl⟩, rfl⟩, rfl⟩,
      rfl⟩, rfl⟩
    exact @BucketText.mk _ _ _ ⟨kind, key, body.cost, body.windows⟩ hkey hitems hcost hwindows
  · rintro ⟨hkey, hitems, hcost, hwindows⟩
    exact ⟨(), _, _, rfl, ⟨bucket.kind, _, _, rfl, ⟨(), _, _, rfl, ⟨bucket.key, _, _, ⟨_, rfl, hkey⟩,
      ⟨⟨bucket.cost, bucket.windows⟩, _, [], ⟨_, rfl, _, hitems, hcost, hwindows⟩, ⟨rfl, rfl⟩, rfl⟩,
      rfl⟩, rfl⟩, rfl⟩, rfl⟩

/-- A bucket begins with its word. -/
theorem BucketText.eq_cons {t : List Token} {bucket : RateLimitBucketSpec}
    (h : BucketText t bucket) : ∃ rest, t = .atom (.ident "bucket") :: rest := by
  cases h
  exact ⟨_, rfl⟩

/-- A bucket is added to a plan. -/
theorem reads_planItem (buckets : List RateLimitBucketSpec) :
    (parsePlanItem buckets).Reads fun t buckets' =>
      ∃ bucket, BucketText t bucket ∧ some (buckets ++ [bucket]) = some buckets' := by
  refine (Parser.reads_ite (reads_pushing reads_bucket buckets) (Parser.reads_throw _) ?_).congr ?_
  · rintro t buckets' rest (⟨bucket, htext, _⟩ | hfalse)
    · obtain ⟨tail, rfl⟩ := htext.eq_cons
      rfl
    · exact hfalse.elim
  · intro t buckets'
    constructor
    · rintro (⟨_, hpush⟩ | ⟨_, hfalse⟩)
      · exact hpush
      · exact hfalse.elim
    · rintro ⟨bucket, htext, hpush⟩
      refine .inl ⟨?_, bucket, htext, hpush⟩
      obtain ⟨tail, rfl⟩ := htext.eq_cons
      simp [peekKeyword]

/-- A plan is read exactly from its text. -/
theorem parseRateLimitPlanBody_eq_ok_iff (input : List Token) (plan : RateLimitPlanSpec) :
    parseRateLimitPlanBody input = .ok plan ↔ PlanText input plan := by
  have hread : ∀ buckets, toEnd parsePlanItem isComma [] input = .ok buckets ↔
      Listed isComma BucketText input buckets := by
    intro buckets
    rw [toEnd_eq_ok_iff_listed reads_planItem ?_]
    · simp only [foldlM_pushing, List.nil_append, Option.some.injEq, exists_eq_right]
    · intro t bucket htext
      obtain ⟨tail, rfl⟩ := htext.eq_cons
      exact ⟨_, _, rfl, rfl⟩
  unfold parseRateLimitPlanBody PlanText
  rw [← hread]
  obtain ⟨buckets, hne⟩ := plan
  cases toEnd parsePlanItem isComma [] input with
  | error error => simp
  | ok buckets' =>
      by_cases h : buckets' = []
      · subst h
        simpa using Ne.symm hne
      · simp [h]

/-- A plan between braces is read as it is written. -/
theorem reads_plan : parsePlanBlock.Reads fun t plan =>
    ∃ stream, t = [.group .brace stream] ∧ PlanText stream plan :=
  Parser.reads_group parseRateLimitPlanBody_eq_ok_iff

/-- A name is read as it is written, if it is new. -/
theorem reads_listedProfile (seen : SeenNames) : (parseListedProfile seen).Reads fun t seen' =>
    ∃ name, t = nameTokens name ∧ seen.insert name = some seen' := by
  have hinsert : ∀ name, (match seen.insert name with
      | some seen => pure seen
      | none => throw (.refused
          ("duplicate rate_limit profile `" ++ name.name ++ "` in rate_limit list")) :
        TokenParser SeenNames).Reads fun t seen' => t = [] ∧ seen.insert name = some seen' := by
    intro name
    cases seen.insert name with
    | none => exact (Parser.reads_throw _).congr fun t seen' => by simp
    | some seen' => exact (Parser.reads_pure seen').congr fun t seen'' => by simp [eq_comm]
  refine (reads_ident.bind hinsert).congr fun t seen' => ?_
  constructor
  · rintro ⟨name, _, _, rfl, ⟨rfl, hseen⟩, rfl⟩
    exact ⟨name, rfl, hseen⟩
  · rintro ⟨name, rfl, hseen⟩
    exact ⟨name, _, [], rfl, ⟨rfl, hseen⟩, rfl⟩

/-- Names are all inserted if none is there twice. -/
theorem foldlM_insert_eq_some_iff {names : List Ident} {seen seen' : SeenNames} :
    names.foldlM SeenNames.insert seen = some seen' ↔ seen.val ++ names = seen'.val := by
  induction names generalizing seen with
  | nil => simp [Subtype.ext_iff]
  | cons name names ih =>
      rw [List.foldlM_cons]
      by_cases h : name ∈ seen.val
      · have hdup : seen.val ++ name :: names ≠ seen'.val := by
          intro heq
          have hnodup := heq ▸ seen'.property
          rw [List.nodup_append] at hnodup
          exact hnodup.2.2 name h name List.mem_cons_self rfl
        simp [SeenNames.insert, h, hdup]
      · simp [SeenNames.insert, h, ih]

/-- A list of names is read exactly from its text. -/
theorem parseProfileNames_eq_ok_iff (input : List Token) (names : ProfileNames) :
    parseProfileNames input = .ok names ↔ ListText nameTokens input names.names := by
  have hread : ∀ seen, toEnd parseListedProfile isComma ⟨[], List.nodup_nil⟩ input = .ok seen ↔
      ListText nameTokens input seen.val := by
    intro seen
    rw [toEnd_eq_ok_iff_listed reads_listedProfile ?_]
    · simp only [foldlM_insert_eq_some_iff, List.nil_append, exists_eq_right]
    · rintro t name rfl
      exact ⟨_, _, rfl, rfl⟩
  obtain ⟨names, hne, hnodup⟩ := names
  unfold parseProfileNames
  show _ ↔ ListText nameTokens input (⟨names, hnodup⟩ : SeenNames).val
  rw [← hread]
  cases toEnd parseListedProfile isComma ⟨[], List.nodup_nil⟩ input with
  | error error => simp
  | ok seen =>
      obtain ⟨seen, hseen⟩ := seen
      by_cases h : seen = []
      · subst h
        simpa using Ne.symm hne
      · simp [h]

/-- So are names with and without brackets. -/
theorem reads_profileList : parseRateLimitProfileList.Reads NamesText := by
  refine (Parser.reads_ite (Parser.reads_group parseProfileNames_eq_ok_iff) reads_ident.map
    ?_).congr ?_
  · rintro t names rest (⟨stream, rfl, _⟩ | ⟨name, rfl, _⟩) <;> rfl
  · intro t names
    constructor
    · rintro (⟨_, stream, rfl, hlist⟩ | ⟨_, name, rfl, rfl⟩)
      · exact .list hlist
      · exact .single name
    · intro h
      cases h with
      | list hlist => exact .inl ⟨rfl, _, rfl, hlist⟩
      | single name => exact .inr ⟨rfl, name, rfl, rfl⟩

/-- Names do not begin with a brace, so they are told from a plan. -/
theorem NamesText.not_brace {t : List Token} {names : ProfileNames} (h : NamesText t names)
    (rest : List Token) : t ≠ [] ∧ peekGroup .brace (t ++ rest) = false := by
  cases h with
  | list _ => exact ⟨List.cons_ne_nil _ _, rfl⟩
  | single _ => exact ⟨List.cons_ne_nil _ _, rfl⟩

/-- A use is read as it is written. -/
theorem reads_use (only : Bool) : (parseRateLimitUse only).Reads (UseText only) := by
  refine (Parser.reads_ite reads_plan.map reads_profileList.map ?_).congr ?_
  · rintro t spec rest (⟨plan, ⟨stream, rfl, _⟩, _⟩ | ⟨names, hnames, _⟩)
    · rfl
    · exact peekGroup_append .brace (hnames.not_brace []).1 rest
  · intro t spec
    constructor
    · rintro (⟨_, plan, ⟨stream, rfl, hplan⟩, rfl⟩ | ⟨_, names, hnames, rfl⟩)
      · exact .inline hplan
      · exact .profiles hnames
    · intro h
      cases h with
      | inline hplan => exact .inl ⟨rfl, _, ⟨_, rfl, hplan⟩, rfl⟩
      | profiles hnames =>
          have hbrace := (hnames.not_brace []).2
          rw [List.append_nil] at hbrace
          exact .inr ⟨hbrace, _, hnames, rfl⟩

/-- A use has a text. -/
theorem UseText.ne_nil {only : Bool} {t : List Token} {spec : RateLimitSpec}
    (h : UseText only t spec) : t ≠ [] := by
  cases h with
  | inline _ => exact List.cons_ne_nil _ _
  | profiles hnames => exact (hnames.not_brace []).1

/-- A directive is read as it is written. -/
theorem reads_spec : parseRateLimitSpec.Reads SpecText := by
  have hoff := (reads_keyword "off").bind fun _ => Parser.reads_pure RateLimitSpec.off
  have honly := (reads_keyword "only").bind fun _ => reads_use true
  refine ((reads_keyword "rate_limit").bind fun _ => Parser.reads_ite hoff
    (Parser.reads_ite honly (reads_use false) ?_) ?_).congr ?_
  · rintro t spec rest (⟨_, _, _, rfl, _, rfl⟩ | huse)
    · rfl
    · exact peekKeyword_append "only" huse.ne_nil rest
  · rintro t spec rest (⟨_, _, _, rfl, _, rfl⟩ | ⟨_, _, _, _, rfl, _, rfl⟩ | ⟨_, huse⟩)
    · rfl
    · rfl
    · exact peekKeyword_append "off" huse.ne_nil rest
  · intro t spec
    constructor
    · rintro ⟨_, _, _, rfl, ⟨_, _, _, _, rfl, ⟨rfl, rfl⟩, rfl⟩ |
        ⟨hoff, ⟨_, _, _, _, rfl, huse, rfl⟩ | ⟨honly, huse⟩⟩, rfl⟩
      · exact .off
      · exact .only huse
      · exact .plain huse hoff honly
    · intro h
      cases h with
      | off => exact ⟨(), _, _, rfl, .inl ⟨rfl, (), _, [], rfl, ⟨rfl, rfl⟩, rfl⟩, rfl⟩
      | only huse =>
          exact ⟨(), _, _, rfl, .inr ⟨rfl, .inl ⟨rfl, (), _, _, rfl, huse, rfl⟩⟩, rfl⟩
      | plain huse hoff honly => exact ⟨(), _, _, rfl, .inr ⟨hoff, .inr ⟨honly, huse⟩⟩, rfl⟩

/-- So is the body of a named plan. -/
theorem reads_profileBody (name : Ident) (extends_ : Option Ident) :
    (parseProfileBody name extends_).Reads fun t profile => ∃ stream plan,
      t = [.group .brace stream] ∧ PlanText stream plan ∧ profile = ⟨name, extends_, plan⟩ := by
  refine reads_plan.map.congr fun t profile => ?_
  constructor
  · rintro ⟨plan, ⟨stream, rfl, hplan⟩, rfl⟩
    exact ⟨stream, plan, rfl, hplan, rfl⟩
  · rintro ⟨stream, plan, rfl, hplan, rfl⟩
    exact ⟨plan, ⟨stream, rfl, hplan⟩, rfl⟩

/-- And a named plan. -/
theorem reads_profileDef : parseRateLimitProfileDeclAfterKeyword.Reads ProfileDefText := by
  refine (reads_ident.bind fun name => Parser.reads_ite
    ((reads_keyword "extends").bind fun _ => reads_ident.bind fun parent =>
      reads_profileBody name (some parent)) (reads_profileBody name none) ?_).congr ?_
  · rintro t profile rest (⟨_, _, _, rfl, _, rfl⟩ | ⟨_, _, rfl, _⟩) <;> rfl
  · intro t profile
    constructor
    · rintro ⟨name, _, _, rfl, ⟨_, _, _, _, rfl, ⟨parent, _, _, rfl,
        ⟨stream, plan, rfl, hplan, rfl⟩, rfl⟩, rfl⟩ | ⟨_, stream, plan, rfl, hplan, rfl⟩, rfl⟩
      · exact .extending name parent hplan
      · exact .plain name hplan
    · intro h
      cases h with
      | plain name hplan =>
          exact ⟨name, _, _, rfl, .inr ⟨rfl, _, _, rfl, hplan, rfl⟩, rfl⟩
      | extending name parent hplan =>
          exact ⟨name, _, _, rfl, .inl ⟨rfl, (), _, _, rfl, ⟨parent, _, _, rfl,
            ⟨_, _, rfl, hplan, rfl⟩, rfl⟩, rfl⟩, rfl⟩

end reads

end Concord.Parse
