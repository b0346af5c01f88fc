import Mathlib.Data.List.Basic
import Mathlib.Data.List.Induction
import Mathlib.Data.List.Nodup

/-!
# Concord.Lib.PathTree

Trees of items at paths, the siblings of a node in the order they were made.
Inserting an item makes the nodes on its path that are not there.
-/

/-- The siblings at one place of a tree. -/
inductive PathTree (K A : Type) where
  | nil
  | node (key : K) (items : List A) (children rest : PathTree K A)

namespace PathTree

variable {K A : Type} [DecidableEq K]

/-- Rewrite the items and the children of a node, which is made if it is not
there. -/
def update (key : K) (f : List A → PathTree K A → List A × PathTree K A) :
    PathTree K A → PathTree K A
  | .nil => .node key (f [] .nil).1 (f [] .nil).2 .nil
  | .node key' items children rest =>
    if key' = key then .node key' (f items children).1 (f items children).2 rest
    else .node key' items children (update key f rest)

/-- An item is put at the end of its path. -/
def insert (item : A) : List K → PathTree K A → PathTree K A
  | [], tree => tree
  | [key], tree => tree.update key (fun items children => (items ++ [item], children))
  | key :: next :: path, tree =>
    tree.update key (fun items children => (items, insert item (next :: path) children))

/-- The tree of a list of items with their paths. -/
def ofList (entries : List (List K × A)) : PathTree K A :=
  entries.foldl (fun tree entry => insert entry.2 entry.1 tree) .nil

/-- The keys of the siblings. -/
def keys : PathTree K A → List K
  | .nil => []
  | .node key _ _ rest => key :: keys rest

/-- Visit each node with its path, its items and the keys of its children. -/
def walk {B : Type} (visit : List K → List A → List K → B) (path : List K) :
    PathTree K A → List B
  | .nil => []
  | .node key items children rest =>
    visit (path ++ [key]) items children.keys ::
      (walk visit (path ++ [key]) children ++ walk visit path rest)

/-! ## siblings -/

/-- The siblings, each with its items and its children. -/
def nodes : PathTree K A → List (K × List A × PathTree K A)
  | .nil => []
  | .node key items children rest => (key, items, children) :: nodes rest

omit [DecidableEq K] in
/-- The key of a node is one of the tree's. -/
theorem key_mem_of_mem_nodes {tree : PathTree K A} {node : K × List A × PathTree K A}
    (h : node ∈ tree.nodes) : node.1 ∈ tree.keys := by
  induction tree with
  | nil => exact absurd h List.not_mem_nil
  | node key items children rest _ ih =>
      cases List.mem_cons.mp h with
      | inl heq => rw [heq]; exact List.mem_cons_self
      | inr hmem => exact List.mem_cons_of_mem _ (ih hmem)

/-- An update adds its key, if it is new. -/
theorem keys_update (key : K) (f : List A → PathTree K A → List A × PathTree K A)
    (tree : PathTree K A) :
    (tree.update key f).keys = if key ∈ tree.keys then tree.keys else tree.keys ++ [key] := by
  induction tree with
  | nil => rfl
  | node key' items children rest _ ih =>
      unfold update
      by_cases heq : key' = key
      · simp [keys, heq]
      · have hne : key ≠ key' := fun h => heq h.symm
        simp only [if_neg heq, keys, ih, List.mem_cons, hne, false_or]
        split
        · rfl
        · rfl

/-- What `update` leaves: the other siblings as they were, and the rewritten
node. -/
theorem mem_nodes_update {key : K} {f : List A → PathTree K A → List A × PathTree K A}
    {tree : PathTree K A} {node : K × List A × PathTree K A} (hnodup : tree.keys.Nodup)
    (h : node ∈ (tree.update key f).nodes) :
    (node ∈ tree.nodes ∧ node.1 ≠ key) ∨
    (∃ items children, (key, items, children) ∈ tree.nodes ∧
      node = (key, (f items children).1, (f items children).2)) ∨
    (key ∉ tree.keys ∧ node = (key, (f [] .nil).1, (f [] .nil).2)) := by
  induction tree with
  | nil => exact .inr (.inr ⟨List.not_mem_nil, List.mem_singleton.mp h⟩)
  | node key' items children rest _ ih =>
      obtain ⟨hfresh, hrest⟩ := List.nodup_cons.mp hnodup
      unfold update at h
      by_cases heq : key' = key
      · rw [if_pos heq] at h
        cases List.mem_cons.mp h with
        | inl hnode =>
            refine .inr (.inl ⟨items, children, ?_, ?_⟩)
            · rw [← heq]; exact List.mem_cons_self
            · rw [hnode, heq]
        | inr hmem =>
            refine .inl ⟨List.mem_cons_of_mem _ hmem, fun hkey => ?_⟩
            rw [← heq] at hkey
            exact hfresh (hkey ▸ key_mem_of_mem_nodes hmem)
      · rw [if_neg heq] at h
        cases List.mem_cons.mp h with
        | inl hnode =>
            refine .inl ⟨?_, ?_⟩
            · rw [hnode]; exact List.mem_cons_self
            · rw [hnode]; exact heq
        | inr hmem =>
            cases ih hrest hmem with
            | inl hold => exact .inl ⟨List.mem_cons_of_mem _ hold.1, hold.2⟩
            | inr hnew =>
                cases hnew with
                | inl hthere =>
                    obtain ⟨items', children', hin, hnode⟩ := hthere
                    exact .inr (.inl ⟨items', children', List.mem_cons_of_mem _ hin, hnode⟩)
                | inr hmade =>
                    refine .inr (.inr ⟨fun hmem' => ?_, hmade.2⟩)
                    cases List.mem_cons.mp hmem' with
                    | inl hkey => exact heq hkey.symm
                    | inr hkey => exact hmade.1 hkey

/-! ## the tree of a list -/

/-- The items of the entries at a path. -/
def at_ (path : List K) (entries : List (List K × A)) : List A :=
  (entries.filter (fun entry => entry.1 = path)).map Prod.snd

/-- The path of an entry below a sibling. -/
def strip (key : K) : List K × A → Option (List K × A)
  | (key' :: next :: path, item) => if key' = key then some (next :: path, item) else none
  | _ => none

/-- The siblings are those of the entries, each with its own part of them. -/
structure Fits (tree : PathTree K A) (entries : List (List K × A)) : Prop where
  nodup : tree.keys.Nodup
  mem_keys : ∀ key, key ∈ tree.keys ↔ ∃ entry ∈ entries, entry.1.head? = some key
  nodes : ∀ node ∈ tree.nodes, node.2.1 = at_ [node.1] entries ∧
    node.2.2 = ofList (entries.filterMap (strip node.1))

/-- One more entry. -/
theorem ofList_append (entries : List (List K × A)) (entry : List K × A) :
    ofList (entries ++ [entry]) = insert entry.2 entry.1 (ofList entries) := by
  unfold ofList
  rw [List.foldl_append, List.foldl_cons, List.foldl_nil]

/-- The items at a path after one more entry. -/
theorem at_append (path : List K) (entries : List (List K × A)) (entry : List K × A) :
    at_ path (entries ++ [entry]) =
      at_ path entries ++ if entry.1 = path then [entry.2] else [] := by
  unfold at_
  rw [List.filter_append, List.map_append, List.filter_singleton]
  by_cases h : entry.1 = path
  · simp [h]
  · simp [h]

/-- There is nothing under a key without entries. -/
theorem at_eq_nil {key : K} {path : List K} {entries : List (List K × A)}
    (h : ∀ entry ∈ entries, entry.1.head? ≠ some key) : at_ (key :: path) entries = [] := by
  unfold at_
  rw [List.map_eq_nil_iff, List.filter_eq_nil_iff]
  intro entry hentry hpath
  refine h entry hentry ?_
  rw [of_decide_eq_true hpath]
  rfl

/-- An entry below a key. -/
theorem strip_eq_some {key : K} {entry below : List K × A} (h : strip key entry = some below) :
    below.1 ≠ [] ∧ entry = (key :: below.1, below.2) := by
  unfold strip at h
  split at h
  · next key' next path item =>
      split at h
      · next heq =>
          cases h
          exact ⟨List.cons_ne_nil _ _, by rw [heq]⟩
      · cases h
  · cases h

/-- A key without entries has none below it. -/
theorem strip_eq_nil {key : K} {entries : List (List K × A)}
    (h : ∀ entry ∈ entries, entry.1.head? ≠ some key) : entries.filterMap (strip key) = [] := by
  rw [List.filterMap_eq_nil_iff]
  intro entry hentry
  cases hstrip : strip key entry with
  | none => rfl
  | some below =>
      refine absurd ?_ (h entry hentry)
      rw [(strip_eq_some hstrip).2]
      rfl

/-- The empty tree. -/
theorem Fits.nil : Fits (.nil : PathTree K A) [] :=
  ⟨List.nodup_nil, fun _ => by simp [keys], fun _ h => absurd h List.not_mem_nil⟩

/-- An entry without a path changes nothing. -/
theorem Fits.append_nil {tree : PathTree K A} {entries : List (List K × A)} (h : Fits tree entries)
    (item : A) : Fits tree (entries ++ [([], item)]) := by
  refine ⟨h.nodup, fun key => ?_, fun node hnode => ?_⟩
  · rw [h.mem_keys]
    simp
  · obtain ⟨hitems, hchildren⟩ := h.nodes node hnode
    have hne : ([] : List K) ≠ [node.1] := (List.cons_ne_nil _ _).symm
    have hstrip : strip node.1 (([] : List K), item) = none := rfl
    rw [at_append, if_neg hne, List.append_nil, List.filterMap_append]
    exact ⟨hitems, by rw [hchildren]; simp [hstrip]⟩

/-- An entry rewrites the sibling it is below of, and no other. -/
theorem Fits.update {tree : PathTree K A} {entries : List (List K × A)} (h : Fits tree entries)
    {key : K} {path : List K} {item : A}
    {f : List A → PathTree K A → List A × PathTree K A}
    (hf : f (at_ [key] entries) (ofList (entries.filterMap (strip key))) =
      (at_ [key] (entries ++ [(key :: path, item)]),
        ofList ((entries ++ [(key :: path, item)]).filterMap (strip key)))) :
    Fits (tree.update key f) (entries ++ [(key :: path, item)]) := by
  refine ⟨?_, fun key' => ?_, fun node hnode => ?_⟩
  · rw [keys_update]
    split
    · exact h.nodup
    · next hfresh =>
        rw [← List.concat_eq_append]
        exact h.nodup.concat hfresh
  · rw [keys_update]
    have hold := h.mem_keys key'
    by_cases hkey : key ∈ tree.keys
    · rw [if_pos hkey, hold]
      have hthere := (h.mem_keys key).mp hkey
      constructor
      · intro hex
        obtain ⟨entry, hentry, hhead⟩ := hex
        exact ⟨entry, List.mem_append_left _ hentry, hhead⟩
      · intro hex
        obtain ⟨entry, hentry, hhead⟩ := hex
        cases List.mem_append.mp hentry with
        | inl hmem => exact ⟨entry, hmem, hhead⟩
        | inr hlast =>
            rw [List.mem_singleton.mp hlast] at hhead
            rw [← Option.some.inj hhead]
            exact hthere
    · rw [if_neg hkey, List.mem_append, hold]
      simp [or_and_right, exists_or, eq_comm]
  · cases mem_nodes_update h.nodup hnode with
    | inl hother =>
        obtain ⟨hmem, hne⟩ := hother
        obtain ⟨hitems, hchildren⟩ := h.nodes node hmem
        have hne' : ¬ key = node.1 := fun heq => hne heq.symm
        have hstrip : strip node.1 (key :: path, item) = none := by
          cases path with
          | nil => rfl
          | cons next path => simp [strip, hne']
        rw [at_append, if_neg (by simp [hne']), List.append_nil, List.filterMap_append]
        exact ⟨hitems, by rw [hchildren]; simp [hstrip]⟩
    | inr hnew =>
        have hself : node = (key, f (at_ [key] entries)
            (ofList (entries.filterMap (strip key)))) := by
          cases hnew with
          | inl hthere =>
              obtain ⟨items, children, hin, rfl⟩ := hthere
              obtain ⟨hitems, hchildren⟩ := h.nodes _ hin
              simp only at hitems hchildren
              rw [← hitems, ← hchildren]
          | inr hmade =>
              obtain ⟨hfresh, rfl⟩ := hmade
              have hnone : ∀ entry ∈ entries, entry.1.head? ≠ some key :=
                fun entry hentry hhead => hfresh ((h.mem_keys key).mpr ⟨entry, hentry, hhead⟩)
              rw [at_eq_nil hnone, strip_eq_nil hnone]
              rfl
        rw [hself, hf]
        exact ⟨rfl, rfl⟩

/-- A tree fits its entries after one more. -/
theorem Fits.insert {entries : List (List K × A)} (h : Fits (ofList entries) entries)
    (entry : List K × A) : Fits (ofList (entries ++ [entry])) (entries ++ [entry]) := by
  rw [ofList_append]
  obtain ⟨path, item⟩ := entry
  cases path with
  | nil => exact h.append_nil item
  | cons key path =>
      cases path with
      | nil =>
          refine h.update ?_
          have hstrip : strip key ([key], item) = none := rfl
          rw [at_append, List.filterMap_append]
          simp [hstrip]
      | cons next path =>
          refine h.update ?_
          rw [at_append, List.filterMap_append]
          simp [strip, ofList_append]

/-- The tree of some entries fits them. -/
theorem fits_ofList (entries : List (List K × A)) : Fits (ofList entries) entries := by
  induction entries using List.reverseRecOn with
  | nil => exact .nil
  | append_singleton entries entry ih => exact ih.insert entry

/-! ## visits -/

/-- The entries below a key are those under it. -/
theorem at_strip {key : K} {path : List K} (hne : path ≠ []) (entries : List (List K × A)) :
    at_ path (entries.filterMap (strip key)) = at_ (key :: path) entries := by
  induction entries with
  | nil => rfl
  | cons entry entries ih =>
      unfold at_ at ih ⊢
      rw [List.filterMap_cons, List.filter_cons]
      cases hstrip : strip key entry with
      | none =>
          have hpath : entry.1 ≠ key :: path := by
            intro heq
            obtain ⟨next, rest, rfl⟩ := List.exists_cons_of_ne_nil hne
            obtain ⟨path', item⟩ := entry
            subst heq
            simp [strip] at hstrip
          simp only [hpath, decide_false, Bool.false_eq_true, if_false]
          exact ih
      | some below =>
          obtain ⟨_, hentry⟩ := strip_eq_some hstrip
          rw [hentry, List.filter_cons]
          by_cases heq : below.1 = path
          · simp [heq, ih]
          · simp [heq, ih]

/-- A node is visited with the items at its path, and with children that are
on the paths of the entries. -/
theorem mem_walk {B : Type} {visit : List K → List A → List K → B} {tree : PathTree K A}
    {entries : List (List K × A)} {path : List K} {b : B}
    (htree : ∀ node ∈ tree.nodes, node.2.1 = at_ [node.1] entries ∧
      node.2.2 = ofList (entries.filterMap (strip node.1)))
    (h : b ∈ tree.walk visit path) :
    ∃ sub children, b = visit (path ++ sub) (at_ sub entries) children ∧ sub ≠ [] ∧
      children.Nodup ∧ ∀ key ∈ children, ∃ entry ∈ entries, sub ++ [key] <+: entry.1 := by
  induction tree generalizing entries path with
  | nil => exact absurd h List.not_mem_nil
  | node key items children rest ihChildren ihRest =>
      obtain ⟨hitems, hchildren⟩ := htree _ List.mem_cons_self
      simp only at hitems hchildren
      have hfits := fits_ofList (entries.filterMap (strip key))
      rw [← hchildren] at hfits
      cases List.mem_cons.mp h with
      | inl hself =>
          refine ⟨[key], children.keys, by rw [hself, hitems], List.cons_ne_nil _ _,
            hfits.nodup, fun child hchild => ?_⟩
          obtain ⟨below, hbelow, hhead⟩ := (hfits.mem_keys child).mp hchild
          obtain ⟨entry, hentry, hstrip⟩ := List.mem_filterMap.mp hbelow
          obtain ⟨_, heq⟩ := strip_eq_some hstrip
          obtain ⟨rest', hrest⟩ := List.head?_eq_some_iff.mp hhead
          refine ⟨entry, hentry, rest', ?_⟩
          rw [heq, hrest]
          rfl
      | inr hmem =>
          cases List.mem_append.mp hmem with
          | inl hin =>
              obtain ⟨sub, keys, hb, hne, hnodup, hkeys⟩ := ihChildren hfits.nodes hin
              refine ⟨key :: sub, keys, ?_, List.cons_ne_nil _ _, hnodup,
                fun child hchild => ?_⟩
              · rw [hb, at_strip hne, List.append_assoc, List.singleton_append]
              · obtain ⟨below, hbelow, tail, htail⟩ := hkeys child hchild
                obtain ⟨entry, hentry, hstrip⟩ := List.mem_filterMap.mp hbelow
                obtain ⟨_, heq⟩ := strip_eq_some hstrip
                refine ⟨entry, hentry, tail, ?_⟩
                rw [heq, ← htail]
                rfl
          | inr hin =>
              exact ihRest (fun node hnode => htree node (List.mem_cons_of_mem _ hnode)) hin

end PathTree
