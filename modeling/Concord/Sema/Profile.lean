import Concord.Sema.RateLimit

/-!
# Concord.Sema.Profile

Profiles: named groups of authentication uses and rate-limit directives, with
inheritance (`concord_macros/src/sema/profile.rs`).
-/

namespace Concord.Sema

/-- What a profile adds to a site. -/
structure ProfileResolved where
  authUses : List AuthUseKind
  rateLimitSpecs : List RateLimitSpec
  deriving DecidableEq, Repr

/-- Nothing. -/
def ProfileResolved.default : ProfileResolved := ⟨[], []⟩

/-- The parent's uses, then the child's. -/
def mergeProfile (parent child : ProfileResolved) : ProfileResolved :=
  ⟨parent.authUses ++ child.authUses, parent.rateLimitSpecs ++ child.rateLimitSpecs⟩

/-- What a profile adds to its parent. -/
def ProfileDef.own (profile : ProfileDef) : ProfileResolved :=
  ⟨profile.patch.authUses, profile.patch.rateLimit.toList⟩

/-- The resolved profiles. -/
abbrev Profiles := List (Ident × ProfileResolved)

/-! ## inheritance -/

/-- A profile that extends itself. -/
def profileCycle {α : Type} (name : Ident) : Result α :=
  fail ("profile inheritance cycle involving `" ++ name ++ "`")

/-- `resolve_profile`, with the names being visited and what is resolved as it
leaves them.  One level more than there are profiles is never reached. -/
def resolveProfile (rawProfiles : List ProfileDef) :
    Nat → Ident → List Ident → Profiles → Result (ProfileResolved × List Ident × Profiles)
  | 0, _, _, _ => .error (.panic "profile inheritance too deep")
  | fuel + 1, name, visiting, resolved =>
    match resolved.lookup name with
    | some value => .ok (value, visiting, resolved)
    | none =>
      match rawProfiles.find? (fun profile => profile.name = name) with
      | none => fail (unknownName "profile" name)
      | some profile =>
        if visiting.contains name then profileCycle name
        else
          let parent : Result (ProfileResolved × List Ident × Profiles) :=
            match profile.extends_ with
            | none => .ok (.default, name :: visiting, resolved)
            | some parent =>
              if parent = profile.name then profileCycle name
              else if !(rawProfiles.map ProfileDef.name).contains parent then
                fail (unknownName "profile parent" parent)
              else resolveProfile rawProfiles fuel parent (name :: visiting) resolved
          do
            let (out, visiting, resolved) ← parent
            let out := mergeProfile out profile.own
            .ok (out, visiting.erase name, (name, out) :: resolved)

/-- The loop of `resolve_profiles` over the names, with one set of names being
visited for all of them. -/
def resolveProfileNames (rawProfiles : List ProfileDef) :
    List Ident → List Ident → Profiles → Result Profiles
  | [], _, resolved => .ok resolved
  | name :: names, visiting, resolved => do
    let (_, visiting, resolved) ←
      resolveProfile rawProfiles (rawProfiles.length + 1) name visiting resolved
    resolveProfileNames rawProfiles names visiting resolved

/-- The profiles of the block, if their names are distinct. -/
def resolveProfiles : Option ProfilesBlock → Result Profiles
  | none => .ok []
  | some block =>
    match firstDuplicate [] (block.profiles.map ProfileDef.name) with
    | some key => fail ("duplicate profile `" ++ key ++ "`")
    | none =>
      resolveProfileNames block.profiles (sortedKeys (block.profiles.map ProfileDef.name)) [] []

/-- The profiles from the outermost ancestor of a profile to itself. -/
inductive Lineage (rawProfiles : List ProfileDef) : Ident → List ProfileDef → Prop
  | root {name : Ident} {profile : ProfileDef}
      (hfind : rawProfiles.find? (fun profile => profile.name = name) = some profile)
      (hextends : profile.extends_ = none) : Lineage rawProfiles name [profile]
  | child {name parent : Ident} {profile : ProfileDef} {ancestors : List ProfileDef}
      (hfind : rawProfiles.find? (fun profile => profile.name = name) = some profile)
      (hextends : profile.extends_ = some parent)
      (hancestors : Lineage rawProfiles parent ancestors) :
      Lineage rawProfiles name (ancestors ++ [profile])

/-- What the profiles of a line of inheritance declare, ancestors first. -/
def ProfileResolved.ofLineage (profiles : List ProfileDef) : ProfileResolved :=
  ⟨profiles.flatMap (·.patch.authUses), profiles.filterMap (·.patch.rateLimit)⟩

/-- A profile merged over its ancestors. -/
theorem mergeProfile_own (ancestors : List ProfileDef) (profile : ProfileDef) :
    mergeProfile (.ofLineage ancestors) profile.own = .ofLineage (ancestors ++ [profile]) := by
  unfold mergeProfile ProfileDef.own ProfileResolved.ofLineage
  cases h : profile.patch.rateLimit with
  | none => simp [h]
  | some spec => simp [h]

/-- A profile has one lineage. -/
theorem Lineage.unique {defs : List ProfileDef} {name : Ident} {line line' : List ProfileDef}
    (h : Lineage defs name line) (h' : Lineage defs name line') : line = line' := by
  induction h generalizing line' with
  | root hfind hextends =>
      cases h' with
      | root hfind' _ =>
          rw [hfind] at hfind'
          cases hfind'
          rfl
      | child hfind' hextends' _ =>
          rw [hfind] at hfind'
          cases hfind'
          rw [hextends] at hextends'
          cases hextends'
  | child hfind hextends _ ih =>
      cases h' with
      | root hfind' hextends' =>
          rw [hfind] at hfind'
          cases hfind'
          rw [hextends] at hextends'
          cases hextends'
      | child hfind' hextends' hancestors' =>
          rw [hfind] at hfind'
          cases hfind'
          rw [hextends] at hextends'
          cases hextends'
          rw [ih hancestors']

/-- So have several. -/
theorem lines_unique {defs : List ProfileDef} {names : List Ident}
    {lines lines' : List (List ProfileDef)} (h : List.Forall₂ (Lineage defs) names lines)
    (h' : List.Forall₂ (Lineage defs) names lines') : lines = lines' := by
  induction h generalizing lines' with
  | nil =>
      cases h'
      rfl
  | cons hline _ ih =>
      cases h' with
      | cons hline' hrest' => rw [hline.unique hline', ih hrest']

/-- Every entry of the resolved profiles is what its line of inheritance
declares. -/
def ProfilesSound (rawProfiles : List ProfileDef) (resolved : Profiles) : Prop :=
  ∀ name value, resolved.lookup name = some value →
    ∃ ancestors, Lineage rawProfiles name ancestors ∧ value = .ofLineage ancestors

/-- What is resolved is the merge along the lineage. -/
theorem resolveProfile_sound {rawProfiles : List ProfileDef} {fuel : Nat} {name : Ident}
    {visiting after : List Ident} {resolved resolved' : Profiles} {out : ProfileResolved}
    (hsound : ProfilesSound rawProfiles resolved)
    (h : resolveProfile rawProfiles fuel name visiting resolved = .ok (out, after, resolved')) :
    ProfilesSound rawProfiles resolved' ∧
      ∃ ancestors, Lineage rawProfiles name ancestors ∧ out = .ofLineage ancestors := by
  induction fuel generalizing name visiting after resolved resolved' out with
  | zero => cases h
  | succ fuel ih =>
      unfold resolveProfile at h
      cases hlookup : resolved.lookup name with
      | some value =>
          rw [hlookup] at h
          cases h
          exact ⟨hsound, hsound name out hlookup⟩
      | none =>
          rw [hlookup] at h
          cases hfind : rawProfiles.find? (fun profile => profile.name = name) with
          | none =>
              rw [hfind] at h
              cases h
          | some profile =>
              rw [hfind] at h
              simp only [] at h
              by_cases hvisiting : visiting.contains name = true
              · rw [if_pos hvisiting] at h
                cases h
              · rw [if_neg hvisiting, Results.bind_eq_ok_iff] at h
                obtain ⟨⟨parentOut, _, parentResolved⟩, hparent, hok⟩ := h
                cases hok
                have hboth : ProfilesSound rawProfiles parentResolved ∧
                    ∃ ancestors, Lineage rawProfiles name (ancestors ++ [profile]) ∧
                      parentOut = .ofLineage ancestors := by
                  cases hextends : profile.extends_ with
                  | none =>
                      rw [hextends] at hparent
                      cases hparent
                      exact ⟨hsound, [], .root hfind hextends, rfl⟩
                  | some parent =>
                      rw [hextends] at hparent
                      simp only [] at hparent
                      split at hparent
                      · cases hparent
                      · split at hparent
                        · cases hparent
                        · obtain ⟨hsound', ancestors, hlineage, heq⟩ := ih hsound hparent
                          exact ⟨hsound', ancestors, .child hfind hextends hlineage, heq⟩
                obtain ⟨hsound', ancestors, hlineage, heq⟩ := hboth
                have hout : mergeProfile parentOut profile.own =
                    .ofLineage (ancestors ++ [profile]) := by
                  rw [heq, mergeProfile_own]
                refine ⟨?_, ancestors ++ [profile], hlineage, hout⟩
                intro name' value hvalue
                rw [List.lookup_cons] at hvalue
                by_cases hname : name' = name
                · subst hname
                  rw [beq_self_eq_true] at hvalue
                  cases hvalue
                  exact ⟨_, hlineage, hout⟩
                · rw [beq_false_of_ne hname] at hvalue
                  exact hsound' name' value hvalue

/-- The same of a whole list of names. -/
theorem resolveProfileNames_sound {rawProfiles : List ProfileDef} {names visiting : List Ident}
    {resolved resolved' : Profiles} (hsound : ProfilesSound rawProfiles resolved)
    (h : resolveProfileNames rawProfiles names visiting resolved = .ok resolved') :
    ProfilesSound rawProfiles resolved' := by
  induction names generalizing visiting resolved with
  | nil =>
      cases h
      exact hsound
  | cons name names ih =>
      unfold resolveProfileNames at h
      obtain ⟨⟨out, _, next⟩, hnext, hrest⟩ := Results.bind_eq_ok_iff.mp h
      exact ih (resolveProfile_sound hsound hnext).1 hrest

/-- The profiles that are declared. -/
def declaredProfiles : Option ProfilesBlock → List ProfileDef
  | none => []
  | some block => block.profiles

/-- The profiles a client declares. -/
def RawClient.profileDefs (client : RawClient) : List ProfileDef :=
  declaredProfiles client.profiles

/-- And of the block. -/
theorem resolveProfiles_sound {block : Option ProfilesBlock} {resolved : Profiles}
    (h : resolveProfiles block = .ok resolved) :
    ProfilesSound (declaredProfiles block) resolved := by
  have hempty : ProfilesSound (declaredProfiles block) [] := by
    intro name value hlookup
    cases hlookup
  cases block with
  | none =>
      cases h
      exact hempty
  | some block =>
      unfold resolveProfiles at h
      simp only at h
      split at h
      · cases h
      · exact resolveProfileNames_sound hempty h

/-! ## uses -/

/-- The profiles that are named, merged in order. -/
def resolveProfileNamesUse (profiles : Profiles) :
    List Ident → ProfileResolved → Result ProfileResolved
  | [], out => .ok out
  | name :: names, out =>
    match profiles.lookup name with
    | none => fail (unknownName "profile" name)
    | some profile => resolveProfileNamesUse profiles names (mergeProfile out profile)

/-- The names in the uses of a site. -/
def profileUseNames (uses : List ProfileUseSpec) : List Ident := uses.flatMap (·.names)

/-- `resolve_profile_uses`. -/
def resolveProfileUses (uses : List ProfileUseSpec) (profiles : Profiles) :
    Result ProfileResolved :=
  resolveProfileNamesUse profiles (profileUseNames uses) .default

/-- They merge their lineages in order. -/
theorem resolveProfileNamesUse_lines {defs : List ProfileDef} {profiles : Profiles}
    (hsound : ProfilesSound defs profiles) {names : List Ident} {out out' : ProfileResolved}
    (h : resolveProfileNamesUse profiles names out = .ok out') :
    ∃ lines, List.Forall₂ (Lineage defs) names lines ∧
      out' = mergeProfile out (.ofLineage lines.flatten) := by
  induction names generalizing out with
  | nil =>
      cases h
      refine ⟨[], .nil, ?_⟩
      simp [mergeProfile, ProfileResolved.ofLineage]
  | cons name names ih =>
      unfold resolveProfileNamesUse at h
      cases hlookup : profiles.lookup name with
      | none =>
          rw [hlookup] at h
          cases h
      | some profile =>
          rw [hlookup] at h
          obtain ⟨lines, hlines, hout⟩ := ih h
          obtain ⟨line, hline, rfl⟩ := hsound name profile hlookup
          refine ⟨line :: lines, .cons hline hlines, ?_⟩
          rw [hout]
          simp [mergeProfile, ProfileResolved.ofLineage]

/-- The profiles of a site bring what their lines of inheritance declare. -/
theorem resolveProfileUses_lines {defs : List ProfileDef} {profiles : Profiles}
    (hsound : ProfilesSound defs profiles) {uses : List ProfileUseSpec} {out : ProfileResolved}
    (h : resolveProfileUses uses profiles = .ok out) :
    ∃ lines, List.Forall₂ (Lineage defs) (profileUseNames uses) lines ∧
      out = .ofLineage lines.flatten := by
  obtain ⟨lines, hlines, hout⟩ := resolveProfileNamesUse_lines hsound h
  refine ⟨lines, hlines, ?_⟩
  rw [hout]
  rfl

/-- `validate_profile_uses_unique_at_site`. -/
def validateProfileUsesUniqueAtSite (uses : List ProfileUseSpec) : Result Unit :=
  match firstDuplicate [] (profileUseNames uses) with
  | some name => fail ("duplicate profile `" ++ name ++ "` at this attachment site")
  | none => .ok ()

/-! ## rate-limit directives -/

/-- `merge_rate_limit_resolved`. -/
def mergeRateLimitResolved (existing incoming : Option RateLimitResolved) :
    Option RateLimitResolved :=
  match incoming with
  | none => existing
  | some incoming =>
    match existing, incoming with
    | none, incoming => some incoming
    | some .clear, .clear => some .clear
    | some .clear, .add plan => some (.add plan)
    | some .clear, .replace plan => some (.replace plan)
    | some (.add parent), .add child => some (.add ⟨parent.buckets ++ child.buckets⟩)
    | some (.add _), .replace plan => some (.replace plan)
    | some (.add _), .clear => some .clear
    | some (.replace parent), .add child => some (.replace ⟨parent.buckets ++ child.buckets⟩)
    | some (.replace _), .replace plan => some (.replace plan)
    | some (.replace _), .clear => some .clear

/-- The loop of `resolve_profile_rate_limit_specs`. -/
def resolveProfileRateLimitSpecs (profiles : RateLimitProfiles) (site : AttachmentSite) :
    List RateLimitSpec → Option RateLimitResolved → Result (Option RateLimitResolved)
  | [], out => .ok out
  | spec :: specs, out => do
    let resolved ← resolveRateLimitSpec (some spec) profiles site
    resolveProfileRateLimitSpecs profiles site specs (mergeRateLimitResolved out resolved)

end Concord.Sema
