import Concord.Lib.Ancestry
import Concord.Sema.Profile

/-!
# Concord.Sema.ProfileSets

Inheritance between profiles: what `resolve_profile_set`
(`concord_macros/src/sema/profiles.rs`) and `resolve_profiles`
(`concord_macros/src/sema/profile.rs`) make of any set of profiles.

Both walk up from a profile to its ancestors, keep what they have resolved and
the names they are visiting, which are as before when a walk returns.  A walk is no longer than there are profiles, so
one level more of recursion than that is never reached.
-/

namespace Concord.Sema

open Ancestry

section set

variable {T : Type} {label : String} {ops : ProfileValue T} {profiles : List (Profile T)}

/-! ## lines of inheritance -/

/-- The profile of a name. -/
def profileNamed (profiles : List (Profile T)) (name : Ident) : Option (Profile T) :=
  profiles.find? (fun profile => profile.name = name)

/-- The line of inheritance of a name, from its outermost ancestor down to it. -/
abbrev ProfileLine (profiles : List (Profile T)) : Ident → List (Ident × Profile T) → Prop :=
  Line (profileNamed profiles) Profile.extends_

/-- The values of a line merged in order. -/
def mergeLine (ops : ProfileValue T) (line : List (Ident × Profile T)) : T :=
  line.foldl (fun parent entry => ops.merge parent entry.2.value) ops.empty

/-- A profile is merged over the line of its parents. -/
theorem mergeLine_child (ops : ProfileValue T) (line : List (Ident × Profile T)) (name : Ident)
    (profile : Profile T) :
    mergeLine ops (line ++ [(name, profile)]) = ops.merge (mergeLine ops line) profile.value := by
  rw [mergeLine, List.foldl_append]
  rfl

/-- A profile that is found is declared, under the name asked for. -/
theorem mem_names_of_profileNamed {name : Ident} {profile : Profile T}
    (h : profileNamed profiles name = some profile) :
    profile ∈ profiles ∧ profile.name = name :=
  ⟨List.mem_of_find?_eq_some h, by simpa using List.find?_some h⟩

/-- A declared name has its profile. -/
theorem profileNamed_of_mem_names {name : Ident} (h : name ∈ profiles.map Profile.name) :
    ∃ profile, profileNamed profiles name = some profile := by
  obtain ⟨profile, hmem, hname⟩ := List.mem_map.mp h
  rw [← Option.isSome_iff_exists, profileNamed, List.find?_isSome]
  exact ⟨profile, hmem, decide_eq_true hname⟩

/-- A line goes through declared profiles only. -/
theorem ProfileLine.subset {name : Ident} {line : List (Ident × Profile T)}
    (h : ProfileLine profiles name line) : line.map Prod.fst ⊆ profiles.map Profile.name := by
  intro other hmem
  obtain ⟨_, hline, _⟩ := h.of_mem hmem
  obtain ⟨profile, hprofile⟩ := hline.find_eq
  obtain ⟨hin, hname⟩ := mem_names_of_profileNamed hprofile
  exact List.mem_map.mpr ⟨profile, hin, hname⟩

/-- A line is no longer than there are profiles. -/
theorem ProfileLine.length_le {name : Ident} {line : List (Ident × Profile T)}
    (h : ProfileLine profiles name line) : line.length ≤ profiles.length := by
  have hle := (List.subperm_of_subset h.nodup h.subset).length_le
  rwa [List.length_map, List.length_map] at hle

/-! ## one profile -/

/-- Every entry is what its line of inheritance comes to. -/
def ResolvedSound (ops : ProfileValue T) (profiles : List (Profile T))
    (resolved : List (Ident × T)) : Prop :=
  ∀ name value, resolved.lookup name = some value →
    ∃ line, ProfileLine profiles name line ∧ value = mergeLine ops line

/-- What is resolved stays. -/
def Keeps (resolved resolved' : List (Ident × T)) : Prop :=
  ∀ name value, resolved.lookup name = some value → resolved'.lookup name = some value

/-- Whatever is resolved is the merge along a line, and nothing resolved before is lost. -/
theorem resolveOneProfile_sound {fuel : Nat} {key : Ident} {visiting after : List Ident}
    {resolved resolved' : List (Ident × T)} {value : T}
    (hsound : ResolvedSound ops profiles resolved)
    (h : resolveOneProfile label ops profiles fuel key visiting resolved =
      .ok (value, after, resolved')) :
    ResolvedSound ops profiles resolved' ∧ Keeps resolved resolved' ∧
      resolved'.lookup key = some value := by
  induction fuel generalizing key visiting after resolved resolved' value with
  | zero => cases h
  | succ fuel ih =>
      obtain ⟨hlookup, _, rfl⟩ |
        ⟨hnew, profile, hfind, _, parent, _, between, rfl, _, rfl, hparent⟩ :=
        resolveOneProfile_cases h
      · exact ⟨hsound, fun _ _ h => h, hlookup⟩
      · have habove : ResolvedSound ops profiles between ∧ Keeps resolved between ∧
            ∃ line, ProfileLine profiles key line ∧
              ops.merge parent profile.value = mergeLine ops line := by
          obtain ⟨hroot, rfl, _, rfl⟩ | ⟨name, hextends, hname⟩ := hparent
          · exact ⟨hsound, fun _ _ h => h, _, .root hfind hroot, rfl⟩
          · obtain ⟨hsound', hkeeps, hlookup⟩ := ih hsound hname
            obtain ⟨line, hline, rfl⟩ := hsound' name parent hlookup
            refine ⟨hsound', hkeeps, _, .child hfind hextends hline, ?_⟩
            rw [mergeLine_child]
        obtain ⟨hsound', hkeeps, line, hline, hvalue⟩ := habove
        refine ⟨?_, ?_, ?_⟩
        · intro other otherValue hother
          rw [List.lookup_cons] at hother
          by_cases heq : other = key
          · subst heq
            rw [beq_self_eq_true] at hother
            cases hother
            exact ⟨line, hline, hvalue⟩
          · rw [beq_false_of_ne heq] at hother
            exact hsound' other otherValue hother
        · intro other otherValue hother
          have hne : other ≠ key := by
            rintro rfl
            rw [hnew] at hother
            cases hother
          rw [List.lookup_cons, beq_false_of_ne hne]
          exact hkeeps other otherValue hother
        · rw [List.lookup_cons, beq_self_eq_true]

/-- What a profile starts from: its parent, or nothing. -/
def resolveParent (label : String) (ops : ProfileValue T) (profiles : List (Profile T)) (fuel : Nat)
    (visiting : List Ident) (resolved : List (Ident × T)) :
    Option Ident → Result (T × List Ident × List (Ident × T))
  | some parent => resolveOneProfile label ops profiles fuel parent visiting resolved
  | none => .ok (ops.empty, visiting, resolved)

/-- A call for a profile that is declared and neither resolved nor visited goes
on to its parent. -/
theorem resolveOneProfile_new {fuel : Nat} {key : Ident} {visiting : List Ident}
    {resolved : List (Ident × T)} {profile : Profile T} (hnew : resolved.lookup key = none)
    (hfind : profileNamed profiles key = some profile) (hvisiting : key ∉ visiting) :
    resolveOneProfile label ops profiles (fuel + 1) key visiting resolved =
      resolveParent label ops profiles fuel (key :: visiting) resolved profile.extends_ >>=
        fun result => .ok (ops.merge result.1 profile.value, result.2.1.erase key,
          (key, ops.merge result.1 profile.value) :: result.2.2) := by
  rw [profileNamed] at hfind
  have hcontains : ¬ visiting.contains key = true := by rwa [List.contains_iff_mem]
  rw [resolveOneProfile, hnew, hfind]
  simp only [if_neg hcontains]
  rfl

/-- A profile with a line of inheritance is resolved. -/
theorem resolveOneProfile_of_line {fuel : Nat} {key : Ident} {visiting : List Ident}
    {resolved : List (Ident × T)} {line : List (Ident × Profile T)}
    (hline : ProfileLine profiles key line) (hfuel : line.length ≤ fuel)
    (hvisiting : ∀ name ∈ line.map Prod.fst, name ∉ visiting) :
    ∃ result, resolveOneProfile label ops profiles fuel key visiting resolved = .ok result := by
  induction hline generalizing fuel visiting resolved with
  | @root key profile hfind hroot =>
      cases fuel with
      | zero => cases hfuel
      | succ fuel =>
          cases hlookup : resolved.lookup key with
          | some value => exact ⟨_, by rw [resolveOneProfile, hlookup]⟩
          | none =>
              have hkey := hvisiting key (List.mem_singleton_self key)
              rw [resolveOneProfile_new hlookup hfind hkey, hroot]
              exact ⟨_, rfl⟩
  | @child key parent profile line hfind hextends hline ih =>
      cases fuel with
      | zero => simp at hfuel
      | succ fuel =>
          cases hlookup : resolved.lookup key with
          | some value => exact ⟨_, by rw [resolveOneProfile, hlookup]⟩
          | none =>
              rw [List.map_append, List.map_singleton, List.forall_mem_append] at hvisiting
              have hkey := hvisiting.2 key (List.mem_singleton_self key)
              rw [List.length_append, List.length_singleton] at hfuel
              have habove : ∀ name ∈ line.map Prod.fst, name ∉ key :: visiting := by
                intro name hmem hcons
                rw [List.mem_cons] at hcons
                obtain rfl | hmem' := hcons
                · exact Line.not_mem_above hfind hextends hline hmem
                · exact hvisiting.1 name hmem hmem'
              have hparent : ∃ result, resolveOneProfile label ops profiles fuel parent
                  (key :: visiting) resolved = .ok result :=
                ih (Nat.le_of_succ_le_succ hfuel) habove
              obtain ⟨result, hresult⟩ := hparent
              rw [resolveOneProfile_new hlookup hfind hkey, hextends, resolveParent, hresult]
              exact ⟨_, rfl⟩

/-- The recursion ends before the bound on its depth. -/
theorem resolveOneProfile_ne_panic {fuel : Nat} {key : Ident} {visiting : List Ident}
    {resolved : List (Ident × T)} (hnodup : visiting.Nodup)
    (hsubset : visiting ⊆ profiles.map Profile.name)
    (hfuel : profiles.length < fuel + visiting.length) (message : String) :
    resolveOneProfile label ops profiles fuel key visiting resolved ≠ .error (.panic message) := by
  induction fuel generalizing key visiting resolved with
  | zero =>
      have hle := (List.subperm_of_subset hnodup hsubset).length_le
      rw [List.length_map] at hle
      omega
  | succ fuel ih =>
      intro h
      cases hlookup : resolved.lookup key with
      | some value =>
          rw [resolveOneProfile, hlookup] at h
          cases h
      | none =>
          cases hfind : profileNamed profiles key with
          | none =>
              rw [profileNamed] at hfind
              rw [resolveOneProfile, hlookup, hfind] at h
              cases h
          | some profile =>
              by_cases hkey : key ∈ visiting
              · have hcontains : visiting.contains key = true := List.contains_iff_mem.mpr hkey
                rw [profileNamed] at hfind
                rw [resolveOneProfile, hlookup, hfind] at h
                simp only [if_pos hcontains] at h
                cases h
              · rw [resolveOneProfile_new hlookup hfind hkey] at h
                cases hextends : profile.extends_ with
                | none =>
                    rw [hextends] at h
                    cases h
                | some parent =>
                    rw [hextends] at h
                    obtain ⟨hin, hname⟩ := mem_names_of_profileNamed hfind
                    have hnodup' : (key :: visiting).Nodup := List.nodup_cons.mpr ⟨hkey, hnodup⟩
                    have hsubset' : key :: visiting ⊆ profiles.map Profile.name :=
                      List.cons_subset.mpr ⟨List.mem_map.mpr ⟨profile, hin, hname⟩, hsubset⟩
                    have hfuel' : profiles.length < fuel + (key :: visiting).length := by
                      rw [List.length_cons]
                      omega
                    rw [resolveParent] at h
                    cases hparent : resolveOneProfile label ops profiles fuel parent
                        (key :: visiting) resolved with
                    | ok result =>
                        rw [hparent] at h
                        cases h
                    | error error =>
                        rw [hparent] at h
                        cases h
                        exact ih hnodup' hsubset' hfuel' hparent

/-! ## all profiles -/

/-- The same of a whole list of names. -/
theorem resolveProfileKeys_sound {keys : List Ident} {resolved resolved' : List (Ident × T)}
    (hsound : ResolvedSound ops profiles resolved)
    (h : resolveProfileKeys label ops profiles keys resolved = .ok resolved') :
    ResolvedSound ops profiles resolved' ∧ Keeps resolved resolved' ∧
      ∀ key ∈ keys, ∃ value, resolved'.lookup key = some value := by
  induction keys generalizing resolved with
  | nil =>
      cases h
      refine ⟨hsound, fun _ _ h => h, ?_⟩
      intro key hmem
      cases hmem
  | cons key keys ih =>
      unfold resolveProfileKeys at h
      obtain ⟨⟨value, _, next⟩, hnext, hrest⟩ := Results.bind_eq_ok_iff.mp h
      obtain ⟨hsound', hkeeps, hlookup⟩ := resolveOneProfile_sound hsound hnext
      obtain ⟨hsound'', hkeeps', hall⟩ := ih hsound' hrest
      refine ⟨hsound'', fun name value h => hkeeps' name value (hkeeps name value h), ?_⟩
      exact List.forall_mem_cons.mpr ⟨⟨value, hkeeps' key value hlookup⟩, hall⟩

/-- Names that all have a line are all resolved. -/
theorem resolveProfileKeys_of_lines {keys : List Ident} {resolved : List (Ident × T)}
    (hlines : ∀ key ∈ keys, ∃ line, ProfileLine profiles key line) :
    ∃ resolved', resolveProfileKeys label ops profiles keys resolved = .ok resolved' := by
  induction keys generalizing resolved with
  | nil => exact ⟨resolved, rfl⟩
  | cons key keys ih =>
      obtain ⟨⟨line, hline⟩, hrest⟩ := List.forall_mem_cons.mp hlines
      have hone : ∃ result, resolveOneProfile label ops profiles (profiles.length + 1) key []
          resolved = .ok result :=
        resolveOneProfile_of_line hline (Nat.le_succ_of_le hline.length_le)
          (fun _ _ => List.not_mem_nil)
      obtain ⟨⟨value, _, next⟩, hnext⟩ := hone
      have hthen : ∃ resolved', resolveProfileKeys label ops profiles keys next = .ok resolved' :=
        ih hrest
      obtain ⟨resolved', hresolved'⟩ := hthen
      refine ⟨resolved', ?_⟩
      rw [resolveProfileKeys, hnext, Results.ok_bind]
      exact hresolved'

/-- The fuel suffices: no resolution ends in a panic. -/
theorem resolveProfileKeys_ne_panic {keys : List Ident} {resolved : List (Ident × T)}
    (message : String) :
    resolveProfileKeys label ops profiles keys resolved ≠ .error (.panic message) := by
  induction keys generalizing resolved with
  | nil =>
      intro h
      cases h
  | cons key keys ih =>
      intro h
      rw [resolveProfileKeys] at h
      cases hone : resolveOneProfile label ops profiles (profiles.length + 1) key [] resolved with
      | error error =>
          rw [hone] at h
          cases h
          exact resolveOneProfile_ne_panic List.nodup_nil (List.nil_subset _) (Nat.lt_succ_self _)
            message hone
      | ok result =>
          rw [hone, Results.ok_bind] at h
          exact ih h

/-- No name is a duplicate when the names are distinct and none was seen before. -/
theorem firstDuplicate_eq_none_iff {seen names : List Ident} :
    firstDuplicate seen names = none ↔ names.Nodup ∧ ∀ name ∈ names, name ∉ seen := by
  induction names generalizing seen with
  | nil => simp [firstDuplicate]
  | cons name names ih =>
      rw [firstDuplicate, List.nodup_cons, List.forall_mem_cons]
      by_cases hseen : name ∈ seen
      · simp [hseen]
      · have hcontains : ¬ seen.contains name = true := by rwa [List.contains_iff_mem]
        rw [if_neg hcontains, ih]
        constructor
        · rintro ⟨hnodup, hnot⟩
          refine ⟨⟨?_, hnodup⟩, hseen, ?_⟩
          · intro hmem
            exact hnot name hmem List.mem_cons_self
          · intro other hmem hother
            exact hnot other hmem (List.mem_cons_of_mem _ hother)
        · rintro ⟨⟨hname, hnodup⟩, _, hnot⟩
          refine ⟨hnodup, ?_⟩
          intro other hmem hother
          rw [List.mem_cons] at hother
          obtain rfl | hother := hother
          · exact hname hmem
          · exact hnot other hmem hother

/-- Sorting the keys loses and adds none. -/
theorem mem_sortedKeys {names : List Ident} {name : Ident} : name ∈ sortedKeys names ↔ name ∈ names :=
  (List.perm_insertionSort _ names).mem_iff

/-- A profile and the one that it names. -/
def Extends (profiles : List (Profile T)) (name parent : Ident) : Prop :=
  ∃ profile ∈ profiles, profile.name = name ∧ profile.extends_ = some parent

/-- Names are unique, every profile that is named is declared, and no chain of
names returns to its start. -/
structure WellDeclared (profiles : List (Profile T)) : Prop where
  unique : (profiles.map Profile.name).Nodup
  declared : ∀ profile ∈ profiles, ∀ parent, profile.extends_ = some parent →
    parent ∈ profiles.map Profile.name
  acyclic : ∀ name, ¬ Relation.TransGen (Extends profiles) name name

/-- Where names are distinct, a declared profile is found under its name. -/
theorem profileNamed_of_mem (hunique : (profiles.map Profile.name).Nodup) {profile : Profile T}
    (hmem : profile ∈ profiles) : profileNamed profiles profile.name = some profile := by
  obtain ⟨other, hother⟩ := profileNamed_of_mem_names (List.mem_map_of_mem hmem)
  obtain ⟨hin, hname⟩ := mem_names_of_profileNamed hother
  rw [hother, List.inj_on_of_nodup_map hunique hin hmem hname]

/-- The `extends` of a declaration is a step up for the lines. -/
theorem up_of_extends (hunique : (profiles.map Profile.name).Nodup) {name parent : Ident}
    (h : Extends profiles name parent) : Up (profileNamed profiles) Profile.extends_ name parent := by
  obtain ⟨profile, hmem, rfl, hextends⟩ := h
  exact ⟨profile, profileNamed_of_mem hunique hmem, hextends⟩

/-- And a step up is an `extends` of a declaration. -/
theorem extends_of_up {name parent : Ident}
    (h : Up (profileNamed profiles) Profile.extends_ name parent) : Extends profiles name parent := by
  obtain ⟨profile, hfind, hextends⟩ := h
  obtain ⟨hmem, hname⟩ := mem_names_of_profileNamed hfind
  exact ⟨profile, hmem, hname, hextends⟩

/-- All profiles have lines of inheritance exactly if they are well declared. -/
theorem lines_iff_wellDeclared (hunique : (profiles.map Profile.name).Nodup) :
    (∀ name ∈ profiles.map Profile.name, ∃ line, ProfileLine profiles name line) ↔
      WellDeclared profiles := by
  constructor
  · intro hlines
    refine ⟨hunique, ?_, ?_⟩
    · intro profile hmem parent hextends
      obtain ⟨line, hline⟩ := hlines profile.name (List.mem_map_of_mem hmem)
      obtain ⟨above, habove, _⟩ := hline.child_of (profileNamed_of_mem hunique hmem) hextends
      obtain ⟨other, hother⟩ := habove.find_eq
      obtain ⟨hin, hname⟩ := mem_names_of_profileNamed hother
      exact List.mem_map.mpr ⟨other, hin, hname⟩
    · intro name hcycle
      have hstart : ∃ parent, Extends profiles name parent := by
        obtain ⟨parent, hstep, _⟩ := Relation.TransGen.head'_iff.mp hcycle
        exact ⟨parent, hstep⟩
      obtain ⟨_, profile, hmem, hname, _⟩ := hstart
      obtain ⟨line, hline⟩ := hlines name (List.mem_map.mpr ⟨profile, hmem, hname⟩)
      exact hline.no_return (Relation.TransGen.mono (fun _ _ => up_of_extends hunique) _ _ hcycle)
  · intro hdeclared name hname
    refine exists_line (fun _ => profileNamed_of_mem_names) ?_ ?_ hname
    · intro key parent _ hstep
      obtain ⟨profile, hmem, _, hextends⟩ := extends_of_up hstep
      exact hdeclared.declared profile hmem parent hextends
    · intro key hcycle
      exact hdeclared.acyclic key (Relation.TransGen.mono (fun _ _ => extends_of_up) _ _ hcycle)

/-- `resolve_profile_set` succeeds exactly if the profiles are well declared and
the defaults are among them. -/
theorem resolveProfileSet_succeeds_iff {defaults : List Ident} :
    (∃ resolved, resolveProfileSet label ops profiles defaults = .ok resolved) ↔
      WellDeclared profiles ∧ ∀ default ∈ defaults, default ∈ profiles.map Profile.name := by
  unfold resolveProfileSet
  cases hduplicate : firstDuplicate [] (profiles.map Profile.name) with
  | some key =>
      simp only
      constructor
      · rintro ⟨_, h⟩
        cases h
      · rintro ⟨hdeclared, _⟩
        rw [firstDuplicate_eq_none_iff.mpr ⟨hdeclared.unique, fun _ _ => List.not_mem_nil⟩]
          at hduplicate
        cases hduplicate
  | none =>
      have hunique := (firstDuplicate_eq_none_iff.mp hduplicate).1
      simp only
      cases hdefault : defaults.find? (fun name => !(profiles.map Profile.name).contains name) with
      | some default =>
          simp only
          constructor
          · rintro ⟨_, h⟩
            cases h
          · rintro ⟨_, hdefaults⟩
            have hunknown := List.find?_some hdefault
            rw [List.contains_iff_mem.mpr (hdefaults default
              (List.mem_of_find?_eq_some hdefault))] at hunknown
            cases hunknown
      | none =>
          have hdefaults : ∀ default ∈ defaults, default ∈ profiles.map Profile.name := by
            intro default hmem
            have hknown := List.find?_eq_none.mp hdefault default hmem
            rw [Bool.not_eq_true, Bool.not_eq_false'] at hknown
            exact List.contains_iff_mem.mp hknown
          simp only
          constructor
          · rintro ⟨resolved, h⟩
            have hempty : ResolvedSound ops profiles [] := by
              intro name value hlookup
              cases hlookup
            obtain ⟨hsound, _, hall⟩ := resolveProfileKeys_sound hempty h
            refine ⟨(lines_iff_wellDeclared hunique).mp ?_, hdefaults⟩
            intro name hname
            obtain ⟨value, hvalue⟩ := hall name (mem_sortedKeys.mpr hname)
            obtain ⟨line, hline, _⟩ := hsound name value hvalue
            exact ⟨line, hline⟩
          · rintro ⟨hdeclared, _⟩
            apply resolveProfileKeys_of_lines
            intro name hname
            exact (lines_iff_wellDeclared hunique).mpr hdeclared name (mem_sortedKeys.mp hname)

/-- The values that `resolve_profile_set` returns are the merged lines of
inheritance. -/
theorem resolveProfileSet_lookup_iff {defaults : List Ident} {resolved : List (Ident × T)}
    (h : resolveProfileSet label ops profiles defaults = .ok resolved) (name : Ident) (value : T) :
    resolved.lookup name = some value ↔
      ∃ line, ProfileLine profiles name line ∧ value = mergeLine ops line := by
  unfold resolveProfileSet at h
  split at h
  · cases h
  · split at h
    · cases h
    · have hempty : ResolvedSound ops profiles [] := by
        intro name value hlookup
        cases hlookup
      obtain ⟨hsound, _, hall⟩ := resolveProfileKeys_sound hempty h
      constructor
      · exact hsound name value
      · rintro ⟨line, hline, rfl⟩
        obtain ⟨profile, hprofile⟩ := hline.find_eq
        obtain ⟨hmem, hname⟩ := mem_names_of_profileNamed hprofile
        obtain ⟨value, hvalue⟩ := hall name
          (mem_sortedKeys.mpr (List.mem_map.mpr ⟨profile, hmem, hname⟩))
        obtain ⟨line', hline', rfl⟩ := hsound name value hvalue
        rw [hvalue, hline.unique hline']

/-- The resolution of a set of profiles ends without a panic. -/
theorem resolveProfileSet_ne_panic {defaults : List Ident} (message : String) :
    resolveProfileSet label ops profiles defaults ≠ .error (.panic message) := by
  intro h
  unfold resolveProfileSet at h
  split at h
  · cases h
  · split at h
    · cases h
    · exact resolveProfileKeys_ne_panic message h

/-! ## the order of declaration -/

/-- Being well declared does not depend on the order of the declarations. -/
theorem WellDeclared.perm {profiles' : List (Profile T)} (h : WellDeclared profiles)
    (hperm : profiles.Perm profiles') : WellDeclared profiles' where
  unique := (hperm.map Profile.name).nodup_iff.mp h.unique
  declared profile hmem parent hextends :=
    (hperm.map Profile.name).mem_iff.mp (h.declared profile (hperm.mem_iff.mpr hmem) parent hextends)
  acyclic name hcycle := by
    refine h.acyclic name (Relation.TransGen.mono ?_ _ _ hcycle)
    rintro key parent ⟨profile, hmem, hname, hextends⟩
    exact ⟨profile, hperm.mem_iff.mpr hmem, hname, hextends⟩

/-- Nor does the profile found under a name. -/
theorem profileNamed_perm {profiles' : List (Profile T)}
    (hunique : (profiles.map Profile.name).Nodup) (hperm : profiles.Perm profiles') :
    profileNamed profiles = profileNamed profiles' := by
  have hunique' := (hperm.map Profile.name).nodup_iff.mp hunique
  funext name
  cases hfind : profileNamed profiles name with
  | some profile =>
      obtain ⟨hmem, rfl⟩ := mem_names_of_profileNamed hfind
      exact (profileNamed_of_mem hunique' (hperm.mem_iff.mp hmem)).symm
  | none =>
      cases hfind' : profileNamed profiles' name with
      | none => rfl
      | some profile =>
          obtain ⟨hmem, rfl⟩ := mem_names_of_profileNamed hfind'
          rw [profileNamed_of_mem hunique (hperm.mem_iff.mpr hmem)] at hfind
          cases hfind

end set

/-! ## the profiles of a declaration -/

/-- A profile of a declaration as one of a profile set. -/
def ProfileDef.profile (profile : ProfileDef) : Profile ProfileResolved :=
  ⟨profile.name, profile.extends_, profile.own⟩

/-- `ProfileResolved::default` and `merge_profile`. -/
def profileResolvedValue : ProfileValue ProfileResolved := ⟨.default, mergeProfile⟩

/-- Two calls that return the same or both fail, the first not by running out of
depth unless the second does. -/
inductive SameVerdict {α : Type} : Result α → Result α → Prop
  | ok (value : α) : SameVerdict (.ok value) (.ok value)
  | failed {error error' : SemaError}
      (hpanic : ∀ message, error = .panic message → ∃ message', error' = .panic message') :
      SameVerdict (.error error) (.error error')

/-- Two failures are the same verdict, whatever they say. -/
theorem SameVerdict.of_fail {α : Type} (message : String) (error : SemaError) :
    SameVerdict (α := α) (fail message) (.error error) :=
  .failed (fun _ h => by cases h)

/-- The same verdict goes through the steps that follow. -/
theorem SameVerdict.bind {α β : Type} {x y : Result α} (h : SameVerdict x y) {f g : α → Result β}
    (hfg : ∀ a, SameVerdict (f a) (g a)) : SameVerdict (x >>= f) (y >>= g) := by
  cases h with
  | ok value => exact hfg value
  | failed hpanic => exact .failed hpanic

/-- The same verdict is the same value, where there is one. -/
theorem SameVerdict.ok_iff {α : Type} {x y : Result α} (h : SameVerdict x y) (value : α) :
    x = .ok value ↔ y = .ok value := by
  cases h with
  | ok value' => exact Iff.rfl
  | failed _ =>
      constructor
      · intro h
        cases h
      · intro h
        cases h

variable {defs : List ProfileDef}

/-- A profile of the policy definitions is found as a profile of the general form. -/
theorem profileNamed_map (defs : List ProfileDef) (name : Ident) :
    profileNamed (defs.map ProfileDef.profile) name =
      (defs.find? (fun profile => profile.name = name)).map ProfileDef.profile := by
  rw [profileNamed, List.find?_map]
  rfl

/-- The general form keeps the names. -/
theorem names_map (defs : List ProfileDef) :
    (defs.map ProfileDef.profile).map Profile.name = defs.map ProfileDef.name := by
  rw [List.map_map]
  rfl

/-- Only declared names are resolved. -/
theorem ResolvedSound.declared {T : Type} {ops : ProfileValue T} {profiles : List (Profile T)}
    {resolved : List (Ident × T)} (h : ResolvedSound ops profiles resolved) {name : Ident}
    (hname : name ∉ profiles.map Profile.name) : resolved.lookup name = none := by
  cases hlookup : resolved.lookup name with
  | none => rfl
  | some value =>
      obtain ⟨line, hline, _⟩ := h name value hlookup
      obtain ⟨profile, hprofile⟩ := hline.find_eq
      obtain ⟨hmem, hprofileName⟩ := mem_names_of_profileNamed hprofile
      exact absurd (List.mem_map.mpr ⟨profile, hmem, hprofileName⟩) hname

/-- A call for a name that is being visited or that is not declared fails. -/
theorem resolveOneProfile_fails {T : Type} {label : String} {ops : ProfileValue T}
    {profiles : List (Profile T)} {fuel : Nat} {key : Ident} {visiting : List Ident}
    {resolved : List (Ident × T)} (hnew : resolved.lookup key = none)
    (hbad : key ∈ visiting ∨ key ∉ profiles.map Profile.name) :
    ∃ error, resolveOneProfile label ops profiles fuel key visiting resolved = .error error := by
  cases fuel with
  | zero => exact ⟨_, rfl⟩
  | succ fuel =>
      rw [resolveOneProfile, hnew]
      cases hfind : profiles.find? (fun profile => profile.name = key) with
      | none => exact ⟨_, rfl⟩
      | some profile =>
          obtain ⟨hmem, hname⟩ := mem_names_of_profileNamed hfind
          have hdeclared : key ∈ profiles.map Profile.name := List.mem_map.mpr ⟨profile, hmem, hname⟩
          have hvisiting := hbad.resolve_right (fun hnot => hnot hdeclared)
          simp only [if_pos (List.contains_iff_mem.mpr hvisiting)]
          exact ⟨_, rfl⟩

/-- `resolve_profile` checks a parent before it goes to it, where
`resolve_one_profile` goes to it and fails there. -/
theorem resolveProfile_sameVerdict (label : String) (fuel : Nat) (name : Ident)
    (visiting : List Ident) {resolved : Profiles}
    (hsound : ResolvedSound profileResolvedValue (defs.map ProfileDef.profile) resolved) :
    SameVerdict (resolveProfile defs fuel name visiting resolved)
      (resolveOneProfile label profileResolvedValue (defs.map ProfileDef.profile) fuel name visiting
        resolved) := by
  induction fuel generalizing name visiting with
  | zero => exact .failed (fun message _ => ⟨_, rfl⟩)
  | succ fuel ih =>
      have hnamed := profileNamed_map defs name
      rw [profileNamed] at hnamed
      rw [resolveProfile, resolveOneProfile, hnamed]
      cases hlookup : resolved.lookup name with
      | some value => exact .ok _
      | none =>
          cases hfind : defs.find? (fun profile => profile.name = name) with
          | none => exact .of_fail _ _
          | some profile =>
              have hname : profile.name = name := by simpa using List.find?_some hfind
              have hextends : profile.profile.extends_ = profile.extends_ := rfl
              simp only [Option.map_some, hextends]
              by_cases hvisiting : visiting.contains name = true
              · rw [if_pos hvisiting, if_pos hvisiting]
                exact .of_fail _ _
              · rw [if_neg hvisiting, if_neg hvisiting]
                refine SameVerdict.bind ?_ (fun _ => .ok _)
                cases profile.extends_ with
                | none => exact .ok _
                | some parent =>
                    simp only
                    by_cases hself : parent = profile.name
                    · have hbad : ∃ error, resolveOneProfile label profileResolvedValue
                          (defs.map ProfileDef.profile) fuel parent (name :: visiting) resolved =
                            .error error := by
                        rw [hself, hname]
                        exact resolveOneProfile_fails hlookup (.inl List.mem_cons_self)
                      obtain ⟨error, herror⟩ := hbad
                      rw [if_pos hself, herror]
                      exact .of_fail _ _
                    · rw [if_neg hself]
                      by_cases hdeclared : parent ∈ defs.map ProfileDef.name
                      · have hcontains : (!(defs.map ProfileDef.name).contains parent) ≠ true := by
                          rw [List.contains_iff_mem.mpr hdeclared]
                          exact Bool.false_ne_true
                        rw [if_neg hcontains]
                        exact ih parent (name :: visiting)
                      · have hcontains : (!(defs.map ProfileDef.name).contains parent) = true := by
                          rw [Bool.not_eq_true', ← Bool.not_eq_true, List.contains_iff_mem]
                          exact hdeclared
                        rw [← names_map] at hdeclared
                        have hbad : ∃ error, resolveOneProfile label profileResolvedValue
                            (defs.map ProfileDef.profile) fuel parent (name :: visiting) resolved =
                              .error error :=
                          resolveOneProfile_fails (hsound.declared hdeclared) (.inr hdeclared)
                        obtain ⟨error, herror⟩ := hbad
                        rw [if_pos hcontains, herror]
                        exact .of_fail _ _

/-- The two implementations of the resolution agree, name after name. -/
theorem resolveProfileNames_sameVerdict (label : String) (names : List Ident) {resolved : Profiles}
    (hsound : ResolvedSound profileResolvedValue (defs.map ProfileDef.profile) resolved) :
    SameVerdict (resolveProfileNames defs names [] resolved)
      (resolveProfileKeys label profileResolvedValue (defs.map ProfileDef.profile) names
        resolved) := by
  induction names generalizing resolved with
  | nil => exact .ok _
  | cons name names ih =>
      have hverdict := resolveProfile_sameVerdict label (defs.length + 1) name [] hsound
      rw [resolveProfileNames, resolveProfileKeys, List.length_map]
      cases hone : resolveOneProfile label profileResolvedValue (defs.map ProfileDef.profile)
          (defs.length + 1) name [] resolved with
      | error error =>
          rw [hone] at hverdict
          generalize resolveProfile defs (defs.length + 1) name [] resolved = one at hverdict ⊢
          cases hverdict with
          | failed hpanic => exact .failed hpanic
      | ok result =>
          obtain ⟨value, after, next⟩ := result
          obtain rfl := resolveOneProfile_restores hone
          rw [(hverdict.ok_iff _).mpr hone]
          exact ih (resolveOneProfile_sound hsound hone).1

/-- `resolve_profiles` is `resolve_profile_set` without defaults. -/
theorem resolveProfiles_sameVerdict (label : String) (block : ProfilesBlock) :
    SameVerdict (resolveProfiles (some block))
      (resolveProfileSet label profileResolvedValue (block.profiles.map ProfileDef.profile) []) := by
  have hempty : ResolvedSound profileResolvedValue (block.profiles.map ProfileDef.profile) [] := by
    intro name value hlookup
    cases hlookup
  rw [resolveProfiles, resolveProfileSet, names_map]
  cases firstDuplicate [] (block.profiles.map ProfileDef.name) with
  | some key => exact .of_fail _ _
  | none => exact resolveProfileNames_sameVerdict label _ hempty

/-! ## the result -/

/-- **Inheritance between profiles.**  For every list of profiles and defaults:
`resolve_profile_set` ends, succeeds exactly if names are unique, every profile
that is named is declared and no chain of names returns to its start, and then
gives each profile the values of its ancestors and its own merged from the
outermost one down, each once, whatever the order of declaration.
`resolve_profiles` ends, and succeeds and fails with it and returns the same. -/
theorem profile_inheritance {T : Type} (label : String) (ops : ProfileValue T)
    (profiles : List (Profile T)) (defaults : List Ident) :
    (∀ message, resolveProfileSet label ops profiles defaults ≠ .error (.panic message)) ∧
    ((∃ resolved, resolveProfileSet label ops profiles defaults = .ok resolved) ↔
      WellDeclared profiles ∧ ∀ default ∈ defaults, default ∈ profiles.map Profile.name) ∧
    (∀ resolved, resolveProfileSet label ops profiles defaults = .ok resolved →
      (∀ name value, resolved.lookup name = some value ↔
        ∃ line, ProfileLine profiles name line ∧ value = mergeLine ops line) ∧
      (∀ name line, ProfileLine profiles name line → (line.map Prod.fst).Nodup) ∧
      (∀ name ∈ profiles.map Profile.name, ∃ value, resolved.lookup name = some value) ∧
      ∀ profiles', profiles.Perm profiles' → ∃ resolved',
        resolveProfileSet label ops profiles' defaults = .ok resolved' ∧
          ∀ name, resolved'.lookup name = resolved.lookup name) ∧
    ∀ block : ProfilesBlock,
      (∀ message, resolveProfiles (some block) ≠ .error (.panic message)) ∧
      ((∃ resolved, resolveProfiles (some block) = .ok resolved) ↔
        WellDeclared (block.profiles.map ProfileDef.profile)) ∧
      ∀ resolved, resolveProfiles (some block) = .ok resolved ↔
        resolveProfileSet label profileResolvedValue (block.profiles.map ProfileDef.profile) [] =
          .ok resolved := by
  refine ⟨fun message => resolveProfileSet_ne_panic message, resolveProfileSet_succeeds_iff, ?_, ?_⟩
  · intro resolved h
    obtain ⟨hdeclared, hdefaults⟩ := resolveProfileSet_succeeds_iff.mp ⟨resolved, h⟩
    refine ⟨resolveProfileSet_lookup_iff h, fun _ _ hline => hline.nodup, ?_, ?_⟩
    · intro name hname
      obtain ⟨line, hline⟩ := (lines_iff_wellDeclared hdeclared.unique).mpr hdeclared name hname
      exact ⟨_, (resolveProfileSet_lookup_iff h name _).mpr ⟨line, hline, rfl⟩⟩
    · intro profiles' hperm
      have hnamed := profileNamed_perm hdeclared.unique hperm
      have hsucceeds : ∃ resolved', resolveProfileSet label ops profiles' defaults = .ok resolved' :=
        resolveProfileSet_succeeds_iff.mpr ⟨hdeclared.perm hperm, fun default hmem =>
          (hperm.map Profile.name).mem_iff.mp (hdefaults default hmem)⟩
      obtain ⟨resolved', h'⟩ := hsucceeds
      refine ⟨resolved', h', ?_⟩
      intro name
      apply Option.ext
      intro value
      rw [resolveProfileSet_lookup_iff h', resolveProfileSet_lookup_iff h, ProfileLine, ProfileLine,
        hnamed]
  · intro block
    have hverdict := resolveProfiles_sameVerdict label block
    refine ⟨?_, ?_, hverdict.ok_iff⟩
    · intro message hpanic
      rw [hpanic] at hverdict
      generalize hset : resolveProfileSet label profileResolvedValue
        (block.profiles.map ProfileDef.profile) [] = result at hverdict
      cases hverdict with
      | failed hboth =>
          obtain ⟨message', rfl⟩ := hboth message rfl
          exact resolveProfileSet_ne_panic message' hset
    · have hset := @resolveProfileSet_succeeds_iff _ label profileResolvedValue
        (block.profiles.map ProfileDef.profile) []
      rw [← exists_congr hverdict.ok_iff] at hset
      rw [hset]
      exact and_iff_left (fun _ hmem => absurd hmem List.not_mem_nil)

end Concord.Sema
