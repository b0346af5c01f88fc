import Mathlib.Data.List.Basic

/-!
# Concord.Lib.Ip

IPv4 and IPv6 addresses and their texts.

An IPv6 address is written as groups of hexadecimal digits with the first
longest run of zero groups left out.  Rust's standard library writes
IPv4-mapped addresses with their last part dotted, the URL standard does not;
otherwise the two texts are the same.
-/

namespace Ip

/-! ## digits -/

/-- Digits without leading zeros. -/
def significant (digits : List Nat) : List Char :=
  match digits.dropWhile (· = 0) with
  | [] => ['0']
  | digits => digits.map Nat.digitChar

def octetText (octet : UInt8) : List Char :=
  significant [octet.toNat / 100, octet.toNat / 10 % 10, octet.toNat % 10]

def groupText (group : UInt16) : List Char :=
  significant [group.toNat / 4096, group.toNat / 256 % 16, group.toNat / 16 % 16,
    group.toNat % 16]

/-- The value of digits of a base, at most so many of them. -/
def number (base most : Nat) (text : List Char) : Option Nat :=
  if text.isEmpty || text.length > most then none
  else text.foldlM (fun value c =>
    let digit :=
      if c.isDigit then c.toNat - '0'.toNat
      else if 'a' ≤ c ∧ c ≤ 'z' then c.toNat - 'a'.toNat + 10
      else if 'A' ≤ c ∧ c ≤ 'Z' then c.toNat - 'A'.toNat + 10
      else base
    if digit < base then some (value * base + digit) else none) 0

/-- `split`. -/
def splitAt (separator : Char) : List Char → List (List Char)
  | [] => [[]]
  | c :: cs =>
    match splitAt separator cs with
    | [] => [[c]]
    | part :: parts => if c = separator then [] :: part :: parts else (c :: part) :: parts

/-! ## IPv4 -/

structure Ipv4Addr where
  a : UInt8
  b : UInt8
  c : UInt8
  d : UInt8
  deriving DecidableEq, Repr

namespace Ipv4Addr

def octets (ip : Ipv4Addr) : List UInt8 := [ip.a, ip.b, ip.c, ip.d]

/-- `Display` of `std::net::Ipv4Addr`. -/
def display (ip : Ipv4Addr) : List Char := List.intercalate ['.'] (ip.octets.map octetText)

/-- `FromStr` of `std::net::Ipv4Addr`: four decimal numbers without leading
zeros, which is the text that is displayed. -/
def fromStr (text : List Char) : Option Ipv4Addr :=
  match (splitAt '.' text).mapM (number 10 3) with
  | some [a, b, c, d] =>
    let ip : Ipv4Addr := ⟨.ofNat a, .ofNat b, .ofNat c, .ofNat d⟩
    if ip.display = text then some ip else none
  | _ => none

theorem display_of_fromStr {text : List Char} {ip : Ipv4Addr} (h : fromStr text = some ip) :
    ip.display = text := by
  unfold fromStr at h
  split at h
  · dsimp only at h
    split at h
    · next hdisplay =>
        cases h
        exact hdisplay
    · cases h
  · cases h

end Ipv4Addr

/-! ## IPv6 -/

structure Ipv6Addr where
  groups : Vector UInt16 8
  deriving DecidableEq, Repr

/-- The zero groups from a place on. -/
def zerosAt (groups : List UInt16) (start : Nat) : Nat :=
  ((groups.drop start).takeWhile (· = 0)).length

/-- Where the first longest run of zero groups starts. -/
def longestZeros (groups : List UInt16) : Nat :=
  (List.range groups.length).foldl (fun best start =>
    if zerosAt groups best < zerosAt groups start then start else best) 0

def groupsText (groups : List UInt16) : List Char := List.intercalate [':'] (groups.map groupText)

/-- The text of groups with the first longest run of at least two zero groups
left out. -/
def compressed (groups : List UInt16) : List Char :=
  let start := longestZeros groups
  if 1 < zerosAt groups start then
    groupsText (groups.take start) ++ [':', ':'] ++
      groupsText (groups.drop (start + zerosAt groups start))
  else groupsText groups

namespace Ipv6Addr

/-- `to_ipv4_mapped`. -/
def toIpv4Mapped (ip : Ipv6Addr) : Option Ipv4Addr :=
  match ip.groups.toList with
  | [0, 0, 0, 0, 0, 0xffff, high, low] =>
    some ⟨.ofNat (high.toNat / 256), .ofNat (high.toNat % 256), .ofNat (low.toNat / 256),
      .ofNat (low.toNat % 256)⟩
  | _ => none

/-- The text of the URL standard. -/
def urlText (ip : Ipv6Addr) : List Char := compressed ip.groups.toList

/-- `Display` of `std::net::Ipv6Addr`. -/
def display (ip : Ipv6Addr) : List Char :=
  match ip.toIpv4Mapped with
  | some ipv4 => "::ffff:".toList ++ ipv4.display
  | none => compressed ip.groups.toList

/-- Groups between colons; the last may be an IPv4 address, which counts as
two. -/
def readGroups (text : List Char) : Option (List UInt16) :=
  if text.isEmpty then some []
  else
    let parts := splitAt ':' text
    let groups := fun parts : List (List Char) =>
      parts.mapM (fun part => (number 16 4 part).map UInt16.ofNat)
    match Ipv4Addr.fromStr (parts.getLastD []) with
    | some ip =>
      (groups parts.dropLast).map (· ++ [.ofNat (ip.a.toNat * 256 + ip.b.toNat),
        .ofNat (ip.c.toNat * 256 + ip.d.toNat)])
    | none => groups parts

/-- What stands before and after the first `::`. -/
def splitDouble : List Char → Option (List Char × List Char)
  | ':' :: ':' :: rest => some ([], rest)
  | c :: rest => (splitDouble rest).map (fun (before, after) => (c :: before, after))
  | [] => none

def ofGroups (groups : List UInt16) : Option Ipv6Addr :=
  if h : groups.toArray.size = 8 then some ⟨⟨groups.toArray, h⟩⟩ else none

/-- `FromStr` of `std::net::Ipv6Addr`. -/
def fromStr (text : List Char) : Option Ipv6Addr :=
  match splitDouble text with
  | none => (readGroups text).bind ofGroups
  | some (before, after) =>
    match readGroups before, readGroups after with
    | some front, some back =>
      -- an IPv4 part is not allowed before `::`, which stands for a group at least
      if before.contains '.' || 7 < front.length + back.length then none
      else ofGroups (front ++ List.replicate (8 - front.length - back.length) 0 ++ back)
    | _, _ => none

end Ipv6Addr

/-! ## the characters of the texts -/

/-- The characters that end a part of a host or a port. -/
def delimiters : List Char := ['.', ':', '[', ']', '@']

theorem digitChar_notMem (digit : Nat) : Nat.digitChar digit ∉ delimiters := by
  have hsmall : ∀ digit : Fin 16, Nat.digitChar digit ∉ delimiters := by decide
  by_cases hlt : digit < 16
  · exact hsmall ⟨digit, hlt⟩
  · have hstar : Nat.digitChar digit = '*' := Nat.digitChar_eq_star.mpr (by omega)
    rw [hstar]
    decide

theorem notMem_significant {c : Char} (hc : c ∈ delimiters) (digits : List Nat) :
    c ∉ significant digits := by
  intro hmem
  unfold significant at hmem
  split at hmem
  · rw [List.mem_singleton] at hmem
    subst hmem
    exact absurd hc (by decide)
  · obtain ⟨digit, _, heq⟩ := List.mem_map.mp hmem
    subst heq
    exact digitChar_notMem digit hc

/-- A character of a joined text is the separator or one of a part. -/
theorem mem_intercalate {separator c : Char} {parts : List (List Char)}
    (h : c ∈ List.intercalate [separator] parts) : c = separator ∨ ∃ part ∈ parts, c ∈ part := by
  induction parts with
  | nil => simp at h
  | cons part rest ih =>
      cases rest with
      | nil =>
          rw [List.intercalate_singleton] at h
          exact .inr ⟨part, List.mem_cons_self, h⟩
      | cons next rest =>
          rw [List.intercalate_cons_cons, List.append_assoc] at h
          rcases List.mem_append.mp h with hpart | hrest
          · exact .inr ⟨part, List.mem_cons_self, hpart⟩
          · rcases List.mem_append.mp hrest with hseparator | hrest
            · exact .inl (List.mem_singleton.mp hseparator)
            · rcases ih hrest with hseparator | ⟨part', hmem, hc⟩
              · exact .inl hseparator
              · exact .inr ⟨part', List.mem_cons_of_mem part hmem, hc⟩

theorem Ipv4Addr.notMem_display {c : Char} (hc : c ∈ delimiters) (hdot : c ≠ '.')
    (ip : Ipv4Addr) : c ∉ ip.display := by
  intro hmem
  rcases mem_intercalate hmem with heq | ⟨part, hpart, hcpart⟩
  · exact hdot heq
  · obtain ⟨octet, _, rfl⟩ := List.mem_map.mp hpart
    exact notMem_significant hc _ hcpart

theorem notMem_groupsText {c : Char} (hc : c ∈ delimiters) (hcolon : c ≠ ':')
    (groups : List UInt16) : c ∉ groupsText groups := by
  intro hmem
  rcases mem_intercalate hmem with heq | ⟨part, hpart, hcpart⟩
  · exact hcolon heq
  · obtain ⟨group, _, rfl⟩ := List.mem_map.mp hpart
    exact notMem_significant hc _ hcpart

theorem notMem_compressed {c : Char} (hc : c ∈ delimiters) (hcolon : c ≠ ':')
    (groups : List UInt16) : c ∉ compressed groups := by
  unfold compressed
  dsimp only
  split
  · simp only [List.mem_append, not_or]
    refine ⟨⟨notMem_groupsText hc hcolon _, ?_⟩, notMem_groupsText hc hcolon _⟩
    simp [hcolon]
  · exact notMem_groupsText hc hcolon _

namespace Ipv6Addr

theorem notMem_display {c : Char} (hc : c ∈ delimiters) (hcolon : c ≠ ':') (hdot : c ≠ '.')
    (ip : Ipv6Addr) : c ∉ ip.display := by
  unfold display
  split
  · next ipv4 _ =>
      simp only [List.mem_append, not_or]
      refine ⟨?_, ipv4.notMem_display hc hdot⟩
      intro hmem
      have hnot : ∀ c ∈ delimiters, c ≠ ':' → c ∉ "::ffff:".toList := by
        simp [delimiters]
      exact hnot c hc hcolon hmem
  · exact notMem_compressed hc hcolon _

/-- The two texts of an address differ if it is IPv4-mapped, and only then. -/
theorem display_eq_urlText_iff (ip : Ipv6Addr) :
    ip.display = ip.urlText ↔ ip.toIpv4Mapped = none := by
  unfold display urlText
  cases ip.toIpv4Mapped with
  | none => simp
  | some ipv4 =>
      simp only [reduceCtorEq, iff_false]
      intro heq
      have hdot : '.' ∈ compressed ip.groups.toList := by
        rw [← heq]
        simp [Ipv4Addr.display, Ipv4Addr.octets]
      exact notMem_compressed (by decide) (by decide) _ hdot

end Ipv6Addr

end Ip
