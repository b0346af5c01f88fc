import Concord.Sema.Origin

/-!
# Concord.Sema.DnsUrl

The `url` crate on the URLs of DNS names that have no port, and the host that
the `http` crate finds in an authority.  They do what is relied on.
-/

namespace Concord.Sema

namespace DnsUrl

/-- A scheme and what comes after it. -/
def joined (scheme rest : List Char) : List Char := scheme ++ ':' :: '/' :: '/' :: rest

/-- What stands before the first colon. -/
def schemeOf (text : List Char) : List Char := text.takeWhile (· ≠ ':')

/-- A character that does not end the host. -/
def isHostChar (c : Char) : Bool := c ≠ '/' && c ≠ ':'

/-- What stands after the colon and two slashes. -/
def afterScheme (text : List Char) : List Char := (text.dropWhile (· ≠ ':')).drop 3

/-- The host of a URL. -/
def hostOf (text : List Char) : List Char := (afterScheme text).takeWhile isHostChar

/-- What stands after it. -/
def pathOf (text : List Char) : List Char := (afterScheme text).dropWhile isHostChar

/-- A joined URL is taken apart again. -/
theorem afterScheme_joined {scheme : List Char} (h : ':' ∉ scheme) (rest : List Char) :
    schemeOf (joined scheme rest) = scheme ∧ afterScheme (joined scheme rest) = rest := by
  have hscheme : ∀ c ∈ scheme, decide (c ≠ ':') = true := by
    intro c hc
    simpa using fun heq : c = ':' => h (heq ▸ hc)
  unfold schemeOf afterScheme joined
  rw [List.takeWhile_append_of_pos hscheme, List.dropWhile_append_of_pos hscheme]
  simp

/-- So is its host. -/
theorem hostOf_joined {scheme host rest : List Char} (h : ':' ∉ scheme)
    (hhost : ∀ c ∈ host, isHostChar c = true) (hrest : rest.takeWhile isHostChar = []) :
    hostOf (joined scheme (host ++ rest)) = host := by
  rw [hostOf, (afterScheme_joined h _).2, List.takeWhile_append_of_pos hhost, hrest,
    List.append_nil]

/-- A valid name ends no host. -/
theorem isHostChar_of_validDnsName {name : List Char} (h : validDnsName name = true) :
    ∀ c ∈ name, isHostChar c = true := by
  intro c hc
  have hnot : ∀ c ∈ ['/', ':'], ¬ (c = '.' ∨ c.isAlphanum = true ∨ c = '-') := by simp
  have hchar := mem_of_validDnsName h hc
  unfold isHostChar
  simp only [Bool.and_eq_true, decide_eq_true_eq]
  exact ⟨fun heq => hnot '/' (by decide) (heq ▸ hchar), fun heq => hnot ':' (by decide) (heq ▸ hchar)⟩

/-- In lower case it does not either. -/
theorem isHostChar_toLower {c : Char} (h : isHostChar c = true) : isHostChar c.toLower = true := by
  unfold isHostChar at h ⊢
  simp only [Bool.and_eq_true, decide_eq_true_eq] at h ⊢
  exact ⟨fun heq => h.1 (eq_of_toLower_eq (by decide) heq),
    fun heq => h.2 (eq_of_toLower_eq (by decide) heq)⟩

/-- The URLs of DNS names without a port. -/
def reader : UrlReader Unit where
  parse text :=
    let text := text.toList.map Char.toLower
    if ["http".toList, "https".toList].contains (schemeOf text) &&
        (joined (schemeOf text) (hostOf text)).isPrefixOf text &&
        validDnsName (hostOf text) && [[], ['/']].contains (pathOf text) then
      .ok ⟨String.ofList (joined (schemeOf text) (hostOf text ++ ['/'])), none⟩
    else .error ()
  setPath url path :=
    let path := if path.toList.head? = some '/' then path.toList else '/' :: path.toList
    let base := joined (schemeOf url.base.toList) (hostOf url.base.toList ++ path)
    { url with base := String.ofList base }
  scheme url := String.ofList (schemeOf url.base.toList)
  username _ := ""
  password _ := none
  host url := some (.domain (String.ofList (hostOf url.base.toList)))
  port url := if schemeOf url.base.toList = "https".toList then some 443 else some 80
  path url := String.ofList (pathOf url.base.toList)
  fragment _ := none

/-- What is known of a URL that is taken. -/
structure Taken (text : String) (url : Url) (scheme host : List Char) : Prop where
  url_eq : url = ⟨String.ofList (joined scheme (host ++ ['/'])), none⟩
  scheme_colon : ':' ∉ scheme
  host_valid : validDnsName host = true
  host_eq : host = hostOf (text.toList.map Char.toLower)

/-- What is parsed has a scheme and a host. -/
theorem taken_of_parse {text : String} {url : Url} (h : reader.parse text = .ok url) :
    ∃ scheme host, Taken text url scheme host := by
  simp only [reader] at h
  split at h
  · next hchecks =>
      simp only [Bool.and_eq_true] at hchecks
      refine ⟨_, _, (Except.ok.inj h).symm, fun hmem => ?_, hchecks.1.2, rfl⟩
      simpa using List.mem_takeWhile_imp hmem
  · contradiction

/-- The host of the URL that is parsed. -/
theorem Taken.hostOf_base {text : String} {url : Url} {scheme host : List Char}
    (h : Taken text url scheme host) : hostOf url.base.toList = host := by
  rw [h.url_eq, String.toList_ofList,
    hostOf_joined h.scheme_colon (isHostChar_of_validDnsName h.host_valid) rfl]

/-- And its scheme. -/
theorem Taken.schemeOf_base {text : String} {url : Url} {scheme host : List Char}
    (h : Taken text url scheme host) : schemeOf url.base.toList = scheme := by
  rw [h.url_eq, String.toList_ofList, (afterScheme_joined h.scheme_colon _).1]

/-- A URL in lower case. -/
theorem map_toLower_urlOf (scheme : Scheme) (a : String) :
    (urlOf scheme a).toList.map Char.toLower =
      joined scheme.text.toList (a.toList.map Char.toLower) := by
  cases scheme with
  | http => simp [urlOf, joined, Scheme.text]
  | https => simp [urlOf, joined, Scheme.text]

/-- Its host. -/
theorem hostOf_urlOf (scheme : Scheme) (a : String) :
    hostOf ((urlOf scheme a).toList.map Char.toLower) =
      (a.toList.map Char.toLower).takeWhile isHostChar := by
  have hcolon : ':' ∉ scheme.text.toList := by
    cases scheme with
    | http => decide
    | https => decide
  rw [map_toLower_urlOf, hostOf, (afterScheme_joined hcolon _).2]

/-- A host in brackets is not taken. -/
theorem not_parse_bracketed {scheme : Scheme} {a : String} {port : Option (List Char)} {url : Url}
    (ha : Bracketed a.toList) : reader.parse (urlOf scheme (withPort a port)) ≠ .ok url := by
  intro hurl
  obtain ⟨_, host, htaken⟩ := taken_of_parse hurl
  obtain ⟨inner, ha, _⟩ := ha
  have hmem : '[' ∈ host := by
    rw [htaken.host_eq, hostOf_urlOf, withPort, String.toList_append, ha]
    simp [isHostChar]
  exact (notMem_of_validDnsName htaken.host_valid).2.2 hmem

/-- A text in lower case stays as it is. -/
theorem toLower_ofList {text : List Char} (h : ∀ c ∈ text, c.toLower = c) :
    (String.ofList text).toLower = String.ofList text := by
  rw [toLower_eq_iff, String.toList_ofList]
  rw [List.map_congr_left (g := id) h, List.map_id]

/-- The reader does as the crate promises. -/
theorem lawful_reader : LawfulUrls reader where
  parse_case {scheme a b url} hcase hurl := by
    have hlower : (urlOf scheme b).toList.map Char.toLower =
        (urlOf scheme a).toList.map Char.toLower := by
      have hlists := toLower_eq_iff.mp hcase
      rw [toList_toLower] at hlists
      rw [map_toLower_urlOf, map_toLower_urlOf, hlists]
    refine ⟨url, ?_, rfl⟩
    rw [← hurl]
    simp only [reader, hlower]
  domain_lower {scheme a name url} hurl hhost := by
    obtain ⟨_, host, htaken⟩ := taken_of_parse hurl
    have hname : String.ofList (hostOf url.base.toList) = name := by
      simpa [reader] using hhost
    rw [← hname, htaken.hostOf_base]
    refine toLower_ofList fun c hc => ?_
    rw [htaken.host_eq, hostOf_urlOf] at hc
    obtain ⟨found, _, rfl⟩ := List.mem_map.mp ((List.takeWhile_sublist isHostChar).subset hc)
    exact toLower_toLower found
  domain_name {scheme a name port url} hvalid _ hurl hhost := by
    obtain ⟨_, host, htaken⟩ := taken_of_parse hurl
    have hname : String.ofList (hostOf url.base.toList) = name := by
      simpa [reader] using hhost
    have hchars : ∀ c ∈ a.toList.map Char.toLower, isHostChar c = true := by
      intro c hc
      obtain ⟨found, hfound, rfl⟩ := List.mem_map.mp hc
      exact isHostChar_toLower (isHostChar_of_validDnsName hvalid found hfound)
    have hport : ((portSuffix port).map Char.toLower).takeWhile isHostChar = [] := by
      cases port with
      | none => rfl
      | some port => rfl
    have hhost : host = a.toList.map Char.toLower := by
      rw [htaken.host_eq, hostOf_urlOf, withPort, String.toList_append, List.map_append,
        List.takeWhile_append_of_pos hchars, String.toList_ofList, hport, List.append_nil]
    rw [← hname, htaken.hostOf_base, hhost, toLower_ofList]
    · rw [eq_comm, toLower_eq_iff, String.toList_ofList]
    · intro c hc
      obtain ⟨found, _, rfl⟩ := List.mem_map.mp hc
      exact toLower_toLower found
  domain_of_last _ _ _ _ _ := ⟨_, rfl⟩
  ipv6_display {scheme address port url} _ hurl :=
    absurd hurl (not_parse_bracketed (bracketed_display address))
  bracketed_port ha _ _ hurl _ := absurd hurl (not_parse_bracketed ha)
  origin_setPath {text path url} hurl := by
    obtain ⟨scheme, host, htaken⟩ := taken_of_parse hurl
    have hpath : ∀ path : List Char,
        (if path.head? = some '/' then path else '/' :: path).takeWhile isHostChar = [] := by
      intro path
      split
      · next hhead =>
          obtain ⟨rest, rfl⟩ := List.head?_eq_some_iff.mp hhead
          rfl
      · rfl
    have hscheme := (afterScheme_joined htaken.scheme_colon
      (host ++ if path.toList.head? = some '/' then path.toList else '/' :: path.toList)).1
    have hhost := hostOf_joined htaken.scheme_colon
      (isHostChar_of_validDnsName htaken.host_valid) (hpath path.toList)
    simp only [UrlReader.origin, reader, String.toList_ofList, htaken.hostOf_base,
      htaken.schemeOf_base, hscheme, hhost]
  origin_query url query := rfl

/-- `Authority::host`. -/
def authorityHost (authority : String) : Option String :=
  if authority.toList.head? = some '[' then
    some (String.ofList (authority.toList.takeWhile (· ≠ ']') ++ [']']))
  else some (String.ofList (authority.toList.takeWhile (· ≠ ':')))

/-- So does its view of an authority. -/
theorem lawful_authorityHost : LawfulAuthority authorityHost where
  host_eq {host found port} hhost _ h := by
    have hlist : (withPort host port).toList = host.toList ++ portSuffix port := by
      rw [withPort, String.toList_append, String.toList_ofList]
    unfold authorityHost at h
    rw [hlist] at h
    rcases hhost.2 with ⟨inner, hinner, hclose⟩ | ⟨hcolon, hbracket⟩
    · have hchars : ∀ c ∈ '[' :: inner, decide (c ≠ ']') = true := by
        intro c hc
        rcases List.mem_cons.mp hc with rfl | hc
        · decide
        · simpa using fun heq : c = ']' => hclose (heq ▸ hc)
      have hsplit : host.toList ++ portSuffix port =
          ('[' :: inner) ++ (']' :: portSuffix port) := by
        rw [hinner]
        simp
      have hopen : ('[' :: inner ++ ']' :: portSuffix port).head? = some '[' := rfl
      rw [hsplit, if_pos hopen, Option.some.injEq, List.takeWhile_append_of_pos hchars] at h
      rw [← h]
      apply String.toList_inj.mp
      rw [String.toList_ofList, hinner]
      simp
    · have hchars : ∀ c ∈ host.toList, decide (c ≠ ':') = true := by
        intro c hc
        simpa using fun heq : c = ':' => hcolon (heq ▸ hc)
      have hport : (portSuffix port).takeWhile (· ≠ ':') = [] := by
        cases port with
        | none => rfl
        | some port => rfl
      have hhead : (host.toList ++ portSuffix port).head? ≠ some '[' := by
        cases htext : host.toList with
        | nil =>
            cases port with
            | none => simp [portSuffix]
            | some port => simp [portSuffix]
        | cons c rest =>
            intro heq
            rw [htext] at hbracket
            exact hbracket (by simpa using .inl (Option.some.inj heq).symm)
      rw [if_neg hhead, Option.some.injEq, List.takeWhile_append_of_pos hchars, hport,
        List.append_nil] at h
      rw [← h, String.ofList_toList]

end DnsUrl

end Concord.Sema
