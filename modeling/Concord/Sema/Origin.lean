import Mathlib.Data.List.TakeWhile
import Mathlib.Data.Option.Basic
import Concord.Lib.Results
import Concord.Sema.Descriptor

/-!
# Concord.Sema.Origin

What is known of an endpoint with a fixed origin.

The compiler and the running client make two texts of the same labels and
domain: the authority of the origin, whose base host is the one that the `url`
crate serialises, and the host of the route, which has the domain as it is
written.  The `url` crate reads both as the same host and port.
-/

namespace Concord.Sema

variable {υ : Type*}

/-! ## letter case -/

/-- The code of a character in lower case. -/
theorem toNat_toLower (c : Char) : c.toLower.val.toNat =
    if 65 ≤ c.val.toNat ∧ c.val.toNat ≤ 90 then c.val.toNat + 32 else c.val.toNat := by
  have hoffset : (32 : UInt32).toNat = 32 := rfl
  unfold Char.toLower
  split
  · next hupper =>
      have hlow : 65 ≤ c.val.toNat := UInt32.le_iff_toNat_le.mp hupper.1
      have hhigh : c.val.toNat ≤ 90 := UInt32.le_iff_toNat_le.mp hupper.2
      show (c.val + 32).toNat = _
      rw [UInt32.toNat_add, if_pos ⟨hlow, hhigh⟩]
      omega
  · next hupper =>
      rw [if_neg]
      rintro ⟨hlow, hhigh⟩
      exact hupper ⟨UInt32.le_iff_toNat_le.mpr hlow, UInt32.le_iff_toNat_le.mpr hhigh⟩

theorem eq_of_toNat_val {c d : Char} (h : c.val.toNat = d.val.toNat) : c = d :=
  Char.ext (UInt32.toNat_inj.mp h)

theorem toLower_toLower (c : Char) : c.toLower.toLower = c.toLower := by
  have hcode := toNat_toLower c
  have hlower : ¬ (65 ≤ c.toLower.val.toNat ∧ c.toLower.val.toNat ≤ 90) := by
    split at hcode <;> omega
  apply eq_of_toNat_val
  rw [toNat_toLower c.toLower, if_neg hlower]

/-- Only a letter becomes a letter. -/
theorem eq_of_toLower_eq {c d : Char} (hd : ¬ (97 ≤ d.val.toNat ∧ d.val.toNat ≤ 122))
    (h : c.toLower = d) : c = d := by
  have hcode := toNat_toLower c
  rw [h] at hcode
  apply eq_of_toNat_val
  split at hcode <;> omega

theorem toLower_eq_iff {a b : String} :
    a.toLower = b ↔ a.toList.map Char.toLower = b.toList := by
  rw [← String.toList_inj, toList_toLower]

theorem toLower_append (a b : String) : (a ++ b).toLower = a.toLower ++ b.toLower := by
  apply String.toList_inj.mp
  simp [toList_toLower]

/-- A text is in lower case if its parts are. -/
theorem toLower_append_eq_iff (a b : String) :
    (a ++ b).toLower = a ++ b ↔ a.toLower = a ∧ b.toLower = b := by
  rw [toLower_append]
  constructor
  · intro h
    have hlists := congrArg String.toList h
    rw [String.toList_append, String.toList_append] at hlists
    have hlength : a.toLower.toList.length = a.toList.length := by
      simp [toList_toLower]
    obtain ⟨ha, hb⟩ := List.append_inj hlists hlength
    exact ⟨String.toList_inj.mp ha, String.toList_inj.mp hb⟩
  · intro h
    rw [h.1, h.2]

/-- Names that are equal but for case have one lower case. -/
theorem eqIgnoreAsciiCase_iff {a b : String} :
    eqIgnoreAsciiCase a b = true ↔ a.toLower = b.toLower := by
  simp [eqIgnoreAsciiCase]

/-- The labels of a host in lower case, one after the other. -/
theorem toLower_intercalate_iff (labels : List String) :
    (".".intercalate labels).toLower = ".".intercalate labels ↔
      ∀ label ∈ labels, label.toLower = label := by
  have hdot : ".".toLower = "." := toLower_eq_iff.mpr (by decide)
  induction labels with
  | nil =>
      have hempty : "".toLower = "" := toLower_eq_iff.mpr (by decide)
      simp [hempty]
  | cons label labels ih =>
      cases labels with
      | nil => simp
      | cons next labels =>
          rw [String.intercalate_cons_cons, toLower_append_eq_iff, toLower_append_eq_iff,
            List.forall_mem_cons]
          constructor
          · intro h
            exact ⟨h.1.1, ih.mp h.2⟩
          · intro h
            exact ⟨⟨h.1, hdot⟩, ih.mpr h.2⟩

/-- A host is in lower case if its labels and its base are. -/
theorem toLower_combinedHost_iff (labels : List String) (host : String) :
    (combinedHost labels host).toLower = combinedHost labels host ↔
      (∀ label ∈ labels, label.toLower = label) ∧ host.toLower = host := by
  have hdot : ".".toLower = "." := toLower_eq_iff.mpr (by decide)
  unfold combinedHost
  split
  · next hempty =>
      rw [List.isEmpty_iff] at hempty
      simp [hempty]
  · rw [toLower_append_eq_iff, toLower_append_eq_iff, toLower_intercalate_iff]
    simp [hdot]

/-- Hosts that differ in letter case only do so with labels before them. -/
theorem toLower_combinedHost {host host' : String} (h : host.toLower = host'.toLower)
    (labels : List String) :
    (combinedHost labels host).toLower = (combinedHost labels host').toLower := by
  unfold combinedHost
  split
  · exact h
  · rw [toLower_append, toLower_append _ host', h]

/-- A suffix of the base is one of the host. -/
theorem combinedHost_append (labels : List String) (host suffix : String) :
    combinedHost labels (host ++ suffix) = combinedHost labels host ++ suffix := by
  unfold combinedHost
  split
  · rfl
  · rw [String.append_assoc, String.append_assoc, String.append_assoc]

/-! ## authorities -/

/-- A host between brackets. -/
def Bracketed (host : List Char) : Prop := ∃ inner, host = '[' :: (inner ++ [']']) ∧ ']' ∉ inner

/-- Text is split at a separator in it. -/
theorem rsplitOnce_eq_some {separator : Char} {text before after : List Char}
    (h : rsplitOnce separator text = some (before, after)) :
    text = before ++ separator :: after := by
  unfold rsplitOnce at h
  split at h
  · contradiction
  · next c rest hdrop =>
      rw [Option.some.injEq, Prod.mk.injEq] at h
      have hc : c = separator := by
        have hhead := List.head?_dropWhile_not (fun x => decide (x ≠ separator)) text.reverse
        rw [hdrop] at hhead
        simpa using hhead
      have hparts := List.takeWhile_append_dropWhile (p := fun x => decide (x ≠ separator))
        (l := text.reverse)
      rw [hdrop, hc] at hparts
      have hreversed := congrArg List.reverse hparts
      rw [List.reverse_append, List.reverse_cons, List.reverse_reverse, h.1, h.2] at hreversed
      rw [← hreversed, List.append_assoc, List.singleton_append]

/-- An authority is its host and its port. -/
theorem splitHostPort_eq_some {authority host : List Char} {port : Option (List Char)}
    (h : splitHostPort authority = some (host, port)) :
    authority = host ++ portSuffix port ∧ (Bracketed host ∨ host.head? ≠ some '[') := by
  unfold splitHostPort at h
  split at h
  · next hopen =>
      split at h
      · contradiction
      · next close remainder hdrop =>
          have hclose : close = ']' := by
            have hhead := List.head?_dropWhile_not (fun c => decide (c ≠ ']')) authority
            rw [hdrop] at hhead
            simpa using hhead
          have hparts := List.takeWhile_append_dropWhile (p := fun c => decide (c ≠ ']'))
            (l := authority)
          rw [hdrop, hclose] at hparts
          have hbracketed : Bracketed (authority.takeWhile (· ≠ ']') ++ [close]) := by
            obtain ⟨rest, rfl⟩ : ∃ rest, authority = '[' :: rest := List.head?_eq_some_iff.mp hopen
            refine ⟨rest.takeWhile (· ≠ ']'), by simp [hclose], fun hmem => ?_⟩
            simpa using List.mem_takeWhile_imp hmem
          dsimp only at h
          split at h
          · rw [Option.some.injEq, Prod.mk.injEq] at h
            obtain ⟨rfl, rfl⟩ := h
            exact ⟨by rw [hclose, portSuffix, List.append_nil]; exact hparts.symm, .inl hbracketed⟩
          · split at h
            · next hcolon =>
                rw [Option.some.injEq, Prod.mk.injEq] at h
                obtain ⟨rfl, rfl⟩ := h
                refine ⟨?_, .inl hbracketed⟩
                rw [hclose, portSuffix, ← hcolon, List.append_assoc, List.singleton_append]
                exact hparts.symm
            · contradiction
  · next hopen =>
      have hhead : ∀ rest, authority = host ++ rest → host.head? ≠ some '[' := by
        intro rest heq hhost
        obtain ⟨more, rfl⟩ := List.head?_eq_some_iff.mp hhost
        exact hopen (by rw [heq]; rfl)
      split at h
      · next before after hsplit =>
          split at h
          · contradiction
          · rw [Option.some.injEq, Prod.mk.injEq] at h
            obtain ⟨rfl, rfl⟩ := h
            have heq := rsplitOnce_eq_some hsplit
            exact ⟨heq, .inr (hhead _ heq)⟩
      · rw [Option.some.injEq, Prod.mk.injEq] at h
        obtain ⟨rfl, rfl⟩ := h
        exact ⟨by simp [portSuffix], .inr hopen⟩

/-- An authority is a host and a valid port, or none. -/
theorem splitAuthority_eq_some {authority host : List Char} {port : Option (List Char)}
    (h : splitAuthority authority = some (host, port)) :
    authority = host ++ portSuffix port ∧ (Bracketed host ∨ host.head? ≠ some '[') ∧
      port.all validPort = true := by
  unfold splitAuthority at h
  obtain ⟨hsplit, hchecks⟩ := Option.filter_eq_some_iff.mp h
  rw [Bool.and_eq_true] at hchecks
  obtain ⟨heq, hbracketed⟩ := splitHostPort_eq_some hsplit
  exact ⟨heq, hbracketed, hchecks.2⟩

/-- Brackets are stripped if they are there. -/
theorem stripBrackets_eq_some {host inner : List Char} (h : stripBrackets host = some inner) :
    host = '[' :: (inner ++ [']']) := by
  unfold stripBrackets at h
  split at h
  · next rest =>
      split at h
      · next hlast =>
          rw [Option.some.injEq] at h
          rw [← h, List.dropLast_append_getLast? _ hlast]
      · contradiction
  · contradiction

/-- Every character is a dot or in a label. -/
theorem mem_splitLabels {c : Char} {text : List Char} (h : c ∈ text) :
    c = '.' ∨ ∃ label ∈ splitLabels text, c ∈ label := by
  induction text with
  | nil => contradiction
  | cons first rest ih =>
      unfold splitLabels
      have hrest : c ∈ rest → c = '.' ∨ ∃ label ∈ splitLabels rest, c ∈ label := ih
      cases hsplit : splitLabels rest with
      | nil =>
          rw [hsplit] at hrest
          simp only [List.mem_singleton, exists_eq_left]
          rcases List.mem_cons.mp h with heq | hmem
          · exact .inr heq
          · rcases hrest hmem with hdot | ⟨label, hlabel, _⟩
            · exact .inl hdot
            · contradiction
      | cons label labels =>
          rw [hsplit] at hrest
          dsimp only
          by_cases hfirst : first = '.'
          · rw [if_pos hfirst]
            rcases List.mem_cons.mp h with heq | hmem
            · exact .inl (heq.trans hfirst)
            · rcases hrest hmem with hdot | ⟨found, hfound, hc⟩
              · exact .inl hdot
              · exact .inr ⟨found, List.mem_cons_of_mem _ hfound, hc⟩
          · rw [if_neg hfirst]
            rcases List.mem_cons.mp h with heq | hmem
            · exact .inr ⟨first :: label, List.mem_cons_self, by rw [heq]; exact List.mem_cons_self⟩
            · rcases hrest hmem with hdot | ⟨found, hfound, hc⟩
              · exact .inl hdot
              · rcases List.mem_cons.mp hfound with rfl | hfound
                · exact .inr ⟨first :: found, List.mem_cons_self, List.mem_cons_of_mem _ hc⟩
                · exact .inr ⟨found, List.mem_cons_of_mem _ hfound, hc⟩

/-- The characters of a DNS name. -/
theorem mem_of_validDnsName {name : List Char} (h : validDnsName name = true) {c : Char}
    (hc : c ∈ name) : c = '.' ∨ c.isAlphanum = true ∨ c = '-' := by
  unfold validDnsName at h
  rw [Bool.and_eq_true] at h
  rcases mem_splitLabels hc with hdot | ⟨label, hlabel, hmem⟩
  · exact .inl hdot
  · have hvalid := List.all_eq_true.mp h.2 label hlabel
    unfold validDnsLabel at hvalid
    rw [Bool.and_eq_true] at hvalid
    have hchar := List.all_eq_true.mp hvalid.2 c hmem
    rw [Bool.or_eq_true, decide_eq_true_eq] at hchar
    exact .inr hchar

/-! ## what is relied on -/

/-- The text of a URL without a path. -/
def urlOf (scheme : Scheme) (authority : String) : String := scheme.text ++ "://" ++ authority

/-- A host with its port. -/
def withPort (host : String) (port : Option (List Char)) : String :=
  host ++ String.ofList (portSuffix port)

/-- What the `url` crate does with `http` and `https` URLs, as far as they are
taken. -/
structure LawfulUrls (urls : UrlReader υ) : Prop where
  /-- Letter case does not count before the path. -/
  parse_case {scheme : Scheme} {a b : String} {url : Url} (hcase : a.toLower = b.toLower)
    (hurl : urls.parse (urlOf scheme a) = .ok url) :
    ∃ url', urls.parse (urlOf scheme b) = .ok url' ∧ urls.origin url' = urls.origin url
  /-- Domains are put in lower case. -/
  domain_lower {scheme : Scheme} {a name : String} {url : Url}
    (hurl : urls.parse (urlOf scheme a) = .ok url) (hhost : urls.host url = some (.domain name)) :
    name.toLower = name
  /-- Nothing else happens to a DNS name. -/
  domain_name {scheme : Scheme} {a name : String} {port : Option (List Char)} {url : Url}
    (hname : validDnsName a.toList = true) (hport : port.all validPort = true)
    (hurl : urls.parse (urlOf scheme (withPort a port)) = .ok url)
    (hhost : urls.host url = some (.domain name)) :
    name.toLower = a.toLower
  /-- The last label decides whether a host is a domain. -/
  domain_of_last {scheme : Scheme} {labels : List String} {a name : String}
    {port : Option (List Char)} {baseUrl url : Url}
    (hname : validDnsName (combinedHost labels a).toList = true)
    (hport : port.all validPort = true)
    (hbase : urls.parse (urlOf scheme (withPort a port)) = .ok baseUrl)
    (hhost : urls.host baseUrl = some (.domain name))
    (hurl : urls.parse (urlOf scheme (withPort (combinedHost labels a) port)) = .ok url) :
    ∃ name, urls.host url = some (.domain name)
  /-- An IPv6 address is read back from its text. -/
  ipv6_display {scheme : Scheme} {address : Ip.Ipv6Addr} {port : Option (List Char)} {url : Url}
    (hport : port.all validPort = true)
    (hurl : urls.parse (urlOf scheme
      (withPort ("[" ++ String.ofList address.display ++ "]") port)) = .ok url) :
    urls.host url = some (.ipv6 address)
  /-- The port after a host in brackets. -/
  bracketed_port {scheme : Scheme} {a b : String} {port : Option (List Char)} {url url' : Url}
    (ha : Bracketed a.toList) (hb : Bracketed b.toList) (hport : port.all validPort = true)
    (hurl : urls.parse (urlOf scheme (withPort a port)) = .ok url)
    (hurl' : urls.parse (urlOf scheme (withPort b port)) = .ok url') :
    urls.port url = urls.port url'
  origin_setPath {text path : String} {url : Url} (hurl : urls.parse text = .ok url) :
    urls.origin (urls.setPath url path) = urls.origin url
  origin_query (url : Url) (query : Option (List UInt8)) :
    urls.origin { url with query := query } = urls.origin url

/-- A host text that ends where its port begins. -/
def HostText (host : List Char) : Prop :=
  '@' ∉ host ∧ (Bracketed host ∨ (':' ∉ host ∧ '[' ∉ host))

/-- What the `http` crate does with an authority that it takes. -/
structure LawfulAuthority (authorityHost : String → Option String) : Prop where
  host_eq {host found : String} {port : Option (List Char)} (hhost : HostText host.toList)
    (hport : port.all validPort = true) (h : authorityHost (withPort host port) = some found) :
    found = host

/-- The domain of the client is an IPv4-mapped IPv6 address. -/
def isIpv4MappedBase (domain : String) : Bool :=
  (splitAuthority domain.toList).any fun (host, _) =>
    ((stripBrackets host).bind Ip.Ipv6Addr.fromStr).any fun address =>
      address.toIpv4Mapped.isSome

/-! ## validated authorities -/

/-- What the validation of an authority has found. -/
structure OriginCheck (urls : UrlReader υ) (scheme : Scheme) (domain : String)
    (labels : List String) (authority : String) where
  rawHost : List Char
  port : Option (List Char)
  host : UrlHost
  hostText : String
  baseUrl : Url
  candidate : Url
  split : splitAuthority domain.toList = some (rawHost, port)
  base_parse : urls.parse (urlOf scheme domain) = .ok baseUrl
  base_scheme : urls.scheme baseUrl = scheme.text
  base_host : urls.host baseUrl = some host
  text_eq : baseHostText host rawHost labels = some hostText
  name_valid : host.isDomain = true → validDnsName (combinedHost labels hostText).toList = true
  authority_eq : authority = withPort (combinedHost labels hostText) port
  candidate_parse :
    urls.parse (urlOf scheme (withPort (combinedHost labels hostText) port)) = .ok candidate
  candidate_scheme : urls.scheme candidate = scheme.text

/-- A valid origin has the scheme that was asked for. -/
theorem scheme_of_validOriginUrl {urls : UrlReader υ} {url : Url} {scheme : String}
    (h : validOriginUrl urls url scheme = true) : urls.scheme url = scheme := by
  unfold validOriginUrl at h
  simp only [Bool.and_eq_true, decide_eq_true_eq] at h
  exact h.1.1.1.1.1.1

/-- An authority that is validated passes the checks. -/
theorem originCheck_of_validated {urls : UrlReader υ} {scheme : Scheme} {domain : String}
    {labels : List String} {authority : String}
    (h : validatedOriginAuthority urls scheme domain labels = some authority) :
    Nonempty (OriginCheck urls scheme domain labels authority) := by
  unfold validatedOriginAuthority at h
  simp only [Option.bind_eq_bind, Option.bind_eq_some_iff, Option.guard_eq_some',
    Results.toOption_eq_some_iff] at h
  obtain ⟨_, _, baseUrl, hbase, _, hbaseValid, ⟨rawHost, port⟩, hsplit, host, hhost, hostText,
    htext, _, hname, candidate, hcandidate, _, hcandidateValid, heq⟩ := h
  rw [Option.some.injEq] at heq
  subst heq
  refine ⟨⟨rawHost, port, host, hostText, baseUrl, candidate, hsplit, hbase,
    scheme_of_validOriginUrl hbaseValid, hhost, htext, fun hdomain => ?_, rfl, hcandidate,
    scheme_of_validOriginUrl hcandidateValid⟩⟩
  rw [hdomain] at hname
  simpa using hname

namespace OriginCheck

variable {urls : UrlReader υ} {scheme : Scheme} {domain : String} {labels : List String}
  {authority : String} (check : OriginCheck urls scheme domain labels authority)

/-- The domain is the host that is read off it, with its port. -/
theorem domain_eq : domain = withPort (String.ofList check.rawHost) check.port := by
  apply String.toList_inj.mp
  rw [withPort, String.toList_append, String.toList_ofList, String.toList_ofList]
  exact (splitAuthority_eq_some check.split).1

/-- The base url is that of the domain. -/
theorem base_parse_withPort :
    urls.parse (urlOf scheme (withPort (String.ofList check.rawHost) check.port)) =
      .ok check.baseUrl :=
  (congrArg (fun domain => urls.parse (urlOf scheme domain)) check.domain_eq).symm.trans
    check.base_parse

/-- A port that is read off is valid. -/
theorem port_valid : check.port.all validPort = true := (splitAuthority_eq_some check.split).2.2

/-- The host of the request, as the generated code makes it. -/
theorem joined_eq : combinedHost labels domain =
    withPort (combinedHost labels (String.ofList check.rawHost)) check.port := by
  rw [withPort, ← combinedHost_append]
  exact congrArg (combinedHost labels) check.domain_eq

end OriginCheck

/-- A name as host is that of the url, but for case. -/
theorem baseHostText_domain {name text : String} {rawHost : List Char} {labels : List String}
    (h : baseHostText (.domain name) rawHost labels = some text) :
    text = name ∧ (String.ofList rawHost).toLower = name.toLower ∧
      validDnsName name.toList = true := by
  simp only [baseHostText] at h
  split at h
  · next hchecks =>
      rw [Bool.and_eq_true, Bool.and_eq_true] at hchecks
      exact ⟨(Option.some.inj h).symm, eqIgnoreAsciiCase_iff.mp hchecks.1.2, hchecks.2⟩
  · contradiction

/-- An IPv4 address has no labels and is written as it is displayed. -/
theorem baseHostText_ipv4 {address : Ip.Ipv4Addr} {text : String} {rawHost : List Char}
    {labels : List String} (h : baseHostText (.ipv4 address) rawHost labels = some text) :
    labels = [] ∧ rawHost = address.display ∧ text = String.ofList address.display := by
  simp only [baseHostText] at h
  split at h
  · next hchecks =>
      rw [Bool.and_eq_true, decide_eq_true_eq, List.isEmpty_iff] at hchecks
      exact ⟨hchecks.1, (Ip.Ipv4Addr.display_of_fromStr hchecks.2).symm,
        (Option.some.inj h).symm⟩
  · contradiction

/-- An IPv6 address has no labels and is read between brackets. -/
theorem baseHostText_ipv6 {address : Ip.Ipv6Addr} {text : String} {rawHost : List Char}
    {labels : List String} (h : baseHostText (.ipv6 address) rawHost labels = some text) :
    labels = [] ∧ (stripBrackets rawHost).bind Ip.Ipv6Addr.fromStr = some address ∧
      text = "[" ++ String.ofList address.display ++ "]" := by
  simp only [baseHostText] at h
  split at h
  · next hchecks =>
      rw [Bool.and_eq_true, decide_eq_true_eq, List.isEmpty_iff] at hchecks
      exact ⟨hchecks.1, hchecks.2, (Option.some.inj h).symm⟩
  · contradiction

/-- What a DNS name does not have. -/
theorem notMem_of_validDnsName {name : List Char} (h : validDnsName name = true) :
    '@' ∉ name ∧ ':' ∉ name ∧ '[' ∉ name := by
  have hnot : ∀ c ∈ ['@', ':', '['], ¬ (c = '.' ∨ c.isAlphanum = true ∨ c = '-') := by simp
  refine ⟨?_, ?_, ?_⟩
  · exact fun hmem => hnot '@' (by decide) (mem_of_validDnsName h hmem)
  · exact fun hmem => hnot ':' (by decide) (mem_of_validDnsName h hmem)
  · exact fun hmem => hnot '[' (by decide) (mem_of_validDnsName h hmem)

/-- A host that is a DNS name but for its letter case has no brackets. -/
theorem stripBrackets_of_toLower_eq {host : List Char} {name : String}
    (h : (String.ofList host).toLower = name.toLower) (hname : validDnsName name.toList = true) :
    stripBrackets host = none := by
  cases hstrip : stripBrackets host with
  | none => rfl
  | some inner =>
      have hlower := toLower_eq_iff.mp h
      rw [String.toList_ofList, stripBrackets_eq_some hstrip, toList_toLower] at hlower
      have hmem : '[' ∈ name.toList.map Char.toLower := by
        rw [← hlower]
        exact List.mem_cons_self
      obtain ⟨c, hc, hbracket⟩ := List.mem_map.mp hmem
      rw [eq_of_toLower_eq (by decide) hbracket] at hc
      exact absurd hc (notMem_of_validDnsName hname).2.2

theorem toList_brackets (text : List Char) :
    ("[" ++ String.ofList text ++ "]").toList = '[' :: (text ++ [']']) := by
  simp

/-- An IPv6 address in a url is in brackets. -/
theorem bracketed_display (address : Ip.Ipv6Addr) :
    Bracketed ("[" ++ String.ofList address.display ++ "]").toList :=
  ⟨address.display, toList_brackets address.display,
    address.notMem_display (by decide) (by decide) (by decide)⟩

theorem toLower_withPort {a b : String} (h : a.toLower = b.toLower) (port : Option (List Char)) :
    (withPort a port).toLower = (withPort b port).toLower := by
  rw [withPort, withPort, toLower_append, toLower_append, h]

namespace OriginCheck

variable {urls : UrlReader υ} {scheme : Scheme} {domain : String} {labels : List String}
  {authority : String} (check : OriginCheck urls scheme domain labels authority)

/-- The URL of a request has the origin of the authority. -/
theorem exists_request_url (hurls : LawfulUrls urls) :
    ∃ url, urls.parse (urlOf scheme (combinedHost labels domain)) = .ok url ∧
      urls.origin url = urls.origin check.candidate := by
  have htext := check.text_eq
  have hcandidate := check.candidate_parse
  cases hhost : check.host with
  | domain name =>
      rw [hhost] at htext
      obtain ⟨hname, hcase, _⟩ := baseHostText_domain htext
      rw [check.joined_eq]
      rw [hname] at hcandidate
      exact hurls.parse_case
        (toLower_withPort (toLower_combinedHost hcase.symm labels) check.port) hcandidate
  | ipv4 address =>
      rw [hhost] at htext
      obtain ⟨_, hraw, hdisplay⟩ := baseHostText_ipv4 htext
      rw [check.joined_eq, hraw, ← hdisplay]
      exact ⟨check.candidate, hcandidate, rfl⟩
  | ipv6 address =>
      rw [hhost] at htext
      obtain ⟨hlabels, hraw, hdisplay⟩ := baseHostText_ipv6 htext
      obtain ⟨inner, hinner, _⟩ := Option.bind_eq_some_iff.mp hraw
      subst hlabels
      have hbracketed : Bracketed (String.ofList check.rawHost).toList := by
        rw [String.toList_ofList]
        rcases (splitAuthority_eq_some check.split).2.1 with hbracketed | hhead
        · exact hbracketed
        · rw [stripBrackets_eq_some hinner] at hhead
          exact absurd rfl hhead
      refine ⟨check.baseUrl, check.base_parse, ?_⟩
      rw [hdisplay] at hcandidate
      have hport := hurls.bracketed_port hbracketed (bracketed_display address)
        check.port_valid check.base_parse_withPort hcandidate
      have hread := hurls.ipv6_display check.port_valid hcandidate
      unfold UrlReader.origin
      rw [check.base_scheme, check.candidate_scheme, check.base_host, hhost, hread, hport]

/-- The check for mapped addresses reads the host of the url. -/
theorem isIpv4MappedBase_eq : isIpv4MappedBase domain =
    ((stripBrackets check.rawHost).bind Ip.Ipv6Addr.fromStr).any fun address =>
      address.toIpv4Mapped.isSome := by
  rw [isIpv4MappedBase, check.split, Option.any_some]

/-- A host that was checked is text of a host. -/
theorem hostText_combinedHost : HostText (combinedHost labels check.hostText).toList := by
  have htext := check.text_eq
  cases hhost : check.host with
  | domain name =>
      obtain ⟨hat, hcolon, hbracket⟩ := notMem_of_validDnsName
        (check.name_valid (by rw [hhost]; rfl))
      exact ⟨hat, .inr ⟨hcolon, hbracket⟩⟩
  | ipv4 address =>
      rw [hhost] at htext
      obtain ⟨rfl, _, hdisplay⟩ := baseHostText_ipv4 htext
      have hnot : ∀ c ∈ ['@', ':', '['], c ∉ address.display := by
        intro c hc
        have hdelimiter : ∀ c ∈ ['@', ':', '['], c ∈ Ip.delimiters ∧ c ≠ '.' := by
          simp [Ip.delimiters]
        exact address.notMem_display (hdelimiter c hc).1 (hdelimiter c hc).2
      rw [hdisplay, combinedHost, if_pos List.isEmpty_nil, String.toList_ofList]
      exact ⟨hnot '@' (by decide), .inr ⟨hnot ':' (by decide), hnot '[' (by decide)⟩⟩
  | ipv6 address =>
      rw [hhost] at htext
      obtain ⟨rfl, _, hdisplay⟩ := baseHostText_ipv6 htext
      rw [hdisplay, combinedHost, if_pos List.isEmpty_nil]
      refine ⟨?_, .inl (bracketed_display address)⟩
      rw [toList_brackets]
      have hat : '@' ∉ address.display :=
        address.notMem_display (by decide) (by decide) (by decide)
      simp [hat]

/-- The host of the authority is read as a domain, in lower case. -/
theorem candidate_domain (hurls : LawfulUrls urls) {name : String}
    (hhost : check.host = .domain name) :
    urls.host check.candidate = some (.domain (combinedHost labels name).toLower) ∧
      name.toLower = name := by
  have htext := check.text_eq
  have hbase := check.base_host
  rw [hhost] at htext hbase
  obtain ⟨hname, hcase, _⟩ := baseHostText_domain htext
  have hvalid := check.name_valid (by rw [hhost]; rfl)
  have hcandidate := check.candidate_parse
  rw [hname] at hvalid hcandidate
  -- the base host, written as it is serialised
  obtain ⟨baseUrl, hparse, horigin⟩ := hurls.parse_case
    (toLower_withPort hcase check.port) check.base_parse_withPort
  have hread : urls.host baseUrl = some (.domain name) :=
    (congrArg UrlOrigin.host horigin).trans hbase
  obtain ⟨found, hfound⟩ :=
    hurls.domain_of_last hvalid check.port_valid hparse hread hcandidate
  have hlower := hurls.domain_lower hcandidate hfound
  have heq := hurls.domain_name hvalid check.port_valid hcandidate hfound
  rw [hlower] at heq
  rw [hfound, heq]
  exact ⟨rfl, hurls.domain_lower check.base_parse hbase⟩

/-- The host of the authority is the text of the host of its URL if the labels
are in lower case and the address is not an IPv4-mapped one, and only then. -/
theorem text_eq_iff (hurls : LawfulUrls urls) :
    (urls.host check.candidate).map UrlHost.text = some (combinedHost labels check.hostText) ↔
      (∀ label ∈ labels, label.toLower = label) ∧ isIpv4MappedBase domain = false := by
  have htext := check.text_eq
  rw [check.isIpv4MappedBase_eq]
  cases hhost : check.host with
  | domain name =>
      rw [hhost] at htext
      obtain ⟨hname, hcase, hvalid⟩ := baseHostText_domain htext
      obtain ⟨hread, hlower⟩ := check.candidate_domain hurls hhost
      rw [stripBrackets_of_toLower_eq hcase hvalid, hread, hname, Option.map_some,
        Option.some.injEq]
      show (combinedHost labels name).toLower = combinedHost labels name ↔ _
      rw [toLower_combinedHost_iff]
      simp [hlower]
  | ipv4 address =>
      rw [hhost] at htext
      obtain ⟨rfl, hraw, hdisplay⟩ := baseHostText_ipv4 htext
      have hstrip : stripBrackets check.rawHost = none := by
        cases hstrip : stripBrackets check.rawHost with
        | none => rfl
        | some inner =>
            have hmem : '[' ∈ address.display := by
              rw [← hraw, stripBrackets_eq_some hstrip]
              exact List.mem_cons_self
            exact absurd hmem (address.notMem_display (by decide) (by decide))
      have hsame : urls.host check.candidate = some (.ipv4 address) := by
        have hcandidate := check.candidate_parse
        rw [hdisplay, ← hraw] at hcandidate
        have hurl := Except.ok.inj (hcandidate.symm.trans check.base_parse_withPort)
        rw [hurl, check.base_host, hhost]
      rw [hsame, hstrip, hdisplay]
      simp [UrlHost.text, combinedHost]
  | ipv6 address =>
      rw [hhost] at htext
      obtain ⟨rfl, hraw, hdisplay⟩ := baseHostText_ipv6 htext
      have hcandidate := check.candidate_parse
      rw [hdisplay] at hcandidate
      rw [hurls.ipv6_display check.port_valid hcandidate, hraw, hdisplay]
      have htexts : "[" ++ String.ofList address.urlText ++ "]" =
          "[" ++ String.ofList address.display ++ "]" ↔ address.urlText = address.display := by
        rw [← String.toList_inj, toList_brackets, toList_brackets]
        simp
      rw [Option.map_some, Option.some.injEq]
      show "[" ++ String.ofList address.urlText ++ "]" =
        "[" ++ String.ofList address.display ++ "]" ↔ _
      rw [htexts, eq_comm, address.display_eq_urlText_iff]
      simp

end OriginCheck

/-! ## endpoints and the API -/

/-- Static pieces are valid labels. -/
theorem staticLabels_eq_some {pieces : List PrefixPiece} {labels : List String}
    (h : staticLabels pieces = some labels) :
    pieces = labels.map PrefixPiece.static ∧
      ∀ label ∈ labels, validDnsLabel label.toList = true := by
  induction pieces generalizing labels with
  | nil =>
      rw [staticLabels, Option.some.injEq] at h
      simp [← h]
  | cons piece pieces ih =>
      cases piece with
      | static label =>
          rw [staticLabels] at h
          split at h
          · next hvalid =>
              obtain ⟨rest, hrest, rfl⟩ := Option.map_eq_some_iff.mp h
              obtain ⟨rfl, hlabels⟩ := ih hrest
              exact ⟨rfl, List.forall_mem_cons.mpr ⟨hvalid, hlabels⟩⟩
          · contradiction
      | cxVar field optional => contradiction
      | epVar field => contradiction
      | fmt format => contradiction

/-- An origin that is fixed passed the checks. -/
theorem check_of_fixed {urls : UrlReader υ} {scheme : Scheme} {domain : String}
    {pieces : List PrefixPiece} {origin : FixedOriginIr}
    (h : classifyEndpointOrigin urls scheme domain pieces = .fixed origin) :
    origin.scheme = scheme.toOriginScheme ∧ ∃ labels, staticLabels pieces = some labels ∧
      Nonempty (OriginCheck urls scheme domain labels origin.authority) := by
  unfold classifyEndpointOrigin at h
  split at h
  · contradiction
  · next labels hlabels =>
      split at h
      · contradiction
      · next authority hauthority =>
          rw [EndpointOriginIr.fixed.injEq] at h
          subst h
          exact ⟨rfl, labels, hlabels, originCheck_of_validated hauthority⟩

/-- Fixed origins are those of the endpoints. -/
theorem mem_fixedOrigins {descriptors : List EndpointDescriptorIr} {origins : List FixedOriginIr}
    (h : fixedOrigins descriptors = some origins) {descriptor : EndpointDescriptorIr}
    (hmem : descriptor ∈ descriptors) :
    ∃ origin ∈ origins, descriptor.origin = .fixed origin := by
  induction descriptors generalizing origins with
  | nil => contradiction
  | cons first rest ih =>
      rw [fixedOrigins] at h
      split at h
      · contradiction
      · split at h
        · next origin hfirst =>
            obtain ⟨others, hothers, rfl⟩ := Option.map_eq_some_iff.mp h
            rcases List.mem_cons.mp hmem with rfl | hmem
            · exact ⟨origin, List.mem_cons_self, hfirst⟩
            · obtain ⟨found, hfound, heq⟩ := ih hothers hmem
              exact ⟨found, List.mem_cons_of_mem _ hfound, heq⟩
        · contradiction

/-- All endpoints of an API with one fixed origin have that origin. -/
theorem fixed_of_fixedSingle {urls : UrlReader υ} {api : ResolvedApi} {origin : FixedOriginIr}
    (h : api.origin urls = .fixedSingle origin) {endpoint : ResolvedEndpoint}
    (hmem : endpoint ∈ api.endpoints) :
    classifyEndpointOrigin urls api.scheme api.domain endpoint.prefixPieces = .fixed origin := by
  unfold ResolvedApi.origin classifyApiOrigin at h
  split at h
  · contradiction
  · next origins horigins =>
      obtain ⟨found, hfound, heq⟩ := mem_fixedOrigins horigins (List.mem_map_of_mem hmem)
      split at h
      · contradiction
      · next single hsingle =>
          rw [ApiOriginIr.fixedSingle.injEq] at h
          subst h
          have hkept : found ∈ (Keyed.keepFirst id origins).map id :=
            Keyed.mem_map_keepFirst_iff.mpr (List.mem_map_of_mem (f := id) hfound)
          rw [hsingle] at hkept
          have hsame : found = single := by simpa using hkept
          rw [← hsame]
          exact heq
      · contradiction

/-- A single origin is that of an endpoint. -/
theorem endpoints_of_fixedSingle {urls : UrlReader υ} {api : ResolvedApi}
    {origin : FixedOriginIr} (h : api.origin urls = .fixedSingle origin) :
    ∃ endpoint, endpoint ∈ api.endpoints := by
  cases hendpoints : api.endpoints with
  | nil =>
      unfold ResolvedApi.origin at h
      rw [hendpoints] at h
      contradiction
  | cons endpoint rest => exact ⟨endpoint, List.mem_cons_self⟩

end Concord.Sema
