import Fubun.Resources.WebUrl

/-! The address of a page has nothing left to take away: it is the address of its own page, and of every
URL that differs in its query or its fragment. -/

namespace Fubun

def Url.defaultPort (url : Url) : Option Nat :=
  if url.scheme = "http" then some 80 else if url.scheme = "https" then some 443 else none

/-- What the parser gives of a text, and what the setters make of it. -/
inductive Crates.Yields (crates : Crates) : Url → Prop
  | parsed {input : String} {url : Url} : crates.parseUrl input = some url → crates.Yields url
  | setQuery {url : Url} : crates.Yields url → crates.Yields { url with query := none }
  | setFragment {url : Url} : crates.Yields url → crates.Yields { url with fragment := none }
  | setPath {url : Url} : crates.Yields url → url.path = "" → crates.Yields { url with path := "/" }
  | setPort {url : Url} : crates.Yields url → crates.Yields { url with port := none }

/-- The parser inverts the serialiser on the URLs of the web; the empty text is no URL. -/
structure Crates.Inverts (crates : Crates) : Prop where
  empty : crates.parseUrl "" = none
  reads : ∀ url, crates.Yields url → url.isWeb = true → crates.parseUrl (crates.urlToString url) = some url

/-- A URL without user information, query, fragment and default port, and with a path. -/
structure Url.IsBare (url : Url) : Prop where
  web : url.isWeb = true
  user : url.username = "" ∧ url.password = none
  query : url.query = none
  fragment : url.fragment = none
  port : url.port = none ∨ url.port ≠ url.defaultPort
  path : url.path ≠ ""

/-- Another text of the same URL but for the query and the fragment. -/
def DiffersInQuery (crates : Crates) (input input' : String) : Prop :=
  ∃ url query fragment, crates.parseUrl input = some url ∧ crates.parseUrl input' = some { url with query, fragment }

section
variable {crates : Crates} {url : Url} {input input' canonical : String}

theorem Crates.Yields.page (h : crates.Yields url) : crates.Yields url.page := by
  have hbare := h.setQuery.setFragment
  unfold Url.page
  dsimp only
  split_ifs with hpath hport hport
  · exact (hbare.setPath hpath).setPort
  · exact hbare.setPath hpath
  · exact hbare.setPort
  · exact hbare

theorem canonicalizeWebUrl_ok (h : canonicalizeWebUrl crates input = .ok canonical) :
    ∃ url, crates.parseUrl input = some url ∧ url.isWeb = true ∧ url.hasUserInfo = false ∧ url.host.isSome ∧
      crates.urlToString url.page = canonical ∧ canonical.utf8ByteSize ≤ webUrlMaxBytes := by
  by_cases hlen : input.utf8ByteSize = 0 ∨ input.utf8ByteSize > webUrlMaxBytes
  · rw [canonicalizeWebUrl, if_pos hlen] at h
    cases h
  cases hparse : crates.parseUrl input with
  | none =>
    rw [canonicalizeWebUrl, if_neg hlen, hparse] at h
    cases h
  | some url =>
    rw [canonicalizeWebUrl_eq_page hlen hparse] at h
    split_ifs at h with hscheme hinfo hhost hsize
    obtain rfl := Except.ok.inj h
    refine ⟨url, rfl, Url.isWeb_iff.mpr hscheme, Url.hasUserInfo_iff.mpr hinfo, ?_, rfl, Nat.le_of_not_lt hsize⟩
    rw [Option.isNone_iff_eq_none] at hhost
    exact Option.isSome_iff_ne_none.mpr hhost

theorem canonicalizeWebUrl_of (hlen : 0 < input.utf8ByteSize ∧ input.utf8ByteSize ≤ webUrlMaxBytes)
    (hparse : crates.parseUrl input = some url) (hweb : url.isWeb = true) (hinfo : url.hasUserInfo = false)
    (hhost : url.host.isSome) (hsize : (crates.urlToString url.page).utf8ByteSize ≤ webUrlMaxBytes) :
    canonicalizeWebUrl crates input = .ok (crates.urlToString url.page) := by
  have hlen' : ¬ (input.utf8ByteSize = 0 ∨ input.utf8ByteSize > webUrlMaxBytes) := by omega
  have hhost' : ¬ url.host.isNone := by
    rw [Option.isNone_iff_eq_none, ← Ne, ← Option.isSome_iff_ne_none]
    exact hhost
  rw [canonicalizeWebUrl_eq_page hlen' hparse, if_neg (Url.isWeb_iff.mp hweb), if_neg (Url.hasUserInfo_iff.mp hinfo),
    if_neg hhost', if_neg (Nat.not_lt.mpr hsize)]

theorem Url.page_query (url : Url) : url.page.query = none ∧ url.page.fragment = none := by
  unfold page
  dsimp only
  split_ifs <;> exact ⟨rfl, rfl⟩

theorem Url.page_setQuery (url : Url) (query fragment : Option String) : { url with query, fragment }.page = url.page := rfl

theorem Url.isBare_page (hweb : url.isWeb = true) (hinfo : url.hasUserInfo = false) : url.page.IsBare where
  web := (url.isWeb_page).trans hweb
  user := by
    obtain ⟨huser, hpassword⟩ := not_or.mp (Url.hasUserInfo_iff.mp ((url.hasUserInfo_page).trans hinfo))
    exact ⟨not_not.mp huser, by simpa using hpassword⟩
  query := url.page_query.1
  fragment := url.page_query.2
  port := by
    refine or_iff_not_imp_left.mpr fun hport hdefault => ?_
    have hkept := url.page_port_kept
    unfold Url.defaultPort at hdefault
    split_ifs at hdefault with hhttp hhttps
    · exact hkept (.inl (Prod.ext hhttp hdefault))
    · exact hkept (.inr (Prod.ext hhttps hdefault))
    · exact hport hdefault
  path := url.page_path_ne

/-- The address that the canonicalization gives is bare and short, its own address and that of every URL that differs
only in query or fragment, and it passes as the locator of a resource. -/
theorem canonical_fixed (hc : crates.Inverts) (h : canonicalizeWebUrl crates input = .ok canonical) :
    (∃ url, crates.parseUrl canonical = some url ∧ url.IsBare) ∧ canonical.utf8ByteSize ≤ webUrlMaxBytes ∧
      canonicalizeWebUrl crates canonical = .ok canonical ∧
      (∀ input', DiffersInQuery crates input input' → input'.utf8ByteSize ≤ webUrlMaxBytes →
        canonicalizeWebUrl crates input' = .ok canonical) ∧
      ∀ resource : Resource, resource.kind = .webPage → resource.locator = canonical → resource.canonicalLocator = canonical →
        1 ≤ resource.label.length → resource.label.length ≤ 128 → resource.validate crates = .ok () := by
  obtain ⟨url, hparse, hweb, hinfo, hhost, rfl, hsize⟩ := canonicalizeWebUrl_ok h
  have hpageWeb : url.page.isWeb = true := url.isWeb_page.trans hweb
  have hpageInfo : url.page.hasUserInfo = false := url.hasUserInfo_page.trans hinfo
  have hread : crates.parseUrl (crates.urlToString url.page) = some url.page :=
    hc.reads url.page (Crates.Yields.parsed hparse).page hpageWeb
  have hpos {text : String} {parsed : Url} (htext : crates.parseUrl text = some parsed) : 0 < text.utf8ByteSize := by
    refine Nat.pos_of_ne_zero fun hzero => ?_
    obtain rfl := String.utf8ByteSize_eq_zero_iff.mp hzero
    exact nomatch hc.empty.symm.trans htext
  have hfixed : canonicalizeWebUrl crates (crates.urlToString url.page) = .ok (crates.urlToString url.page) := by
    have hself := canonicalizeWebUrl_of ⟨hpos hread, hsize⟩ hread hpageWeb hpageInfo (url.page_host ▸ hhost)
    rw [url.page_page] at hself
    exact hself hsize
  refine ⟨⟨url.page, hread, Url.isBare_page hweb hinfo⟩, hsize, hfixed, ?_, ?_⟩
  · rintro input' ⟨url', query, fragment, hparse', hchanged⟩ hlength
    obtain rfl := Option.some.inj (hparse.symm.trans hparse')
    -- the other input has the same page
    rw [← url.page_setQuery query fragment] at hsize ⊢
    exact canonicalizeWebUrl_of ⟨hpos hchanged, hlength⟩ hchanged hweb hinfo hhost hsize
  · intro resource hkind hlocator hcanonical hlow hhigh
    have hlabel : ¬ (resource.label.length < 1 ∨ 128 < resource.label.length) := by omega
    have hequal : ¬ (crates.urlToString url.page ≠ resource.locator ∨ crates.urlToString url.page ≠ resource.canonicalLocator) := by
      rw [hlocator, hcanonical]
      exact not_or.mpr ⟨not_not.mpr rfl, not_not.mpr rfl⟩
    have hvalid : canonicalizeWebUrl crates resource.locator = .ok (crates.urlToString url.page) := hlocator ▸ hfixed
    simp only [Resource.validate, if_neg hlabel, if_pos hkind, hvalid, if_neg hequal]

end

namespace Sample

def research (query fragment : Option String) : Url :=
  ⟨"https", "", none, some "example.com", none, "/research", query, fragment⟩

def researches : List Url :=
  [research none none, research (some "id=123") none, research none (some "section"), research (some "id=123") (some "section")]

def serialized (url : Url) : String :=
  url.scheme ++ "://" ++ url.host.getD "" ++ url.path ++ (url.query.map ("?" ++ ·)).getD "" ++ (url.fragment.map ("#" ++ ·)).getD ""

def researchInput : String := "https://Example.COM:443/research?id=123#section"

def researchCrates : Crates where
  canonicalJson _ := none
  parseDefinition _ := none
  sha256Hex _ := ""
  parseUrl input :=
    if input = researchInput then some (research (some "id=123") (some "section"))
    else researches.find? fun url => serialized url = input
  urlToString := serialized
  formatRfc3339? _ := some ""

theorem yields_research {url : Url} (h : researchCrates.Yields url) : url ∈ researches := by
  induction h with
  | @parsed input url hparse =>
    have hparse' : (if input = researchInput then some (research (some "id=123") (some "section"))
      else researches.find? fun url => serialized url = input) = some url := hparse
    split_ifs at hparse'
    · exact Option.some.inj hparse' ▸ by decide
    · exact List.mem_of_find?_eq_some hparse'
  | setQuery _ ih =>
    have hclosed : ∀ url ∈ researches, { url with query := none } ∈ researches := by decide
    exact hclosed _ ih
  | setFragment _ ih =>
    have hclosed : ∀ url ∈ researches, { url with fragment := none } ∈ researches := by decide
    exact hclosed _ ih
  | setPath _ hpath ih =>
    have hnone : ∀ url ∈ researches, url.path ≠ "" := by decide
    exact absurd hpath (hnone _ ih)
  | setPort _ ih =>
    have hclosed : ∀ url ∈ researches, { url with port := none } ∈ researches := by decide
    exact hclosed _ ih

theorem researchCrates_inverts : researchCrates.Inverts where
  empty := by decide
  reads url h _ := by
    have hreads : ∀ url ∈ researches, researchCrates.parseUrl (serialized url) = some url := by decide
    exact hreads url (yields_research h)

end Sample

open Sample in
theorem canonical_fixed_research : canonicalizeWebUrl researchCrates researchInput = .ok "https://example.com/research" ∧
    canonicalizeWebUrl researchCrates "https://example.com/research" = .ok "https://example.com/research" := by
  have haccepted : canonicalizeWebUrl researchCrates researchInput = .ok "https://example.com/research" := by rfl
  exact ⟨haccepted, (canonical_fixed researchCrates_inverts haccepted).2.2.1⟩

end Fubun
