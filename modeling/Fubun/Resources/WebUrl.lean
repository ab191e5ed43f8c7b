import Fubun.Domain.Resource
import Fubun.Encoding.Text
import Mathlib.Algebra.Order.BigOperators.Group.List
import Mathlib.Data.Bool.AllAny
import Mathlib.Tactic.Tauto

/-! The address of a web page: what is left of a URL without what only one visit has. -/

namespace Fubun

/-! ## Lengths -/

theorem utf8ByteSize_eq_sum (text : String) : text.utf8ByteSize = (text.toList.map Char.utf8Size).sum :=
  Encoding.utf8ByteSize_eq text

/-- Characters that every encoding takes one unit for. -/
def IsAscii (text : String) : Prop := ∀ c ∈ text.toList, c.toNat < 0x7f

theorem sum_map_one {size : Char → Nat} {cs : List Char} (h : ∀ c ∈ cs, size c = 1) : (cs.map size).sum = cs.length := by
  have hsum := List.sum_eq_card_nsmul (cs.map size) 1 fun n hn => by
    obtain ⟨c, hc, rfl⟩ := List.mem_map.mp hn
    exact h c hc
  rw [hsum, List.length_map]
  exact Nat.mul_one _

theorem IsAscii.utf8ByteSize {text : String} (h : IsAscii text) : text.utf8ByteSize = text.length := by
  rw [utf8ByteSize_eq_sum, sum_map_one, String.length_toList]
  intro c hc
  apply Char.utf8Size_eq_one_iff.mpr
  exact UInt32.le_iff_toNat_le.mpr (le_of_lt (lt_of_lt_of_le (h c hc) (by decide)))

/-! ## Pages -/

namespace Url

def isWeb (url : Url) : Bool := url.scheme == "http" || url.scheme == "https"

def hasUserInfo (url : Url) : Bool := url.username != "" || url.password.isSome

/-- The page that a URL leads to, without what only one visit has: query, fragment and the port
that its scheme implies. -/
def page (url : Url) : Url :=
  let url := { url with query := none, fragment := none }
  let url := if url.path = "" then { url with path := "/" } else url
  if (url.scheme, url.port) = ("http", some 80) ∨ (url.scheme, url.port) = ("https", some 443)
  then { url with port := none } else url

section
variable (url : Url)

@[simp] theorem page_scheme : url.page.scheme = url.scheme := by
  unfold page
  dsimp only
  split_ifs <;> rfl

@[simp] theorem page_username : url.page.username = url.username := by
  unfold page
  dsimp only
  split_ifs <;> rfl

@[simp] theorem page_password : url.page.password = url.password := by
  unfold page
  dsimp only
  split_ifs <;> rfl

@[simp] theorem page_host : url.page.host = url.host := by
  unfold page
  dsimp only
  split_ifs <;> rfl

theorem page_path_ne : url.page.path ≠ "" := by
  have hslash : ("/" : String) ≠ "" := by decide
  unfold page
  dsimp only
  split_ifs with h₁ h₂ h₂
  · exact hslash
  · exact hslash
  · exact h₁
  · exact h₁

theorem page_port_kept : ¬ ((url.page.scheme, url.page.port) = ("http", some 80) ∨
    (url.page.scheme, url.page.port) = ("https", some 443)) := by
  rw [page_scheme]
  unfold page
  dsimp only
  split_ifs with h₁ h₂ h₂
  · rintro (h | h) <;> exact nomatch congrArg Prod.snd h
  · exact h₂
  · rintro (h | h) <;> exact nomatch congrArg Prod.snd h
  · exact h₂

theorem page_page : url.page.page = url.page := by
  have hbare : { url.page with query := none, fragment := none } = url.page := by
    unfold page
    dsimp only
    split_ifs <;> rfl
  rw [page, hbare, if_neg url.page_path_ne, if_neg url.page_port_kept]

@[simp] theorem isWeb_page : url.page.isWeb = url.isWeb := by
  rw [isWeb, isWeb, page_scheme]

@[simp] theorem hasUserInfo_page : url.page.hasUserInfo = url.hasUserInfo := by
  rw [hasUserInfo, hasUserInfo, page_username, page_password]

end

end Url

/-- What the parser of both ends documents of web URLs: an absent password is the empty one, there
is a host, and a page is written in ASCII without controls, as a URL that it reads back; neither the
empty text nor a path is a URL. -/
structure Crates.ParsesWeb (crates : Crates) : Prop where
  relative : ∀ input, input = "" ∨ isAbsolute input = true → crates.parseUrl input = none
  password : ∀ input url, crates.parseUrl input = some url → url.password ≠ some ""
  host : ∀ input url, crates.parseUrl input = some url → url.isWeb = true → url.host.isSome
  plain : ∀ input url, crates.parseUrl input = some url → url.isWeb = true →
    ∀ c ∈ (crates.urlToString url.page).toList, 0x1f < c.toNat ∧ c.toNat < 0x7f
  reads : ∀ input url, crates.parseUrl input = some url → url.isWeb = true → url.hasUserInfo = false →
    crates.parseUrl (crates.urlToString url.page) = some url.page

/-- The input is a URL of the web without user information, and this is the address of its page. -/
def IsPageOf (crates : Crates) (input canonical : String) : Prop :=
  ∃ url, crates.parseUrl input = some url ∧ url.isWeb = true ∧ url.hasUserInfo = false ∧
    crates.urlToString url.page = canonical

section Canonical
variable {crates : Crates} {input canonical : String}

theorem IsPageOf.ascii (h : IsPageOf crates input canonical) (hp : crates.ParsesWeb) : IsAscii canonical := by
  obtain ⟨url, hparse, hweb, -, rfl⟩ := h
  intro c hc
  exact (hp.plain input url hparse hweb c hc).2

theorem Url.isWeb_iff {url : Url} : url.isWeb = true ↔ ¬ (url.scheme ≠ "http" ∧ url.scheme ≠ "https") := by
  simp only [Url.isWeb, Bool.or_eq_true, beq_iff_eq]
  tauto

theorem Url.hasUserInfo_iff {url : Url} :
    url.hasUserInfo = false ↔ ¬ (url.username ≠ "" ∨ url.password.isSome) := by
  simp only [Url.hasUserInfo, Bool.or_eq_false_iff, bne_eq_false_iff_eq]
  simp

theorem canonicalizeWebUrl_eq_page {url : Url} (hlen : ¬ (input.utf8ByteSize = 0 ∨ input.utf8ByteSize > webUrlMaxBytes))
    (hparse : crates.parseUrl input = some url) : canonicalizeWebUrl crates input =
      if url.scheme ≠ "http" ∧ url.scheme ≠ "https" then .error .unsupportedScheme
      else if url.username ≠ "" ∨ url.password.isSome then .error .userInfo
      else if url.host.isNone then .error .missingHost
      else if (crates.urlToString url.page).utf8ByteSize > webUrlMaxBytes then .error .tooLong
      else .ok (crates.urlToString url.page) := by
  rw [canonicalizeWebUrl, if_neg hlen, hparse]
  rfl

/-- The core: the input and the address are bounded in bytes. -/
theorem canonicalizeWebUrl_eq_ok (hp : crates.ParsesWeb) : canonicalizeWebUrl crates input = .ok canonical ↔
    (0 < input.utf8ByteSize ∧ input.utf8ByteSize ≤ 2048) ∧ IsPageOf crates input canonical ∧
      canonical.length ≤ 2048 := by
  by_cases hlen : input.utf8ByteSize = 0 ∨ input.utf8ByteSize > webUrlMaxBytes
  · have herror : ∀ canonical, canonicalizeWebUrl crates input ≠ .ok canonical := by
      intro canonical h
      rw [canonicalizeWebUrl, if_pos hlen] at h
      exact nomatch h
    have hbound : ¬ (0 < input.utf8ByteSize ∧ input.utf8ByteSize ≤ 2048) := by
      unfold webUrlMaxBytes at hlen
      omega
    exact iff_of_false (herror canonical) fun h => hbound h.1
  have hbound : 0 < input.utf8ByteSize ∧ input.utf8ByteSize ≤ 2048 := by
    unfold webUrlMaxBytes at hlen
    omega
  constructor
  · intro h
    cases hparse : crates.parseUrl input with
    | none =>
      rw [canonicalizeWebUrl, if_neg hlen, hparse] at h
      exact nomatch h
    | some url =>
      rw [canonicalizeWebUrl_eq_page hlen hparse] at h
      split_ifs at h with hscheme hinfo hhost hsize
      obtain rfl := Except.ok.inj h
      have hof : IsPageOf crates input (crates.urlToString url.page) :=
        ⟨url, hparse, Url.isWeb_iff.mpr hscheme, Url.hasUserInfo_iff.mpr hinfo, rfl⟩
      rw [(hof.ascii hp).utf8ByteSize] at hsize
      exact ⟨hbound, hof, Nat.le_of_not_lt hsize⟩
  · rintro ⟨-, hof, hsize⟩
    have hascii := hof.ascii hp
    obtain ⟨url, hparse, hweb, hinfo, rfl⟩ := hof
    -- a web URL has a host
    have hhost : ¬ url.host.isNone := by
      have hsome := hp.host input url hparse hweb
      rw [Option.isSome_iff_ne_none] at hsome
      simpa using hsome
    have hshort : ¬ (crates.urlToString url.page).utf8ByteSize > webUrlMaxBytes := by
      rw [hascii.utf8ByteSize]
      exact Nat.not_lt.mpr hsize
    rw [canonicalizeWebUrl_eq_page hlen hparse, if_neg (Url.isWeb_iff.mp hweb), if_neg (Url.hasUserInfo_iff.mp hinfo), if_neg hhost,
      if_neg hshort]

/-! ## Origins -/

/-- The address of a page is read back as the page. -/
theorem IsPageOf.reads (h : IsPageOf crates input canonical) (hp : crates.ParsesWeb) :
    ∃ url host, crates.parseUrl canonical = some url ∧ url.host = some host ∧ url.isWeb = true ∧
      url.hasUserInfo = false ∧ url.page = url ∧ crates.urlToString url = canonical := by
  obtain ⟨url, hparse, hweb, hinfo, rfl⟩ := h
  have hread := hp.reads input url hparse hweb hinfo
  obtain ⟨host, hhost⟩ := Option.isSome_iff_exists.mp (hp.host input url hparse hweb)
  refine ⟨url.page, host, hread, ?_, ?_, ?_, url.page_page, rfl⟩
  · rw [Url.page_host, hhost]
  · rw [Url.isWeb_page, hweb]
  · rw [Url.hasUserInfo_page, hinfo]

theorem IsPageOf.self (h : IsPageOf crates input canonical) (hp : crates.ParsesWeb) :
    IsPageOf crates canonical canonical := by
  obtain ⟨url, host, hread, -, hweb, hinfo, hpage, hwritten⟩ := h.reads hp
  refine ⟨url, hread, hweb, hinfo, ?_⟩
  rw [hpage, hwritten]

theorem IsPageOf.ne_empty (h : IsPageOf crates input canonical) (hp : crates.ParsesWeb) : canonical ≠ "" := by
  rintro rfl
  obtain ⟨url, host, hread, -⟩ := h.reads hp
  rw [hp.relative "" (.inl rfl)] at hread
  exact nomatch hread

theorem IsPageOf.not_absolute (h : IsPageOf crates input canonical) (hp : crates.ParsesWeb) :
    isAbsolute canonical = false := by
  obtain ⟨url, host, hread, -⟩ := h.reads hp
  cases habsolute : isAbsolute canonical with
  | false => rfl
  | true =>
    rw [hp.relative canonical (.inr habsolute)] at hread
    exact nomatch hread

theorem canonicalizeWebUrl_self (hp : crates.ParsesWeb) (h : IsPageOf crates input canonical)
    (hsize : canonical.length ≤ 2048) : canonicalizeWebUrl crates canonical = .ok canonical := by
  have hbytes := (h.ascii hp).utf8ByteSize
  have hpos : 0 < canonical.utf8ByteSize :=
    Nat.pos_of_ne_zero fun hzero => h.ne_empty hp (String.utf8ByteSize_eq_zero_iff.mp hzero)
  exact (canonicalizeWebUrl_eq_ok hp).mpr ⟨⟨hpos, by omega⟩, h.self hp, hsize⟩

def Url.pattern (url : Url) (host : String) : String :=
  url.scheme ++ "://" ++ host ++ (url.port.map fun port => ":" ++ toString port).getD "" ++ "/*"

theorem webOriginPattern_read {url : Url} {host : String} (hread : crates.parseUrl canonical = some url)
    (hhost : url.host = some host) : webOriginPattern crates canonical = .ok (url.pattern host) := by
  rw [webOriginPattern, hread]
  dsimp only
  rw [hhost]
  rfl

end Canonical
end Fubun
