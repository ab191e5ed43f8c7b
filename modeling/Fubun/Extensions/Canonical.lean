import Fubun.Extensions.Browser
import Fubun.Resources.WebUrl
import Fubun.Rituals.Dispatch

/-! The address of a web page. The extension and the core both cut a URL down to it, and each
bounds its length in the unit of its own language. -/

namespace Fubun

/-! ## Units of length -/

namespace Extensions

def utf16Size (c : Char) : Nat := if c.toNat < 0x10000 then 1 else 2

theorem utf16Length_eq_sum (text : String) : utf16Length text = (text.toList.map utf16Size).sum := rfl

theorem utf16Size_pos (c : Char) : 0 < utf16Size c := by
  unfold utf16Size
  split_ifs
  · exact Nat.one_pos
  · exact Nat.two_pos

theorem utf16Size_le (c : Char) : utf16Size c ≤ c.utf8Size := by
  unfold utf16Size
  split_ifs with hsmall
  · exact c.utf8Size_pos
  · have hlarge : ¬ c.val ≤ 0xffff := by
      intro hle
      exact hsmall (Nat.lt_succ_of_le (UInt32.le_iff_toNat_le.mp hle))
    have h₁ : ¬ c.val ≤ 0x7f := fun hle => hlarge (UInt32.le_trans hle (by decide))
    have h₂ : ¬ c.val ≤ 0x7ff := fun hle => hlarge (UInt32.le_trans hle (by decide))
    have hfour : c.utf8Size = 4 := by
      show (if c.val ≤ 0x7f then 1 else if c.val ≤ 0x7ff then 2 else if c.val ≤ 0xffff then 3 else 4) = 4
      rw [if_neg h₁, if_neg h₂, if_neg hlarge]
    rw [hfour]
    decide

theorem utf16Length_le_utf8ByteSize (text : String) : utf16Length text ≤ text.utf8ByteSize := by
  rw [utf16Length_eq_sum, utf8ByteSize_eq_sum]
  exact List.sum_le_sum fun c _ => utf16Size_le c

theorem utf16Length_eq_zero_iff (text : String) : utf16Length text = 0 ↔ text = "" := by
  constructor
  · intro h
    cases hl : text.toList with
    | nil => exact String.toList_eq_nil_iff.mp hl
    | cons c cs =>
      rw [utf16Length_eq_sum, hl, List.map_cons, List.sum_cons] at h
      have hpos := utf16Size_pos c
      omega
  · rintro rfl
    rfl

theorem utf16Length_ascii {text : String} (h : IsAscii text) : utf16Length text = text.length := by
  rw [utf16Length_eq_sum, sum_map_one, String.length_toList]
  intro c hc
  have hsmall : c.toNat < 0x10000 := lt_trans (h c hc) (by decide)
  rw [utf16Size, if_pos hsmall]

/-! ## Pages -/

section Canonical
variable {crates : Crates} {input canonical : String}

theorem canonicalizeWebUrl_page {url : Url} (hlen : ¬ (utf16Length input = 0 ∨ utf16Length input > 2048))
    (hparse : crates.parseUrl input = some url) :
    canonicalizeWebUrl crates input =
      if url.scheme ≠ "http" ∧ url.scheme ≠ "https" then .error "unsupported scheme"
      else if url.username ≠ "" ∨ url.password.getD "" ≠ "" then .error "userinfo is forbidden"
      else if utf16Length (crates.urlToString url.page) > 2048 ∨
        (crates.urlToString url.page).toList.any isForbiddenControl then .error "invalid URL"
      else .ok (crates.urlToString url.page) := by
  rw [canonicalizeWebUrl, if_neg hlen, hparse]
  rfl

/-- The extension: the input and the address are bounded in UTF-16 code units. -/
theorem canonicalizeWebUrl_eq_ok (hp : crates.ParsesWeb) :
    canonicalizeWebUrl crates input = .ok canonical ↔
      (0 < utf16Length input ∧ utf16Length input ≤ 2048) ∧ IsPageOf crates input canonical ∧
        canonical.length ≤ 2048 := by
  by_cases hlen : utf16Length input = 0 ∨ utf16Length input > 2048
  · have herror : ∀ canonical, canonicalizeWebUrl crates input ≠ .ok canonical := by
      intro canonical h
      rw [canonicalizeWebUrl, if_pos hlen] at h
      exact nomatch h
    exact iff_of_false (herror canonical) fun h => by omega
  have hbound : 0 < utf16Length input ∧ utf16Length input ≤ 2048 := by omega
  have hinfo_iff (url : Url) (hparse : crates.parseUrl input = some url) :
      url.hasUserInfo = false ↔ ¬ (url.username ≠ "" ∨ url.password.getD "" ≠ "") := by
    have hpassword := hp.password input url hparse
    rw [Url.hasUserInfo_iff]
    -- a parsed URL has no empty password, so that it has one exactly when the text of it is not empty
    cases hpass : url.password with
    | none => simp
    | some password =>
      have hne : password ≠ "" := fun hempty => hpassword (by rw [hpass, hempty])
      simp [hne]
  constructor
  · intro h
    cases hparse : crates.parseUrl input with
    | none =>
      rw [canonicalizeWebUrl, if_neg hlen, hparse] at h
      exact nomatch h
    | some url =>
      rw [canonicalizeWebUrl_page hlen hparse] at h
      split_ifs at h with hscheme hinfo hsize
      obtain rfl := Except.ok.inj h
      have hof : IsPageOf crates input (crates.urlToString url.page) :=
        ⟨url, hparse, Url.isWeb_iff.mpr hscheme, (hinfo_iff url hparse).mpr hinfo, rfl⟩
      -- in ASCII the units are the characters
      rw [utf16Length_ascii (hof.ascii hp)] at hsize
      exact ⟨hbound, hof, by omega⟩
  · rintro ⟨-, hof, hsize⟩
    have hascii := hof.ascii hp
    obtain ⟨url, hparse, hweb, hinfo, rfl⟩ := hof
    have hshort : ¬ (utf16Length (crates.urlToString url.page) > 2048 ∨
        (crates.urlToString url.page).toList.any isForbiddenControl) := by
      rintro (hlong | hcontrol)
      · rw [utf16Length_ascii hascii] at hlong
        omega
      · obtain ⟨c, hc, hforbidden⟩ := List.any_eq_true.mp hcontrol
        have hplain := hp.plain input url hparse hweb c hc
        simp only [isForbiddenControl, Bool.or_eq_true, decide_eq_true_eq, beq_iff_eq] at hforbidden
        omega
    rw [canonicalizeWebUrl_page hlen hparse, if_neg (Url.isWeb_iff.mp hweb), if_neg ((hinfo_iff url hparse).mp hinfo), if_neg hshort]

/-- The extension takes no more pages than the core does, but for inputs that only fit in its own unit. -/
theorem canonicalizeWebUrl_core (hp : crates.ParsesWeb) (h : canonicalizeWebUrl crates input = .ok canonical)
    (hbytes : input.utf8ByteSize ≤ 2048) : Fubun.canonicalizeWebUrl crates input = .ok canonical := by
  obtain ⟨⟨hpos, -⟩, hof, hsize⟩ := (canonicalizeWebUrl_eq_ok hp).mp h
  have hpos' := lt_of_lt_of_le hpos (utf16Length_le_utf8ByteSize input)
  exact (Fubun.canonicalizeWebUrl_eq_ok hp).mpr ⟨⟨hpos', hbytes⟩, hof, hsize⟩

theorem canonicalizeWebUrl_of_core (hp : crates.ParsesWeb)
    (h : Fubun.canonicalizeWebUrl crates input = .ok canonical) : canonicalizeWebUrl crates input = .ok canonical := by
  obtain ⟨⟨hpos, hbytes⟩, hof, hsize⟩ := (Fubun.canonicalizeWebUrl_eq_ok hp).mp h
  have hunits := le_trans (utf16Length_le_utf8ByteSize input) hbytes
  have hne : utf16Length input ≠ 0 := by
    rw [Ne, utf16Length_eq_zero_iff, ← String.utf8ByteSize_eq_zero_iff]
    exact Nat.pos_iff_ne_zero.mp hpos
  exact (canonicalizeWebUrl_eq_ok hp).mpr ⟨⟨Nat.pos_of_ne_zero hne, hunits⟩, hof, hsize⟩

theorem originPattern_read {url : Url} {host : String} (hread : crates.parseUrl canonical = some url)
    (hhost : url.host = some host) : originPattern crates canonical = .ok (url.pattern host) := by
  rw [originPattern, hread]
  dsimp only
  rw [hhost]
  rfl

end Canonical

end Extensions

/-! ## Agreement -/

section Agreement
variable {crates : Crates} {input : String}

/-- Both ends take the input for the same page, with the same hash and the same origin pattern. -/
structure SamePage (crates : Crates) (input : String) : Prop where
  canonical : (Extensions.canonicalizeWebUrl crates input).toOption = (canonicalizeWebUrl crates input).toOption
  hash : ∀ canonical, Extensions.canonicalizeWebUrl crates input = .ok canonical →
    Extensions.canonicalUrlHash crates canonical = canonicalWebUrlHash crates canonical
  pattern : ∀ canonical, Extensions.canonicalizeWebUrl crates input = .ok canonical →
    ∃ pattern, Extensions.originPattern crates canonical = .ok pattern ∧
      webOriginPattern crates canonical = .ok pattern

/-- The input fits in UTF-16 code units, but not in bytes. -/
def OutgrowsBytes (input : String) : Prop := Extensions.utf16Length input ≤ 2048 ∧ 2048 < input.utf8ByteSize

theorem toOption_eq_some {ε α : Type} {result : Except ε α} {a : α} : result.toOption = some a ↔ result = .ok a := by
  cases result with
  | error error => exact iff_of_false (nomatch ·) (nomatch ·)
  | ok b => exact ⟨fun h => by rw [Option.some.inj h], fun h => by rw [Except.ok.inj h]; rfl⟩

theorem samePage_iff (hp : crates.ParsesWeb) : SamePage crates input ↔
    (OutgrowsBytes input → ∀ canonical, IsPageOf crates input canonical → 2048 < canonical.length) := by
  constructor
  · intro h hout canonical hof
    by_contra hshort
    have hne : Extensions.utf16Length input ≠ 0 := by
      intro hzero
      obtain rfl := (Extensions.utf16Length_eq_zero_iff input).mp hzero
      exact absurd hout.2 (by decide)
    have hext : Extensions.canonicalizeWebUrl crates input = .ok canonical :=
      (Extensions.canonicalizeWebUrl_eq_ok hp).mpr ⟨⟨Nat.pos_of_ne_zero hne, hout.1⟩, hof, Nat.le_of_not_lt hshort⟩
    have hcore : canonicalizeWebUrl crates input = .ok canonical := by
      rw [← toOption_eq_some, ← h.canonical, hext]
      rfl
    have hbytes := ((canonicalizeWebUrl_eq_ok hp).mp hcore).1.2
    -- the core refuses an input of so many bytes
    exact absurd hbytes (Nat.not_le.mpr hout.2)
  · intro h
    refine ⟨?_, fun _ _ => rfl, ?_⟩
    · ext canonical
      show _ = some canonical ↔ _ = some canonical
      rw [toOption_eq_some, toOption_eq_some]
      constructor
      · intro hext
        obtain ⟨⟨-, hunits⟩, hof, hsize⟩ := (Extensions.canonicalizeWebUrl_eq_ok hp).mp hext
        apply Extensions.canonicalizeWebUrl_core hp hext
        -- an input that only the core finds too long
        by_contra hbytes
        have hlong := h ⟨hunits, Nat.lt_of_not_le hbytes⟩ canonical hof
        omega
      · exact Extensions.canonicalizeWebUrl_of_core hp
    · intro canonical hext
      have hof := ((Extensions.canonicalizeWebUrl_eq_ok hp).mp hext).2.1
      obtain ⟨url, host, hread, hhost, -⟩ := hof.reads hp
      exact ⟨url.pattern host, Extensions.originPattern_read hread hhost, webOriginPattern_read hread hhost⟩

end Agreement

/-! ## A query of accented letters -/

namespace Sample

def accented : String := "https://e.com/?q=" ++ String.ofList (List.replicate 1100 'é')

def site : String := "https://e.com/"

/-- How a URL is written that has a host and no user information. -/
def written (url : Url) : String :=
  url.scheme ++ "://" ++ url.host.getD "" ++ (url.port.map fun port => ":" ++ toString port).getD "" ++ url.path ++
    (url.query.map ("?" ++ ·)).getD "" ++ (url.fragment.map ("#" ++ ·)).getD ""

def siteUrl : Url := ⟨"https", "", none, some "e.com", none, "/", none, none⟩

/-- Letters outside ASCII are percent-encoded in the query. -/
def accentedUrl : Url := { siteUrl with query := some ("q=" ++ String.join (List.replicate 1100 "%C3%A9")) }

def webCrates : Crates :=
  { crates with
    parseUrl := fun input => if input = accented then some accentedUrl else if input = site then some siteUrl else none
    urlToString := written }

theorem parsed {input : String} {url : Url} (h : webCrates.parseUrl input = some url) :
    url = accentedUrl ∨ url = siteUrl := by
  unfold webCrates at h
  dsimp only at h
  split_ifs at h
  · exact .inl (Option.some.inj h).symm
  · exact .inr (Option.some.inj h).symm

theorem parsed_page {input : String} {url : Url} (h : webCrates.parseUrl input = some url) : url.page = siteUrl := by
  rcases parsed h with rfl | rfl <;> rfl

theorem parsed_accented {input : String} (h : input = accented) : webCrates.parseUrl input = some accentedUrl := by
  unfold webCrates
  dsimp only
  rw [if_pos h]

theorem accented_units : Extensions.utf16Length accented = 1117 := by
  have hletters : (String.ofList (List.replicate 1100 'é')).toList = List.replicate 1100 'é' := String.toList_ofList
  rw [Extensions.utf16Length_eq_sum, accented, String.toList_append, hletters, List.map_append, List.sum_append,
    List.map_replicate, List.sum_replicate]
  decide

theorem accented_bytes : accented.utf8ByteSize = 2217 := by
  rw [accented, String.utf8ByteSize_append, Encoding.utf8ByteSize_ofList (List.replicate 1100 'é'), Encoding.byteSize,
    List.map_replicate, List.sum_replicate]
  decide

theorem parsed_input {input : String} {url : Url} (h : webCrates.parseUrl input = some url) :
    input = accented ∨ input = site := by
  unfold webCrates at h
  dsimp only at h
  split_ifs at h with haccented hsite
  · exact .inl haccented
  · exact .inr hsite

theorem webCrates_parsesWeb : webCrates.ParsesWeb := by
  refine ⟨?_, ?_, ?_, ?_, ?_⟩
  · intro input h
    cases hparse : webCrates.parseUrl input with
    | none => rfl
    | some url =>
      have hplain : input ≠ "" ∧ isAbsolute input = false := by
        rcases parsed_input hparse with rfl | rfl
        · constructor
          · intro hempty
            have hbytes := accented_bytes
            rw [hempty] at hbytes
            exact nomatch hbytes
          · rw [isAbsolute, accented, String.toList_append]
            rfl
        · decide
      rcases h with h | h
      · exact absurd h hplain.1
      · exact nomatch hplain.2.symm.trans h
  · intro input url h
    rcases parsed h with rfl | rfl <;> exact (nomatch ·)
  · intro input url h _
    rcases parsed h with rfl | rfl <;> rfl
  · intro input url h _
    rw [parsed_page h]
    exact List.all_iff_forall_prop.mp (by decide)
  · intro input url h _ _
    rw [parsed_page h]
    have hne : site ≠ accented := by
      intro heq
      have hbytes := congrArg String.utf8ByteSize heq
      rw [accented_bytes] at hbytes
      exact absurd hbytes (by decide)
    show (if site = accented then some accentedUrl else if site = site then some siteUrl else none) = some siteUrl
    rw [if_neg hne, if_pos rfl]

/-- The extension observes the page, the core refuses the input as too long. -/
theorem accented_differs : webCrates.ParsesWeb ∧ ¬ SamePage webCrates accented := by
  refine ⟨webCrates_parsesWeb, fun h => ?_⟩
  have hof : IsPageOf webCrates accented site := by
    refine ⟨accentedUrl, parsed_accented rfl, rfl, rfl, ?_⟩
    rw [parsed_page (parsed_accented rfl)]
    decide
  have hunits : 0 < Extensions.utf16Length accented ∧ Extensions.utf16Length accented ≤ 2048 := by
    rw [accented_units]
    decide
  have hext : Extensions.canonicalizeWebUrl webCrates accented = .ok site :=
    (Extensions.canonicalizeWebUrl_eq_ok webCrates_parsesWeb).mpr ⟨hunits, hof, by decide⟩
  have hcore : canonicalizeWebUrl webCrates accented = .ok site := by
    rw [← toOption_eq_some, ← h.canonical, hext]
    rfl
  have hbytes := ((canonicalizeWebUrl_eq_ok webCrates_parsesWeb).mp hcore).1.2
  rw [accented_bytes] at hbytes
  exact absurd hbytes (by decide)

theorem site_same : SamePage webCrates site := by
  apply (samePage_iff webCrates_parsesWeb).mpr
  intro hout
  exact absurd hout.2 (by decide)

end Sample

end Fubun
