import OpenHost.Library.Whatwg
import OpenHost.Web.Hosts
import OpenHost.Web.Origin
import OpenHost.Web.UrlSplit

/-!
# Where a login leads

After a login the router sends the browser to the URL under `next`, if `_validated_next` lets it
pass.  The router reads that URL with `urlparse`, the browser as the URL standard says.  The two agree
on where a URL leads except for a few kinds of URLs; the URLs that `build_login_url` puts under `next`
are none of these.
-/

namespace OpenHost.Web

open Text (lower before)
open Domains (DomainRecord Domain matchDomain effectiveDomains)
open Whatwg (HostTools IsUnder)

/-! ## The checks -/

/-- `_validated_next`: `none` outside is a `ValueError`, `none` inside a URL that is turned down. -/
def validatedNext (fw : Framework) (strLower : String → String) (nextUrl : String)
    (rows : List DomainRecord) : Option (Option String) :=
  if nextUrl = "" then some none
  else
    match urlparse fw nextUrl with
    | none => none
    | some parsed =>
        if parsed.scheme = "" && parsed.netloc = [] then some (some nextUrl)
        else
          match parsed.hostname with
          | none => some none
          | some hostname =>
              -- `owns` takes the lower case of a host, which need not be Latin-1 here
              if (matchDomain rows (strLower hostname)).isSome then some (some nextUrl)
              else some none

/-- `port.isdigit()` for a text from a header. -/
def isdigit (port : List Char) : Bool :=
  port ≠ [] && port.all fun c => c.isDigit || c ∈ ['²', '³', '¹']

/-- `host_with_request_port` -/
def hostWithRequestPort (host requestNetloc : String) : String :=
  let port := (requestNetloc.toList.reverse.takeWhile (· ≠ ':')).reverse
  if ':' ∈ requestNetloc.toList && isdigit port then host ++ ":" ++ String.ofList port else host

/-- `next_url` in `build_login_url`: the URL that was asked for. -/
def requestedUrl (zone : Domain) (netloc path query : String) : String :=
  let url := zone.scheme ++ "://" ++ netloc ++ path
  if query ≠ "" then url ++ "?" ++ query else url

/-- `quote(text, safe="")` -/
def quoteText (text : String) : String := Utf8.decode (Url.quote (Utf8.encode text))

/-- `build_login_url` -/
def buildLoginUrl (zone : Domain) (netloc path query : String) : String :=
  zone.scheme ++ "://" ++ hostWithRequestPort zone.nameNoPort netloc ++ "/login?next=" ++
    quoteText (requestedUrl zone netloc path query)

/-! ## Where a browser ends up -/

/-- `str.lower` on all of Unicode, and what it has in common with IDNA. -/
structure Lowering (tools : HostTools) where
  lower : String → String
  /-- Nothing else happens on Latin-1. -/
  latin : ∀ s, (∀ c ∈ s.toList, c.toNat < 256) → lower s = Text.lower s
  lower_latin : ∀ s, lower (Text.lower s) = lower s
  latin_lower : ∀ s, Text.lower (lower s) = lower s
  noColon : ∀ s, ':' ∉ s.toList → ':' ∉ (lower s).toList
  /-- IDNA takes the lower case, too, and leaves labels that are already host names as they are. -/
  toAscii_under : ∀ n s y, Whatwg.isHostName n = true → IsUnder n (lower s) →
    tools.toAscii s = some y → IsUnder n y

/-- The host is a configured domain or below one. -/
def OnConfigured (rows : List DomainRecord) (host : String) : Prop :=
  ∃ d ∈ effectiveDomains rows, d.nameNoPort ≠ "" ∧ IsUnder d.nameNoPort (lower host)

/-- The origin of the dashboard, which is served on the configured domains only. -/
structure Dashboard (rows : List DomainRecord) where
  tls : Bool
  host : String
  home : OnConfigured rows host

variable {rows : List DomainRecord}

/-- The scheme of the dashboard. -/
def Dashboard.scheme (dash : Dashboard rows) : String := if dash.tls then "https" else "http"

/-- A browser on the dashboard that follows the URL stays on the configured domains; it goes nowhere
with a URL that it cannot use. -/
def Stays (tools : HostTools) (dash : Dashboard rows) (url : String) : Prop :=
  ∀ host ∈ Whatwg.resolve tools dash.scheme dash.host url, ∃ h ∈ host, OnConfigured rows h

/-- A request on a host of a configured domain, with a port or without one. -/
structure SiteRequest (fw : Framework) (rows : List DomainRecord) where
  netloc : String
  path : String
  query : String
  zone : Domain
  arrived : matchDomain rows netloc = some zone
  latin : ∀ c ∈ netloc.toList, c.toNat < 256
  chars : ∀ c ∈ netloc.toList, endsNetloc c = false ∧ c ∉ ['@', '[', ']', '%', '\t', '\r', '\n']
  normal : netloc.toList.all (· ≤ '\x7f') = true ∨ fw.nfkcKeeps netloc = true
  rooted : path = "" ∨ path.toList.head? = some '/'

/-- The URL that the request leaves under `next` comes back as it was and is let through. -/
def ComesBack (fw : Framework) (strLower : String → String) (r : SiteRequest fw rows) : Prop :=
  ∃ front quoted, buildLoginUrl r.zone r.netloc r.path r.query = front ++ "/login?next=" ++ quoted ∧
    Utf8.decode (Url.unquote (Utf8.encode quoted)) = requestedUrl r.zone r.netloc r.path r.query ∧
    validatedNext fw strLower (requestedUrl r.zone r.netloc r.path r.query) rows =
      some (some (requestedUrl r.zone r.netloc r.path r.query))

/-! ## Two parsers, one URL -/

theorem isAsciiAlpha_eq (c : Char) : isAsciiAlpha c = c.isAlpha := by
  have hval : c.val.toNat = c.toNat := rfl
  have halpha : c.isAlpha = (decide (c.val ≥ 'A'.val ∧ c.val ≤ 'Z'.val) ||
      (decide (c.val ≥ 'a'.val) && decide (c.val ≤ 'z'.val))) := rfl
  rw [Bool.eq_iff_iff, halpha]
  simp only [isAsciiAlpha, Bool.or_eq_true,
    Bool.and_eq_true, decide_eq_true_eq, Text.le_iff_toNat, UInt32.le_iff_toNat_le, ge_iff_le, hval,
    Char.reduceToNat]
  simp
  omega

theorem isSchemeChar_eq (c : Char) : isSchemeChar c = Whatwg.isSchemeChar c := by
  have halpha := isAsciiAlpha_eq c
  simp only [isAsciiAlpha] at halpha
  have hdigit : (decide ('0' ≤ c) && decide (c ≤ '9')) = c.isDigit := rfl
  simp only [isSchemeChar, Whatwg.isSchemeChar, Char.isAlphanum, ← halpha, ← hdigit, Bool.or_assoc]

/-- `urlsplit` and the URL standard find the same scheme. -/
theorem scheme?_eq (url : List Char) :
    Whatwg.scheme? url = if hasScheme url then some (urlScheme url, dropScheme url) else none := by
  have halpha : isAsciiAlpha = Char.isAlpha := funext isAsciiAlpha_eq
  have hchars : isSchemeChar = Whatwg.isSchemeChar := funext isSchemeChar_eq
  by_cases h : hasScheme url = true
  · rw [if_pos h, urlScheme, if_pos h]
    simp only [hasScheme, halpha, hchars] at h
    simp only [Whatwg.scheme?, dropScheme, halpha, hchars, h, if_true]
  · rw [if_neg h]
    simp only [hasScheme, halpha, hchars] at h
    simp only [Whatwg.scheme?, if_neg h]

theorem urlScheme_ne_empty {url : List Char} (h : hasScheme url = true) : urlScheme url ≠ "" := by
  rw [urlScheme, if_pos h]
  intro hempty
  have hlist := congrArg String.toList hempty
  simp only [Text.toList_lower, String.toList_ofList, String.toList_empty, List.map_eq_nil_iff]
    at hlist
  simp only [hasScheme, hlist, List.head?_nil, Option.any_none, Bool.and_false, Bool.false_and] at h
  cases h

/-- `urlparse` leaves the blanks at the end that a browser takes away. -/
theorem exists_cleanUrl_eq (url : String) :
    ∃ blank, cleanUrl url.toList = Whatwg.trim url.toList ++ blank ∧ ∀ c ∈ blank, c ≤ ' ' :=
  Whatwg.exists_trim_append url.toList

theorem parts_of_urlparse {fw : Framework} {url : String} {p : ParseResult}
    (h : urlparse fw url = some p) : p.scheme = urlScheme (cleanUrl url.toList) ∧
      p.netloc = splitNetloc (dropScheme (cleanUrl url.toList)) := by
  simp only [urlparse] at h
  split at h
  · rw [← Option.some.inj h]
    exact ⟨rfl, rfl⟩
  · cases h

/-- The scheme and the network location that `urlparse` finds, in terms of the URL as a browser
trims it. -/
theorem parsed_of_urlparse {fw : Framework} {url : String} {p : ParseResult}
    (h : urlparse fw url = some p) : ∃ blank, (∀ c ∈ blank, c ≤ ' ') ∧
      (p.scheme = "" ∧ Whatwg.scheme? (Whatwg.trim url.toList) = none ∧
          p.netloc = splitNetloc (Whatwg.trim url.toList ++ blank) ∨
        ∃ rest, p.scheme ≠ "" ∧
          Whatwg.scheme? (Whatwg.trim url.toList) = some (p.scheme, rest) ∧
          p.netloc = splitNetloc (rest ++ blank)) := by
  obtain ⟨blank, hclean, hblank⟩ := exists_cleanUrl_eq url
  have hscheme := scheme?_eq (cleanUrl url.toList)
  obtain ⟨hscheme', hnetloc'⟩ := parts_of_urlparse h
  refine ⟨blank, hblank, ?_⟩
  rw [hscheme', hnetloc']
  rw [hclean] at hscheme ⊢
  rw [Whatwg.scheme?_append_blank _ hblank] at hscheme
  by_cases hhas : hasScheme (Whatwg.trim url.toList ++ blank) = true
  · right
    rw [if_pos hhas] at hscheme
    obtain ⟨⟨scheme, rest⟩, hfound, hpair⟩ := Option.map_eq_some_iff.mp hscheme
    obtain ⟨hname, hrest⟩ := Prod.mk.inj hpair
    refine ⟨rest, urlScheme_ne_empty hhas, ?_, ?_⟩
    · rw [hfound, ← hname]
    · rw [← hrest]
  · left
    rw [if_neg hhas, Option.map_eq_none_iff] at hscheme
    refine ⟨?_, hscheme, ?_⟩
    · rw [urlScheme, if_neg hhas]
    · rw [dropScheme]
      exact congrArg splitNetloc (if_neg hhas)

/-! ## URLs that are read alike -/

/-- The network location has only visible characters, and no delimiter that one parser knows and the
other does not; under a scheme of its own kind it is ASCII, too. -/
structure Regular (p : ParseResult) : Prop where
  chars : ∀ c ∈ p.netloc, '!' ≤ c ∧ c ≠ '\\' ∧ c ≠ '[' ∧ c ≠ '%'
  scheme : p.scheme ∈ "" :: Whatwg.specialSchemes ∨
    p.scheme ≠ "file" ∧ ∀ c ∈ p.netloc, c ≤ '~'

theorem exists_of_splitNetloc_ne_nil {url : List Char} (h : splitNetloc url ≠ []) :
    ∃ rest, url = '/' :: '/' :: rest ∧ splitNetloc url = rest.takeWhile (!endsNetloc ·) := by
  unfold splitNetloc at h ⊢
  split
  · exact ⟨_, rfl, rfl⟩
  · rename_i hne
    split at h
    · rename_i rest
      exact absurd rfl (hne rest)
    · exact absurd rfl h

/-- The two slashes in front of a network location are none of the blanks. -/
theorem slashes_of_append_blank {rest blank m : List Char} (h : ∀ c ∈ blank, c ≤ ' ')
    (heq : rest ++ blank = '/' :: '/' :: m) : ∃ n, rest = '/' :: '/' :: n ∧ m = n ++ blank := by
  have hslash : '/' ∉ blank := fun hmem => Whatwg.ne_of_blank (h _ hmem) (by decide) rfl
  match rest with
  | [] =>
    rw [List.nil_append] at heq
    exact absurd (heq ▸ List.mem_cons_self) hslash
  | [a] =>
    have htail : blank = '/' :: m := (List.cons.inj heq).2
    exact absurd (htail ▸ List.mem_cons_self) hslash
  | a :: b :: n =>
    obtain ⟨ha, htail⟩ := List.cons.inj heq
    obtain ⟨hb, hm⟩ := List.cons.inj htail
    exact ⟨n, by rw [ha, hb], hm.symm⟩

theorem endsAuthority_false : Whatwg.endsAuthority false = endsNetloc := by
  funext c
  simp [Whatwg.endsAuthority, endsNetloc]

/-- Without a backslash in it, an authority ends where the network location does. -/
theorem authorityText_eq_takeWhile {n : List Char}
    (h : ∀ c ∈ n.takeWhile (!endsNetloc ·), c ≠ '\\') (special : Bool) :
    Whatwg.authorityText special n = n.takeWhile (!endsNetloc ·) := by
  cases special with
  | false => rw [Whatwg.authorityText, endsAuthority_false]
  | true =>
    have hpred : (fun c => !Whatwg.endsAuthority true c) =
        fun c => decide (decide (c ≠ '\\') = true ∧ (!endsNetloc c) = true) := by
      funext c
      simp [Whatwg.endsAuthority, endsNetloc, Bool.and_comm]
    rw [Whatwg.authorityText, hpred, ← List.takeWhile_takeWhile, List.takeWhile_eq_self_iff]
    intro c hc
    simpa using h c hc

/-- A visible network location without a backslash ends at the same place for both. -/
theorem authorityText_eq {n blank : List Char} (hblank : ∀ c ∈ blank, c ≤ ' ')
    (hchars : ∀ c ∈ (n ++ blank).takeWhile (!endsNetloc ·), '!' ≤ c ∧ c ≠ '\\') (special : Bool) :
    Whatwg.authorityText special n = (n ++ blank).takeWhile (!endsNetloc ·) := by
  have hpass : ∀ c ∈ blank, (!endsNetloc c) = true := fun c hc => by
    simp [endsNetloc, Whatwg.ne_of_blank (hblank c hc) (d := '/') (by decide),
      Whatwg.ne_of_blank (hblank c hc) (d := '?') (by decide),
      Whatwg.ne_of_blank (hblank c hc) (d := '#') (by decide)]
  have hsame : (n ++ blank).takeWhile (!endsNetloc ·) = n.takeWhile (!endsNetloc ·) := by
    have htake := Whatwg.takeWhile_append_blank hpass n
    split at htake
    · rename_i hlen
      -- the whole text is visible, so there are no blanks
      have hnil : blank = [] := by
        apply List.eq_nil_iff_forall_not_mem.mpr
        intro c hc
        have hvisible := (hchars c (by rw [htake]; exact List.mem_append_right n hc)).1
        exact absurd (Char.le_trans hvisible (hblank c hc)) (by decide)
      rw [hnil, List.append_nil]
    · exact htake
  rw [hsame]
  apply authorityText_eq_takeWhile
  intro c hc
  rw [← hsame] at hc
  exact (hchars c hc).2

/-- Both parsers look for the host of a regular URL in the same text. -/
theorem authority_of_regular {fw : Framework} {url : String} {p : ParseResult}
    (h : urlparse fw url = some p) (hregular : Regular p) (hnetloc : p.netloc ≠ [])
    (base : String) :
    Whatwg.authority base (Whatwg.trim url.toList) =
      if p.scheme ∈ "" :: Whatwg.specialSchemes then .special p.netloc else .plain p.netloc := by
  obtain ⟨blank, hblank, hparts⟩ := parsed_of_urlparse h
  have hchars : ∀ c ∈ p.netloc, '!' ≤ c ∧ c ≠ '\\' := fun c hc =>
    ⟨(hregular.chars c hc).1, (hregular.chars c hc).2.1⟩
  -- the text behind the slashes, in which both look
  have hbehind : ∀ rest, p.netloc = splitNetloc (rest ++ blank) → ∃ n, rest = '/' :: '/' :: n ∧
      (∀ special, Whatwg.authorityText special n = p.netloc) ∧
      Whatwg.ignoreSlashes rest = .special p.netloc := by
    intro rest heq
    rw [heq] at hnetloc
    obtain ⟨m, hslashes, hsplit⟩ := exists_of_splitNetloc_ne_nil hnetloc
    obtain ⟨n, hrest, hm⟩ := slashes_of_append_blank hblank hslashes
    rw [hm, ← heq] at hsplit
    have htext : ∀ special, Whatwg.authorityText special n = p.netloc := fun special => by
      rw [hsplit] at hchars ⊢
      exact authorityText_eq hblank hchars special
    refine ⟨n, hrest, htext, ?_⟩
    -- no third slash, for the text is not empty
    have hdrop : rest.dropWhile Whatwg.isSlash = n := by
      rw [hrest]
      cases n with
      | nil => rfl
      | cons c n =>
        have hc : Whatwg.isSlash c = false := by
          by_contra hslash
          apply hnetloc
          rw [← heq, ← htext true, Whatwg.authorityText]
          apply List.takeWhile_cons_of_neg
          simp only [Whatwg.isSlash, Bool.or_eq_true, decide_eq_true_eq, Bool.not_eq_false]
            at hslash
          rcases hslash with rfl | rfl <;> decide
        have hfirst : Whatwg.isSlash '/' = true := by decide
        simp [hfirst, hc]
    rw [Whatwg.ignoreSlashes, hdrop, htext]
  rcases hparts with ⟨hscheme, hfound, heq⟩ | ⟨rest, hscheme, hfound, heq⟩
  · obtain ⟨n, hrest, -, hignore⟩ := hbehind _ heq
    rw [Whatwg.authority, hfound, hscheme, if_pos (List.mem_cons_self), Whatwg.relative, hignore,
      hrest]
    rfl
  · obtain ⟨n, hrest, htext, hignore⟩ := hbehind _ heq
    have hfile : p.scheme ≠ "file" := by
      rcases hregular.scheme with hmem | hother
      · rintro hfile
        rw [hfile] at hmem
        exact absurd hmem (by decide)
      · exact hother.1
    have htake : rest.take 2 = ['/', '/'] := by rw [hrest]; rfl
    have hcons : p.scheme ∈ "" :: Whatwg.specialSchemes ↔ p.scheme ∈ Whatwg.specialSchemes := by
      simp [hscheme]
    simp only [Whatwg.authority, hfound, if_neg hfile, htake, hcons, hignore]
    split
    · simp
    · rw [hrest]
      simp [htext]

/-! ## The host of a regular URL -/

/-- The hostname that `urlparse` finds in a regular URL; a browser takes the host from the same
text. -/
theorem hostname_of_regular {p : ParseResult} {hostname : String} (hregular : Regular p)
    (h : p.hostname = some hostname) :
    ∃ text, hostname = lower (String.ofList text) ∧ (∀ c ∈ text, c ∈ p.netloc ∧ c ≠ ':') ∧
      (Whatwg.hostAndPort false (Whatwg.afterUserinfo p.netloc)).1 = text := by
  have hinfo : ∀ c ∈ hostInfo p.netloc, c ∈ p.netloc := fun c hc =>
    List.mem_reverse.mp ((List.takeWhile_prefix _).subset (List.mem_reverse.mp hc))
  have hopen : '[' ∉ hostInfo p.netloc := fun hc =>
    (hregular.chars _ (hinfo _ hc)).2.2.1 rfl
  have htext : ∀ c ∈ (hostInfo p.netloc).takeWhile (· ≠ ':'), c ∈ p.netloc := fun c hc =>
    hinfo c ((List.takeWhile_prefix _).subset hc)
  refine ⟨(hostInfo p.netloc).takeWhile (· ≠ ':'), ?_, fun c hc => ⟨htext c hc, ?_⟩,
    Whatwg.hostAndPort_fst hopen⟩
  case refine_2 => simpa using List.mem_takeWhile_imp hc
  have hpercent : ∀ c ∈ (hostInfo p.netloc).takeWhile (· ≠ ':'), decide (c ≠ '%') = true := by
    intro c hc
    simpa using (hregular.chars c (htext c hc)).2.2.2
  have hhost : (hostAndPort p.netloc).1 = (hostInfo p.netloc).takeWhile (· ≠ ':') := by
    simp only [hostAndPort, if_neg hopen]
  rw [ParseResult.hostname, hhost] at h
  split at h
  · cases h
  · rw [← Option.some.inj h, hostnameLower, List.takeWhile_eq_self_iff.mpr hpercent,
      List.dropWhile_eq_nil_iff.mpr hpercent, String.ofList_nil, String.append_empty]

/-- The domain that `Domain.match` finds for a host in lower case. -/
theorem isUnder_of_matchDomain {tools : HostTools} (u : Lowering tools) {s : String} {d : Domain}
    (hcolon : ':' ∉ s.toList) (h : matchDomain rows (u.lower (lower s)) = some d) :
    d ∈ effectiveDomains rows ∧ d.nameNoPort ≠ "" ∧ IsUnder d.nameNoPort (u.lower s) := by
  have hspec := Domains.mostSpecific_of_matchDomain h
  obtain ⟨hne, hunder⟩ := owns_iff.mp hspec.owns
  have hhost : Domain.hostNoPort (u.lower s) = u.lower s := by
    rw [Domain.hostNoPort, before_of_no_colon (u.noColon s hcolon), u.latin_lower]
  rw [u.lower_latin, hhost] at hunder
  exact ⟨hspec.mem, hne, hunder⟩

/-- A browser finds a host of the same domain in a regular URL. -/
theorem onConfigured_of_regular {tools : HostTools} (u : Lowering tools) {p : ParseResult}
    {hostname host : String} {d : Domain} (hregular : Regular p)
    (hname : p.hostname = some hostname)
    (hmatch : matchDomain rows (u.lower hostname) = some d)
    (hd : Whatwg.isHostName d.nameNoPort = true) {special : Bool}
    (hspecial : special = false → ∀ c ∈ p.netloc, c ≤ '~')
    (h : Whatwg.hostIn tools special p.netloc = some host) : OnConfigured rows host := by
  obtain ⟨text, rfl, htext, hfirst⟩ := hostname_of_regular hregular hname
  have hcolon : ':' ∉ (String.ofList text).toList := by
    rw [String.toList_ofList]
    exact fun hmem => (htext _ hmem).2 rfl
  have hopen : '[' ∉ text := fun hmem => (hregular.chars _ (htext _ hmem).1).2.2.1 rfl
  obtain ⟨hmem, hne, hunder⟩ := isUnder_of_matchDomain u hcolon hmatch
  have hparse := Whatwg.parseHost_of_hostIn h
  rw [hfirst] at hparse
  refine ⟨d, hmem, hne, ?_⟩
  cases special with
  | true =>
    have hpercent : '%' ∉ text := fun hmem => (hregular.chars _ (htext _ hmem).1).2.2.2 rfl
    obtain ⟨name, hascii, hhost⟩ := Whatwg.toAscii_of_parseHost hparse hopen hpercent
    have hname := u.toAscii_under _ _ _ hd hunder hascii
    have hletter := (Bool.and_eq_true_iff.mp hd).2
    rw [← Whatwg.lastLabel_of_isUnder hname] at hletter
    rw [hhost (Whatwg.not_endsInNumber hletter)]
    exact hname.lowered hd
  | false =>
    have hvisible : ∀ c ∈ text, '!' ≤ c ∧ c ≤ '~' := fun c hc =>
      ⟨(hregular.chars c (htext c hc).1).1, hspecial rfl c (htext c hc).1⟩
    rw [Whatwg.eq_of_parseHost_plain hparse hopen hvisible]
    rwa [u.latin] at hunder
    intro c hc
    rw [String.toList_ofList] at hc
    have hlast := Text.le_iff_toNat.mp (hvisible c hc).2
    have htilde : '~'.toNat = 126 := rfl
    omega

/-! ## The URLs that are let through -/

/-- What `_validated_next` lets through. -/
theorem validatedNext_eq_some_iff {fw : Framework} {strLower : String → String}
    {next url : String} :
    validatedNext fw strLower next rows = some (some url) ↔ url = next ∧ next ≠ "" ∧
      ∃ p, urlparse fw next = some p ∧ (p.scheme = "" ∧ p.netloc = [] ∨
        ∃ hostname, p.hostname = some hostname ∧
          (matchDomain rows (strLower hostname)).isSome = true) := by
  by_cases hempty : next = ""
  · simp [validatedNext, hempty]
  rw [validatedNext, if_neg hempty]
  cases hp : urlparse fw next with
  | none => simp
  | some p =>
    by_cases hpath : p.scheme = "" ∧ p.netloc = []
    · have hcond : (decide (p.scheme = "") && decide (p.netloc = [])) = true := by simp [hpath]
      simp only [hcond, if_true, Option.some.injEq]
      constructor
      · intro heq
        exact ⟨heq.symm, hempty, p, rfl, Or.inl hpath⟩
      · intro hall
        exact hall.1.symm
    · have hcond : (decide (p.scheme = "") && decide (p.netloc = [])) = false := by
        simpa using hpath
      simp only [hcond, Bool.false_eq_true, if_false, Option.some.injEq]
      cases hname : p.hostname with
      | none => simp [hpath, hname]
      | some hostname =>
        by_cases hmatch : (matchDomain rows (strLower hostname)).isSome = true
        · simp only [hmatch, if_true, Option.some.injEq]
          constructor
          · intro heq
            exact ⟨heq.symm, hempty, p, rfl, Or.inr ⟨hostname, hname, hmatch⟩⟩
          · intro hall
            exact hall.1.symm
        · simp [hmatch, hname, hpath]

/-- A URL that `urlparse` takes for a path leaves the dashboard's host only behind two slashes. -/
theorem authority_of_path {fw : Framework} {url : String} {p : ParseResult}
    (h : urlparse fw url = some p) (hscheme : p.scheme = "") (base : String) :
    Whatwg.authority base (Whatwg.trim url.toList) = Whatwg.relative (Whatwg.trim url.toList) := by
  obtain ⟨blank, -, ⟨-, hfound, -⟩ | ⟨rest, hne, -⟩⟩ := parsed_of_urlparse h
  · rw [Whatwg.authority, hfound]
  · exact absurd hscheme hne

theorem netloc_ne_nil {p : ParseResult} {hostname : String} (h : p.hostname = some hostname) :
    p.netloc ≠ [] := by
  intro hnil
  have hhost : (hostAndPort p.netloc).1 = [] := by rw [hnil]; rfl
  rw [ParseResult.hostname, hhost] at h
  cases h

/-- The browser ends up on a configured domain, or with a URL that cannot be used. -/
def LeadsHome (tools : HostTools) (dash : Dashboard rows) (authority : Whatwg.Authority) : Prop :=
  ∀ host ∈ Whatwg.hostOf tools dash.host authority, ∃ h ∈ host, OnConfigured rows h

/-- Where the two parsers may differ on a URL, the browser is led home nevertheless. -/
structure ReadAlike (fw : Framework) (tools : HostTools) (strLower : String → String)
    (dash : Dashboard rows) (next : String) : Prop where
  /-- Two slashes begin a URL that `urlparse` takes for a path. -/
  path : ∀ p, urlparse fw next = some p → p.scheme = "" → p.netloc = [] →
    Whatwg.twoSlashes (Whatwg.trim next.toList) = true →
      LeadsHome tools dash (Whatwg.ignoreSlashes (Whatwg.trim next.toList))
  /-- The network location with the hostname of a configured domain is not a regular one. -/
  site : ∀ p hostname d, urlparse fw next = some p → p.hostname = some hostname →
    matchDomain rows (strLower hostname) = some d →
    ¬ (Regular p ∧ Whatwg.isHostName d.nameNoPort = true) →
      LeadsHome tools dash (Whatwg.authority dash.scheme (Whatwg.trim next.toList))

/-- A browser is led home by a regular URL with the hostname of a configured domain. -/
theorem leadsHome_of_regular {fw : Framework} {tools : HostTools} (u : Lowering tools)
    (dash : Dashboard rows) {next hostname : String} {p : ParseResult} {d : Domain}
    (h : urlparse fw next = some p) (hname : p.hostname = some hostname)
    (hmatch : matchDomain rows (u.lower hostname) = some d) (hregular : Regular p)
    (hd : Whatwg.isHostName d.nameNoPort = true) :
    LeadsHome tools dash (Whatwg.authority dash.scheme (Whatwg.trim next.toList)) := by
  rw [authority_of_regular h hregular (netloc_ne_nil hname)]
  split
  · intro host hhost
    obtain ⟨found, hfound, rfl⟩ := Option.map_eq_some_iff.mp hhost
    refine ⟨found, rfl, ?_⟩
    exact onConfigured_of_regular u hregular hname hmatch hd (fun hspecial => by cases hspecial)
      hfound
  · rename_i hscheme
    intro host hhost
    obtain ⟨found, hfound, rfl⟩ := Option.map_eq_some_iff.mp hhost
    refine ⟨found, rfl, ?_⟩
    have hascii := (hregular.scheme.resolve_left hscheme).2
    exact onConfigured_of_regular u hregular hname hmatch hd (fun _ => hascii) hfound

/-- A browser stays at home with every URL that is let through just where the parsers read it
alike. -/
theorem stays_iff {fw : Framework} {tools : HostTools} (u : Lowering tools) (dash : Dashboard rows)
    (next : String) :
    (∀ url, validatedNext fw u.lower next rows = some (some url) → Stays tools dash url) ↔
      ReadAlike fw tools u.lower dash next := by
  constructor
  · intro h
    refine ⟨?_, ?_⟩
    · intro p hp hscheme hnetloc hslashes
      have hne : next ≠ "" := by
        rintro rfl
        exact absurd hslashes (by decide)
      have hstays := h next (validatedNext_eq_some_iff.mpr
        ⟨rfl, hne, p, hp, Or.inl ⟨hscheme, hnetloc⟩⟩)
      rw [Stays, Whatwg.resolve, authority_of_path hp hscheme, Whatwg.relative, if_pos hslashes]
        at hstays
      exact hstays
    · intro p hostname d hp hname hmatch _
      have hne : next ≠ "" := by
        rintro rfl
        -- nothing is found in an empty text
        exact netloc_ne_nil hname (parts_of_urlparse hp).2
      exact h next (validatedNext_eq_some_iff.mpr
        ⟨rfl, hne, p, hp, Or.inr ⟨hostname, hname, by rw [hmatch]; rfl⟩⟩)
  · intro h url haccept
    obtain ⟨rfl, -, p, hp, ⟨hscheme, hnetloc⟩ | ⟨hostname, hname, hsome⟩⟩ :=
      validatedNext_eq_some_iff.mp haccept
    · rw [Stays, Whatwg.resolve, authority_of_path hp hscheme, Whatwg.relative]
      split
      · rename_i hslashes
        exact h.path p hp hscheme hnetloc hslashes
      · -- the path is below the dashboard's own host
        intro host hhost
        exact ⟨dash.host, (Option.some.inj hhost).symm ▸ rfl, dash.home⟩
    · obtain ⟨d, hmatch⟩ := Option.isSome_iff_exists.mp hsome
      by_cases hregular : Regular p ∧ Whatwg.isHostName d.nameNoPort = true
      · exact leadsHome_of_regular u dash hp hname hmatch hregular.1 hregular.2
      · exact h.site p hostname d hp hname hmatch hregular

/-! ## The URLs under `next` -/

theorem quoteText_read (text : String) :
    Utf8.decode (Url.unquote (Utf8.encode (quoteText text))) = text := by
  rw [quoteText, Utf8.encode_decode_of_ascii fun _ hb => Url.ascii_of_mem_quote hb,
    Url.unquote_quote, Utf8.decode_encode]

/-- The characters that `urlsplit` removes everywhere. -/
def isRemoved (c : Char) : Bool := c = '\t' || c = '\r' || c = '\n'

/-- Behind a first character that is no blank, only the tabs and line breaks go. -/
theorem cleanUrl_cons {c : Char} (h : ' ' < c) (url : List Char) :
    cleanUrl (c :: url) = c :: url.filter (!isRemoved ·) := by
  have hdrop : (c :: url).dropWhile (· ≤ ' ') = c :: url :=
    List.dropWhile_cons_of_neg (by simpa using h)
  have hpred : (fun c => decide (c ≠ '\t') && decide (c ≠ '\r') && decide (c ≠ '\n')) =
      fun c => !isRemoved c := by
    funext c
    simp [isRemoved]
  have hkeep : (!isRemoved c) = true := by
    by_contra hremoved
    simp only [isRemoved, Bool.not_eq_true', Bool.not_eq_false, Bool.or_eq_true,
      decide_eq_true_eq] at hremoved
    rcases hremoved with (rfl | rfl) | rfl <;> exact absurd h (by decide)
  rw [cleanUrl, hdrop, hpred]
  exact List.filter_cons_of_pos hkeep

/-- What follows the network location in the URL that was asked for. -/
def afterHost (path query : String) : List Char :=
  path.toList ++ if query ≠ "" then '?' :: query.toList else []

theorem toList_requestedUrl (zone : Domain) (netloc path query : String) :
    (requestedUrl zone netloc path query).toList =
      zone.scheme.toList ++ ':' :: '/' :: '/' :: (netloc.toList ++ afterHost path query) := by
  rw [requestedUrl, afterHost]
  split <;> simp

/-- The network location ends where the path or the query begins. -/
theorem takeWhile_afterHost {path query : String}
    (h : path = "" ∨ path.toList.head? = some '/') :
    ((afterHost path query).filter (!isRemoved ·)).takeWhile (!endsNetloc ·) = [] := by
  rcases h with rfl | hhead
  · by_cases hquery : query = ""
    · simp [afterHost, hquery]
    · simp [afterHost, hquery, isRemoved, endsNetloc]
  · cases hpath : path.toList with
    | nil => simp [hpath] at hhead
    | cons c cs =>
      have hc : c = '/' := by simpa [hpath] using hhead
      simp [afterHost, hpath, hc, isRemoved, endsNetloc]

/-- `urlparse` cuts the URL that was asked for behind its network location. -/
theorem splitNetloc_requestedUrl {fw : Framework} (r : SiteRequest fw rows) :
    splitNetloc (dropScheme (cleanUrl
      (requestedUrl r.zone r.netloc r.path r.query).toList)) = r.netloc.toList := by
  obtain ⟨cs, hscheme, halpha, hchars, hkeep⟩ : ∃ cs, r.zone.scheme.toList = 'h' :: cs ∧
      ('h' :: cs).head?.any isAsciiAlpha = true ∧ ('h' :: cs).all isSchemeChar = true ∧
      cs.filter (!isRemoved ·) = cs := by
    cases htls : r.zone.tls with
    | true =>
      refine ⟨['t', 't', 'p', 's'], ?_, by decide, by decide, by decide⟩
      rw [Domain.scheme, htls]
      rfl
    | false =>
      refine ⟨['t', 't', 'p'], ?_, by decide, by decide, by decide⟩
      rw [Domain.scheme, htls]
      rfl
  have hnetloc : r.netloc.toList.filter (!isRemoved ·) = r.netloc.toList := by
    apply List.filter_eq_self.mpr
    intro c hc
    have hnot := (r.chars c hc).2
    simp only [List.mem_cons, not_or] at hnot
    simp [isRemoved, hnot]
  have hends : ∀ c ∈ r.netloc.toList, (!endsNetloc c) = true := fun c hc => by
    simp [(r.chars c hc).1]
  have hclean : cleanUrl (requestedUrl r.zone r.netloc r.path r.query).toList =
      ('h' :: cs) ++ ':' :: '/' :: '/' ::
        (r.netloc.toList ++ (afterHost r.path r.query).filter (!isRemoved ·)) := by
    rw [toList_requestedUrl, hscheme, List.cons_append, cleanUrl_cons (by decide),
      List.filter_append, hkeep]
    have hfirst : ∀ rest : List Char, (':' :: '/' :: '/' :: rest).filter (!isRemoved ·) =
        ':' :: '/' :: '/' :: rest.filter (!isRemoved ·) := fun rest => by
      simp [isRemoved]
    rw [hfirst, List.filter_append, hnetloc, List.cons_append]
  rw [hclean, dropScheme_append halpha hchars]
  show (r.netloc.toList ++ _).takeWhile (!endsNetloc ·) = _
  rw [List.takeWhile_append_of_pos hends, takeWhile_afterHost r.rooted, List.append_nil]

/-- `urlparse` finds the host of the request in the URL that was asked for. -/
theorem urlparse_requestedUrl {fw : Framework} (r : SiteRequest fw rows) :
    ∃ p, urlparse fw (requestedUrl r.zone r.netloc r.path r.query) = some p ∧
      p.hostname = some (lower (before ':' r.netloc)) := by
  have hnot : ∀ d ∈ ['@', '[', ']', '%'], d ∉ r.netloc.toList := by
    intro d hd hmem
    apply (r.chars d hmem).2
    simp only [List.mem_cons, List.not_mem_nil, or_false] at hd ⊢
    rcases hd with rfl | rfl | rfl | rfl <;> simp
  have hok : netlocOk fw r.netloc.toList = true := by
    have hopen := hnot '[' (by simp)
    have hclose := hnot ']' (by simp)
    simp only [netlocOk, hopen, hclose, String.ofList_toList]
    simpa using r.normal
  have hinfo : hostInfo r.netloc.toList = r.netloc.toList :=
    hostInfo_eq_self fun c hc => fun heq => hnot '@' (by simp) (heq ▸ hc)
  have hhost : (hostAndPort r.netloc.toList).1 = r.netloc.toList.takeWhile (· ≠ ':') := by
    simp only [hostAndPort, hinfo, if_neg (hnot '[' (by simp))]
  have hne : r.netloc.toList.takeWhile (· ≠ ':') ≠ [] := by
    -- no domain owns an empty host
    intro hnil
    have hhost : Domain.hostNoPort r.netloc = "" := by
      rw [Domain.hostNoPort, before, hnil]
      rfl
    obtain ⟨hname, hunder⟩ := owns_iff.mp (Domains.mostSpecific_of_matchDomain r.arrived).owns
    rw [hhost] at hunder
    rcases hunder with heq | ⟨front, heq⟩
    · exact hname heq.symm
    · have hlen := congrArg String.length heq
      have hdot : ".".length = 1 := rfl
      simp only [String.length_append, hdot, String.length_empty] at hlen
      omega
  have hpercent : ∀ c ∈ r.netloc.toList.takeWhile (· ≠ ':'), decide (c ≠ '%') = true := by
    intro c hc
    have hmem := (List.takeWhile_prefix _).subset hc
    simpa using fun heq : c = '%' => hnot '%' (by simp) (heq ▸ hmem)
  simp only [urlparse, splitNetloc_requestedUrl r, hok, if_true]
  refine ⟨_, rfl, ?_⟩
  rw [ParseResult.hostname]
  simp only [hhost, if_neg hne]
  rw [hostnameLower, List.takeWhile_eq_self_iff.mpr hpercent,
    List.dropWhile_eq_nil_iff.mpr hpercent, String.ofList_nil, String.append_empty]
  rfl

theorem comesBack {fw : Framework} {tools : HostTools} (u : Lowering tools)
    (r : SiteRequest fw rows) : ComesBack fw u.lower r := by
  refine ⟨_, _, rfl, quoteText_read _, ?_⟩
  obtain ⟨p, hp, hname⟩ := urlparse_requestedUrl r
  rw [validatedNext_eq_some_iff]
  refine ⟨rfl, ?_, p, hp, Or.inr ⟨_, hname, ?_⟩⟩
  · intro hempty
    rw [hempty] at hp
    exact netloc_ne_nil hname (parts_of_urlparse hp).2
  · -- the lower case of a header's text is Latin-1's
    have hlatin : ∀ c ∈ (before ':' r.netloc).toList, c.toNat < 256 := by
      intro c hc
      rw [Text.toList_before] at hc
      exact r.latin c ((List.takeWhile_prefix _).subset hc)
    have hsame : Domain.hostNoPort (lower (before ':' r.netloc)) = Domain.hostNoPort r.netloc := by
      rw [Domain.hostNoPort, Text.before_lower, before_of_no_colon (Text.not_mem_before ':' _),
        Text.lower_lower]
      rfl
    rw [u.lower_latin, u.latin _ hlatin, matchDomain_congr hsame, r.arrived]
    rfl

/-- `_validated_next` keeps the browser at home just where both parsers read the URL alike, and the
URLs that `build_login_url` puts under `next` come back as they were. -/
theorem next_stays_iff_readAlike (fw : Framework) (tools : HostTools) (u : Lowering tools)
    (rows : List DomainRecord) (dash : Dashboard rows) (next : String) :
    ((∀ url, validatedNext fw u.lower next rows = some (some url) → Stays tools dash url) ∧
      ∀ r : SiteRequest fw rows, ComesBack fw u.lower r) ↔
        ReadAlike fw tools u.lower dash next := by
  rw [stays_iff]
  constructor
  · intro h
    exact h.1
  · intro h
    exact ⟨h, comesBack u⟩

/-! ## Three slashes -/

/-- IDNA for hosts that are ASCII. -/
def asciiTools : HostTools where
  toAscii s := if s.toList.all (· ≤ '\x7f') then some (lower s) else none
  ipv4 _ := none
  ipv6 _ := none

/-- `str.lower` for texts in Latin-1. -/
def latinLowering : Lowering asciiTools where
  lower := lower
  latin _ _ := rfl
  lower_latin := Text.lower_lower
  latin_lower := Text.lower_lower
  noColon s h := by
    rw [Text.toList_lower]
    intro hmem
    obtain ⟨c, hc, heq⟩ := List.mem_map.mp hmem
    exact h ((Text.lowerChar_eq_colon_iff c).mp heq ▸ hc)
  toAscii_under n s y _ hunder h := by
    simp only [asciiTools] at h
    split at h
    · rwa [← Option.some.inj h]
    · cases h

/-- A space with one public domain. -/
def onePublic : List DomainRecord :=
  [{ name := "host.example.com", tls := true, mdns := false, isPrimary := true }]

theorem effectiveDomains_onePublic :
    effectiveDomains onePublic = [⟨"host.example.com", true, false⟩] := by
  rw [effectiveDomains, Domains.loadRecords, onePublic, List.mergeSort_singleton]
  decide

/-- Its dashboard. -/
def publicDashboard : Dashboard onePublic where
  tls := true
  host := "host.example.com"
  home := by
    refine ⟨⟨"host.example.com", true, false⟩, ?_, by decide, Or.inl (by decide)⟩
    rw [effectiveDomains_onePublic]
    exact List.mem_singleton_self _

/-- Behind three slashes `urlparse` sees a path and a browser another host. -/
theorem threeSlashes_leave : ¬ ∀ url,
    validatedNext plainFramework latinLowering.lower "///evil.example.org/phish" onePublic =
      some (some url) → Stays asciiTools publicDashboard url := by
  intro h
  have hstays := h "///evil.example.org/phish" (by decide +kernel)
  have hhost : Whatwg.resolve asciiTools publicDashboard.scheme publicDashboard.host
      "///evil.example.org/phish" = some (some "evil.example.org") := by decide +kernel
  obtain ⟨host, heq, d, hmem, -, hunder⟩ := hstays _ hhost
  rw [effectiveDomains_onePublic, List.mem_singleton] at hmem
  rw [hmem, ← Option.some.inj heq] at hunder
  rcases hunder with hsame | ⟨front, hbelow⟩
  · exact absurd hsame (by decide +kernel)
  · rw [String.append_assoc] at hbelow
    have hends := Text.endsWith_iff.mpr ⟨front, hbelow⟩
    exact absurd hends (by decide +kernel)

end OpenHost.Web
