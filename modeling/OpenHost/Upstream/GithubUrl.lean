import OpenHost.Upstream.PinnedBranch

/-!
# URLs with a token

`core/git_ops.py` looks at the host of a repository URL to decide whether it is on GitHub, and puts
GitHub's token before the host of the URL that git is to use.  The two take a text apart separately, one
before the ref is split off and one after; they find the same scheme and the same host.
-/

namespace OpenHost.Upstream

open Text (endsWith isBlank stripBlank)
open Update (knownSchemes parseRemote rsplitAt)
open Web (Framework ParseResult urlparse endsNetloc cleanUrl isRemoved hostAndPort hostInfo)
open Web.ParseResult (frontText)

/-- `str.lower`, which finds the host of a URL in lower case. -/
structure StrLower where
  lower : String → String
  /-- Small letters, digits, dots and hyphens stay as they are. -/
  kept : ∀ s, s.toList.all Whatwg.isHostNameChar = true → lower s = s
  /-- No letter becomes a delimiter of a URL. -/
  noDelimiter : ∀ s d, d ∈ ['/', '?', '#', '@', ':'] → d ∉ s.toList → d ∉ (lower s).toList
  /-- What is no letter stays at the end. -/
  lastKept : ∀ s c, s.toList.getLast? = some c → isBlank c = true ∨ c.isDigit = true ∨ c = ':' →
    (lower s).toList.getLast? = some c

variable (fw : Framework) (low : StrLower)

/-! ## Reading the host -/

/-- `hostname`, where the host need not be Latin-1. -/
def hostname (parsed : ParseResult) : Option String :=
  let host := (hostAndPort parsed.netloc).1
  if host = [] then none
  else some (low.lower (String.ofList (host.takeWhile (· ≠ '%'))) ++
    String.ofList (host.dropWhile (· ≠ '%')))

/-- `_repo_url_hostname`; `none` is a `ValueError`. -/
def repoUrlHostname (repoUrl : String) : Option String :=
  (urlparse fw repoUrl).bind fun parsed =>
    (if knownSchemes.contains parsed.scheme then some parsed
      else urlparse fw ("https://" ++ repoUrl)).map fun parsed =>
        low.lower ((hostname low parsed).getD "")

/-- `is_github_repo_url`; `none` is a `ValueError`. -/
def isGithubRepoUrl (repoUrl : String) : Option Bool :=
  (repoUrlHostname fw low repoUrl).map fun host =>
    host = "github.com" || endsWith host ".github.com"

/-! ## Writing the token -/

/-- `host_port` -/
def hostPort (host : String) : Option Nat → String
  | some (port + 1) => host ++ ":" ++ toString (port + 1)
  | _ => host

/-- `inject_github_token_in_url`; `none` is a `ValueError`. -/
def injectGithubTokenInUrl (url token : String) : Option String :=
  (urlparse fw url).bind fun parsed =>
    if parsed.scheme = "http" || parsed.scheme = "https" then
      match hostname low parsed with
      | none => some url
      | some host => parsed.port.map fun port =>
          ({ parsed with netloc := (token ++ "@" ++ hostPort host port).toList } :
            ParseResult).geturl
    else some url

/-! ## The location of a URL that `geturl` wrote -/

variable {fw low} {p q : ParseResult}

/-- Nothing, or something that begins with a delimiter of the network location. -/
def EndsLocation (rest : List Char) : Prop :=
  rest = [] ∨ ∃ c cs, rest = c :: cs ∧ endsNetloc c = true

/-- The network location stands between two slashes and one of its delimiters. -/
theorem exists_toList_geturl (hclone : p.scheme ∈ cloneSchemes) (hthere : p.netloc ≠ []) :
    ∃ rest, p.geturl.toList = p.scheme.toList ++ ':' :: '/' :: '/' :: (p.netloc ++ rest) ∧
      EndsLocation rest := by
  obtain ⟨hne, huses, -⟩ := cloneScheme_facts hclone
  rw [ParseResult.toList_geturl hne huses]
  unfold frontText
  rw [if_pos hthere]
  by_cases hrooted : p.path ++ Web.delimited ';' p.params = [] ∨
      (p.path ++ Web.delimited ';' p.params).head? = some '/'
  · -- nothing is put before the path
    refine ⟨p.path ++ p.tailText, ?_, ?_⟩
    · rcases hrooted with h | h <;> simp [h]
    · cases hpath : p.path with
      | cons c cs =>
        have hslash : c = '/' := by simpa [hpath] using hrooted
        exact .inr ⟨c, cs ++ p.tailText, rfl, by rw [hslash]; rfl⟩
      | nil =>
        have hparams : Web.delimited ';' p.params = [] := by
          rw [hpath, List.nil_append] at hrooted
          rcases hrooted with h | h
          · exact h
          · unfold Web.delimited at h
            split at h <;> simp at h
        -- the query comes first, or the fragment
        unfold ParseResult.tailText
        rw [hparams]
        unfold Web.delimited
        by_cases hquery : p.query = [] <;> by_cases hfragment : p.fragment = [] <;>
          simp [EndsLocation, hquery, hfragment, endsNetloc]
  · obtain ⟨hsome, hhead⟩ := not_or.mp hrooted
    refine ⟨'/' :: (p.path ++ p.tailText), ?_, .inr ⟨'/', _, rfl, rfl⟩⟩
    have hput : (decide (p.path ++ Web.delimited ';' p.params ≠ []) &&
        decide ((p.path ++ Web.delimited ';' p.params).head? ≠ some '/')) = true := by
      simp only [Bool.and_eq_true, decide_eq_true_eq]
      exact ⟨hsome, hhead⟩
    rw [if_pos hput]
    simp

/-- What was cleaned away is no delimiter of the network location. -/
theorem endsLocation_kept {rest : List Char} (h : EndsLocation rest) :
    EndsLocation (rest.filter (!isRemoved ·)) := by
  rcases h with rfl | ⟨c, cs, rfl, hc⟩
  · exact .inl rfl
  · have hkept : isRemoved c = false := by
      by_contra hremoved
      simp only [isRemoved, Bool.or_eq_true, decide_eq_true_eq, Bool.not_eq_false] at hremoved
      rcases hremoved with (rfl | rfl) | rfl <;> cases hc
    refine .inr ⟨c, cs.filter (!isRemoved ·), ?_, hc⟩
    rw [List.filter_cons_of_pos (by simp [hkept])]

theorem splitNetloc_append {netloc rest : List Char} (hchars : ∀ c ∈ netloc, endsNetloc c = false)
    (hrest : EndsLocation rest) : Web.splitNetloc ('/' :: '/' :: (netloc ++ rest)) = netloc := by
  change (netloc ++ rest).takeWhile (!endsNetloc ·) = netloc
  rw [List.takeWhile_append_of_pos fun c hc => by simp [hchars c hc]]
  rcases hrest with rfl | ⟨c, cs, rfl, hc⟩
  · simp
  · simp [hc]

/-- Characters of a network location that was found. -/
theorem netloc_chars {url : String} (h : urlparse fw url = some p) (hscheme : p.scheme ≠ "") :
    ∀ c ∈ p.netloc, endsNetloc c = false ∧ isRemoved c = false := by
  obtain ⟨raw, front, after, tail, hclean, -, -, -, hfront, -, -⟩ := Web.exists_pieces h hscheme
  intro c hc
  refine ⟨hfront.chars c hc, @Web.isRemoved_of_mem_cleanUrl url.toList c ?_⟩
  rw [hclean]
  exact List.mem_append_right raw (List.mem_cons_of_mem _ (List.mem_append_left _
    (mem_front hfront c hc)))

theorem splitNetloc_geturl (hclone : p.scheme ∈ cloneSchemes) (hthere : p.netloc ≠ [])
    (hchars : ∀ c ∈ p.netloc, endsNetloc c = false ∧ isRemoved c = false) :
    Web.splitNetloc (Web.dropScheme (cleanUrl p.geturl.toList)) = p.netloc := by
  obtain ⟨rest, htext, hrest⟩ := exists_toList_geturl hclone hthere
  obtain ⟨-, -, -, -, halpha, hscheme, -⟩ := cloneScheme_facts hclone
  have hkept : p.netloc.filter (!isRemoved ·) = p.netloc :=
    List.filter_eq_self.mpr fun c hc => by simp [(hchars c hc).2]
  have hslash : isRemoved '/' = false := rfl
  rw [clean_written hclone htext, Web.dropScheme_append halpha hscheme]
  simp only [List.filter_cons, hslash, Bool.not_false, if_true, List.filter_append, hkept]
  exact splitNetloc_append (fun c hc => (hchars c hc).1) (endsLocation_kept hrest)

/-- The scheme and the network location that were written are found again. -/
theorem exists_location_of_geturl (hclone : p.scheme ∈ cloneSchemes) (hthere : p.netloc ≠ [])
    (hchars : ∀ c ∈ p.netloc, endsNetloc c = false ∧ isRemoved c = false)
    (hok : Web.netlocOk fw p.netloc = true) :
    ∃ q, urlparse fw p.geturl = some q ∧ q.scheme = p.scheme ∧ q.netloc = p.netloc := by
  have hnetloc := splitNetloc_geturl hclone hthere hchars
  obtain ⟨rest, htext, -⟩ := exists_toList_geturl hclone hthere
  have hsome : ∃ q, urlparse fw p.geturl = some q := by
    unfold urlparse
    dsimp only
    rw [hnetloc, if_pos hok]
    exact ⟨_, rfl⟩
  obtain ⟨q, hq⟩ := hsome
  exact ⟨q, hq, scheme_of_written hclone htext hq, (Web.parts_of_urlparse hq).2.trans hnetloc⟩

/-! ## Two readings of a repository URL -/

/-- The reading that both `_repo_url_hostname` and `parse_repo_url` begin with: a text without a scheme
that is known is read after `https://`. -/
def readUrl (fw : Framework) (repoUrl : String) : Option ParseResult :=
  (urlparse fw repoUrl).bind fun parsed =>
    if knownSchemes.contains parsed.scheme then some parsed else urlparse fw ("https://" ++ repoUrl)

theorem repoUrlHostname_eq (repoUrl : String) : repoUrlHostname fw low repoUrl =
    (readUrl fw repoUrl).map fun parsed => low.lower ((hostname low parsed).getD "") := by
  unfold repoUrlHostname readUrl
  cases urlparse fw repoUrl <;> rfl

/-- What `parse_repo_url` hands on is the text that was read, or is written of what was read. -/
theorem base_of_parseRemote {repoUrl base : String} {ref : Option String}
    (h : parseRemote fw repoUrl = some (base, ref)) : ∃ p, readUrl fw repoUrl = some p ∧
      (urlparse fw base = some p ∨
        base = ({ p with path := (rsplitAt p.path).1 } : ParseResult).geturl) := by
  unfold parseRemote at h
  obtain ⟨parsed, hparsed, h⟩ := Option.bind_eq_some_iff.mp h
  obtain ⟨p, hp, hsplit⟩ := Option.map_eq_some_iff.mp h
  cases hknown : knownSchemes.contains parsed.scheme with
  | true =>
    rw [hknown, if_pos rfl] at hp
    obtain rfl := Option.some.inj hp
    refine ⟨parsed, by rw [readUrl, hparsed, Option.bind_some, if_pos hknown], ?_⟩
    split at hsplit
    · exact .inr (Prod.mk.inj hsplit).1.symm
    · rw [← (Prod.mk.inj hsplit).1]
      exact .inl hparsed
  | false =>
    have hnot : ¬ knownSchemes.contains parsed.scheme = true := by rw [hknown]; exact Bool.false_ne_true
    rw [if_neg hnot, if_neg hnot] at hp
    rw [if_neg hnot] at hsplit
    refine ⟨p, by rw [readUrl, hparsed, Option.bind_some, if_neg hnot]; exact hp, ?_⟩
    by_cases hat : '@' ∈ p.path
    · rw [if_pos hat] at hsplit
      exact .inr (Prod.mk.inj hsplit).1.symm
    · rw [if_neg hat] at hsplit
      rw [← (Prod.mk.inj hsplit).1]
      exact .inl hp

theorem scheme_of_readUrl {repoUrl : String} (h : readUrl fw repoUrl = some p) :
    p.scheme ∈ knownSchemes ∧ ∃ url, urlparse fw url = some p := by
  unfold readUrl at h
  obtain ⟨parsed, hparsed, h⟩ := Option.bind_eq_some_iff.mp h
  by_cases hknown : knownSchemes.contains parsed.scheme = true
  · rw [if_pos hknown] at h
    obtain rfl := Option.some.inj h
    exact ⟨List.contains_iff_mem.mp hknown, repoUrl, hparsed⟩
  · rw [if_neg hknown] at h
    refine ⟨?_, _, h⟩
    rw [@scheme_of_written _ "https" _ _ ('/' :: '/' :: repoUrl.toList) (by decide) (by simp) h]
    decide

theorem hostname_congr (h : (hostAndPort q.netloc).1 = (hostAndPort p.netloc).1) :
    hostname low q = hostname low p := by
  unfold hostname
  rw [h]

theorem netloc_ne_nil {host : String} (h : hostname low p = some host) : p.netloc ≠ [] := by
  intro hnil
  simp [hostname, hnil, hostAndPort, hostInfo] at h

theorem scheme_ne_ssh {repoUrl : String} {parsed : String × Option String}
    (h : parseRepoUrl fw repoUrl = some parsed) (hp : readUrl fw repoUrl = some p) :
    p.scheme ≠ "ssh" := by
  obtain ⟨p', hp', hssh, -, -⟩ := parseRepoUrl_eq_some_iff.mp h
  unfold readUrl at hp
  rw [hp', Option.bind_some] at hp
  split at hp
  · rwa [← Option.some.inj hp]
  · rw [@scheme_of_written _ "https" _ _ ('/' :: '/' :: repoUrl.toList) (by decide) (by simp) hp]
    decide

/-- The host that was looked at and the host of the base URL are the same. -/
theorem base_alike {repoUrl base : String} {ref : Option String} {host : String}
    (hbase : parseRepoUrl fw repoUrl = some (base, ref)) (hp : readUrl fw repoUrl = some p)
    (hhost : hostname low p = some host) :
    ∃ q, urlparse fw base = some q ∧ q.scheme = p.scheme ∧ hostname low q = some host := by
  obtain ⟨-, -, -, -, hremote⟩ := parseRepoUrl_eq_some_iff.mp hbase
  obtain ⟨p', hp', hcase⟩ := base_of_parseRemote hremote
  obtain rfl := Option.some.inj (hp.symm.trans hp')
  rcases hcase with hsame | rfl
  · exact ⟨p, hsame, rfl, hhost⟩
  · obtain ⟨hknown, url, hurl⟩ := scheme_of_readUrl hp
    have hclone := mem_cloneSchemes hknown (scheme_ne_ssh hbase hp)
    obtain ⟨hne, -⟩ := cloneScheme_facts hclone
    obtain ⟨-, -, -, -, -, -, -, -, -, -, hok⟩ := Web.exists_pieces hurl hne
    obtain ⟨q, hq, hscheme, hnetloc⟩ := @exists_location_of_geturl fw
      { p with path := (rsplitAt p.path).1 } hclone (netloc_ne_nil hhost)
      (fun c hc => netloc_chars hurl hne c hc) hok
    exact ⟨q, hq, hscheme, (hostname_congr (by rw [hnetloc])).trans hhost⟩

/-! ## The characters of a host -/

theorem mem_hostInfo {netloc : List Char} {c : Char} (h : c ∈ hostInfo netloc) :
    c ∈ netloc ∧ c ≠ '@' := by
  have hrev := List.mem_reverse.mp h
  exact ⟨List.mem_reverse.mp ((List.takeWhile_prefix _).subset hrev),
    by simpa using List.mem_takeWhile_imp hrev⟩

theorem mem_hostAndPort {netloc : List Char} {c : Char} (h : c ∈ (hostAndPort netloc).1) :
    c ∈ hostInfo netloc := by
  unfold hostAndPort at h
  dsimp only at h
  split at h
  · exact (List.dropWhile_suffix _).subset (List.mem_of_mem_tail ((List.takeWhile_prefix _).subset h))
  · exact (List.takeWhile_prefix _).subset h

/-- A host has no delimiter in it but a colon, where it stood between brackets. -/
theorem not_mem_hostname {host : String} {d : Char} (h : hostname low p = some host)
    (hchars : ∀ c ∈ p.netloc, endsNetloc c = false) (hd : d ∈ ['/', '?', '#', '@']) :
    d ∉ host.toList := by
  have hnot : ∀ c ∈ (hostAndPort p.netloc).1, c ≠ d := by
    intro c hc
    obtain ⟨hmem, hat⟩ := mem_hostInfo (mem_hostAndPort hc)
    have hends := hchars c hmem
    simp only [endsNetloc, Bool.or_eq_false_iff, decide_eq_false_iff_not] at hends
    simp only [List.mem_cons, List.not_mem_nil, or_false] at hd
    rcases hd with rfl | rfl | rfl | rfl
    · exact hends.1.1
    · exact hends.1.2
    · exact hends.2
    · exact hat
  unfold hostname at h
  dsimp only at h
  split at h
  · cases h
  · rw [← Option.some.inj h, String.toList_append, List.mem_append, not_or]
    constructor
    · apply low.noDelimiter
      · simp only [List.mem_cons, List.not_mem_nil, or_false] at hd ⊢
        tauto
      · rw [String.toList_ofList]
        exact fun hmem => hnot d ((List.takeWhile_prefix _).subset hmem) rfl
    · rw [String.toList_ofList]
      exact fun hmem => hnot d ((List.dropWhile_suffix _).subset hmem) rfl

/-- A blank at the end stays there. -/
theorem getLast?_hostname {host : String} {c : Char} (h : hostname low p = some host)
    (hlast : (hostAndPort p.netloc).1.getLast? = some c) (hc : isBlank c = true) :
    host.toList.getLast? = some c := by
  unfold hostname at h
  dsimp only at h
  split at h
  · cases h
  · rw [← Option.some.inj h, String.toList_append, String.toList_ofList]
    generalize (hostAndPort p.netloc).1 = text at hlast
    cases hzone : text.dropWhile (· ≠ '%') with
    | nil =>
      have hall : text.takeWhile (· ≠ '%') = text := by
        have hcut := List.takeWhile_append_dropWhile (p := (· ≠ '%')) (l := text)
        rwa [hzone, List.append_nil] at hcut
      rw [List.append_nil, hall]
      exact low.lastKept _ c (by rwa [String.toList_ofList]) (.inl hc)
    | cons d zone =>
      have hsuffix : d :: zone <:+ text := hzone ▸ List.dropWhile_suffix _
      obtain ⟨before, hbefore⟩ := hsuffix
      rw [← hbefore] at hlast
      rw [List.getLast?_append, List.getLast?_cons] at hlast ⊢
      exact hlast

/-! ## A URL without the blanks around it -/

theorem not_isBlank_of_isSchemeChar {c : Char} (h : Web.isSchemeChar c = true) :
    isBlank c = false := by
  simp only [Web.isSchemeChar, Bool.or_eq_true, Bool.and_eq_true, decide_eq_true_eq,
    Text.le_iff_toNat, Text.eq_iff_toNat, Char.reduceToNat] at h
  simp only [isBlank, Bool.or_eq_false_iff, Bool.and_eq_false_iff, decide_eq_false_iff_not,
    Text.le_iff_toNat, Text.eq_iff_toNat, Char.reduceToNat]
  omega

theorem cleanUrl_strip {l cs : List Char} {c : Char} (h : cleanUrl l = c :: cs)
    (hc : isBlank c = false) : ∃ blank, (∀ d ∈ blank, isBlank d = true) ∧
      cleanUrl l = cleanUrl (Text.rstripChars (Text.lstripChars l)) ++ blank := by
  have hfront : ∀ d ∈ l.takeWhile (· ≤ ' '), d ≤ ' ' := fun d hd => by
    simpa using List.mem_takeWhile_imp hd
  have hcut := List.takeWhile_append_dropWhile (p := (· ≤ ' ')) (l := l)
  -- the first character that is kept is the first one that is visible
  obtain ⟨ds, hrest⟩ : ∃ ds, l.dropWhile (· ≤ ' ') = c :: ds := by
    unfold cleanUrl at h
    cases hdrop : l.dropWhile (· ≤ ' ') with
    | nil => simp [hdrop] at h
    | cons d ds =>
      have hd := List.head?_dropWhile_not (fun c : Char => decide (c ≤ ' ')) l
      rw [hdrop] at hd h
      have hvisible : ' ' < d := by simpa using hd
      have hkept : (decide (d ≠ '\t') && decide (d ≠ '\r') && decide (d ≠ '\n')) = true := by
        simp only [Bool.and_eq_true, decide_eq_true_eq]
        refine ⟨⟨?_, ?_⟩, ?_⟩ <;> rintro rfl <;> exact absurd hvisible (by decide)
      rw [List.filter_cons, if_pos hkept] at h
      exact ⟨ds, by rw [(List.cons_eq_cons.mp h).1]⟩
  rw [hrest] at hcut
  generalize l.takeWhile (· ≤ ' ') = front at hcut hfront
  have hvisible : ¬ c ≤ ' ' := by
    have hd := List.head?_dropWhile_not (fun c : Char => decide (c ≤ ' ')) l
    rw [hrest] at hd
    simpa using hd
  have hclean : ∀ front rest : List Char, (∀ d ∈ front, d ≤ ' ') →
      cleanUrl (front ++ c :: rest) = (c :: rest).filter (!isRemoved ·) := by
    intro front rest hfront
    have hnil : front.dropWhile (· ≤ ' ') = [] :=
      List.dropWhile_eq_nil_iff.mpr fun d hd => by simpa using hfront d hd
    unfold cleanUrl
    rw [Text.dropWhile_append_cons (by simpa using hvisible), hnil, List.nil_append]
    exact List.filter_congr fun d _ => by simp [isRemoved]
  obtain ⟨post, hds, hpost⟩ : ∃ post, ds = Text.rstripChars ds ++ post ∧ ∀ d ∈ post, isBlank d = true := by
    refine ⟨(ds.reverse.takeWhile isBlank).reverse, ?_, fun d hd => ?_⟩
    · rw [Text.rstripChars, ← List.reverse_append, List.takeWhile_append_dropWhile,
        List.reverse_reverse]
    · exact List.mem_takeWhile_imp (List.mem_reverse.mp hd)
  refine ⟨post.filter (!isRemoved ·), fun d hd => hpost d (List.mem_of_mem_filter hd), ?_⟩
  rw [← hcut, Text.strip_append_cons hc, hclean _ _ hfront, hclean]
  · conv_lhs => rw [hds]
    rw [← List.cons_append, List.filter_append]
  · intro d hd
    exact hfront d ((List.dropWhile_suffix _).subset hd)

/-- What is found of a text of which blanks have been cut off at the end. -/
theorem location_of_trimmed {raw rest trimmed blank : List Char}
    (halpha : raw.head?.any Web.isAsciiAlpha = true) (hchars : raw.all Web.isSchemeChar = true)
    (hblank : ∀ c ∈ blank, isBlank c = true) (heq : raw ++ ':' :: rest = trimmed ++ blank) :
    ∃ rest', rest = rest' ++ blank ∧ Web.urlScheme trimmed = Text.lower (String.ofList raw) ∧
      Web.dropScheme trimmed = rest' := by
  have hcolon : ':' ∉ blank := fun hmem => by
    have h := hblank _ hmem
    cases h
  obtain ⟨rest', hrest, rfl⟩ : ∃ rest', rest = rest' ++ blank ∧ trimmed = raw ++ ':' :: rest' := by
    rcases List.append_eq_append_iff.mp heq with ⟨a, ha, hb⟩ | ⟨a, ha, hb⟩
    · cases a with
      | nil =>
        rw [List.nil_append] at hb
        exact absurd (hb ▸ List.mem_cons_self) hcolon
      | cons d a =>
        obtain ⟨rfl, hrest⟩ := List.cons_eq_cons.mp hb
        exact ⟨a, hrest, ha⟩
    · exact absurd (hb ▸ List.mem_append_right a List.mem_cons_self) hcolon
  refine ⟨rest', hrest, ?_, Web.dropScheme_append halpha hchars⟩
  have htake : (raw ++ ':' :: rest').takeWhile (· ≠ ':') = raw :=
    Web.takeWhile_ne_append (not_colon hchars)
  have hhas : Web.hasScheme (raw ++ ':' :: rest') = true := by
    unfold Web.hasScheme
    dsimp only
    rw [htake, halpha, hchars]
    simp
  rw [Web.urlScheme, if_pos hhas, htake]

theorem splitNetloc_trimmed {rest blank : List Char} (hblank : ∀ c ∈ blank, isBlank c = true)
    (hthere : Web.splitNetloc (rest ++ blank) ≠ []) :
    Web.splitNetloc (rest ++ blank) = Web.splitNetloc rest ∨
      Web.splitNetloc (rest ++ blank) = Web.splitNetloc rest ++ blank := by
  obtain ⟨m, hslashes, hsplit⟩ := Web.exists_of_splitNetloc_ne_nil hthere
  have hpass : ∀ c ∈ blank, (!endsNetloc c) = true := by
    intro c hc
    by_contra hends
    simp only [endsNetloc, Bool.not_eq_true, Bool.not_eq_false', Bool.or_eq_true,
      decide_eq_true_eq] at hends
    have hb := hblank c hc
    rcases hends with (rfl | rfl) | rfl <;> cases hb
  have hslash : '/' ∉ blank := fun hmem => by simpa [endsNetloc] using hpass _ hmem
  obtain ⟨n, rfl, rfl⟩ : ∃ n, rest = '/' :: '/' :: n ∧ m = n ++ blank := by
    cases rest with
    | nil =>
      rw [List.nil_append] at hslashes
      exact absurd (hslashes ▸ List.mem_cons_self) hslash
    | cons a rest =>
      obtain ⟨ha, htail⟩ := List.cons.inj hslashes
      cases rest with
      | nil =>
        have hblank' : blank = '/' :: m := htail
        exact absurd (hblank' ▸ List.mem_cons_self) hslash
      | cons b n =>
        obtain ⟨hb, hm⟩ := List.cons.inj htail
        exact ⟨n, by rw [ha, hb], hm.symm⟩
  rw [hsplit, Whatwg.takeWhile_append_blank hpass]
  change _ = n.takeWhile (!endsNetloc ·) ∨ _ = n.takeWhile (!endsNetloc ·) ++ blank
  split
  · next hlen =>
    right
    rw [(List.takeWhile_prefix _).eq_of_length hlen]
  · exact .inl rfl

theorem hostAndPort_trimmed {netloc blank : List Char} (hblank : ∀ c ∈ blank, isBlank c = true) :
    (hostAndPort (netloc ++ blank)).1 = (hostAndPort netloc).1 ∨
      (hostAndPort (netloc ++ blank)).1 = (hostAndPort netloc).1 ++ blank := by
  have hnot : ∀ d, isBlank d = false → ∀ c ∈ blank, decide (c ≠ d) = true := by
    intro d hd c hc
    have hb := hblank c hc
    simp only [decide_eq_true_eq]
    rintro rfl
    rw [hd] at hb
    cases hb
  have hinfo : hostInfo (netloc ++ blank) = hostInfo netloc ++ blank := by
    unfold hostInfo
    rw [List.reverse_append, List.takeWhile_append_of_pos fun c hc =>
      hnot '@' rfl c (List.mem_reverse.mp hc), List.reverse_append, List.reverse_reverse]
  have hopen : '[' ∈ hostInfo netloc ++ blank ↔ '[' ∈ hostInfo netloc := by
    have habsent : '[' ∉ blank := fun hmem => by simpa using hnot '[' rfl _ hmem
    simp [habsent]
  unfold hostAndPort
  rw [hinfo]
  dsimp only
  by_cases hbracket : '[' ∈ hostInfo netloc
  · rw [if_pos (hopen.mpr hbracket), if_pos hbracket]
    obtain ⟨rest, hrest⟩ : ∃ rest, (hostInfo netloc).dropWhile (· ≠ '[') = '[' :: rest := by
      rcases Web.dropWhile_ne_cases '[' (hostInfo netloc) with h | h
      · have hall := List.dropWhile_eq_nil_iff.mp h '[' hbracket
        simp at hall
      · exact h
    have hdrop : (hostInfo netloc ++ blank).dropWhile (· ≠ '[') = '[' :: (rest ++ blank) := by
      rw [List.dropWhile_append, hrest]
      rfl
    rw [hdrop, hrest]
    dsimp only [List.tail_cons]
    rw [Whatwg.takeWhile_append_blank (hnot ']' rfl)]
    split
    · next hlen => exact .inr (by rw [(List.takeWhile_prefix _).eq_of_length hlen])
    · exact .inl rfl
  · rw [if_neg (hopen.not.mpr hbracket), if_neg hbracket,
      Whatwg.takeWhile_append_blank (hnot ':' rfl)]
    split
    · next hlen => exact .inr (by rw [(List.takeWhile_prefix _).eq_of_length hlen])
    · exact .inl rfl

theorem getLast?_of_isUnder {host : String} (h : Whatwg.IsUnder "github.com" host) :
    host.toList.getLast? = some 'm' := by
  rcases h with rfl | ⟨r, rfl⟩
  · decide
  · rw [String.toList_append, List.getLast?_append]
    rfl

/-- A URL on GitHub stays there without the blanks around it. -/
theorem trimmed_alike {url host : String} (hq : urlparse fw url = some q) (hne : q.scheme ≠ "")
    (hhost : hostname low q = some host) (hunder : Whatwg.IsUnder "github.com" (low.lower host))
    (hp : urlparse fw (stripBlank url) = some p) :
    p.scheme = q.scheme ∧ hostname low p = some host := by
  obtain ⟨raw, front, after, tail, hclean, hscheme, halpha, hchars, -, -, -⟩ :=
    Web.exists_pieces hq hne
  obtain ⟨c, cs, hraw⟩ : ∃ c cs, raw = c :: cs := by
    cases raw with
    | nil => cases halpha
    | cons c cs => exact ⟨c, cs, rfl⟩
  have hvisible : isBlank c = false :=
    not_isBlank_of_isSchemeChar (List.all_eq_true.mp hchars c (by simp [hraw]))
  obtain ⟨blank, hblank, htrim⟩ := cleanUrl_strip (l := url.toList) (by rw [hclean, hraw]; rfl) hvisible
  rw [hclean] at htrim
  obtain ⟨rest', hrest, hscheme', hdrop⟩ := location_of_trimmed halpha hchars hblank htrim
  obtain ⟨hpscheme, hpnetloc⟩ := Web.parts_of_urlparse hp
  have htext : (stripBlank url).toList = Text.rstripChars (Text.lstripChars url.toList) :=
    Text.toList_stripBlank url
  rw [htext] at hpscheme hpnetloc
  rw [hscheme'] at hpscheme
  rw [hdrop] at hpnetloc
  refine ⟨hpscheme.trans hscheme.symm, ?_⟩
  have hqnetloc : q.netloc = Web.splitNetloc (rest' ++ blank) := by
    rw [(Web.parts_of_urlparse hq).2, hclean, Web.dropScheme_append halpha hchars, hrest]
  have hthere : Web.splitNetloc (rest' ++ blank) ≠ [] := hqnetloc ▸ netloc_ne_nil hhost
  -- the blanks are behind the location, or its last characters, and then behind the host
  have hsame : (hostAndPort p.netloc).1 = (hostAndPort q.netloc).1 := by
    rcases splitNetloc_trimmed hblank hthere with hsplit | hsplit
    · rw [hpnetloc, hqnetloc, hsplit]
    · rw [← hpnetloc] at hsplit
      rw [hsplit] at hqnetloc
      rcases @hostAndPort_trimmed p.netloc blank hblank with htext | htext
      · rw [hqnetloc, htext]
      · cases hlast : blank.getLast? with
        | none => rw [hqnetloc, List.getLast?_eq_none_iff.mp hlast, List.append_nil]
        | some d =>
          have hd := hblank d (List.mem_of_getLast? hlast)
          have hhostLast : host.toList.getLast? = some d := by
            refine getLast?_hostname hhost ?_ hd
            rw [hqnetloc, htext, List.getLast?_append, hlast]
            rfl
          have hm := low.lastKept host d hhostLast (.inl hd)
          rw [getLast?_of_isUnder hunder] at hm
          rw [← Option.some.inj hm] at hd
          cases hd
  exact (hostname_congr hsame).trans hhost

end OpenHost.Upstream
