import OpenHost.Upstream.RepoUrl

/-!
# Pinning an upstream to its branch

An upstream without a ref gets the branch that was checked out appended, and is read again at the next
pull.  The text comes back in its two parts exactly if the base URL is written as `geturl` writes it,
ends with its path, and the branch has nothing in it that the parser takes for a delimiter.
-/

namespace OpenHost.Upstream

open Text (truthy? stripBlank isBlank)
open Update (knownSchemes rsplitAt parseRemote)
open Web (Framework ParseResult urlparse endsNetloc netlocOk usesParams splitParams isRemoved cleanUrl
  IsTail)
open Web.ParseResult (frontText)

/-! ## What is to hold -/

/-- What is stored for an upstream once the branch has been recorded. -/
def storedUpstream (fw : Framework) (repoUrl branch : String) : String :=
  (pinReflessToLandedBranch fw repoUrl (some branch)).getD repoUrl

/-- The stored upstream is read as the base URL and the branch, and setting it changes nothing. -/
structure ComesBack (fw : Framework) (repoUrl base : String) (ref : Option String) (branch : String) :
    Prop where
  parses : parseRepoUrl fw (storedUpstream fw repoUrl branch) =
    some (base, some ((truthy? ref).getD branch))
  unchanged : setAppRemote fw (storedUpstream fw repoUrl branch) =
    some (storedUpstream fw repoUrl branch)

/-! ## When it does -/

/-- `_KNOWN_SCHEMES`, without SSH. -/
def cloneSchemes : List String := ["http", "https", "git", "file"]

/-- The base URL is written as `geturl` writes a scheme, a network location and a path, and the branch
is one more piece of the path. -/
structure Splits (fw : Framework) (base branch scheme : String) (netloc path : List Char) : Prop where
  written : base = (⟨scheme, netloc, path, [], [], []⟩ : ParseResult).geturl
  known : scheme ∈ cloneSchemes
  taken : netlocOk fw netloc = true
  netlocChars : ∀ c ∈ netloc, endsNetloc c = false
  pathThere : path ≠ []
  rooted : netloc ≠ [] → path.head? = some '/'
  noTail : ∀ c ∈ path ++ '@' :: branch.toList, c ≠ '?' ∧ c ≠ '#'
  noParams : scheme ∈ usesParams → splitParams (path ++ '@' :: branch.toList) =
    (path ++ '@' :: branch.toList, [])
  kept : ∀ c ∈ netloc ++ path ++ branch.toList, isRemoved c = false
  oneRef : '@' ∉ branch.toList
  notScp : isScpStyle (withRef base branch).toList = false

/-- The text is read as these two parts. -/
def SplitsAt (fw : Framework) (base branch : String) : Prop :=
  ∃ scheme netloc path, Splits fw base branch scheme netloc path

/-- The name ends with something that `strip` leaves there. -/
def EndsVisibly (name : String) : Prop :=
  ∀ c, name.toList.getLast? = some c → isBlank c = false

/-! ## Reading what was written -/

variable {fw : Framework} {base branch scheme : String} {netloc path : List Char}

theorem cloneScheme_facts (h : scheme ∈ cloneSchemes) : scheme ≠ "" ∧
    scheme ∈ ParseResult.usesNetloc ∧ scheme ∈ knownSchemes ∧ scheme ≠ "ssh" ∧
    scheme.toList.head?.any Web.isAsciiAlpha = true ∧ scheme.toList.all Web.isSchemeChar = true ∧
    Text.lower scheme = scheme := by
  simp only [cloneSchemes, List.mem_cons, List.not_mem_nil, or_false] at h
  rcases h with rfl | rfl | rfl | rfl <;> decide

theorem isRemoved_cloneScheme (h : scheme ∈ cloneSchemes) :
    ∃ c rest, scheme.toList = c :: rest ∧ ' ' < c ∧ ∀ d ∈ rest, isRemoved d = false := by
  simp only [cloneSchemes, List.mem_cons, List.not_mem_nil, or_false] at h
  rcases h with rfl | rfl | rfl | rfl
  · exact ⟨'h', "ttp".toList, by decide, by decide, by simp [isRemoved]⟩
  · exact ⟨'h', "ttps".toList, by decide, by decide, by simp [isRemoved]⟩
  · exact ⟨'g', "it".toList, by decide, by decide, by simp [isRemoved]⟩
  · exact ⟨'f', "ile".toList, by decide, by decide, by simp [isRemoved]⟩

/-- The URL that is written of its pieces. -/
theorem toList_written (hscheme : scheme ∈ cloneSchemes) (netloc path : List Char) :
    (⟨scheme, netloc, path, [], [], []⟩ : ParseResult).geturl.toList =
      scheme.toList ++ ':' :: (frontText netloc path ++ path) := by
  obtain ⟨hne, huses, -⟩ := cloneScheme_facts hscheme
  rw [ParseResult.toList_geturl hne huses]
  simp [Web.delimited, ParseResult.tailText]

/-- A part that begins with one more delimiter is the rest after the network location. -/
theorem splitNetloc_frontText {rest : List Char} (hpath : path ≠ [])
    (hrooted : netloc ≠ [] → path.head? = some '/') (hchars : ∀ c ∈ netloc, endsNetloc c = false) :
    Web.splitNetloc (frontText netloc path ++ (path ++ rest)) = netloc ∧
      Web.afterNetloc (frontText netloc path ++ (path ++ rest)) = path ++ rest := by
  obtain ⟨c, path', rfl⟩ := List.exists_cons_of_ne_nil hpath
  by_cases hslash : c = '/'
  · -- both slashes are written, and the location ends at the path
    have hfront : frontText netloc (c :: path') = '/' :: '/' :: netloc := by
      unfold frontText
      by_cases hnetloc : netloc = [] <;> simp [hnetloc, hslash]
    have hends : ∀ d ∈ netloc, (!endsNetloc d) = true := fun d hd => by simp [hchars d hd]
    rw [hfront, hslash]
    constructor
    · change (netloc ++ ('/' :: path' ++ rest)).takeWhile (!endsNetloc ·) = netloc
      rw [List.takeWhile_append_of_pos hends]
      simp [endsNetloc]
    · change (netloc ++ ('/' :: path' ++ rest)).dropWhile (!endsNetloc ·) = _
      rw [List.dropWhile_append_of_pos hends]
      simp [endsNetloc]
  · have hnetloc : netloc = [] := by
      by_contra hne
      exact hslash (Option.some.inj (hrooted hne))
    have hfront : frontText netloc (c :: path') = [] := by simp [frontText, hnetloc, hslash]
    rw [hfront, hnetloc]
    constructor
    · change Web.splitNetloc (c :: (path' ++ rest)) = []
      unfold Web.splitNetloc
      split
      · next heq => exact absurd (List.cons_eq_cons.mp heq).1 hslash
      · rfl
    · change Web.afterNetloc (c :: (path' ++ rest)) = _
      unfold Web.afterNetloc
      split
      · next heq => exact absurd (List.cons_eq_cons.mp heq).1 hslash
      · rfl

theorem mem_frontText {c : Char} (h : c ∈ frontText netloc path) : c = '/' ∨ c ∈ netloc := by
  unfold frontText at h
  split at h
  · simp only [List.cons_append, List.mem_cons, List.mem_append] at h
    rcases h with h | h | h | h
    · exact .inl h
    · exact .inl h
    · exact .inr h
    · split at h
      · exact .inl (List.mem_singleton.mp h)
      · simp at h
  · split at h
    · simp at h
      exact .inl h
    · simp at h

theorem takeWhile_ne_of_not_mem {d : Char} {l : List Char} (h : d ∉ l) :
    l.takeWhile (· ≠ d) = l :=
  List.takeWhile_eq_self_iff.mpr fun c hc => by simpa using ne_of_mem_of_not_mem hc h

theorem dropWhile_ne_of_not_mem {d : Char} {l : List Char} (h : d ∉ l) :
    l.dropWhile (· ≠ d) = [] :=
  List.dropWhile_eq_nil_iff.mpr fun c hc => by simpa using ne_of_mem_of_not_mem hc h

/-- What was written is read in the same pieces, with the branch at the end of the path. -/
theorem urlparse_withRef (h : Splits fw base branch scheme netloc path) :
    urlparse fw (withRef base branch) =
      some ⟨scheme, netloc, path ++ '@' :: branch.toList, [], [], []⟩ := by
  obtain ⟨hne, -, -, -, halpha, hchars, hlower⟩ := cloneScheme_facts h.known
  have htext : (withRef base branch).toList = scheme.toList ++
      ':' :: (frontText netloc path ++ (path ++ '@' :: branch.toList)) := by
    rw [toList_withRef, h.written, toList_written h.known]
    simp
  have hclean : cleanUrl (withRef base branch).toList = (withRef base branch).toList := by
    obtain ⟨c, rest, hscheme, hfirst, hrest⟩ := isRemoved_cloneScheme h.known
    rw [htext, hscheme]
    refine Web.cleanUrl_of_kept hfirst fun d hd => ?_
    have hkept := h.kept
    simp only [List.mem_append] at hkept
    rcases List.mem_append.mp hd with hd | hd
    · exact hrest d hd
    · simp only [List.mem_cons, List.mem_append] at hd
      rcases hd with rfl | hd | hd | rfl | hd
      · rfl
      · rcases mem_frontText hd with rfl | hd
        · rfl
        · exact hkept d (.inl (.inl hd))
      · exact hkept d (.inl (.inr hd))
      · rfl
      · exact hkept d (.inr hd)
  have hdrop : Web.dropScheme (withRef base branch).toList =
      frontText netloc path ++ (path ++ '@' :: branch.toList) := by
    rw [htext]
    exact Web.dropScheme_append halpha hchars
  have hcolon : ':' ∉ scheme.toList := fun hmem =>
    absurd (List.all_eq_true.mp hchars ':' hmem) (by decide)
  have htake : (withRef base branch).toList.takeWhile (· ≠ ':') = scheme.toList := by
    rw [htext, Web.takeWhile_ne_append hcolon]
  have hscheme : Web.urlScheme (withRef base branch).toList = scheme := by
    have hhas : Web.hasScheme (withRef base branch).toList = true := by
      unfold Web.hasScheme
      dsimp only
      rw [htake, halpha, hchars, htext]
      simp
    rw [Web.urlScheme, if_pos hhas, htake, String.ofList_toList, hlower]
  obtain ⟨hnetloc, hafter⟩ := @splitNetloc_frontText _ _ ('@' :: branch.toList) h.pathThere
    h.rooted h.netlocChars
  have hhash : '#' ∉ path ++ '@' :: branch.toList := fun hmem => (h.noTail _ hmem).2 rfl
  have hquestion : '?' ∉ path ++ '@' :: branch.toList := fun hmem => (h.noTail _ hmem).1 rfl
  unfold urlparse
  dsimp only
  rw [hclean, hdrop, hscheme, hnetloc, hafter, if_pos h.taken, takeWhile_ne_of_not_mem hhash,
    takeWhile_ne_of_not_mem hquestion, dropWhile_ne_of_not_mem hhash,
    dropWhile_ne_of_not_mem hquestion]
  by_cases huses : scheme ∈ usesParams
  · rw [if_pos huses, h.noParams huses]
    rfl
  · rw [if_neg huses]
    rfl

theorem parseRepoUrl_withRef (h : Splits fw base branch scheme netloc path) :
    parseRepoUrl fw (withRef base branch) = some (base, some branch) := by
  obtain ⟨-, -, hknown, hssh, -⟩ := cloneScheme_facts h.known
  have hparse := urlparse_withRef h
  rw [parseRepoUrl_eq_some_iff]
  refine ⟨_, hparse, hssh, h.notScp, ?_⟩
  rw [parseRemote_of_known hparse hknown, if_pos (by simp), rsplitAt_append h.oneRef,
    String.ofList_toList, h.written]

/-! ## What has been read as two parts -/

theorem frontText_rooted (netloc path' : List Char) :
    frontText netloc ('/' :: path') = '/' :: '/' :: netloc := by
  unfold frontText
  by_cases hnetloc : netloc = [] <;> simp [hnetloc]

/-- Nothing of a scheme is cleaned away. -/
theorem clean_written {url : String} {rest : List Char} (hscheme : scheme ∈ cloneSchemes)
    (htext : url.toList = scheme.toList ++ ':' :: rest) :
    cleanUrl url.toList = scheme.toList ++ ':' :: rest.filter (!isRemoved ·) := by
  obtain ⟨c, cs, hlist, hfirst, hkept⟩ := isRemoved_cloneScheme hscheme
  have hcs : cs.filter (!isRemoved ·) = cs :=
    List.filter_eq_self.mpr fun d hd => by simp [hkept d hd]
  rw [htext, hlist, List.cons_append, Web.cleanUrl_cons hfirst, List.filter_append, hcs,
    List.filter_cons_of_pos (by decide)]
  rfl

/-- A URL that begins with a scheme has it. -/
theorem scheme_of_written {url : String} {p : ParseResult} {rest : List Char}
    (hscheme : scheme ∈ cloneSchemes) (htext : url.toList = scheme.toList ++ ':' :: rest)
    (hparse : urlparse fw url = some p) : p.scheme = scheme := by
  obtain ⟨-, -, -, -, halpha, hchars, hlower⟩ := cloneScheme_facts hscheme
  have hcolon : ':' ∉ scheme.toList := fun hmem =>
    absurd (List.all_eq_true.mp hchars ':' hmem) (by decide)
  have htake : (scheme.toList ++ ':' :: rest.filter (!isRemoved ·)).takeWhile (· ≠ ':') =
      scheme.toList := Web.takeWhile_ne_append hcolon
  have hhas : Web.hasScheme (scheme.toList ++ ':' :: rest.filter (!isRemoved ·)) = true := by
    unfold Web.hasScheme
    dsimp only
    rw [htake, halpha, hchars]
    simp
  rw [(Web.parts_of_urlparse hparse).1, clean_written hscheme htext, Web.urlScheme, if_pos hhas,
    htake, String.ofList_toList, hlower]

/-- Of two ways to divide one text the parts before the path are the same, and nothing comes after
the ref. -/
theorem pieces_agree {front after tail ref params text : List Char}
    (hfront : Web.IsFront front netloc after) (hafter : after = path ++ '@' :: ref ++ tail)
    (hpath : ∀ c ∈ path, c ≠ '?' ∧ c ≠ '#') (htext : IsTail text) (hparams : text = [] → params = [])
    (heq : front ++ after = frontText netloc (path ++ params) ++ (path ++ text ++ '@' :: ref)) :
    text = [] ∧ tail = [] ∧ path ≠ [] ∧ (netloc ≠ [] → path.head? = some '/') := by
  have hcancel : front = frontText netloc (path ++ params) → text = [] ∧ tail = [] := by
    intro hsame
    rw [hsame, hafter] at heq
    have hrest := List.append_cancel_left heq
    rw [List.append_assoc, List.append_assoc] at hrest
    exact htext.eq_nil_of_append (List.append_cancel_left hrest).symm
  rcases hfront.shape with ⟨hslashes, hends⟩ | ⟨hnil, hnetloc, hnot⟩
  · -- the network location ends where the path begins, with a slash
    have hrooted : ∃ path', path = '/' :: path' := by
      rcases hends with hempty | ⟨c, rest, hc, hend⟩
      · rw [hafter] at hempty
        simp at hempty
      · rw [hafter] at hc
        cases path with
        | nil =>
          have hat : '@' = c := (List.cons_eq_cons.mp hc).1
          rw [← hat] at hend
          exact absurd hend (by decide)
        | cons d path' =>
          have hd : d = c := (List.cons_eq_cons.mp hc).1
          obtain ⟨hquestion, hhash⟩ := hpath d List.mem_cons_self
          have hslash : d = '/' := by simpa [← hd, endsNetloc, hquestion, hhash] using hend
          exact ⟨path', by rw [hslash]⟩
    obtain ⟨path', rfl⟩ := hrooted
    obtain ⟨htext, htail⟩ := hcancel (hslashes.trans (frontText_rooted netloc _).symm)
    exact ⟨htext, htail, List.cons_ne_nil _ _, fun _ => rfl⟩
  · subst hnil hnetloc
    by_cases hroot : path ++ params = [] ∨ (path ++ params).head? = some '/'
    · -- two slashes are written, where there were none
      have hfront : frontText [] (path ++ params) = ['/', '/'] := by
        unfold frontText
        rcases hroot with hroot | hroot <;> simp [hroot]
      rw [hfront] at heq
      exact absurd heq (hnot _)
    · obtain ⟨hne, hhead⟩ := not_or.mp hroot
      have hfront : frontText [] (path ++ params) = [] := by
        rw [frontText, if_neg (by simp), if_neg (by simpa using hroot)]
      obtain ⟨htext, htail⟩ := hcancel hfront.symm
      refine ⟨htext, htail, ?_, fun h => absurd rfl h⟩
      rintro rfl
      exact hne (by simpa using hparams htext)

theorem not_colon {l : List Char} (h : l.all Web.isSchemeChar = true) : ':' ∉ l := fun hmem =>
  absurd (List.all_eq_true.mp h ':' hmem) (by decide)

/-- What follows the first colon is determined. -/
theorem eq_of_colon {l l' rest rest' : List Char} (h : ':' ∉ l) (h' : ':' ∉ l')
    (heq : l ++ ':' :: rest = l' ++ ':' :: rest') : rest = rest' := by
  have hsame : l = l' := by
    have htake : (l ++ ':' :: rest).takeWhile (· ≠ ':') = l := Web.takeWhile_ne_append h
    rw [← htake, heq, Web.takeWhile_ne_append h']
  rw [hsame] at heq
  exact (List.cons_eq_cons.mp (List.append_cancel_left heq)).2

theorem mem_front {front after : List Char} (h : Web.IsFront front netloc after) :
    ∀ c ∈ netloc, c ∈ front := by
  intro c hc
  rcases h.shape with ⟨hslashes, -⟩ | ⟨-, hnil, -⟩
  · rw [hslashes]
    simp [hc]
  · simp [hnil] at hc

theorem toList_withRef_geturl {q : ParseResult} (hne : q.scheme ≠ "")
    (huses : q.scheme ∈ ParseResult.usesNetloc) (branch : String) :
    (withRef q.geturl branch).toList = q.scheme.toList ++ ':' ::
      (frontText q.netloc (q.path ++ Web.delimited ';' q.params) ++
        (q.path ++ q.tailText ++ '@' :: branch.toList)) := by
  rw [toList_withRef, ParseResult.toList_geturl hne huses]
  simp

theorem mem_tailText {q : ParseResult} {c : Char} (h : c ∈ q.tailText) :
    isRemoved c = false ∨ c ∈ q.params ++ q.query ++ q.fragment := by
  unfold ParseResult.tailText at h
  simp only [List.mem_append] at h ⊢
  rcases h with h | h | h
  · exact (Web.mem_of_mem_delimited h).imp (fun heq => by rw [heq]; rfl) fun h => .inl (.inl h)
  · exact (Web.mem_of_mem_delimited h).imp (fun heq => by rw [heq]; rfl) fun h => .inl (.inr h)
  · exact (Web.mem_of_mem_delimited h).imp (fun heq => by rw [heq]; rfl) fun h => .inr h

/-- What stands before a path with a ref stands before it when something follows, too. -/
theorem isFront_append {front after : List Char} (h : Web.IsFront front netloc after)
    (hat : '@' ∈ after) (rest : List Char) : Web.IsFront front netloc (after ++ rest) := by
  refine ⟨h.chars, h.shape.imp (fun ⟨hfront, hends⟩ => ⟨hfront, ?_⟩) fun ⟨hfront, hnil, hnot⟩ =>
    ⟨hfront, hnil, fun rest' heq => ?_⟩⟩
  · rcases hends with rfl | ⟨c, after', rfl, hc⟩
    · simp at hat
    · exact .inr ⟨c, after' ++ rest, rfl, hc⟩
  · match after, hat with
    | [c], hat =>
      have hfirst : c = '/' := (List.cons_eq_cons.mp heq).1
      simp [hfirst] at hat
    | c :: d :: after', _ =>
      obtain ⟨hc, htail⟩ := List.cons_eq_cons.mp heq
      obtain ⟨hd, -⟩ := List.cons_eq_cons.mp htail
      exact hnot after' (by rw [hc, hd])

/-- The base URL that was read out of a text is written as it stands there: with its ref it is no
longer than the text. -/
theorem exists_splits {p : ParseResult} {url : String} {more : List Char}
    (hclone : p.scheme ∈ cloneSchemes) (hparse : urlparse fw url = some p)
    (hpath : p.path = path ++ '@' :: branch.toList)
    (hbase : base = ({ p with path := path } : ParseResult).geturl)
    (hscp : isScpStyle url.toList = false) (honce : '@' ∉ branch.toList)
    (hurl : (withRef base branch).toList = url.toList ++ more) :
    more = [] ∧ Splits fw base branch p.scheme p.netloc path := by
  obtain ⟨hne, huses, -, -, -, hschemeChars, -⟩ := cloneScheme_facts hclone
  obtain ⟨raw, front, after, tail, hclean, -, -, hchars, hfront, hafter, htaken⟩ :=
    Web.exists_pieces hparse hne
  have htext := toList_withRef_geturl (q := { p with path := path }) hne huses branch
  rw [← hbase] at htext
  dsimp only at htext
  -- every character of the text comes from a piece, so nothing had to be cleaned away
  have hkept : ∀ c ∈ front ++ after, isRemoved c = false := fun c hc =>
    Web.isRemoved_of_mem_cleanUrl (hclean ▸ List.mem_append_right raw (List.mem_cons_of_mem _ hc))
  have hpathKept : ∀ c ∈ path ++ '@' :: branch.toList, isRemoved c = false := fun c hc =>
    hkept c (List.mem_append_right _ (hafter.eq ▸ List.mem_append_left _ (hpath ▸ hc)))
  have hnetlocKept : ∀ c ∈ p.netloc, isRemoved c = false := fun c hc =>
    hkept c (List.mem_append_left _ (mem_front hfront c hc))
  have htailKept : ∀ c ∈ ({ p with path := path } : ParseResult).tailText, isRemoved c = false := by
    intro c hc
    rcases mem_tailText hc with hc | hc
    · exact hc
    · exact hkept c (List.mem_append_right _ (hafter.rest c hc))
  generalize ht : ({ p with path := path } : ParseResult).tailText = text at htext htailKept
  obtain ⟨c, rest, hscheme, hfirst, hrest⟩ := isRemoved_cloneScheme hclone
  have hrestKept' : ∀ d ∈ rest ++ ':' :: (frontText p.netloc (path ++ Web.delimited ';' p.params) ++
      (path ++ text ++ '@' :: branch.toList)), isRemoved d = false := by
    intro d hd
    rcases List.mem_append.mp hd with hd | hd
    · exact hrest d hd
    · simp only [List.mem_cons, List.mem_append] at hd
      rcases hd with rfl | hd | (hd | hd) | hd
      · rfl
      · rcases mem_frontText hd with rfl | hd
        · rfl
        · exact hnetlocKept d hd
      · exact hpathKept d (List.mem_append_left _ hd)
      · exact htailKept d hd
      · exact hpathKept d (List.mem_append_right _ (List.mem_cons.mpr hd))
  have hsame : cleanUrl url.toList = url.toList := by
    rw [hurl, hscheme] at htext
    cases hlist : url.toList with
    | nil =>
      rw [hlist] at hclean
      simp [cleanUrl] at hclean
    | cons d ds =>
      rw [hlist] at htext
      obtain ⟨hd, hds⟩ := List.cons_eq_cons.mp htext
      refine Web.cleanUrl_of_kept (hd ▸ hfirst) fun e he => hrestKept' e ?_
      have hmem : e ∈ ds ++ more := List.mem_append_left _ he
      exact Eq.mp (congrArg (e ∈ ·) hds) hmem
  have hwhole : raw ++ ':' :: (front ++ (after ++ more)) = p.scheme.toList ++ ':' ::
      (frontText p.netloc (path ++ Web.delimited ';' p.params) ++
        (path ++ text ++ '@' :: branch.toList)) := by
    rw [← htext, hurl, ← hsame, hclean]
    simp
  have heq := eq_of_colon (not_colon hchars) (not_colon hschemeChars) hwhole
  have hpathChars : ∀ c ∈ path, c ≠ '?' ∧ c ≠ '#' := fun c hc =>
    hafter.path c (hpath ▸ List.mem_append_left _ hc)
  have hparams : text = [] → p.params = [] ∧ p.query = [] ∧ p.fragment = [] := by
    rintro rfl
    exact ParseResult.tailText_eq_nil_iff.mp ht
  have hafterMore : after ++ more = path ++ '@' :: branch.toList ++ (tail ++ more) := by
    rw [hafter.eq, hpath]
    simp
  have hat : '@' ∈ after := by
    rw [hafter.eq, hpath]
    simp
  obtain ⟨htextNil, htailNil, hpathThere, hrooted⟩ := pieces_agree (isFront_append hfront hat more)
    hafterMore hpathChars (ht ▸ ParseResult.isTail_tailText _)
    (fun hnil => Web.delimited_eq_nil_iff.mpr (hparams hnil).1) heq
  obtain ⟨hparamsNil, hqueryNil, hfragmentNil⟩ := hparams htextNil
  obtain ⟨htailNil, hmore⟩ := List.append_eq_nil_iff.mp htailNil
  have hsameText : withRef base branch = url := by
    rw [← String.toList_inj, hurl, hmore, List.append_nil]
  refine ⟨hmore, ?_⟩
  constructor
  · rw [hbase, hparamsNil, hqueryNil, hfragmentNil]
  · exact hclone
  · exact htaken
  · exact hfront.chars
  · exact hpathThere
  · exact hrooted
  · rw [← hpath]
    exact hafter.path
  · intro huses
    rw [← hpath, hafter.params htailNil huses, hparamsNil]
  · intro c hc
    rcases List.mem_append.mp hc with hc | hc
    · rcases List.mem_append.mp hc with hc | hc
      · exact hnetlocKept c hc
      · exact hpathKept c (List.mem_append_left _ hc)
    · exact hpathKept c (List.mem_append_right _ (List.mem_cons_of_mem _ hc))
  · exact honce
  · rw [hsameText]
    exact hscp

/-- Without a scheme that is known the text is read after `https://`. -/
theorem parseRemote_of_unknown {url base ref : String} {p : ParseResult}
    (hparse : urlparse fw url = some p) (hknown : p.scheme ∉ knownSchemes)
    (h : parseRemote fw url = some (base, some ref)) : ∃ q, urlparse fw ("https://" ++ url) = some q ∧
      '@' ∈ q.path ∧ base = ({ q with path := (rsplitAt q.path).1 } : ParseResult).geturl := by
  unfold parseRemote at h
  simp only [hparse, Option.bind_some, List.contains_iff_mem, hknown, if_false,
    Option.map_eq_some_iff] at h
  obtain ⟨q, hq, hsplit⟩ := h
  split at hsplit
  · next hat => exact ⟨q, hq, hat, (Prod.mk.inj hsplit).1.symm⟩
  · simp at hsplit

theorem mem_cloneSchemes (hknown : scheme ∈ knownSchemes) (hssh : scheme ≠ "ssh") :
    scheme ∈ cloneSchemes := by
  simp only [knownSchemes, List.mem_cons, List.not_mem_nil, or_false] at hknown
  simp only [cloneSchemes, List.mem_cons, List.not_mem_nil, or_false]
  rcases hknown with h | h | h | h | h <;> simp_all

/-- What `parse_repo_url` does with a text, by the scheme of the text. -/
theorem parseRemote_cases {url base : String} {ref : Option String} {p : ParseResult}
    (hparse : urlparse fw url = some p) (h : parseRemote fw url = some (base, ref)) :
    (ref = none ∧ (base = url ∨ base = "https://" ++ url)) ∨
    ∃ name, ref = some name ∧
      (p.scheme ∈ knownSchemes ∧ p.path = (rsplitAt p.path).1 ++ '@' :: name.toList ∧
          '@' ∉ name.toList ∧ base = ({ p with path := (rsplitAt p.path).1 } : ParseResult).geturl ∨
        p.scheme ∉ knownSchemes ∧ ∃ rest, base.toList = "https".toList ++ ':' :: rest) := by
  by_cases hknown : p.scheme ∈ knownSchemes
  · rw [parseRemote_of_known hparse hknown] at h
    split at h
    · next hat =>
      obtain ⟨hbase, href⟩ := Prod.mk.inj (Option.some.inj h)
      obtain ⟨hsplit, honce⟩ := exists_rsplitAt hat
      refine .inr ⟨_, href.symm, .inl ⟨hknown, ?_, ?_, hbase.symm⟩⟩
      · rwa [String.toList_ofList]
      · rwa [String.toList_ofList]
    · obtain ⟨hbase, href⟩ := Prod.mk.inj (Option.some.inj h)
      exact .inl ⟨href.symm, .inl hbase.symm⟩
  · cases ref with
    | none =>
      have hbase : base = "https://" ++ url := by
        unfold parseRemote at h
        simp only [hparse, Option.bind_some, List.contains_iff_mem, hknown, if_false,
          Option.map_eq_some_iff] at h
        obtain ⟨q, -, hsplit⟩ := h
        split at hsplit
        · simp at hsplit
        · exact (Prod.mk.inj hsplit).1.symm
      exact .inl ⟨rfl, .inr hbase⟩
    | some name =>
      obtain ⟨q, hq, -, hbase⟩ := parseRemote_of_unknown hparse hknown h
      have hqscheme : q.scheme = "https" :=
        @scheme_of_written _ _ _ _ ('/' :: '/' :: url.toList) (by decide) (by simp) hq
      have hne : q.scheme ≠ "" := by rw [hqscheme]; decide
      have huses : q.scheme ∈ ParseResult.usesNetloc := by rw [hqscheme]; decide
      refine .inr ⟨name, rfl, .inr ⟨hknown, ?_⟩⟩
      have htext := ParseResult.toList_geturl (p := { q with path := (rsplitAt q.path).1 }) hne huses
      rw [← hbase] at htext
      dsimp only at htext
      rw [hqscheme] at htext
      exact ⟨_, htext⟩

/-- A text that is read as two parts is written as they are. -/
theorem splitsAt_of_parseRepoUrl
    (h : parseRepoUrl fw (withRef base branch) = some (base, some branch)) :
    SplitsAt fw base branch := by
  obtain ⟨p, hparse, hssh, hscp, hremote⟩ := parseRepoUrl_eq_some_iff.mp h
  rcases parseRemote_cases hparse hremote with ⟨hnone, -⟩ | ⟨name, hname, hcase⟩
  · cases hnone
  · obtain rfl := Option.some.inj hname
    rcases hcase with ⟨hknown, hsplit, honce, hbase⟩ | ⟨hknown, rest, hhttps⟩
    · exact ⟨p.scheme, p.netloc, _, (exists_splits (mem_cloneSchemes hknown hssh) hparse hsplit hbase
        hscp honce (List.append_nil _).symm).2⟩
    · -- with another scheme the base URL begins with `https`, and so did the text
      have htext : (withRef base branch).toList =
          "https".toList ++ ':' :: (rest ++ '@' :: branch.toList) := by
        rw [toList_withRef, hhttps]
        simp
      rw [scheme_of_written (by decide) htext hparse] at hknown
      exact absurd (by decide) hknown

/-! ## What is set again -/

theorem setAppRemote_eq_some_iff {data stored : String} :
    setAppRemote fw data = some stored ↔ stripBlank data ≠ "" ∧
      ∃ base ref, parseRepoUrl fw (stripBlank data) = some (base, ref) ∧
        stored = ((truthy? ref).map (withRef base)).getD base := by
  unfold setAppRemote
  dsimp only
  by_cases hempty : stripBlank data = ""
  · simp [hempty]
  · rw [if_neg hempty]
    constructor
    · intro h
      obtain ⟨⟨base, ref⟩, hparsed, hstored⟩ := Option.map_eq_some_iff.mp h
      refine ⟨hempty, base, ref, hparsed, ?_⟩
      cases href : truthy? ref <;> simp_all
    · rintro ⟨-, base, ref, hparsed, rfl⟩
      rw [hparsed]
      cases href : truthy? ref <;> simp [href]

theorem toList_stripBlank_written {s : String} {rest : List Char} (hscheme : scheme ∈ cloneSchemes)
    (htext : s.toList = scheme.toList ++ ':' :: rest) :
    (stripBlank s).toList = scheme.toList ++ ':' :: Text.rstripChars rest := by
  have hleft : Text.lstripChars scheme.toList = scheme.toList := by
    simp only [cloneSchemes, List.mem_cons, List.not_mem_nil, or_false] at hscheme
    rcases hscheme with rfl | rfl | rfl | rfl <;> decide
  rw [Text.toList_stripBlank, htext, Text.strip_append_cons (by decide), hleft]

/-- A text with one of the schemes is stripped if its end is. -/
theorem stripBlank_written {s : String} {rest : List Char} (hscheme : scheme ∈ cloneSchemes)
    (htext : s.toList = scheme.toList ++ ':' :: rest)
    (hlast : ∀ c, rest.getLast? = some c → isBlank c = false) : stripBlank s = s := by
  rw [← String.toList_inj, toList_stripBlank_written hscheme htext, htext,
    Text.rstripChars_eq_self_iff.mpr hlast]

/-- What is stored unchanged had nothing to be stripped. -/
theorem stripBlank_of_setAppRemote {s : String} (h : setAppRemote fw s = some s) :
    stripBlank s = s := by
  obtain ⟨hthere, base, ref, hparsed, hs⟩ := setAppRemote_eq_some_iff.mp h
  obtain ⟨p, hparse, hssh, hscp, hremote⟩ := parseRepoUrl_eq_some_iff.mp hparsed
  rcases parseRemote_cases hparse hremote with ⟨rfl, hbase⟩ | ⟨name, rfl, hcase⟩
  · -- nothing but a scheme was put in front
    rcases hbase with rfl | rfl
    · exact hs.symm
    · have htext : s.toList = "https".toList ++ ':' :: ('/' :: '/' :: (stripBlank s).toList) := by
        conv => lhs; rw [hs]
        simp [truthy?]
      refine stripBlank_written (by decide) htext fun c hc => ?_
      have hne : (stripBlank s).toList ≠ [] := fun hnil => hthere (String.toList_eq_nil_iff.mp hnil)
      have hlast : (stripBlank s).toList.getLast? = some c := by
        rw [← hc]
        exact (List.getLast?_append_of_ne_nil ['/', '/'] hne).symm
      have hself : Text.rstripChars (stripBlank s).toList = (stripBlank s).toList := by
        rw [Text.toList_stripBlank, Text.rstripChars_rstripChars]
      exact Text.rstripChars_eq_self_iff.mp hself c hlast
  · -- what was stripped at the end would have to come back
    obtain ⟨scheme, rest, hscheme, htext, hwhole⟩ : ∃ scheme rest, scheme ∈ cloneSchemes ∧
        s.toList = scheme.toList ++ ':' :: rest ∧
        ∃ z, (withRef base name).toList = s.toList ++ z := by
      obtain ⟨scheme, rest, hscheme, hbase⟩ : ∃ scheme rest, scheme ∈ cloneSchemes ∧
          base.toList = scheme.toList ++ ':' :: rest := by
        rcases hcase with ⟨hknown, -, -, hbase⟩ | ⟨-, rest, hbase⟩
        · have hclone := mem_cloneSchemes hknown hssh
          obtain ⟨hne, huses, -⟩ := cloneScheme_facts hclone
          have htext := ParseResult.toList_geturl (p := { p with path := (rsplitAt p.path).1 }) hne huses
          rw [← hbase] at htext
          exact ⟨p.scheme, _, hclone, htext⟩
        · exact ⟨"https", rest, by decide, hbase⟩
      by_cases hname : name = ""
      · have hsbase : s = base := by simpa [truthy?, hname] using hs
        exact ⟨scheme, rest, hscheme, hsbase ▸ hbase, '@' :: name.toList, by rw [toList_withRef, hsbase]⟩
      · have hsref : s = withRef base name := by simpa [truthy?, hname] using hs
        refine ⟨scheme, rest ++ '@' :: name.toList, hscheme, ?_, [], by rw [hsref, List.append_nil]⟩
        rw [hsref, toList_withRef, hbase]
        simp
    obtain ⟨z, hwhole⟩ := hwhole
    have hstripped := toList_stripBlank_written hscheme htext
    obtain ⟨blanks, hblanks⟩ := Text.rstripChars_initial rest
    have hs' : s.toList = (stripBlank s).toList ++ blanks := by
      rw [hstripped, htext, ← hblanks]
      simp [hblanks]
    rcases hcase with ⟨hknown, hsplit, honce, hbase⟩ | ⟨hknown, -⟩
    · have hlonger : (withRef base name).toList = (stripBlank s).toList ++ (blanks ++ z) := by
        rw [hwhole, hs', List.append_assoc]
      have hmore := (exists_splits (mem_cloneSchemes hknown hssh) hparse hsplit hbase hscp honce
        hlonger).1
      rw [← String.toList_inj, hs', (List.append_eq_nil_iff.mp hmore).1, List.append_nil]
    · have hp := scheme_of_written hscheme hstripped hparse
      rw [hp] at hknown
      exact absurd (cloneScheme_facts hscheme).2.2.1 hknown

/-! ## The stored upstream -/

theorem storedUpstream_eq {repoUrl : String} {ref : Option String} (hthere : repoUrl ≠ "")
    (hparsed : parseRepoUrl fw repoUrl = some (base, ref)) (hbranch : branch ≠ "") :
    storedUpstream fw repoUrl branch =
      if (truthy? ref).isSome then repoUrl else withRef base branch := by
  unfold storedUpstream pinReflessToLandedBranch
  rw [if_neg hthere, hparsed]
  dsimp only
  split
  · rfl
  · simp [truthy?, hbranch]

theorem truthy?_ne {ref : Option String} {r : String} (h : truthy? ref = some r) : r ≠ "" := by
  unfold truthy? at h
  split at h
  · split at h
    · cases h
    · next hne => exact Option.some.inj h ▸ hne
  · cases h

/-- Which texts are read as the two parts and are set without a change. -/
theorem comesBack_text {stored name : String} (hname : name ≠ "") :
    parseRepoUrl fw stored = some (base, some name) ∧ setAppRemote fw stored = some stored ↔
      SplitsAt fw base name ∧ EndsVisibly name ∧ stored = withRef base name := by
  have htruthy : truthy? (some name) = some name := Text.truthy?_some_of_ne hname
  constructor
  · rintro ⟨hparsed, hset⟩
    have hstrip := stripBlank_of_setAppRemote hset
    obtain ⟨-, base', ref', hparsed', hstored⟩ := setAppRemote_eq_some_iff.mp hset
    rw [hstrip, hparsed] at hparsed'
    obtain ⟨rfl, rfl⟩ := Prod.mk.inj (Option.some.inj hparsed')
    rw [htruthy] at hstored
    obtain rfl : stored = withRef base name := hstored
    refine ⟨splitsAt_of_parseRepoUrl hparsed, fun c hc => ?_, rfl⟩
    obtain ⟨d, rest, hlist⟩ := List.exists_cons_of_ne_nil
      fun hnil => hname (String.toList_eq_nil_iff.mp hnil)
    have hends : Text.rstripChars (withRef base name).toList = (withRef base name).toList := by
      rw [← hstrip, Text.toList_stripBlank, Text.rstripChars_rstripChars]
    refine Text.rstripChars_eq_self_iff.mp hends c ?_
    rw [toList_withRef, List.getLast?_append_of_ne_nil _ (by simp), hlist, List.getLast?_cons_cons,
      ← hlist, hc]
  · rintro ⟨⟨scheme, netloc, path, hsplits⟩, hvisible, rfl⟩
    have hparsed := parseRepoUrl_withRef hsplits
    have htext : (withRef base name).toList = scheme.toList ++
        ':' :: (frontText netloc path ++ path ++ '@' :: name.toList) := by
      rw [toList_withRef, hsplits.written, toList_written hsplits.known]
      simp
    have hstrip : stripBlank (withRef base name) = withRef base name := by
      refine stripBlank_written hsplits.known htext fun c hc => ?_
      obtain ⟨d, rest, hlist⟩ := List.exists_cons_of_ne_nil
        fun hnil => hname (String.toList_eq_nil_iff.mp hnil)
      refine hvisible c ?_
      rw [← hc, List.getLast?_append_of_ne_nil _ (by simp), hlist, List.getLast?_cons_cons]
    refine ⟨hparsed, setAppRemote_eq_some_iff.mpr ⟨?_, base, some name, ?_, ?_⟩⟩
    · intro hempty
      rw [hstrip] at hempty
      rw [hempty] at htext
      simp at htext
    · rw [hstrip, hparsed]
    · rw [htruthy]
      rfl

/-- What an app was installed from comes back as its base URL and its branch exactly if it is written as
`geturl` writes it, ends with its path, and the branch has no delimiter in it. -/
theorem comesBack_iff (fw : Framework) {repoUrl base branch : String} {ref : Option String}
    (hthere : repoUrl ≠ "") (hparsed : parseRepoUrl fw repoUrl = some (base, ref))
    (hbranch : branch ≠ "") :
    ComesBack fw repoUrl base ref branch ↔
      SplitsAt fw base ((truthy? ref).getD branch) ∧ EndsVisibly ((truthy? ref).getD branch) ∧
        ∀ r, truthy? ref = some r → repoUrl = withRef base r := by
  have hstored := storedUpstream_eq hthere hparsed hbranch
  have hname : (truthy? ref).getD branch ≠ "" := by
    cases href : truthy? ref with
    | none => exact hbranch
    | some r => exact truthy?_ne href
  have hwritten : (∀ r, truthy? ref = some r → repoUrl = withRef base r) ↔
      storedUpstream fw repoUrl branch = withRef base ((truthy? ref).getD branch) := by
    rw [hstored]
    cases truthy? ref <;> simp
  rw [hwritten, ← comesBack_text hname]
  exact ⟨fun h => ⟨h.parses, h.unchanged⟩, fun h => ⟨h.1, h.2⟩⟩

theorem splits_notes : Splits Web.plainFramework "https://example.org/u/notes.git" "main" "https"
    "example.org".toList "/u/notes.git".toList := by
  constructor
  · decide +kernel
  · decide
  · decide
  · simp [endsNetloc]
  · decide
  · simp
  · simp
  · decide
  · simp [isRemoved]
  · decide
  · decide

/-- A repository is installed without a ref and lands on `main`. -/
theorem comesBack_notes :
    ComesBack Web.plainFramework "https://example.org/u/notes.git" "https://example.org/u/notes.git" none
      "main" :=
  (comesBack_iff Web.plainFramework (by decide) (by decide +kernel) (by decide)).mpr
    ⟨⟨_, _, _, splits_notes⟩, fun c hc => by rw [← Option.some.inj hc]; decide,
      fun _ h => by cases h⟩

/-- A repository that is named by a query is accepted, but the branch ends up in the query. -/
theorem not_comesBack_query :
    parseRepoUrl Web.plainFramework "https://example.org/u/notes?x=1" =
        some ("https://example.org/u/notes?x=1", none) ∧
      storedUpstream Web.plainFramework "https://example.org/u/notes?x=1" "main" =
        "https://example.org/u/notes?x=1@main" ∧
      ¬ ComesBack Web.plainFramework "https://example.org/u/notes?x=1" "https://example.org/u/notes?x=1"
        none "main" := by
  refine ⟨by decide +kernel, by decide +kernel, fun h => ?_⟩
  have hlost : parseRepoUrl Web.plainFramework
      (storedUpstream Web.plainFramework "https://example.org/u/notes?x=1" "main") =
        some ("https://example.org/u/notes?x=1@main", none) := by decide +kernel
  rw [h.parses] at hlost
  exact absurd hlost (by decide)

end OpenHost.Upstream
