import OpenHost.Web.LoginRedirect

/-!
# The pieces of a URL

What `urlparse` finds in a URL stands in it in order: a scheme, a network location, a path and a tail.
`geturl` writes the pieces again, and `urlparse` reads them back from a URL that `geturl` wrote without a
tail.
-/

namespace OpenHost.Web

open Text (lower)

/-! ## Cutting a list at a delimiter -/

theorem eq_cut (d : Char) (l : List Char) :
    l.takeWhile (· ≠ d) ++ l.dropWhile (· ≠ d) = l := List.takeWhile_append_dropWhile

/-- What comes from the delimiter on is empty or begins with it. -/
theorem dropWhile_ne_cases (d : Char) (l : List Char) :
    l.dropWhile (· ≠ d) = [] ∨ ∃ rest, l.dropWhile (· ≠ d) = d :: rest := by
  cases h : l.dropWhile (· ≠ d) with
  | nil => exact .inl rfl
  | cons c rest =>
    have hc := List.head?_dropWhile_not (fun c => decide (c ≠ d)) l
    rw [h] at hc
    have heq : c = d := by simpa using hc
    exact .inr ⟨rest, by rw [heq]⟩

theorem not_mem_takeWhile_ne (d : Char) (l : List Char) : d ∉ l.takeWhile (· ≠ d) := by
  intro h
  simpa using List.mem_takeWhile_imp h

theorem takeWhile_ne_append {d : Char} {l rest : List Char} (h : d ∉ l) :
    (l ++ d :: rest).takeWhile (· ≠ d) = l := by
  rw [List.takeWhile_append_of_pos fun c hc => by simpa using ne_of_mem_of_not_mem hc h]
  simp

theorem dropWhile_ne_append {d : Char} {l rest : List Char} (h : d ∉ l) :
    (l ++ d :: rest).dropWhile (· ≠ d) = d :: rest := by
  rw [List.dropWhile_append_of_pos fun c hc => by simpa using ne_of_mem_of_not_mem hc h]
  simp

/-! ## The tail of a path -/

/-- Nothing, or something that begins with the delimiter of a later part. -/
def IsTail (tail : List Char) : Prop :=
  tail = [] ∨ ∃ c rest, tail = c :: rest ∧ (c = ';' ∨ c = '?' ∨ c = '#')

theorem isTail_nil : IsTail [] := .inl rfl

theorem isTail_dropWhile {d : Char} (hd : d = ';' ∨ d = '?' ∨ d = '#') (l : List Char) :
    IsTail (l.dropWhile (· ≠ d)) := by
  rcases dropWhile_ne_cases d l with h | ⟨rest, h⟩
  · exact .inl h
  · exact .inr ⟨d, rest, h, hd⟩

theorem IsTail.append {a b : List Char} (ha : IsTail a) (hb : IsTail b) : IsTail (a ++ b) := by
  rcases ha with rfl | ⟨c, rest, rfl, hc⟩
  · exact hb
  · exact .inr ⟨c, rest ++ b, rfl, hc⟩

/-- A tail does not begin like a ref. -/
theorem IsTail.eq_nil_of_append {tail tail' ref : List Char} (h : IsTail tail)
    (heq : tail ++ '@' :: ref = '@' :: ref ++ tail') : tail = [] ∧ tail' = [] := by
  rcases h with rfl | ⟨c, rest, rfl, hc⟩
  · have hnil : '@' :: ref ++ [] = '@' :: ref ++ tail' := by simpa using heq
    exact ⟨rfl, (List.append_cancel_left hnil).symm⟩
  · have hfirst : c = '@' := (List.cons_eq_cons.mp heq).1
    simp [hfirst] at hc

/-- What is cut off at the end is put back. -/
theorem take_append_lastPart (p : Char → Bool) (l : List Char) :
    l.take (l.length - (l.reverse.takeWhile p).reverse.length) ++ (l.reverse.takeWhile p).reverse =
      l := by
  have hsuffix : (l.reverse.takeWhile p).reverse <:+ l := by
    rw [← List.reverse_prefix, List.reverse_reverse]
    exact List.takeWhile_prefix p
  obtain ⟨front, hfront⟩ := hsuffix
  generalize (l.reverse.takeWhile p).reverse = last at hfront ⊢
  subst hfront
  simp

/-- The parameters are cut off at the end. -/
theorem exists_splitParams (path : List Char) : ∃ tail, path = (splitParams path).1 ++ tail ∧
    IsTail tail ∧ ∀ c ∈ (splitParams path).2, c ∈ path := by
  have hpath := take_append_lastPart (· ≠ '/') path
  unfold splitParams
  generalize (path.reverse.takeWhile (· ≠ '/')).reverse = last at hpath ⊢
  dsimp only
  split
  · refine ⟨last.dropWhile (· ≠ ';'), ?_, isTail_dropWhile (.inl rfl) last, fun c hc => ?_⟩
    · rw [List.append_assoc, eq_cut]
      exact hpath.symm
    · have hlast : c ∈ last := (List.dropWhile_suffix _).subset (List.mem_of_mem_tail hc)
      rw [← hpath]
      exact List.mem_append_right _ hlast
  · exact ⟨[], by simp, isTail_nil, by simp⟩

/-! ## What `urlparse` finds -/

/-- What stands before the path: two slashes and the network location, or nothing. -/
structure IsFront (front netloc after : List Char) : Prop where
  chars : ∀ c ∈ netloc, endsNetloc c = false
  shape : front = '/' :: '/' :: netloc ∧ (after = [] ∨ ∃ c rest, after = c :: rest ∧ endsNetloc c = true) ∨
    front = [] ∧ netloc = [] ∧ ∀ rest, after ≠ '/' :: '/' :: rest

/-- The network location and what follows it. -/
theorem exists_front (url : List Char) : ∃ front, url = front ++ afterNetloc url ∧
    IsFront front (splitNetloc url) (afterNetloc url) := by
  by_cases hslashes : ∃ rest, url = '/' :: '/' :: rest
  · obtain ⟨rest, rfl⟩ := hslashes
    refine ⟨'/' :: '/' :: rest.takeWhile (!endsNetloc ·), ?_, ?_, .inl ⟨rfl, ?_⟩⟩
    · simp [afterNetloc]
    · intro c hc
      simpa using List.mem_takeWhile_imp hc
    · change rest.dropWhile (!endsNetloc ·) = [] ∨ _
      cases h : rest.dropWhile (!endsNetloc ·) with
      | nil => exact .inl rfl
      | cons c after =>
        have hc := List.head?_dropWhile_not (!endsNetloc ·) rest
        rw [h] at hc
        exact .inr ⟨c, after, h, by simpa using hc⟩
  · have hafter : afterNetloc url = url := by
      unfold afterNetloc
      split
      · next rest => exact absurd ⟨rest, rfl⟩ hslashes
      · rfl
    have hnetloc : splitNetloc url = [] := by
      unfold splitNetloc
      split
      · next rest => exact absurd ⟨rest, rfl⟩ hslashes
      · rfl
    rw [hafter, hnetloc]
    exact ⟨[], rfl, by simp, .inr ⟨rfl, rfl, fun rest heq => hslashes ⟨rest, heq⟩⟩⟩

/-- The scheme and what follows it. -/
theorem exists_scheme {url : List Char} (h : hasScheme url = true) : ∃ raw,
    url = raw ++ ':' :: dropScheme url ∧ urlScheme url = lower (String.ofList raw) ∧
      raw.head?.any isAsciiAlpha = true ∧ raw.all isSchemeChar = true := by
  have hparts := h
  simp only [hasScheme, Bool.and_eq_true, decide_eq_true_eq] at hparts
  obtain ⟨⟨hlen, halpha⟩, hchars⟩ := hparts
  refine ⟨url.takeWhile (· ≠ ':'), ?_, by rw [urlScheme, if_pos h], halpha, hchars⟩
  rcases dropWhile_ne_cases ':' url with hnil | ⟨rest, hrest⟩
  · have hall := eq_cut ':' url
    rw [hnil, List.append_nil] at hall
    rw [hall] at hlen
    exact absurd hlen (Nat.lt_irrefl _)
  · have hurl := eq_cut ':' url
    rw [hrest] at hurl
    have hdrop : dropScheme url = rest := by
      rw [← hurl] at halpha hchars ⊢
      rw [takeWhile_ne_append (not_mem_takeWhile_ne ':' url)] at halpha hchars
      exact dropScheme_append halpha hchars
    rw [hdrop, hurl]

/-- What follows the network location: a path and a tail. -/
structure HasPath (p : ParseResult) (after tail : List Char) : Prop where
  eq : after = p.path ++ tail
  isTail : IsTail tail
  params : tail = [] → p.scheme ∈ usesParams → splitParams p.path = (p.path, p.params)
  path : ∀ c ∈ p.path, c ≠ '?' ∧ c ≠ '#'
  rest : ∀ c ∈ p.params ++ p.query ++ p.fragment, c ∈ after

/-- How `urlparse` divides what follows the network location. -/
theorem exists_hasPath (scheme : String) (netloc after : List Char) :
    let beforeFragment := after.takeWhile (· ≠ '#')
    let path := beforeFragment.takeWhile (· ≠ '?')
    let split := if scheme ∈ usesParams then splitParams path else (path, [])
    ∃ tail, HasPath ⟨scheme, netloc, split.1, split.2, (beforeFragment.dropWhile (· ≠ '?')).tail,
      (after.dropWhile (· ≠ '#')).tail⟩ after tail := by
  intro beforeFragment path split
  have hcut : after = path ++ (beforeFragment.dropWhile (· ≠ '?') ++ after.dropWhile (· ≠ '#')) := by
    rw [← List.append_assoc, eq_cut, eq_cut]
  have hbefore : ∀ c ∈ beforeFragment, c ∈ after := fun c hc =>
    (List.takeWhile_prefix _).subset hc
  have hpath : ∀ c ∈ path, c ∈ beforeFragment := fun c hc => (List.takeWhile_prefix _).subset hc
  obtain ⟨tail, hsplit, htail, hparams⟩ : ∃ tail, path = split.1 ++ tail ∧ IsTail tail ∧
      ∀ c ∈ split.2, c ∈ path := by
    by_cases huses : scheme ∈ usesParams
    · simp only [split, if_pos huses]
      exact exists_splitParams path
    · simp only [split, if_neg huses]
      exact ⟨[], by simp, isTail_nil, by simp⟩
  refine ⟨tail ++ (beforeFragment.dropWhile (· ≠ '?') ++ after.dropWhile (· ≠ '#')), ?_⟩
  constructor
  · rw [← List.append_assoc, ← hsplit]
    exact hcut
  · exact htail.append ((isTail_dropWhile (by simp) _).append (isTail_dropWhile (by simp) _))
  · intro hnil huses
    have heq : path = split.1 := by
      rw [(List.append_eq_nil_iff.mp hnil).1, List.append_nil] at hsplit
      exact hsplit
    have hboth : split = splitParams path := if_pos huses
    change splitParams split.1 = split
    rw [← heq, ← hboth]
  · intro c hc
    have hmem : c ∈ path := by
      rw [hsplit]
      exact List.mem_append_left _ hc
    refine ⟨?_, ?_⟩
    · rintro rfl
      exact not_mem_takeWhile_ne '?' beforeFragment hmem
    · rintro rfl
      exact not_mem_takeWhile_ne '#' after (hpath _ hmem)
  · intro c hc
    rw [List.mem_append, List.mem_append] at hc
    rcases hc with (hc | hc) | hc
    · exact hbefore c (hpath c (hparams c hc))
    · exact hbefore c ((List.dropWhile_suffix _).subset (List.mem_of_mem_tail hc))
    · exact (List.dropWhile_suffix _).subset (List.mem_of_mem_tail hc)

/-- The pieces that a URL with a scheme is made of. -/
theorem exists_pieces {fw : Framework} {url : String} {p : ParseResult}
    (h : urlparse fw url = some p) (hscheme : p.scheme ≠ "") : ∃ raw front after tail,
      cleanUrl url.toList = raw ++ ':' :: (front ++ after) ∧
      p.scheme = lower (String.ofList raw) ∧ raw.head?.any isAsciiAlpha = true ∧
      raw.all isSchemeChar = true ∧ IsFront front p.netloc after ∧ HasPath p after tail ∧
      netlocOk fw p.netloc = true := by
  unfold urlparse at h
  dsimp only at h
  split at h
  · next hok =>
    generalize cleanUrl url.toList = cleaned at h hok ⊢
    obtain rfl := Option.some.inj h
    have hhas : hasScheme cleaned = true := by
      by_contra hno
      exact hscheme (if_neg hno)
    obtain ⟨raw, hcleaned, hlower, halpha, hchars⟩ := exists_scheme hhas
    obtain ⟨front, hrest, hfront⟩ := exists_front (dropScheme cleaned)
    obtain ⟨tail, htail⟩ := exists_hasPath (urlScheme cleaned) (splitNetloc (dropScheme cleaned))
      (afterNetloc (dropScheme cleaned))
    refine ⟨raw, front, afterNetloc (dropScheme cleaned), tail, ?_, hlower, halpha, hchars, hfront,
      htail, hok⟩
    rw [← hrest, ← hcleaned]
  · cases h

/-! ## What `geturl` writes -/

/-- A part with its delimiter, if it is there. -/
def delimited (d : Char) (part : List Char) : List Char := if part ≠ [] then d :: part else []

theorem isTail_delimited {d : Char} (hd : d = ';' ∨ d = '?' ∨ d = '#') (part : List Char) :
    IsTail (delimited d part) := by
  unfold delimited
  split
  · exact .inr ⟨d, part, rfl, hd⟩
  · exact isTail_nil

theorem delimited_eq_nil_iff {d : Char} {part : List Char} : delimited d part = [] ↔ part = [] := by
  unfold delimited
  split
  · next h => simp [h]
  · next h => simpa using h

theorem mem_of_mem_delimited {d c : Char} {part : List Char} (h : c ∈ delimited d part) :
    c = d ∨ c ∈ part := by
  unfold delimited at h
  split at h
  · exact List.mem_cons.mp h
  · simp at h

namespace ParseResult

/-- The parameters, the query and the fragment as they are written. -/
def tailText (p : ParseResult) : List Char :=
  delimited ';' p.params ++ (delimited '?' p.query ++ delimited '#' p.fragment)

theorem isTail_tailText (p : ParseResult) : IsTail p.tailText :=
  (isTail_delimited (by simp) _).append
    ((isTail_delimited (by simp) _).append (isTail_delimited (by simp) _))

theorem tailText_eq_nil_iff {p : ParseResult} :
    p.tailText = [] ↔ p.params = [] ∧ p.query = [] ∧ p.fragment = [] := by
  simp [tailText, delimited_eq_nil_iff]

/-- What is written before the path. -/
def frontText (netloc path : List Char) : List Char :=
  if netloc ≠ [] then
    '/' :: '/' :: netloc ++ (if path ≠ [] && path.head? ≠ some '/' then ['/'] else [])
  else if path = [] || path.head? = some '/' then ['/', '/']
  else []

theorem location_eq {p : ParseResult} (hscheme : p.scheme ≠ "") (huses : p.scheme ∈ usesNetloc)
    (path : List Char) : p.location path = frontText p.netloc path ++ path := by
  unfold location frontText
  by_cases hnetloc : p.netloc ≠ []
  · rw [if_pos hnetloc, if_pos hnetloc]
    split <;> simp
  · rw [if_neg hnetloc, if_neg hnetloc]
    -- two slashes begin with a slash
    by_cases htwo : path.take 2 = ['/', '/']
    · obtain ⟨rest, rfl⟩ : ∃ rest, path = '/' :: '/' :: rest :=
        ⟨path.drop 2, by rw [← List.take_append_drop 2 path, htwo]; simp⟩
      simp
    · rw [if_neg htwo]
      simp only [hscheme, huses, ne_eq, not_false_eq_true, decide_true, Bool.true_and]
      split <;> simp

theorem toList_geturl {p : ParseResult} (hscheme : p.scheme ≠ "") (huses : p.scheme ∈ usesNetloc) :
    p.geturl.toList = p.scheme.toList ++ ':' ::
      (frontText p.netloc (p.path ++ delimited ';' p.params) ++ (p.path ++ p.tailText)) := by
  have hpath : (if p.params ≠ [] then p.path ++ ';' :: p.params else p.path) =
      p.path ++ delimited ';' p.params := by
    unfold delimited
    split <;> simp
  unfold geturl
  dsimp only
  rw [hpath, if_pos hscheme, location_eq hscheme huses, String.toList_ofList]
  unfold tailText
  generalize delimited ';' p.params = params
  unfold delimited
  by_cases hquery : p.query ≠ [] <;> by_cases hfragment : p.fragment ≠ [] <;>
    simp [hquery, hfragment]

end ParseResult

/-! ## Clean texts -/

theorem isRemoved_of_mem_cleanUrl {url : List Char} {c : Char} (h : c ∈ cleanUrl url) :
    isRemoved c = false := by
  have hkeep := (List.mem_filter.mp h).2
  simpa [isRemoved, and_assoc] using hkeep

/-- A text that begins with a visible character and has no tab and no line break is clean. -/
theorem cleanUrl_of_kept {c : Char} {url : List Char} (hfirst : ' ' < c)
    (hkept : ∀ d ∈ url, isRemoved d = false) : cleanUrl (c :: url) = c :: url := by
  rw [cleanUrl_cons hfirst, List.filter_eq_self.mpr fun d hd => by simp [hkept d hd]]

end OpenHost.Web
