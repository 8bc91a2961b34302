import OpenHost.Web.Headers

/-!
# Cookies that reach a backend app

The router cuts the owner's session out of the cookie headers it forwards by looking at how a part
of the header begins.  The parser that authenticates the owner strips white space around the name
first.  This module says for which headers the two agree.
-/

namespace OpenHost.Web

open Text (lower before after split startsWith stripBlank isBlank lstripChars rstripChars)

/-! ## The parts of a cookie header -/

theorem isBlank_equals : isBlank '=' = false := by decide

/-- A part with an `=` is stripped on the outer sides of name and value only. -/
theorem toList_stripBlank_part {part : String} {a b : List Char}
    (h : part.toList = a ++ '=' :: b) :
    (stripBlank part).toList = lstripChars a ++ '=' :: rstripChars b := by
  rw [Text.toList_stripBlank, h, Text.strip_append_cons isBlank_equals]

theorem toList_before_part {part : String} {a b : List Char} (ha : '=' ∉ a)
    (h : part.toList = a ++ '=' :: b) : (before '=' part).toList = a := by
  have hp : ∀ c ∈ a, decide (c ≠ '=') = true := by
    intro c hc
    simp only [decide_eq_true_eq]
    rintro rfl
    exact ha hc
  rw [Text.toList_before, h, List.takeWhile_append_of_pos hp]
  simp

theorem toList_after_part {part : String} {a b : List Char} (ha : '=' ∉ a)
    (h : part.toList = a ++ '=' :: b) : (after '=' part).toList = b := by
  have hp : ∀ c ∈ a, decide (c ≠ '=') = true := by
    intro c hc
    simp only [decide_eq_true_eq]
    rintro rfl
    exact ha hc
  rw [Text.toList_after, h, List.dropWhile_append_of_pos hp]
  simp

theorem not_mem_lstripChars {c : Char} {l : List Char} (h : c ∉ l) : c ∉ lstripChars l :=
  fun hc => h ((List.dropWhile_suffix isBlank).mem hc)

/-- The parser reads the same name and value from a part before and after it is stripped. -/
theorem cookiePart_stripBlank (part : String) : cookiePart (stripBlank part) = cookiePart part := by
  by_cases heq : '=' ∈ part.toList
  · obtain ⟨a, b, hsplit, ha⟩ := List.eq_append_cons_of_mem heq
    have hstrip := toList_stripBlank_part hsplit
    have ha' := not_mem_lstripChars ha
    have hmem : '=' ∈ (stripBlank part).toList := by rw [hstrip]; simp
    rw [cookiePart, cookiePart, if_pos hmem, if_pos heq, Prod.mk.injEq]
    constructor
    · rw [← String.toList_inj, Text.toList_stripBlank, Text.toList_stripBlank,
        toList_before_part ha' hstrip, toList_before_part ha hsplit, Text.lstripChars_lstripChars]
    · rw [← String.toList_inj, Text.toList_stripBlank, Text.toList_stripBlank,
        toList_after_part ha' hstrip, toList_after_part ha hsplit]
      exact Text.strip_rstripChars b
  · have hmem : '=' ∉ (stripBlank part).toList := by
      rw [Text.toList_stripBlank]
      intro hc
      exact not_mem_lstripChars heq ((Text.rstripChars_initial _).mem hc)
    rw [cookiePart, cookiePart, if_neg hmem, if_neg heq, Text.stripBlank_stripBlank]

/-- White space before a part is not seen. -/
theorem cookiePart_blank_cons (l : List Char) :
    cookiePart (String.ofList (' ' :: l)) = cookiePart (String.ofList l) := by
  have hstrip : stripBlank (String.ofList (' ' :: l)) = stripBlank (String.ofList l) := by
    rw [← String.toList_inj, Text.toList_stripBlank, Text.toList_stripBlank, String.toList_ofList,
      String.toList_ofList, Text.strip_cons_of_blank (by decide)]
  rw [← cookiePart_stripBlank, hstrip, cookiePart_stripBlank]

/-! ## Which parts are cut out -/

theorem sessionCookieName_no_equals : '=' ∉ sessionCookieName.toList := by decide

theorem isStripped_iff (part : String) :
    isStripped part = true ↔ ∃ r, stripBlank part = sessionCookieName ++ "=" ++ r := by
  simp only [isStripped, cookiePrefixes, List.map_cons, List.map_nil, List.any_cons, List.any_nil,
    Bool.or_false, Text.startsWith_iff]

/-- What is cut out is a session cookie for the parser too. -/
theorem cookiePart_of_isStripped {part : String} (h : isStripped part = true) :
    (cookiePart part).1 = sessionCookieName := by
  obtain ⟨r, hr⟩ := (isStripped_iff part).mp h
  have hlist : (stripBlank part).toList = sessionCookieName.toList ++ '=' :: r.toList := by
    rw [hr]
    simp
  have hmem : '=' ∈ (stripBlank part).toList := by rw [hlist]; simp
  have hbefore : before '=' (stripBlank part) = sessionCookieName := by
    rw [← String.toList_inj, toList_before_part sessionCookieName_no_equals hlist]
  have hname : stripBlank sessionCookieName = sessionCookieName := by decide
  rw [← cookiePart_stripBlank, cookiePart, if_pos hmem, hbefore, hname]

/-- The name in this part ends in white space. -/
def spacedName (part : String) : Bool := (before '=' part).toList.getLast?.any isBlank

theorem getLast?_lstripChars {l : List Char} (h : lstripChars l ≠ []) :
    (lstripChars l).getLast? = l.getLast? := by
  obtain ⟨pre, hpre⟩ : ∃ pre, pre ++ lstripChars l = l := List.dropWhile_suffix isBlank
  calc (lstripChars l).getLast? = (pre ++ lstripChars l).getLast? :=
        (List.getLast?_append_of_ne_nil pre h).symm
    _ = l.getLast? := by rw [hpre]

/-- A session cookie is cut out exactly where no white space follows its name. -/
theorem isStripped_iff_of_session {part : String}
    (h : (cookiePart part).1 = sessionCookieName) :
    isStripped part = true ↔ spacedName part = false := by
  have heq : '=' ∈ part.toList := by
    by_contra hno
    rw [cookiePart, if_neg hno] at h
    have hempty : ¬ "" = sessionCookieName := by decide
    exact hempty h
  obtain ⟨a, b, hsplit, ha⟩ := List.eq_append_cons_of_mem heq
  have hstrip := toList_stripBlank_part hsplit
  have hbefore := toList_before_part ha hsplit
  have hname : rstripChars (lstripChars a) = sessionCookieName.toList := by
    rw [cookiePart, if_pos heq] at h
    simp only at h
    rw [← h, Text.toList_stripBlank, hbefore]
  have hne : lstripChars a ≠ [] := by
    intro hnil
    rw [hnil] at hname
    exact absurd hname (by decide)
  -- the part begins with `name=` exactly when stripping the end of the name changes nothing
  have hkey : isStripped part = true ↔ lstripChars a = sessionCookieName.toList := by
    rw [isStripped_iff]
    constructor
    · rintro ⟨r, hr⟩
      have hlist : lstripChars a ++ '=' :: rstripChars b =
          sessionCookieName.toList ++ '=' :: r.toList := by
        rw [← hstrip, hr]
        simp
      have htake := congrArg (List.takeWhile (· ≠ '=')) hlist
      have hp : ∀ {l : List Char}, '=' ∉ l → ∀ c ∈ l, decide (c ≠ '=') = true := by
        intro l hl c hc
        simp only [decide_eq_true_eq]
        rintro rfl
        exact hl hc
      rw [List.takeWhile_append_of_pos (hp (not_mem_lstripChars ha)),
        List.takeWhile_append_of_pos (hp sessionCookieName_no_equals)] at htake
      simpa using htake
    · intro hl
      refine ⟨String.ofList (rstripChars b), ?_⟩
      rw [← String.toList_inj, hstrip, hl]
      simp
  rw [hkey, ← hname, eq_comm, Text.rstripChars_eq_self_iff, getLast?_lstripChars hne, spacedName,
    hbefore]
  cases a.getLast? with
  | none => simp
  | some c => simp

/-! ## Parsing what is forwarded -/

section Forwarded

variable (fw : Framework)

/-- The cookies that the parser makes of the parts of a header. -/
def parseParts (parts : List String) : List (String × String) :=
  ((parts.map cookiePart).filter fun kv => kv.1 ≠ "" || kv.2 ≠ "").map
    fun kv => (kv.1, fw.unquoteCookie kv.2)

/-- The cookies of all cookie headers, in their order. -/
def cookiesOf (headers : List Header) : List (String × String) :=
  (valuesOf "cookie" headers).flatMap (parseCookieString fw)

/-- The parts of a header that are forwarded. -/
def forwardedParts (value : String) : List String :=
  (split ';' value).filter fun part => !isStripped part

theorem parseParts_keptParts (value : String) :
    parseParts fw (keptParts value) = parseParts fw (forwardedParts value) := by
  have hmap : (keptParts value).map cookiePart = (forwardedParts value).map cookiePart := by
    rw [keptParts, List.map_map]
    apply List.map_congr_left
    intro part _
    rw [Function.comp_apply, cookiePart_stripBlank]
  rw [parseParts, hmap, parseParts]

theorem semicolon_not_mem_of_mem_keptParts {value part : String} (h : part ∈ keptParts value) :
    ';' ∉ part.toList := by
  obtain ⟨q, hq, rfl⟩ := List.mem_map.mp h
  obtain ⟨l, hl, rfl⟩ := List.mem_map.mp (List.mem_filter.mp hq).1
  have hno := Text.not_mem_of_mem_splitOn hl
  rw [Text.toList_stripBlank, String.toList_ofList]
  intro hc
  exact not_mem_lstripChars hno ((Text.rstripChars_initial _).mem hc)

/-- The header that is forwarded is parsed as the parts that were kept. -/
theorem parseCookieString_sanitizeCookie {value : String} (h : keptParts value ≠ []) :
    parseCookieString fw (sanitizeCookie value) = parseParts fw (forwardedParts value) := by
  rw [← parseParts_keptParts]
  obtain ⟨p, ps, hp⟩ := List.exists_cons_of_ne_nil h
  have hno : ∀ q ∈ p.toList :: ps.map String.toList, ';' ∉ q := by
    intro q hq
    have hq' : q ∈ (keptParts value).map String.toList := by rw [hp]; exact hq
    obtain ⟨part, hpart, rfl⟩ := List.mem_map.mp hq'
    exact semicolon_not_mem_of_mem_keptParts hpart
  have hsplit : split ';' (sanitizeCookie value) =
      p :: ps.map fun q => String.ofList (' ' :: q.toList) := by
    have hsep : ("; ".toList : List Char) = [';', ' '] := rfl
    rw [sanitizeCookie, hp, split, String.toList_intercalate, hsep, List.map_cons,
      Text.splitOn_intercalate_blank (by decide) _ _ hno]
    simp [Function.comp_def]
  have hmap : (split ';' (sanitizeCookie value)).map cookiePart =
      (keptParts value).map cookiePart := by
    have htail : ps.map (cookiePart ∘ fun q => String.ofList (' ' :: q.toList)) =
        ps.map cookiePart := by
      apply List.map_congr_left
      intro q _
      rw [Function.comp_apply, cookiePart_blank_cons, String.ofList_toList]
    rw [hsplit, hp, List.map_cons, List.map_map, List.map_cons, htail]
  rw [parseCookieString, hmap, parseParts]

/-- A header of which nothing is left held no cookie to forward. -/
theorem parseParts_of_sanitizeCookie_empty {value : String} (h : sanitizeCookie value = "") :
    parseParts fw (forwardedParts value) = [] := by
  rw [← parseParts_keptParts]
  have hlist : [';', ' '].intercalate ((keptParts value).map String.toList) = [] := by
    have hl := congrArg String.toList h
    rw [sanitizeCookie, String.toList_intercalate] at hl
    simpa using hl
  match hk : keptParts value with
  | [] => rfl
  | [p] =>
    have hp : p = "" := by simpa [hk] using hlist
    rw [hp]
    have hpart : cookiePart "" = ("", "") := by decide
    simp [parseParts, hpart]
  | p :: q :: ps => simp [hk] at hlist

theorem sanitizeHeader_cookie {key value : String} (h : lower key = "cookie") :
    sanitizeHeader (key, value) =
      if sanitizeCookie value = "" then none else some (key, sanitizeCookie value) := by
  have hno : startsWith "cookie" openhostHeaderPrefix = false := by decide
  simp [sanitizeHeader, h, hno]

/-- A header of another name keeps its name and value, if it is kept. -/
theorem sanitizeHeader_other {key value : String} {header' : Header}
    (h : lower key ≠ "cookie") (hs : sanitizeHeader (key, value) = some header') :
    header' = (key, value) := by
  simp only [sanitizeHeader] at hs
  split at hs
  · cases hs
  · exact (Option.some.inj hs).symm

/-- The cookies of the forwarded headers are those of the parts that were kept. -/
theorem cookiesOf_sanitizeForwardedHeaders (headers : List Header) :
    cookiesOf fw (sanitizeForwardedHeaders headers) =
      (valuesOf "cookie" headers).flatMap fun value => parseParts fw (forwardedParts value) := by
  induction headers with
  | nil => rfl
  | cons header headers ih =>
    obtain ⟨key, value⟩ := header
    have hcons : ∀ (hs : List Header) (kv : Header), valuesOf "cookie" (kv :: hs) =
        (if lower kv.1 = "cookie" then [kv.2] else []) ++ valuesOf "cookie" hs := by
      intro hs kv
      by_cases hk : lower kv.1 = "cookie" <;> simp [valuesOf, hk]
    by_cases hkey : lower key = "cookie"
    · rw [hcons, if_pos hkey, List.flatMap_append]
      by_cases hempty : sanitizeCookie value = ""
      · have hdrop : sanitizeForwardedHeaders ((key, value) :: headers) =
            sanitizeForwardedHeaders headers := by
          simp [sanitizeForwardedHeaders, sanitizeHeader_cookie hkey, hempty]
        rw [hdrop, ih]
        simp [parseParts_of_sanitizeCookie_empty fw hempty]
      · have hkeep : sanitizeForwardedHeaders ((key, value) :: headers) =
            (key, sanitizeCookie value) :: sanitizeForwardedHeaders headers := by
          simp [sanitizeForwardedHeaders, sanitizeHeader_cookie hkey, hempty]
        have hparts : keptParts value ≠ [] := by
          intro hnil
          apply hempty
          rw [sanitizeCookie, hnil]
          rfl
        rw [hkeep, cookiesOf, hcons, if_pos hkey, List.flatMap_append]
        have htail : (valuesOf "cookie" (sanitizeForwardedHeaders headers)).flatMap
            (parseCookieString fw) = cookiesOf fw (sanitizeForwardedHeaders headers) := by
          rw [cookiesOf]
        rw [htail, ih]
        simp [parseCookieString_sanitizeCookie fw hparts]
    · -- a header of another name adds no cookie on either side
      have hskip : cookiesOf fw (sanitizeForwardedHeaders ((key, value) :: headers)) =
          cookiesOf fw (sanitizeForwardedHeaders headers) := by
        cases hs : sanitizeHeader (key, value) with
        | none => simp [sanitizeForwardedHeaders, hs]
        | some header' =>
          have hsame := sanitizeHeader_other hkey hs
          subst hsame
          have hcons' := hcons (sanitizeForwardedHeaders headers) (key, value)
          rw [if_neg hkey, List.nil_append] at hcons'
          have hhead : sanitizeForwardedHeaders ((key, value) :: headers) =
              (key, value) :: sanitizeForwardedHeaders headers := by
            simp [sanitizeForwardedHeaders, hs]
          rw [hhead, cookiesOf, hcons', cookiesOf]
      rw [hskip, ih, hcons, if_neg hkey, List.nil_append]

/-- Neither the excluded names nor the router's own headers touch the cookies. -/
theorem cookiesOf_buildForwardedRequestHeaders (headers : List Header) (type : ScopeType)
    (extraHeaders : List RouterHeader) :
    cookiesOf fw (buildForwardedRequestHeaders headers type extraHeaders) =
      cookiesOf fw (sanitizeForwardedHeaders headers) := by
  have hextra : valuesOf "cookie" (extraHeaders.map RouterHeader.pair) = [] := by
    simp only [valuesOf, List.map_eq_nil_iff, List.filter_eq_nil_iff]
    intro kv hkv
    obtain ⟨h, -, rfl⟩ := List.mem_map.mp hkv
    rw [lower_pair]
    cases h <;> simp [RouterHeader.key]
  have hkeep : valuesOf "cookie" ((sanitizeForwardedHeaders headers).filter
      fun kv => lower kv.1 ∉ excludedHeaders type) =
        valuesOf "cookie" (sanitizeForwardedHeaders headers) := by
    have hcookie : "cookie" ∉ excludedHeaders type := by cases type <;> decide
    rw [valuesOf, List.filter_filter, valuesOf]
    congr 1
    apply List.filter_congr
    intro kv _
    by_cases hk : lower kv.1 = "cookie" <;> simp [hk, hcookie]
  rw [cookiesOf, buildForwardedRequestHeaders, valuesOf_append, hextra, hkeep, List.append_nil,
    cookiesOf]

theorem mem_parseParts_session {parts : List String} :
    (∃ kv ∈ parseParts fw parts, kv.1 = sessionCookieName) ↔
      ∃ part ∈ parts, (cookiePart part).1 = sessionCookieName := by
  constructor
  · rintro ⟨kv, hkv, hname⟩
    obtain ⟨raw, hraw, rfl⟩ := List.mem_map.mp hkv
    obtain ⟨part, hpart, rfl⟩ := List.mem_map.mp (List.mem_filter.mp hraw).1
    exact ⟨part, hpart, hname⟩
  · rintro ⟨part, hpart, hname⟩
    have hne : ¬ sessionCookieName = "" := by decide
    refine ⟨_, List.mem_map.mpr ⟨cookiePart part, List.mem_filter.mpr
      ⟨List.mem_map.mpr ⟨part, hpart, rfl⟩, ?_⟩, rfl⟩, hname⟩
    simp [hname, hne]

/-- Cutting parts out takes nothing but session cookies away. -/
theorem parseParts_forwarded_others (parts : List String) :
    (parseParts fw (parts.filter fun part => !isStripped part)).filter
        (fun kv => kv.1 ≠ sessionCookieName) =
      (parseParts fw parts).filter fun kv => kv.1 ≠ sessionCookieName := by
  induction parts with
  | nil => rfl
  | cons part parts ih =>
    have hcons : ∀ ps, parseParts fw (part :: ps) = parseParts fw [part] ++ parseParts fw ps := by
      intro ps
      simp only [parseParts, List.map_cons, List.map_nil]
      rw [← List.map_append, ← List.filter_append, List.singleton_append]
    cases hs : isStripped part with
    | false =>
      rw [List.filter_cons_of_pos (by simp [hs]), hcons (parts.filter _), hcons parts,
        List.filter_append, List.filter_append, ih]
    | true =>
      -- the part that is cut out is a session cookie for the parser as well
      have hnone : (parseParts fw [part]).filter (fun kv => kv.1 ≠ sessionCookieName) = [] := by
        have hne : ¬ sessionCookieName = "" := by decide
        simp [parseParts, cookiePart_of_isStripped hs, hne]
      rw [List.filter_cons_of_neg (by simp [hs]), hcons parts, List.filter_append, hnone, ih,
        List.nil_append]

/-! ## What reaches the app -/

/-- The forwarded cookie headers hold no session cookie, and hold every other cookie unchanged and
in order. -/
structure CookiesSafe (type : ScopeType) (extraHeaders : List RouterHeader)
    (headers : List Header) : Prop where
  hidden : ∀ kv ∈ cookiesOf fw (buildForwardedRequestHeaders headers type extraHeaders),
    kv.1 ≠ sessionCookieName
  others : (cookiesOf fw (buildForwardedRequestHeaders headers type extraHeaders)).filter
      (fun kv => kv.1 ≠ sessionCookieName) =
    (cookiesOf fw headers).filter fun kv => kv.1 ≠ sessionCookieName

theorem cookiesOf_others (headers : List Header) :
    (cookiesOf fw (sanitizeForwardedHeaders headers)).filter
        (fun kv => kv.1 ≠ sessionCookieName) =
      (cookiesOf fw headers).filter fun kv => kv.1 ≠ sessionCookieName := by
  have hparse : ∀ value, parseCookieString fw value = parseParts fw (split ';' value) :=
    fun _ => rfl
  rw [cookiesOf_sanitizeForwardedHeaders, cookiesOf]
  induction valuesOf "cookie" headers with
  | nil => rfl
  | cons value values ih =>
    rw [List.flatMap_cons, List.flatMap_cons, List.filter_append, List.filter_append, ih, hparse,
      forwardedParts, parseParts_forwarded_others]

theorem session_mem_cookiesOf_sanitized {headers : List Header} :
    (∃ kv ∈ cookiesOf fw (sanitizeForwardedHeaders headers), kv.1 = sessionCookieName) ↔
      ∃ value ∈ valuesOf "cookie" headers, ∃ part ∈ split ';' value,
        (cookiePart part).1 = sessionCookieName ∧ spacedName part = true := by
  rw [cookiesOf_sanitizeForwardedHeaders]
  constructor
  · rintro ⟨kv, hkv, hname⟩
    obtain ⟨value, hvalue, hkv⟩ := List.mem_flatMap.mp hkv
    obtain ⟨part, hpart, hpn⟩ := (mem_parseParts_session fw).mp ⟨kv, hkv, hname⟩
    obtain ⟨hsplit, hkept⟩ := List.mem_filter.mp hpart
    refine ⟨value, hvalue, part, hsplit, hpn, ?_⟩
    -- a session cookie that was kept has white space after its name
    cases hspaced : spacedName part with
    | true => rfl
    | false =>
      rw [(isStripped_iff_of_session hpn).mpr hspaced] at hkept
      cases hkept
  · rintro ⟨value, hvalue, part, hsplit, hpn, hspaced⟩
    have hkept : isStripped part = false := by
      cases hs : isStripped part with
      | false => rfl
      | true =>
        rw [(isStripped_iff_of_session hpn).mp hs] at hspaced
        cases hspaced
    have hpart : part ∈ forwardedParts value := List.mem_filter.mpr ⟨hsplit, by simp [hkept]⟩
    obtain ⟨kv, hkv, hname⟩ := (mem_parseParts_session fw).mpr ⟨part, hpart, hpn⟩
    exact ⟨kv, List.mem_flatMap.mpr ⟨value, hvalue, hkv⟩, hname⟩

/-- The cookies of a forwarded request are safe exactly when no cookie header names the session with
white space before the `=`. -/
theorem cookiesSafe_iff (type : ScopeType) (extraHeaders : List RouterHeader)
    (headers : List Header) :
    CookiesSafe fw type extraHeaders headers ↔
      ∀ value ∈ valuesOf "cookie" headers, ∀ part ∈ split ';' value,
        (cookiePart part).1 = sessionCookieName → spacedName part = false := by
  have hbuild := cookiesOf_buildForwardedRequestHeaders fw headers type extraHeaders
  constructor
  · intro h value hvalue part hpart hname
    by_contra hspaced
    obtain ⟨kv, hkv, hkn⟩ := (session_mem_cookiesOf_sanitized fw).mpr
      ⟨value, hvalue, part, hpart, hname, by simpa using hspaced⟩
    rw [← hbuild] at hkv
    exact h.hidden kv hkv hkn
  · intro h
    refine ⟨?_, by rw [hbuild, cookiesOf_others]⟩
    intro kv hkv hname
    rw [hbuild] at hkv
    obtain ⟨value, hvalue, part, hpart, hpn, hspaced⟩ :=
      (session_mem_cookiesOf_sanitized fw).mp ⟨kv, hkv, hname⟩
    rw [h value hvalue part hpart hpn] at hspaced
    cases hspaced

end Forwarded

/-- A blank after the name brings the session of the owner to the app. -/
theorem spacedSession_not_cookiesSafe :
    ¬ CookiesSafe plainFramework .http [] [("cookie", "theme=dark; session_token =secret")] := by
  intro h
  have hmem : ("session_token", "secret") ∈ cookiesOf plainFramework
      (buildForwardedRequestHeaders [("cookie", "theme=dark; session_token =secret")] .http []) := by
    decide
  exact h.hidden _ hmem rfl

end OpenHost.Web
