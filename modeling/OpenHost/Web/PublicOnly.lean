import OpenHost.Web.Identity

/-!
# What a visitor reaches

A visitor who is not the owner may see the public paths of an app.  The router decides on the
decoded path; the app receives the raw path, and the HTTP client removes the dot segments of it.
-/

namespace OpenHost.Web

open Text (before lower rstrip startsWith)
open Utf8 (Bytes)
open Url (slash question hash)
open Domains (matchDomain)

/-! ## When a path is public -/

/-- The entries that are tried before one that is no text. -/
def leadingTexts : List Entry → List String
  | .text pp :: entries => pp :: leadingTexts entries
  | _ => []

/-- The public paths that a path is compared with. -/
def PublicPaths.prefixes (publicPaths : PublicPaths) : List String :=
  leadingTexts (publicPaths.iterate.getD [])

theorem anyMatches_eq_true_iff {requestPath : String} {entries : List Entry} :
    anyMatches requestPath entries = some true ↔
      ∃ pp ∈ leadingTexts entries, pathMatches requestPath pp = true := by
  induction entries with
  | nil => simp [anyMatches, leadingTexts]
  | cons entry entries ih =>
    cases entry with
    | other => simp [anyMatches, leadingTexts]
    | text pp =>
      by_cases hpp : pathMatches requestPath pp = true
      · simp [anyMatches, leadingTexts, hpp]
      · simp [anyMatches, leadingTexts, hpp, ih]

theorem isPublicPath_eq_true_iff {publicPaths : PublicPaths} {requestPath : String} :
    isPublicPath publicPaths requestPath = some true ↔
      ∃ pp ∈ publicPaths.prefixes, pathMatches requestPath pp = true := by
  cases h : publicPaths.iterate with
  | none => simp [isPublicPath, PublicPaths.prefixes, h, leadingTexts]
  | some entries => simp [isPublicPath, PublicPaths.prefixes, h, anyMatches_eq_true_iff]

/-- An entry of slashes alone makes every path public. -/
theorem pathMatches_of_rstrip_eq_empty {pp : String} (h : rstrip '/' pp = "") (rest : String) :
    pathMatches ("/" ++ rest) pp = true := by
  have hstart : startsWith ("/" ++ rest) (rstrip '/' pp ++ "/") = true := by
    rw [h, Text.startsWith_iff]
    exact ⟨rest, by simp⟩
  simp [pathMatches, hstart]

/-- Only an entry of slashes alone makes the root public. -/
theorem rstrip_eq_empty_of_pathMatches_root {pp : String} (h : pathMatches "/" pp = true) :
    rstrip '/' pp = "" := by
  rw [pathMatches, Bool.or_eq_true] at h
  rcases h with h | h
  · have hroot : pp = "/" := (of_decide_eq_true h).symm
    rw [hroot]
    decide
  · obtain ⟨r, hr⟩ := Text.startsWith_iff.mp h
    -- the slash uses up the one character there is
    have hlen := congrArg (fun s => s.toList.length) hr
    have hslash : ("/".toList).length = 1 := rfl
    simp only [String.toList_append, List.length_append, hslash] at hlen
    have hnil : (rstrip '/' pp).toList = [] := List.length_eq_zero_iff.mp (by omega)
    exact String.toList_eq_nil_iff.mp hnil

theorem pathMatches_below (pp rest : String) :
    pathMatches (rstrip '/' pp ++ "/" ++ rest) pp = true := by
  have hstart : startsWith (rstrip '/' pp ++ "/" ++ rest) (rstrip '/' pp ++ "/") = true :=
    Text.startsWith_iff.mpr ⟨rest, rfl⟩
  simp [pathMatches, hstart]

/-! ## The path the app receives -/

/-- The path of the request that the app receives, percent-decoded. -/
def Forwarded.decodedPath (f : Forwarded) : String :=
  Utf8.decode (Url.unquote (receivedPath f.type f.url))

/-- The path of the client's request, from its first segment up to a `#`. -/
def Connection.sentPath (c : Connection) : Bytes :=
  slash :: (c.rawPath.dropWhile (· = slash)).takeWhile (· ≠ hash)

/-- What the app receives is the path of the client's request, without dot segments over HTTP. -/
theorem receivedPath_of_proxyRequest {c : Connection} {target : ProxyTarget}
    {extra : List RouterHeader} {f : Forwarded} (h : proxyRequest c target extra none = some f) :
    receivedPath f.type f.url =
      if c.type = .http then Url.removeDots c.sentPath else c.sentPath := by
  obtain ⟨htype, base, hbase, hurl⟩ := url_of_proxyRequest h
  have hpath : proxyPath c none = some c.rawPath := by
    cases hp : proxyPath c none with
    | none => simp [formatProxyRequestUrl, hp] at hurl
    | some path =>
      simp only [proxyPath, Text.truthy?_none] at hp
      split at hp
      · exact hp.symm
      · cases hp
  have hsent := path_of_formatProxyRequestUrl (isBase_of_baseUrl hbase) hpath c.cut hurl
  rw [htype]
  cases hct : c.type with
  | http => rw [receivedPath, hsent, if_pos rfl, Connection.sentPath]
  | websocket => rw [receivedPath, hsent, if_neg (by simp), Connection.sentPath]

theorem decode_unquote_slash (bs : Bytes) :
    Utf8.decode (Url.unquote (slash :: bs)) = "/" ++ Utf8.decode (Url.unquote bs) := by
  have hslash : Utf8.encode "/" = [slash] := by decide
  rw [Url.unquote_cons_of_ne (by decide), ← List.singleton_append, ← hslash,
    Utf8.decode_encode_append]

/-- The app always receives an absolute path. -/
theorem decodedPath_absolute {c : Connection} {target : ProxyTarget} {extra : List RouterHeader}
    {f : Forwarded} (h : proxyRequest c target extra none = some f) :
    ∃ rest, f.decodedPath = "/" ++ rest := by
  have hcons : ∃ bs, receivedPath f.type f.url = slash :: bs := by
    rw [receivedPath_of_proxyRequest h]
    split
    · exact ⟨_, rfl⟩
    · exact ⟨_, rfl⟩
  obtain ⟨bs, hbs⟩ := hcons
  exact ⟨Utf8.decode (Url.unquote bs), by rw [Forwarded.decodedPath, hbs, decode_unquote_slash]⟩

/-! ## Visitors -/

/-- A request that is forwarded to the app for a visitor asks for what the app has made public. -/
def PublicOnly (fw : Framework) (db : Db) (app : App) (c : Connection) : Prop :=
  ∀ netloc f, fw.netloc (getHeader c.headers "host") c.path c.queryString = some netloc →
    getAppFromHostname netloc db = some app → verifyOwnerAuth fw c db = .notAuthorized →
    dispatch fw c db = .forwarded f → isPublicPath app.publicPaths f.decodedPath = some true

/-- The raw path begins with one slash, has no `#` and, over HTTP, no dot segment. -/
def Connection.plainPath (c : Connection) : Bool :=
  c.rawPath.head? = some slash && c.rawPath.tail.head? ≠ some slash && !c.rawPath.contains hash &&
    (c.type = .websocket || (Url.segments c.rawPath).all Url.plainSegment)

theorem sentPath_of_plainPath {c : Connection} (h : c.plainPath = true) :
    c.sentPath = c.rawPath := by
  simp only [Connection.plainPath, Bool.and_eq_true, decide_eq_true_eq, Bool.not_eq_true',
    List.contains_eq_mem, decide_eq_false_iff_not] at h
  obtain ⟨⟨⟨hhead, hone⟩, hhash⟩, -⟩ := h
  cases hraw : c.rawPath with
  | nil => simp [hraw] at hhead
  | cons b rest =>
    have hb : b = slash := by simpa [hraw] using hhead
    have hdrop : rest.dropWhile (· = slash) = rest := by
      cases rest with
      | nil => rfl
      | cons d rest =>
        have hd : d ≠ slash := by simpa [hraw] using hone
        rw [List.dropWhile_cons_of_neg (by simpa using hd)]
    have hall : rest.takeWhile (· ≠ hash) = rest := by
      apply List.takeWhile_eq_self_iff.mpr
      intro d hd
      simp only [decide_eq_true_eq]
      rintro rfl
      exact hhash (by rw [hraw]; exact List.mem_cons_of_mem b hd)
    rw [Connection.sentPath, hraw, List.dropWhile_cons_of_pos (by simpa using hb), hdrop, hall, hb]

/-- A plain path reaches the app as the router has seen it. -/
theorem decodedPath_of_plainPath {c : Connection} {target : ProxyTarget}
    {extra : List RouterHeader} {f : Forwarded} (hplain : c.plainPath = true)
    (h : proxyRequest c target extra none = some f) : f.decodedPath = c.path := by
  have hsent := sentPath_of_plainPath hplain
  have hhead : c.rawPath.head? = some slash := by rw [← hsent]; rfl
  have hreceived : receivedPath f.type f.url = c.rawPath := by
    rw [receivedPath_of_proxyRequest h, hsent]
    split
    · rename_i htype
      simp only [Connection.plainPath, Bool.and_eq_true, Bool.or_eq_true, decide_eq_true_eq,
        htype] at hplain
      apply Url.removeDots_of_plain hhead
      exact List.all_eq_true.mp (hplain.2.resolve_left (by simp))
    · rfl
  rw [Forwarded.decodedPath, hreceived, Connection.path]

/-- What is forwarded for a visitor was compared with the public paths. -/
theorem public_of_dispatch {fw : Framework} {db : Db} {app : App} {c : Connection}
    {netloc : String} {f : Forwarded}
    (hnetloc : fw.netloc (getHeader c.headers "host") c.path c.queryString = some netloc)
    (happ : getAppFromHostname netloc db = some app)
    (hvisitor : verifyOwnerAuth fw c db = .notAuthorized) (h : dispatch fw c db = .forwarded f) :
    isPublicPath app.publicPaths c.path = some true ∧
      ∃ target extra, proxyRequest c target extra none = some f := by
  obtain ⟨netloc', zone, app', isOwner, hnetloc', -, happ', hauth, hsent⟩ :=
    (forwardedBy_of_dispatchFor h).cause
  have hn : netloc' = netloc := Option.some.inj (hnetloc'.symm.trans hnetloc)
  have ha : app' = app := Option.some.inj ((hn ▸ happ').symm.trans happ)
  cases isOwner with
  | true =>
    rw [if_pos rfl, hvisitor] at hauth
    cases hauth
  | false =>
    rw [if_neg (by simp), ha] at hauth
    exact ⟨hauth.2, _, _, hsent⟩

theorem publicOnly_of_plainPath {fw : Framework} {db : Db} {app : App} {c : Connection}
    (hplain : c.plainPath = true) : PublicOnly fw db app c := by
  intro netloc f hnetloc happ hvisitor h
  obtain ⟨hpublic, target, extra, hsent⟩ := public_of_dispatch hnetloc happ hvisitor h
  rw [decodedPath_of_plainPath hplain hsent]
  exact hpublic

/-! ## The request that leaves its public path -/

/-- A digit is none of the bytes that end a path. -/
theorem hexDigit_bytes {n : UInt8} (h : n < 16) :
    Url.hexDigit n < 0x80 ∧ Url.hexDigit n ≠ slash ∧ Url.hexDigit n ≠ question ∧
      Url.hexDigit n ≠ hash := by
  have key : ∀ n : Fin 256, UInt8.ofFin n < 16 →
      Url.hexDigit (UInt8.ofFin n) < 0x80 ∧ Url.hexDigit (UInt8.ofFin n) ≠ slash ∧
        Url.hexDigit (UInt8.ofFin n) ≠ question ∧ Url.hexDigit (UInt8.ofFin n) ≠ hash := by
    decide +kernel
  exact key n.toFin h

theorem quoteAll_bytes {bs : Bytes} {b : UInt8} (h : b ∈ Url.quoteAll bs) :
    b < 0x80 ∧ b ≠ slash ∧ b ≠ question ∧ b ≠ hash := by
  obtain ⟨a, -, ha⟩ := List.mem_flatMap.mp h
  have hdiv : a / 16 < 16 := by
    rw [UInt8.lt_iff_toNat_lt, UInt8.toNat_div]
    have hlt := a.toNat_lt
    show a.toNat / 16 < 16
    omega
  have hmod : a % 16 < 16 := by
    rw [UInt8.lt_iff_toNat_lt, UInt8.toNat_mod]
    exact Nat.mod_lt _ (by decide)
  simp only [List.mem_cons, List.not_mem_nil, or_false] at ha
  rcases ha with rfl | rfl | rfl
  · decide
  · exact hexDigit_bytes hdiv
  · exact hexDigit_bytes hmod

theorem quoteAll_cons (b : UInt8) (bs : Bytes) :
    Url.quoteAll (b :: bs) =
      Url.percent :: Url.hexDigit (b / 16) :: Url.hexDigit (b % 16) :: Url.quoteAll bs := rfl

/-- The bytes `/..`. -/
def stepUp : Bytes := slash :: Url.dotDotSegment

/-- A visitor asks for the parent directory of a public path. -/
def parentOf (host pp : String) : Connection where
  type := .http
  method := "GET"
  rawPath := Url.quoteAll (Utf8.encode (rstrip '/' pp)) ++ stepUp
  queryString := []
  headers := [("host", host)]
  client := none
  body := []
  cut := by
    rw [List.mem_append]
    rintro (h | h)
    · exact (quoteAll_bytes h).2.2.1 rfl
    · exact absurd h (by decide)

theorem path_parentOf (host pp : String) :
    (parentOf host pp).path = rstrip '/' pp ++ "/" ++ ".." := by
  have hup : Url.unquote stepUp = Utf8.encode ("/" ++ "..") := by decide
  rw [Connection.path, parentOf, Url.unquote_quoteAll_append, hup, ← Utf8.encode_append,
    Utf8.decode_encode, String.append_assoc]

/-- No byte of that path is a `#`. -/
theorem ne_hash_of_mem_parentOf {host pp : String} {b : UInt8}
    (h : b ∈ (parentOf host pp).rawPath) : b ≠ hash := by
  rcases List.mem_append.mp h with hb | hb
  · exact (quoteAll_bytes hb).2.2.2
  · rintro rfl
    exact absurd hb (by decide)

/-- What is sent for it resolves to the root. -/
theorem removeDots_sentPath_parentOf (host : String) {pp : String} (hne : rstrip '/' pp ≠ "") :
    Url.removeDots (parentOf host pp).sentPath = [slash] := by
  obtain ⟨b, bs, hbs⟩ : ∃ b bs, Utf8.encode (rstrip '/' pp) = b :: bs :=
    List.exists_cons_of_ne_nil (mt Utf8.encode_eq_nil_iff.mp hne)
  have hraw : (parentOf host pp).rawPath = Url.quoteAll (b :: bs) ++ stepUp := by
    rw [← hbs]
    rfl
  have hcut : (parentOf host pp).rawPath.takeWhile (· ≠ hash) = (parentOf host pp).rawPath := by
    apply List.takeWhile_eq_self_iff.mpr
    intro a ha
    exact decide_eq_true (ne_hash_of_mem_parentOf ha)
  have hdrop : (parentOf host pp).rawPath.dropWhile (· = slash) = (parentOf host pp).rawPath := by
    rw [hraw, quoteAll_cons, List.cons_append, List.dropWhile_cons_of_neg (by decide)]
  -- the escapes of the public path are one segment, whatever bytes it has
  have hplain : Url.plainSegment (Url.quoteAll (b :: bs)) = true := by
    rw [quoteAll_cons, Url.plainSegment]
    simp
  rw [Connection.sentPath, hdrop, hcut, hraw]
  exact Url.removeDots_dotDot hplain fun h => (quoteAll_bytes h).2.1 rfl

theorem getHeader_parentOf (host pp name : String) (hname : decide (lower "host" = name) = false) :
    getHeader (parentOf host pp).headers name = none := by
  rw [getHeader, parentOf, List.find?_cons_of_neg (by simpa using hname)]
  rfl

/-- The request carries nothing that says who makes it. -/
theorem verifyOwnerAuth_parentOf (fw : Framework) (db : Db) (host pp : String) :
    verifyOwnerAuth fw (parentOf host pp) db = .notAuthorized := by
  have horigin : getHeader (parentOf host pp).headers "origin" = none :=
    getHeader_parentOf host pp _ (by decide)
  have hcookie : getHeader (parentOf host pp).headers "cookie" = none :=
    getHeader_parentOf host pp _ (by decide)
  have hbearer : getHeader (parentOf host pp).headers "authorization" = none :=
    getHeader_parentOf host pp _ (by decide)
  have hauth : authenticate fw (parentOf host pp) db = none := by
    simp [authenticate, getCookie, hcookie, getBearerTokenIfSet, hbearer]
  simp [verifyOwnerAuth, getConnectionOrigin, horigin, hauth]

/-- It can be put behind the base URL of any app. -/
theorem proxyRequest_parentOf (host pp : String) (port : Nat) (extra : List RouterHeader) :
    ∃ f, proxyRequest (parentOf host pp) (.localPort port) extra none = some f := by
  have hascii : (parentOf host pp).rawPath.all (· < 0x80) = true := by
    apply List.all_eq_true.mpr
    intro b hb
    apply decide_eq_true
    rcases List.mem_append.mp hb with hb | hb
    · exact (quoteAll_bytes hb).1
    · have key : stepUp.all (· < 0x80) = true := by decide
      exact of_decide_eq_true (List.all_eq_true.mp key b hb)
  have hpath : proxyPath (parentOf host pp) none = some (parentOf host pp).rawPath := by
    rw [proxyPath, Text.truthy?_none, if_pos hascii]
  have hquery : (parentOf host pp).queryString = [] := rfl
  have htype : (parentOf host pp).type = .http := rfl
  simp [proxyRequest, htype, baseUrl, formatProxyRequestUrl, hpath, hquery]

theorem getHeader_host_parentOf (host pp : String) :
    getHeader (parentOf host pp).headers "host" = some host := by
  have hlower : decide (lower "host" = "host") = true := by decide
  have hfind : (parentOf host pp).headers.find? (fun kv => lower kv.1 = "host") =
      some ("host", host) := by
    exact List.find?_cons_of_pos hlower
  rw [getHeader, hfind]
  rfl

/-- The request is forwarded to the app that the host names. -/
theorem dispatch_parentOf {fw : Framework} {db : Db} {app : App} {host pp : String}
    (hnetloc : ∀ path, fw.netloc (some host) path [] = some host)
    (hnames : NamesApp db host app) (hpp : pp ∈ app.publicPaths.prefixes) :
    ∃ f extra, dispatch fw (parentOf host pp) db = .forwarded f ∧
      proxyRequest (parentOf host pp) (.localPort app.localPort) extra none = some f := by
  have hn : fw.netloc (getHeader (parentOf host pp).headers "host") (parentOf host pp).path
      (parentOf host pp).queryString = some host := by
    rw [getHeader_host_parentOf]
    exact hnetloc _
  have happ : getAppFromHostname host db = some app := getAppFromHostname_eq_some_iff.mpr hnames
  obtain ⟨zone, hzone⟩ : ∃ zone, matchDomain db.domains host = some zone := by
    cases hm : matchDomain db.domains host with
    | none => simp [getAppFromHostname, hm] at happ
    | some zone => exact ⟨zone, rfl⟩
  have hpublic : isPublicPath app.publicPaths (parentOf host pp).path = some true := by
    apply isPublicPath_eq_true_iff.mpr
    rw [path_parentOf]
    exact ⟨pp, hpp, pathMatches_below pp ".."⟩
  let extra := extraHeaders (parentOf host pp).type host zone
    (resolveForwardedFor (parentOf host pp)) false
  obtain ⟨f, hf⟩ := proxyRequest_parentOf host pp app.localPort extra
  refine ⟨f, extra, ?_, hf⟩
  rw [dispatch, dispatchFor, hn]
  simp only [hzone, happ, verifyOwnerAuth_parentOf, hpublic, forwardToApp]
  rw [hf]

/-- An app where some public path has a parent that is not public: the request for the parent is
forwarded. -/
theorem rstrip_eq_empty_of_publicOnly {fw : Framework} {db : Db} {app : App} {host pp : String}
    (hnetloc : ∀ path, fw.netloc (some host) path [] = some host)
    (hnames : NamesApp db host app) (hpp : pp ∈ app.publicPaths.prefixes)
    (h : PublicOnly fw db app (parentOf host pp)) :
    ∃ pp' ∈ app.publicPaths.prefixes, rstrip '/' pp' = "" := by
  by_cases hne : rstrip '/' pp = ""
  · exact ⟨pp, hpp, hne⟩
  · obtain ⟨f, extra, hf, hsent⟩ := dispatch_parentOf hnetloc hnames hpp
    have htype : (parentOf host pp).type = .http := rfl
    have hroot : f.decodedPath = "/" := by
      rw [Forwarded.decodedPath, receivedPath_of_proxyRequest hsent, if_pos htype,
        removeDots_sentPath_parentOf host hne]
      decide
    have hn : fw.netloc (getHeader (parentOf host pp).headers "host") (parentOf host pp).path
        (parentOf host pp).queryString = some host := by
      rw [getHeader_host_parentOf]
      exact hnetloc _
    have hpublic := h host f hn (getAppFromHostname_eq_some_iff.mpr hnames)
      (verifyOwnerAuth_parentOf fw db host pp) hf
    rw [hroot, isPublicPath_eq_true_iff] at hpublic
    obtain ⟨pp', hmem, hmatch⟩ := hpublic
    exact ⟨pp', hmem, rstrip_eq_empty_of_pathMatches_root hmatch⟩

/-- Where everything is public, so is what the app receives. -/
theorem publicOnly_of_rstrip_eq_empty {fw : Framework} {db : Db} {app : App} {pp : String}
    (hpp : pp ∈ app.publicPaths.prefixes) (hall : rstrip '/' pp = "") (c : Connection) :
    PublicOnly fw db app c := by
  intro netloc f hnetloc happ hvisitor h
  obtain ⟨-, target, extra, hsent⟩ := public_of_dispatch hnetloc happ hvisitor h
  obtain ⟨rest, hrest⟩ := decodedPath_absolute hsent
  rw [hrest]
  exact isPublicPath_eq_true_iff.mpr ⟨pp, hpp, pathMatches_of_rstrip_eq_empty hall rest⟩

/-- Where nothing is public, nothing is forwarded. -/
theorem publicOnly_of_no_prefixes {fw : Framework} {db : Db} {app : App}
    (hnone : app.publicPaths.prefixes = []) (c : Connection) : PublicOnly fw db app c := by
  intro netloc f hnetloc happ hvisitor h
  obtain ⟨hpublic, -⟩ := public_of_dispatch hnetloc happ hvisitor h
  obtain ⟨pp, hmem, -⟩ := isPublicPath_eq_true_iff.mp hpublic
  rw [hnone] at hmem
  cases hmem

/-- Visitors see only what is public exactly of the apps that have no public path, or one that is
nothing but slashes.  Of every app they do with a plain path. -/
theorem publicOnly_iff {fw : Framework} {db : Db} {app : App} {host : String}
    (hnetloc : ∀ path, fw.netloc (some host) path [] = some host)
    (hnames : NamesApp db host app) :
    ((∀ c, PublicOnly fw db app c) ↔
      app.publicPaths.prefixes = [] ∨ ∃ pp ∈ app.publicPaths.prefixes, rstrip '/' pp = "") ∧
    ∀ c, c.plainPath = true → PublicOnly fw db app c := by
  refine ⟨⟨?_, ?_⟩, fun c hplain => publicOnly_of_plainPath hplain⟩
  · intro h
    cases hprefixes : app.publicPaths.prefixes with
    | nil => exact Or.inl rfl
    | cons pp pps =>
      have hmem : pp ∈ app.publicPaths.prefixes := by
        rw [hprefixes]
        exact List.mem_cons_self
      have hroot := rstrip_eq_empty_of_publicOnly hnetloc hnames hmem (h (parentOf host pp))
      rw [hprefixes] at hroot
      exact Or.inr hroot
  · rintro (hnone | ⟨pp, hmem, hall⟩) c
    · exact publicOnly_of_no_prefixes hnone c
    · exact publicOnly_of_rstrip_eq_empty hmem hall c

/-! ## A feed and what is next to it -/

/-- The app `notes` of that database. -/
def notesApp : App := ⟨"a1", "notes", 9000, .array [.text "/feed"]⟩

theorem namesApp_feedDb : NamesApp feedDb "notes.example.com" notesApp := by
  apply getAppFromHostname_eq_some_iff.mp
  rw [getAppFromHostname, matchDomain_feedDb]
  decide

/-- The feed has a parent that is not public; asking for the feed itself is fine. -/
theorem publicOnly_feedDb :
    (¬ ∀ c, PublicOnly plainFramework feedDb notesApp c) ∧
      PublicOnly plainFramework feedDb notesApp visitor := by
  have h := @publicOnly_iff plainFramework _ _ _ (fun _ => rfl) namesApp_feedDb
  have hsome : ¬ (notesApp.publicPaths.prefixes = [] ∨
      ∃ pp ∈ notesApp.publicPaths.prefixes, rstrip '/' pp = "") := by decide
  exact ⟨fun hall => hsome (h.1.mp hall), h.2 visitor (by decide)⟩

/-- A visitor who asks for a page beside the feed. -/
def trespasser : Connection where
  type := .http
  method := "GET"
  rawPath := Utf8.encode "/feed/../admin"
  queryString := []
  headers := [("host", "notes.example.com")]
  client := some "10.200.0.7"
  body := []
  cut := by decide

/-- The request that the app is sent. -/
def trespassForwarded : Forwarded where
  type := .http
  method := "GET"
  url := Utf8.encode "http://127.0.0.1:9000/feed/../admin"
  headers := [("X-Forwarded-Host", "notes.example.com"), ("X-Forwarded-Proto", "https"),
    ("X-Forwarded-For", "10.200.0.7"), ("Host", "notes.example.com")]
  content := none
  subprotocols := none

theorem trespasser_dispatch :
    dispatch plainFramework trespasser feedDb = .forwarded trespassForwarded := by
  have hnetloc : plainFramework.netloc (getHeader trespasser.headers "host") trespasser.path
      trespasser.queryString = some "notes.example.com" := by decide
  have happ : getAppFromHostname "notes.example.com" feedDb = some notesApp :=
    getAppFromHostname_eq_some_iff.mpr namesApp_feedDb
  have hverify : verifyOwnerAuth plainFramework trespasser feedDb = .notAuthorized := by decide
  have hpublic : isPublicPath notesApp.publicPaths trespasser.path = some true := by decide
  rw [dispatch, dispatchFor, hnetloc]
  simp only [matchDomain_feedDb, happ, hverify, hpublic]
  decide

/-- The app gets to see a request for `/admin`, which is not public. -/
theorem trespasser_not_publicOnly :
    ¬ PublicOnly plainFramework feedDb notesApp trespasser := by
  intro h
  have hpublic := h "notes.example.com" trespassForwarded (by decide)
    (getAppFromHostname_eq_some_iff.mpr namesApp_feedDb) (by decide) trespasser_dispatch
  have hadmin : trespassForwarded.decodedPath = "/admin" := by decide +kernel
  rw [hadmin] at hpublic
  exact absurd hpublic (by decide)

end OpenHost.Web
