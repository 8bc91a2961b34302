import OpenHost.Web.Dispatch

/-!
# The headers apps take for the identity of a request

A backend app believes `X-OpenHost-Is-Owner` and the `X-Forwarded-*` headers.  This module says
which of them an app gets, with which values, and that a client cannot set any of them.
-/

namespace OpenHost.Web

open Text (lower startsWith truthy?)
open Domains (Domain matchDomain)

/-! ## The headers of the router -/

/-- A header, its name in lower case, that the router alone may set on a forwarded request. -/
def isIdentityKey (key : String) : Bool :=
  startsWith key openhostHeaderPrefix || key = "x-forwarded-for" || key = "x-forwarded-proto" ||
    key = "x-forwarded-host"

/-- The headers of a client without those. -/
def withoutIdentity (headers : List Header) : List Header :=
  headers.filter fun kv => !isIdentityKey (lower kv.1)

/-- The connection without those. -/
def Connection.withHeaders (c : Connection) (headers : List Header) : Connection :=
  { c with headers := headers }

theorem isIdentityKey_of_excluded {key : String} {type : ScopeType}
    (h : key = "x-forwarded-for" ∨ key = "x-forwarded-proto" ∨ key = "x-forwarded-host") :
    key ∈ excludedHeaders type := by
  rcases h with rfl | rfl | rfl <;> cases type <;> decide

/-- `_sanitize_forwarded_headers` keeps the names of what it keeps, and none with the prefix. -/
theorem name_of_sanitizeHeader {header header' : Header} (h : sanitizeHeader header = some header') :
    header'.1 = header.1 ∧ startsWith (lower header.1) openhostHeaderPrefix = false := by
  obtain ⟨key, value⟩ := header
  simp only [sanitizeHeader] at h
  split at h
  · cases h
  · rename_i hstart
    refine ⟨?_, by simpa using hstart⟩
    split at h
    · split at h
      · cases h
      · rw [← Option.some.inj h]
    · rw [← Option.some.inj h]

/-- No header that the client sent is forwarded under one of those names. -/
theorem not_isIdentityKey_of_mem_sanitized {headers : List Header} {type : ScopeType} {kv : Header}
    (h : kv ∈ (sanitizeForwardedHeaders headers).filter
      fun kv => lower kv.1 ∉ excludedHeaders type) : isIdentityKey (lower kv.1) = false := by
  obtain ⟨hmem, hexcluded⟩ := List.mem_filter.mp h
  obtain ⟨header, -, hs⟩ := List.mem_filterMap.mp hmem
  obtain ⟨hname, hstart⟩ := name_of_sanitizeHeader hs
  have hnot : lower kv.1 ∉ excludedHeaders type := by simpa using hexcluded
  rw [← hname] at hstart
  simp only [isIdentityKey, hstart, Bool.false_or, Bool.or_eq_false_iff,
    decide_eq_false_iff_not]
  exact ⟨⟨fun hk => hnot (isIdentityKey_of_excluded (.inl hk)),
    fun hk => hnot (isIdentityKey_of_excluded (.inr (.inl hk)))⟩,
    fun hk => hnot (isIdentityKey_of_excluded (.inr (.inr hk)))⟩

/-- Under one of those names only the router's own headers are forwarded. -/
theorem mem_build_of_isIdentityKey {headers : List Header} {type : ScopeType}
    {extra : List RouterHeader} {kv : Header} (hkey : isIdentityKey (lower kv.1) = true) :
    kv ∈ buildForwardedRequestHeaders headers type extra ↔ ∃ h ∈ extra, h.pair = kv := by
  rw [buildForwardedRequestHeaders, List.mem_append, List.mem_map]
  constructor
  · intro h
    refine h.resolve_left ?_
    intro hclient
    rw [not_isIdentityKey_of_mem_sanitized hclient] at hkey
    cases hkey
  · exact Or.inr

theorem valuesOf_build {headers : List Header} {type : ScopeType} {extra : List RouterHeader}
    {name : String} (hname : isIdentityKey name = true) :
    valuesOf name (buildForwardedRequestHeaders headers type extra) =
      valuesOf name (extra.map RouterHeader.pair) := by
  rw [buildForwardedRequestHeaders, valuesOf_append]
  have hclient : valuesOf name ((sanitizeForwardedHeaders headers).filter
      fun kv => lower kv.1 ∉ excludedHeaders type) = [] := by
    rw [valuesOf, List.map_eq_nil_iff, List.filter_eq_nil_iff]
    intro kv hkv hk
    have hno := not_isIdentityKey_of_mem_sanitized hkv
    rw [of_decide_eq_true hk, hname] at hno
    cases hno
  rw [hclient, List.nil_append]

theorem valuesOf_routerHeaders (name : String) (extra : List RouterHeader) :
    valuesOf name (extra.map RouterHeader.pair) =
      (extra.filter fun h => h.key = name).map fun h => h.pair.2 := by
  simp only [valuesOf, List.filter_map, List.map_map, Function.comp_def, lower_pair]

/-! ## A client cannot set them -/

theorem getHeader_withoutIdentity {headers : List Header} {name : String}
    (h : isIdentityKey name = false) :
    getHeader (withoutIdentity headers) name = getHeader headers name := by
  rw [getHeader, withoutIdentity, List.find?_filter, getHeader]
  apply congrArg (Option.map Prod.snd)
  apply congrArg (fun p => headers.find? p)
  funext kv
  by_cases hk : lower kv.1 = name <;> simp [hk, h]

theorem sanitizeForwardedHeaders_withoutIdentity (headers : List Header) (type : ScopeType) :
    (sanitizeForwardedHeaders (withoutIdentity headers)).filter
        (fun kv => lower kv.1 ∉ excludedHeaders type) =
      (sanitizeForwardedHeaders headers).filter fun kv => lower kv.1 ∉ excludedHeaders type := by
  induction headers with
  | nil => rfl
  | cons header headers ih =>
    cases hid : isIdentityKey (lower header.1) with
    | false =>
      have hcons : withoutIdentity (header :: headers) = header :: withoutIdentity headers := by
        simp [withoutIdentity, hid]
      rw [hcons, sanitizeForwardedHeaders, sanitizeForwardedHeaders]
      cases hs : sanitizeHeader header with
      | none =>
        rw [List.filterMap_cons_none hs, List.filterMap_cons_none hs]
        exact ih
      | some header' =>
        rw [List.filterMap_cons_some hs, List.filterMap_cons_some hs, List.filter_cons,
          List.filter_cons]
        simp only [sanitizeForwardedHeaders] at ih
        rw [ih]
    | true =>
      have hcons : withoutIdentity (header :: headers) = withoutIdentity headers := by
        simp [withoutIdentity, hid]
      rw [hcons, ih]
      cases hs : sanitizeHeader header with
      | none => rw [sanitizeForwardedHeaders, sanitizeForwardedHeaders, List.filterMap_cons_none hs]
      | some header' =>
        -- a header without the prefix is dropped by the excluded names
        obtain ⟨hname, hstart⟩ := name_of_sanitizeHeader hs
        have hexcluded : lower header'.1 ∈ excludedHeaders type := by
          rw [hname]
          apply isIdentityKey_of_excluded
          simp only [isIdentityKey, hstart, Bool.false_or, Bool.or_eq_true,
            decide_eq_true_eq] at hid
          exact or_assoc.mp hid
        rw [sanitizeForwardedHeaders, sanitizeForwardedHeaders, List.filterMap_cons_some hs,
          List.filter_cons_of_neg (by simpa using hexcluded)]

theorem buildForwardedRequestHeaders_withoutIdentity (headers : List Header) (type : ScopeType)
    (extra : List RouterHeader) :
    buildForwardedRequestHeaders (withoutIdentity headers) type extra =
      buildForwardedRequestHeaders headers type extra := by
  rw [buildForwardedRequestHeaders, sanitizeForwardedHeaders_withoutIdentity,
    buildForwardedRequestHeaders]

/-- The connection as a client would make it that sends none of those headers. -/
def Connection.stripped (c : Connection) : Connection := c.withHeaders (withoutIdentity c.headers)

section Stripped

variable (fw : Framework) (c : Connection) (db : Db)

theorem getHeader_stripped {name : String} (h : isIdentityKey name = false) :
    getHeader c.stripped.headers name = getHeader c.headers name :=
  getHeader_withoutIdentity h

theorem authenticate_stripped : authenticate fw c.stripped db = authenticate fw c db := by
  have hcookie : getCookie fw c.stripped.headers sessionCookieName =
      getCookie fw c.headers sessionCookieName := by
    rw [getCookie, getHeader_stripped c (by decide), getCookie]
  have hbearer : getBearerTokenIfSet c.stripped = getBearerTokenIfSet c := by
    rw [getBearerTokenIfSet, getHeader_stripped c (by decide), getBearerTokenIfSet]
  rw [authenticate, hcookie, hbearer, authenticate]

theorem verifyOwnerAuth_stripped : verifyOwnerAuth fw c.stripped db = verifyOwnerAuth fw c db := by
  have horigin : getConnectionOrigin fw c.stripped = getConnectionOrigin fw c := by
    rw [getConnectionOrigin, getHeader_stripped c (by decide), getConnectionOrigin]
  rw [verifyOwnerAuth, horigin, authenticate_stripped, getHeader_stripped c (by decide),
    verifyOwnerAuth]

theorem proxyRequest_stripped (target : ProxyTarget) (extra : List RouterHeader)
    (overridePath : Option String) :
    proxyRequest c.stripped target extra overridePath =
      proxyRequest c target extra overridePath := by
  have hheaders : buildForwardedRequestHeaders c.stripped.headers c.stripped.type extra =
      buildForwardedRequestHeaders c.headers c.type extra :=
    buildForwardedRequestHeaders_withoutIdentity c.headers c.type extra
  have hurl : ∀ base, formatProxyRequestUrl c.stripped base overridePath =
      formatProxyRequestUrl c base overridePath := fun _ => rfl
  have htype : c.stripped.type = c.type := rfl
  rw [proxyRequest, proxyRequest, hheaders, getHeader_stripped c (by decide),
    getHeader_stripped c (by decide), getHeader_stripped c (by decide)]
  simp only [htype, hurl]
  rfl

/-- Given the value for `X-Forwarded-For`, none of those headers of the client plays a part. -/
theorem dispatchFor_stripped (forwardedFor : Option String) :
    dispatchFor fw c.stripped db forwardedFor = dispatchFor fw c db forwardedFor := by
  have hforward : ∀ app netloc zone isOwner,
      forwardToApp c.stripped app netloc zone forwardedFor isOwner =
        forwardToApp c app netloc zone forwardedFor isOwner := by
    intro app netloc zone isOwner
    rw [forwardToApp, proxyRequest_stripped, forwardToApp]
    rfl
  have hpath : c.stripped.path = c.path := rfl
  have hquery : c.stripped.queryString = c.queryString := rfl
  rw [dispatchFor, getHeader_stripped c (by decide), verifyOwnerAuth_stripped, hpath, hquery,
    dispatchFor]
  simp only [hforward]

end Stripped

/-! ## What an app may believe -/

/-- What holds of the identity headers of a forwarded request. -/
structure IdentityHeaders (fw : Framework) (c : Connection) (db : Db) (f : Forwarded) : Prop where
  owner : (∃ kv ∈ f.headers, lower kv.1 = "x-openhost-is-owner") ↔
    verifyOwnerAuth fw c db = .accepted ()
  openhost : ∀ kv ∈ f.headers, startsWith (lower kv.1) openhostHeaderPrefix = true →
    kv = ("X-OpenHost-Is-Owner", "true")
  values : ∃ netloc zone,
    fw.netloc (getHeader c.headers "host") c.path c.queryString = some netloc ∧
    matchDomain db.domains netloc = some zone ∧
    valuesOf "x-forwarded-host" f.headers = [netloc] ∧
    valuesOf "x-forwarded-proto" f.headers = [zone.scheme] ∧
    valuesOf "x-forwarded-for" f.headers = (truthy? (resolveForwardedFor c)).toList

theorem mem_extraHeaders {type : ScopeType} {netloc : String} {zone : Domain}
    {forwardedFor : Option String} {isOwner : Bool} {h : RouterHeader} :
    h ∈ extraHeaders type netloc zone forwardedFor isOwner ↔
      h = .xForwardedHost netloc ∨ h = .xForwardedProto zone.scheme ∨
      (∃ value, truthy? forwardedFor = some value ∧ h = .xForwardedFor value) ∨
      (isOwner = true ∧ h = .xOpenHostIsOwner) ∨ (type = .http ∧ h = .host netloc) := by
  cases htruthy : truthy? forwardedFor <;> cases isOwner <;> cases type <;>
    simp [extraHeaders, htruthy]

/-- Of the router's headers only one has the prefix. -/
theorem eq_isOwner_of_prefix {type : ScopeType} {netloc : String} {zone : Domain}
    {forwardedFor : Option String} {isOwner : Bool} {h : RouterHeader}
    (hmem : h ∈ extraHeaders type netloc zone forwardedFor isOwner)
    (hstart : startsWith h.key openhostHeaderPrefix = true) :
    isOwner = true ∧ h = .xOpenHostIsOwner := by
  have hno : ∀ key ∈ ["x-forwarded-host", "x-forwarded-proto", "x-forwarded-for", "host"],
      startsWith key openhostHeaderPrefix = false := by decide
  rcases mem_extraHeaders.mp hmem with rfl | rfl | ⟨value, -, rfl⟩ | howner | ⟨-, rfl⟩
  · rw [RouterHeader.key, hno _ (by simp)] at hstart
    cases hstart
  · rw [RouterHeader.key, hno _ (by simp)] at hstart
    cases hstart
  · rw [RouterHeader.key, hno _ (by simp)] at hstart
    cases hstart
  · exact howner
  · rw [RouterHeader.key, hno _ (by simp)] at hstart
    cases hstart

theorem values_extraHeaders (type : ScopeType) (netloc : String) (zone : Domain)
    (forwardedFor : Option String) (isOwner : Bool) :
    let extra := (extraHeaders type netloc zone forwardedFor isOwner).map RouterHeader.pair
    valuesOf "x-forwarded-host" extra = [netloc] ∧
      valuesOf "x-forwarded-proto" extra = [zone.scheme] ∧
      valuesOf "x-forwarded-for" extra = (truthy? forwardedFor).toList := by
  simp only [valuesOf_routerHeaders, extraHeaders]
  cases htruthy : truthy? forwardedFor <;> cases isOwner <;> cases type <;>
    simp [RouterHeader.key, RouterHeader.pair]

theorem identityHeaders_of_dispatch {fw : Framework} {c : Connection} {db : Db} {f : Forwarded}
    (h : dispatch fw c db = .forwarded f) : IdentityHeaders fw c db f := by
  obtain ⟨netloc, zone, app, isOwner, hnetloc, hzone, -, hauth, hsent⟩ :=
    (forwardedBy_of_dispatchFor h).cause
  have hheaders := headers_of_proxyRequest hsent
  have hvalues := values_extraHeaders c.type netloc zone (resolveForwardedFor c) isOwner
  -- a header with the prefix is the one the router adds for the owner
  have hown : ∀ kv ∈ f.headers, startsWith (lower kv.1) openhostHeaderPrefix = true →
      isOwner = true ∧ kv = ("X-OpenHost-Is-Owner", "true") := by
    intro kv hkv hstart
    have hid : isIdentityKey (lower kv.1) = true := by simp [isIdentityKey, hstart]
    rw [hheaders, mem_build_of_isIdentityKey hid] at hkv
    obtain ⟨r, hr, rfl⟩ := hkv
    rw [lower_pair] at hstart
    obtain ⟨hflag, rfl⟩ := eq_isOwner_of_prefix hr hstart
    exact ⟨hflag, rfl⟩
  refine ⟨⟨?_, ?_⟩, fun kv hkv hstart => (hown kv hkv hstart).2, netloc, zone, hnetloc, hzone,
    ?_, ?_, ?_⟩
  · rintro ⟨kv, hkv, hname⟩
    have hstart : startsWith (lower kv.1) openhostHeaderPrefix = true := by
      rw [hname]
      decide
    have hflag := (hown kv hkv hstart).1
    rw [if_pos hflag] at hauth
    exact hauth
  · intro haccepted
    cases isOwner with
    | true =>
      refine ⟨RouterHeader.xOpenHostIsOwner.pair, ?_, lower_pair _⟩
      have hid : isIdentityKey (lower RouterHeader.xOpenHostIsOwner.pair.1) = true := by
        rw [lower_pair]
        decide
      rw [hheaders, mem_build_of_isIdentityKey hid]
      exact ⟨.xOpenHostIsOwner, mem_extraHeaders.mpr (by simp), rfl⟩
    | false =>
      rw [if_neg (by simp), haccepted] at hauth
      cases hauth.1
  · rw [hheaders, valuesOf_build (by decide)]
    exact hvalues.1
  · rw [hheaders, valuesOf_build (by decide)]
    exact hvalues.2.1
  · rw [hheaders, valuesOf_build (by decide)]
    exact hvalues.2.2

/-- The client's own values of the identity headers make no difference, except that the loopback
proxy is believed about `X-Forwarded-For`. -/
theorem dispatch_withHeaders {fw : Framework} {c : Connection} {db : Db} {headers : List Header}
    (hsame : withoutIdentity headers = withoutIdentity c.headers)
    (hpeer : (∀ host, c.client = some host → host ∉ loopbackHosts) ∨
      getHeader headers "x-forwarded-for" = getHeader c.headers "x-forwarded-for") :
    dispatch fw (c.withHeaders headers) db = dispatch fw c db := by
  have hfor : resolveForwardedFor (c.withHeaders headers) = resolveForwardedFor c := by
    have hclient : (c.withHeaders headers).client = c.client := rfl
    have hhs : (c.withHeaders headers).headers = headers := rfl
    rw [resolveForwardedFor, hclient, hhs, resolveForwardedFor]
    rcases hpeer with hpeer | hpeer
    · cases hc : c.client with
      | none => rfl
      | some host => simp only [if_neg (hpeer host hc)]
    · rw [hpeer]
  have hstripped : (c.withHeaders headers).stripped = c.stripped := by
    show c.withHeaders (withoutIdentity headers) = c.withHeaders (withoutIdentity c.headers)
    rw [hsame]
  rw [dispatch, hfor, ← dispatchFor_stripped, hstripped, dispatchFor_stripped, dispatch]

/-- An app can take the identity headers of a request it receives for the router's own. -/
theorem dispatch_identity (fw : Framework) (c : Connection) (db : Db) :
    (∀ f, dispatch fw c db = .forwarded f → IdentityHeaders fw c db f) ∧
    ∀ headers, withoutIdentity headers = withoutIdentity c.headers →
      ((∀ host, c.client = some host → host ∉ loopbackHosts) ∨
        getHeader headers "x-forwarded-for" = getHeader c.headers "x-forwarded-for") →
      dispatch fw (c.withHeaders headers) db = dispatch fw c db :=
  ⟨fun _ h => identityHeaders_of_dispatch h, fun _ hsame hpeer => dispatch_withHeaders hsame hpeer⟩

/-- A visitor of the app `notes` who claims to be its owner. -/
def visitor : Connection where
  type := .http
  method := "GET"
  rawPath := Utf8.encode "/feed"
  queryString := []
  headers := [("host", "notes.example.com"), ("X-OpenHost-Is-Owner", "true")]
  client := some "10.200.0.7"
  body := []
  cut := by decide

/-- The app `notes`, whose feed is public. -/
def feedDb : Db where
  domains := [{ name := "example.com", tls := true, mdns := false, isPrimary := true }]
  apps := [⟨"a1", "notes", 9000, .array [.text "/feed"]⟩]
  sessions := []
  apiTokens := []
  appTokens := []
  now := 0
  hash := id

/-- What the app gets to see of that visitor. -/
def visitForwarded : Forwarded where
  type := .http
  method := "GET"
  url := Utf8.encode "http://127.0.0.1:9000/feed"
  headers := [("X-Forwarded-Host", "notes.example.com"), ("X-Forwarded-Proto", "https"),
    ("X-Forwarded-For", "10.200.0.7"), ("Host", "notes.example.com")]
  content := none
  subprotocols := none

theorem matchDomain_feedDb :
    matchDomain feedDb.domains "notes.example.com" = some ⟨"example.com", true, false⟩ := by
  have hsort : feedDb.domains.mergeSort (fun r s => decide (r.name ≤ s.name)) = feedDb.domains :=
    List.mergeSort_singleton _
  rw [matchDomain, Domains.effectiveDomains, Domains.loadRecords, hsort]
  decide

theorem visitor_dispatch : dispatch plainFramework visitor feedDb = .forwarded visitForwarded := by
  have hnetloc : plainFramework.netloc (getHeader visitor.headers "host") visitor.path
      visitor.queryString = some "notes.example.com" := by decide
  have happ : getAppFromHostname "notes.example.com" feedDb =
      some ⟨"a1", "notes", 9000, .array [.text "/feed"]⟩ := by
    rw [getAppFromHostname, matchDomain_feedDb]
    decide
  have hverify : verifyOwnerAuth plainFramework visitor feedDb = .notAuthorized := by decide
  have hpublic : isPublicPath (.array [.text "/feed"]) visitor.path = some true := by decide
  rw [dispatch, dispatchFor, hnetloc]
  simp only [matchDomain_feedDb, happ, hverify, hpublic]
  decide

/-- The visitor's claim does not reach the app, and does not change what reaches it. -/
theorem visitor_identity :
    IdentityHeaders plainFramework visitor feedDb visitForwarded ∧
      dispatch plainFramework (visitor.withHeaders [("host", "notes.example.com")]) feedDb =
        dispatch plainFramework visitor feedDb :=
  ⟨(dispatch_identity plainFramework visitor feedDb).1 visitForwarded visitor_dispatch,
    (dispatch_identity plainFramework visitor feedDb).2 [("host", "notes.example.com")]
      (by decide) (Or.inl (by decide))⟩

end OpenHost.Web
