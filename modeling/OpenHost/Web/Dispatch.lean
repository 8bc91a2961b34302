import OpenHost.Web.Hosts
import OpenHost.Web.Proxy

/-!
# The subdomain proxy

`SubdomainProxyMiddleware._dispatch`: which app a request on a subdomain is forwarded to, with which
headers, and when the owner has to log in first.
-/

namespace OpenHost.Web

open Text (lower before rstrip startsWith stripBlank truthy?)
open Utf8 (Bytes)
open Domains (Domain matchDomain)

/-! ## Public paths -/

/-- The entries that `for pp in app.public_paths` goes through: `none` is a `TypeError`. -/
def PublicPaths.iterate : PublicPaths → Option (List Entry)
  | .array entries => some entries
  | .text s => some (s.toList.map fun c => .text (String.ofList [c]))
  | .table keys => some (keys.map .text)
  | .scalar => none

/-- The condition of `is_public_path` for one public path. -/
def pathMatches (requestPath pp : String) : Bool :=
  requestPath = pp || startsWith requestPath (rstrip '/' pp ++ "/")

/-- `any(…)` over the entries: `none` is the `AttributeError` of an entry that is no text. -/
def anyMatches (requestPath : String) : List Entry → Option Bool
  | [] => some false
  | .other :: _ => none
  | .text pp :: entries =>
      if pathMatches requestPath pp then some true else anyMatches requestPath entries

/-- `is_public_path` -/
def isPublicPath (publicPaths : PublicPaths) (requestPath : String) : Option Bool :=
  publicPaths.iterate.bind (anyMatches requestPath)

/-! ## Forwarding -/

/-- `_LOOPBACK_HOSTS` -/
def loopbackHosts : List String := ["127.0.0.1", "::1"]

/-- `ROUTER_INTERNAL_HOSTS` -/
def routerInternalHosts : List String :=
  ["host.containers.internal", "host.docker.internal", "127.0.0.1"]

/-- `_resolve_forwarded_for` -/
def resolveForwardedFor (c : Connection) : Option String :=
  match c.client with
  | none => none
  | some host =>
      if host ∈ loopbackHosts then
        match truthy? (getHeader c.headers "x-forwarded-for") with
        | some inbound => some inbound
        | none => some host
      else some host

/-- The request that an app receives. -/
structure Forwarded where
  type : ScopeType
  method : String
  url : Bytes
  headers : List Header
  content : Option Bytes
  subprotocols : Option (List String)
  deriving DecidableEq, Repr

/-- How the middleware can answer. -/
inductive Outcome where
  | badRequest
  | internalError
  | deferred
  | notFound
  | loginRequired
  | forwarded (f : Forwarded)
  deriving DecidableEq, Repr

/-- `proxy_http_request` and `proxy_websocket_request` up to the request they send. -/
def proxyRequest (c : Connection) (target : ProxyTarget) (extraHeaders : List RouterHeader)
    (overridePath : Option String) : Option Forwarded :=
  match baseUrl c.type target with
  | none => none
  | some base =>
      match formatProxyRequestUrl c base overridePath with
      | none => none
      | some url =>
          let headers := buildForwardedRequestHeaders c.headers c.type extraHeaders
          match c.type with
          | .http =>
              let hasDeclaredBody := (getHeader c.headers "content-length").isSome ||
                (getHeader c.headers "transfer-encoding").isSome
              some ⟨.http, c.method, url, headers, if hasDeclaredBody then some c.body else none,
                none⟩
          | .websocket =>
              let subprotocols := (truthy? (getHeader c.headers "sec-websocket-protocol")).map
                fun s => (Text.split ',' s).map stripBlank
              some ⟨.websocket, c.method, url, headers, none, subprotocols⟩

/-- The headers the router adds to a request for an app. -/
def extraHeaders (type : ScopeType) (netloc : String) (zone : Domain)
    (forwardedFor : Option String) (isOwner : Bool) : List RouterHeader :=
  [.xForwardedHost netloc, .xForwardedProto zone.scheme] ++
    ((truthy? forwardedFor).map RouterHeader.xForwardedFor).toList ++
    (if isOwner then [.xOpenHostIsOwner] else []) ++
    -- the WebSocket client would append a second `Host`
    (if type = .http then [.host netloc] else [])

/-- The last part of `_dispatch`: the request goes to the app. -/
def forwardToApp (c : Connection) (app : App) (netloc : String) (zone : Domain)
    (forwardedFor : Option String) (isOwner : Bool) : Outcome :=
  match proxyRequest c (.localPort app.localPort)
      (extraHeaders c.type netloc zone forwardedFor isOwner) none with
  | some f => .forwarded f
  | none => .internalError

/-- `_dispatch` with the value of `_resolve_forwarded_for`. -/
def dispatchFor (fw : Framework) (c : Connection) (db : Db) (forwardedFor : Option String) :
    Outcome :=
  match fw.netloc (getHeader c.headers "host") c.path c.queryString with
  | none => .badRequest
  | some netloc =>
      match matchDomain db.domains netloc with
      | none =>
          if lower (before ':' netloc) ∈ routerInternalHosts then .deferred else .notFound
      | some zone =>
          match getAppFromHostname netloc db with
          | none => if zone.isAppSubdomain netloc then .notFound else .deferred
          | some app =>
              match verifyOwnerAuth fw c db with
              | .accepted _ => forwardToApp c app netloc zone forwardedFor true
              | .raised => .internalError
              | .notAuthorized =>
                  match isPublicPath app.publicPaths c.path with
                  | some true => forwardToApp c app netloc zone forwardedFor false
                  | some false => .loginRequired
                  | none => .internalError

/-- `SubdomainProxyMiddleware._dispatch` -/
def dispatch (fw : Framework) (c : Connection) (db : Db) : Outcome :=
  dispatchFor fw c db (resolveForwardedFor c)

/-! ## What was forwarded -/

/-- A request that was forwarded: the app, how its owner was authenticated and what was sent. -/
structure ForwardedBy (fw : Framework) (c : Connection) (db : Db) (forwardedFor : Option String)
    (f : Forwarded) : Prop where
  cause : ∃ netloc zone app isOwner,
    fw.netloc (getHeader c.headers "host") c.path c.queryString = some netloc ∧
    matchDomain db.domains netloc = some zone ∧
    getAppFromHostname netloc db = some app ∧
    (if isOwner then verifyOwnerAuth fw c db = .accepted ()
      else verifyOwnerAuth fw c db = .notAuthorized ∧
        isPublicPath app.publicPaths c.path = some true) ∧
    proxyRequest c (.localPort app.localPort)
      (extraHeaders c.type netloc zone forwardedFor isOwner) none = some f

theorem forwardedBy_of_dispatchFor {fw : Framework} {c : Connection} {db : Db}
    {forwardedFor : Option String} {f : Forwarded}
    (h : dispatchFor fw c db forwardedFor = .forwarded f) :
    ForwardedBy fw c db forwardedFor f := by
  have hsent : ∀ {app netloc zone isOwner},
      forwardToApp c app netloc zone forwardedFor isOwner = .forwarded f →
      proxyRequest c (.localPort app.localPort)
        (extraHeaders c.type netloc zone forwardedFor isOwner) none = some f := by
    intro app netloc zone isOwner hf
    unfold forwardToApp at hf
    split at hf
    · rename_i g hg
      rw [hg, Outcome.forwarded.inj hf]
    · cases hf
  unfold dispatchFor at h
  split at h
  · cases h
  · rename_i netloc hnetloc
    split at h
    · split at h <;> cases h
    · rename_i zone hzone
      split at h
      · split at h <;> cases h
      · rename_i app happ
        split at h
        · rename_i u hverify
          exact ⟨netloc, zone, app, true, hnetloc, hzone, happ, hverify, hsent h⟩
        · cases h
        · rename_i hverify
          split at h
          · rename_i hpublic
            exact ⟨netloc, zone, app, false, hnetloc, hzone, happ, ⟨hverify, hpublic⟩, hsent h⟩
          · cases h
          · cases h

/-- The headers of a proxied request. -/
theorem headers_of_proxyRequest {c : Connection} {target : ProxyTarget}
    {extra : List RouterHeader} {overridePath : Option String} {f : Forwarded}
    (h : proxyRequest c target extra overridePath = some f) :
    f.headers = buildForwardedRequestHeaders c.headers c.type extra := by
  unfold proxyRequest at h
  split at h
  · cases h
  · split at h
    · cases h
    · split at h
      · rename_i htype
        rw [← Option.some.inj h, htype]
      · rename_i htype
        rw [← Option.some.inj h, htype]

/-- The URL of a proxied request. -/
theorem url_of_proxyRequest {c : Connection} {target : ProxyTarget}
    {extra : List RouterHeader} {overridePath : Option String} {f : Forwarded}
    (h : proxyRequest c target extra overridePath = some f) :
    f.type = c.type ∧ ∃ base, baseUrl c.type target = some base ∧
      formatProxyRequestUrl c base overridePath = some f.url := by
  unfold proxyRequest at h
  split at h
  · cases h
  · rename_i base hbase
    split at h
    · cases h
    · rename_i url hurl
      split at h
      · rename_i htype
        rw [← Option.some.inj h]
        exact ⟨htype.symm, base, hbase, hurl⟩
      · rename_i htype
        rw [← Option.some.inj h]
        exact ⟨htype.symm, base, hbase, hurl⟩

end OpenHost.Web
