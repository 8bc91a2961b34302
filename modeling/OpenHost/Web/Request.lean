import OpenHost.Library.Url
import OpenHost.Domains.State

/-!
# Requests and what the router knows

An ASGI connection as the router reads it, the tables its request handlers consult, and the pieces
of the web framework they rest on.
-/

namespace OpenHost.Web

open Text (lower)
open Utf8 (Bytes)
open Domains (DomainRecord Domain matchDomain)

/-! ## Connections -/

/-- `ScopeType`, without the lifespan messages. -/
inductive ScopeType where
  | http
  | websocket
  deriving DecidableEq, Repr

/-- An ASGI connection: the parts of its scope that the router reads, and the body. -/
structure Connection where
  type : ScopeType
  method : String
  rawPath : Bytes
  queryString : Bytes
  headers : List (String × String)
  client : Option String
  body : Bytes
  /-- The server cuts the request target at the first `?`. -/
  cut : Url.question ∉ rawPath

/-- `scope["path"]`: the raw path, percent-decoded. -/
def Connection.path (c : Connection) : String := Utf8.decode (Url.unquote c.rawPath)

/-- `headers.get(name)`: the value of the first header of that name, in any casing. -/
def getHeader (headers : List (String × String)) (name : String) : Option String :=
  (headers.find? fun kv => lower kv.1 = name).map Prod.snd

/-- The web framework and the standard library where the handlers call them. -/
structure Framework where
  /-- `connection.url.netloc`, from the `Host` header, the path and the query: `none` where the URL
  cannot be parsed. -/
  netloc : Option String → String → Bytes → Option String
  /-- `connection.base_url.netloc` -/
  baseNetloc : Option String → String
  /-- Unquoting the value of a cookie. -/
  unquoteCookie : String → String
  /-- `ipaddress` takes the text for an IPv6 address. -/
  isIPv6 : String → Bool
  /-- A network location that is not ASCII keeps its delimiters under NFKC. -/
  nfkcKeeps : String → Bool

/-- A framework that takes the network location from the `Host` header as it stands. -/
def plainFramework : Framework where
  netloc host _ _ := some (host.getD "")
  baseNetloc host := host.getD ""
  unquoteCookie := id
  isIPv6 _ := false
  nfkcKeeps _ := false

/-! ## Tables -/

/-- One entry of a JSON list: the public paths are not checked to be texts. -/
inductive Entry where
  | text (s : String)
  | other
  deriving DecidableEq, Repr

/-- `App.public_paths`: whatever the manifest has under `public_paths`. -/
inductive PublicPaths where
  | array (entries : List Entry)
  | text (s : String)
  | table (keys : List String)
  | scalar
  deriving DecidableEq, Repr

/-- The columns of `apps` that request handlers read. -/
structure App where
  appId : String
  name : String
  localPort : Nat
  publicPaths : PublicPaths
  deriving DecidableEq, Repr

/-- `AuthenticatedUser` -/
structure AuthenticatedUser where
  userId : Nat
  username : String
  deriving DecidableEq, Repr

/-- A row of `sessions` with the user it belongs to. -/
structure SessionRow where
  tokenHash : String
  user : AuthenticatedUser
  expiresAt : Nat
  deriving DecidableEq, Repr

/-- A row of `api_tokens`; one that never expires has no date. -/
structure ApiTokenRow where
  tokenHash : String
  expiresAt : Option Nat
  deriving DecidableEq, Repr

/-- A row of `app_tokens`. -/
structure AppTokenRow where
  tokenHash : String
  appId : String
  deriving DecidableEq, Repr

/-- The database as a request finds it, the clock and the hash of tokens. -/
structure Db where
  domains : List DomainRecord
  apps : List App
  sessions : List SessionRow
  apiTokens : List ApiTokenRow
  appTokens : List AppTokenRow
  now : Nat
  hash : String → String

/-- `find_app_by_name` -/
def findAppByName (db : Db) (name : String) : Option App := db.apps.find? fun a => a.name = name

/-- `get_app_from_hostname` -/
def getAppFromHostname (host : String) (db : Db) : Option App :=
  match matchDomain db.domains host with
  | none => none
  | some matched =>
      let zoneNoPort := matched.nameNoPort
      let hostNoPort := Domain.hostNoPort host
      if hostNoPort = zoneNoPort then none
      else
        -- `host_no_port[: -(len(zone_no_port) + 1)]`
        let appName := String.ofList
          (hostNoPort.toList.take (hostNoPort.toList.length - (zoneNoPort.toList.length + 1)))
        if '.' ∈ appName.toList then none else findAppByName db appName

/-- The host, without its port and in lower case, is `<app>.<domain>` for this installed app and the
most specific configured domain that owns it. -/
def NamesApp (db : Db) (host : String) (app : App) : Prop :=
  ∃ d : Domain, Domains.MostSpecific (Domains.effectiveDomains db.domains) host d ∧
    Domain.hostNoPort host = app.name ++ "." ++ d.nameNoPort ∧
    '.' ∉ app.name.toList ∧ findAppByName db app.name = some app

end OpenHost.Web
