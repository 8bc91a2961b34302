import OpenHost.Library.Fields
import OpenHost.Web.Request

/-!
# Who makes a request

The `Origin` header as the router parses it, the cookies, the credentials, and the two checks that
handlers make: `verify_owner_auth` and `verify_app_auth`.
-/

namespace OpenHost.Web

open Text (lower before after split startsWith stripBlank truthy?)
open Utf8 (Bytes)

/-! ## `urllib.parse` on the `Origin` header -/

/-- A character that may stand in the scheme of a URL. -/
def isSchemeChar (c : Char) : Bool :=
  ('a' ≤ c && c ≤ 'z') || ('A' ≤ c && c ≤ 'Z') || ('0' ≤ c && c ≤ '9') ||
    c = '+' || c = '-' || c = '.'

/-- An ASCII letter. -/
def isAsciiAlpha (c : Char) : Bool := ('a' ≤ c && c ≤ 'z') || ('A' ≤ c && c ≤ 'Z')

/-- `urlsplit` drops leading control characters and blanks, and every tab and line break. -/
def cleanUrl (url : List Char) : List Char :=
  (url.dropWhile (· ≤ ' ')).filter fun c => c ≠ '\t' && c ≠ '\r' && c ≠ '\n'

/-- The URL without its scheme, if it has one. -/
def dropScheme (url : List Char) : List Char :=
  let scheme := url.takeWhile (· ≠ ':')
  if scheme.length < url.length && scheme.head?.any isAsciiAlpha && scheme.all isSchemeChar then
    url.drop (scheme.length + 1)
  else url

/-- A delimiter that ends the network location. -/
def endsNetloc (c : Char) : Bool := c = '/' || c = '?' || c = '#'

/-- The network location of a URL without its scheme. -/
def splitNetloc (url : List Char) : List Char :=
  match url with
  | '/' :: '/' :: rest => rest.takeWhile (!endsNetloc ·)
  | _ => []

/-- `netloc.rpartition('@')[2]` -/
def hostInfo (netloc : List Char) : List Char := (netloc.reverse.takeWhile (· ≠ '@')).reverse

/-- `_hostinfo`: the host and the port of a network location. -/
def hostAndPort (netloc : List Char) : List Char × List Char :=
  let info := hostInfo netloc
  if '[' ∈ info then
    let bracketed := (info.dropWhile (· ≠ '[')).tail
    (bracketed.takeWhile (· ≠ ']'),
      (((bracketed.dropWhile (· ≠ ']')).tail).dropWhile (· ≠ ':')).tail)
  else (info.takeWhile (· ≠ ':'), (info.dropWhile (· ≠ ':')).tail)

/-- `_check_bracketed_netloc` passes. -/
def bracketsOk (fw : Framework) (netloc : List Char) : Bool :=
  let info := hostInfo netloc
  if '[' ∈ info then
    let afterClose := (((info.dropWhile (· ≠ '[')).tail).dropWhile (· ≠ ']')).tail
    info.takeWhile (· ≠ '[') = [] && (afterClose = [] || afterClose.head? = some ':') &&
      fw.isIPv6 (String.ofList (hostAndPort netloc).1)
  else fw.isIPv6 (String.ofList (hostAndPort netloc).1)

/-- `urlsplit` takes the network location: the brackets match and Unicode hides no delimiter. -/
def netlocOk (fw : Framework) (netloc : List Char) : Bool :=
  (if '[' ∈ netloc || ']' ∈ netloc then
    decide ('[' ∈ netloc ∧ ']' ∈ netloc) && bracketsOk fw netloc
  else true) &&
  (netloc.all (· ≤ '\x7f') || fw.nfkcKeeps (String.ofList netloc))

/-- `parsed.port`: `none` inside is no port, `none` outside a `ValueError`. -/
def portOf (port : List Char) : Option (Option Nat) :=
  if port = [] then some none
  else if port.all Char.isDigit then
    let n := Nat.ofDigitChars 10 port 0
    if n ≤ 65535 then some (some n) else none
  else none

/-- `hostname.lower()`, up to a zone after `%`. -/
def hostnameLower (host : List Char) : String :=
  lower (String.ofList (host.takeWhile (· ≠ '%'))) ++ String.ofList (host.dropWhile (· ≠ '%'))

/-- What `get_connection_origin` makes of the text of the header: `none` is a `ValueError`. -/
def formatOrigin (fw : Framework) (raw : String) : Option String :=
  let netloc := splitNetloc (dropScheme (cleanUrl raw.toList))
  if netlocOk fw netloc then
    let (host, port) := hostAndPort netloc
    match portOf port with
    | none => none
    | some p =>
        if host = [] then some (Text.orElse (some (lower (stripBlank raw))) "null")
        else
          match p with
          | some (n + 1) => some (hostnameLower host ++ ":" ++ toString (n + 1))
          | _ => some (hostnameLower host)
  else none

/-- `get_connection_origin`: `none` outside is a `ValueError`, `none` inside an absent header. -/
def getConnectionOrigin (fw : Framework) (c : Connection) : Option (Option String) :=
  match getHeader c.headers "origin" with
  | none => some none
  | some raw => (formatOrigin fw raw).map some

/-! ## Cookies -/

/-- The name and the raw value of one part of a cookie header. -/
def cookiePart (part : String) : String × String :=
  if '=' ∈ part.toList then (stripBlank (before '=' part), stripBlank (after '=' part))
  else ("", stripBlank part)

/-- `parse_cookie_string`: the cookies of a header in their order. -/
def parseCookieString (fw : Framework) (header : String) : List (String × String) :=
  (((split ';' header).map cookiePart).filter fun kv => kv.1 ≠ "" || kv.2 ≠ "").map
    fun kv => (kv.1, fw.unquoteCookie kv.2)

/-- `connection.cookies.get(name)`: of two cookies of one name the later one counts. -/
def getCookie (fw : Framework) (headers : List (String × String)) (name : String) :
    Option String :=
  match getHeader headers "cookie" with
  | none => none
  | some header =>
      ((parseCookieString fw header).reverse.find? fun kv => kv.1 = name).map Prod.snd

/-! ## Credentials -/

/-- `SESSION_COOKIE_NAME` -/
def sessionCookieName : String := "session_token"

/-- `AuthenticatedAccessor` -/
inductive AuthenticatedAccessor where
  | user (u : AuthenticatedUser)
  | apiKey
  | app (appId : String)
  deriving DecidableEq, Repr

/-- `validate_session_token` -/
def validateSessionToken (db : Db) (token : String) : Option AuthenticatedUser :=
  match db.sessions.find? fun s => s.tokenHash = db.hash token with
  | some s => if db.now ≤ s.expiresAt then some s.user else none
  | none => none

/-- `validate_api_token` -/
def validateApiToken (db : Db) (token : String) : Bool :=
  match db.apiTokens.find? fun t => t.tokenHash = db.hash token with
  | some t => t.expiresAt.all (db.now ≤ ·)
  | none => false

/-- `validate_app_token` -/
def validateAppToken (db : Db) (token : String) : Option String :=
  ((db.appTokens.filter fun t => db.apps.any (·.appId = t.appId)).find?
    fun t => t.tokenHash = db.hash token).map AppTokenRow.appId

/-- `_get_bearer_token_if_set` -/
def getBearerTokenIfSet (c : Connection) : Option String :=
  match truthy? (getHeader c.headers "authorization") with
  | none => none
  | some h =>
      if startsWith (lower h) "bearer " then
        truthy? (some (stripBlank (String.ofList (h.toList.drop 7))))
      else none

/-- `authenticate` -/
def authenticate (fw : Framework) (c : Connection) (db : Db) : Option AuthenticatedAccessor :=
  match (truthy? (getCookie fw c.headers sessionCookieName)).bind (validateSessionToken db) with
  | some u => some (.user u)
  | none =>
      match getBearerTokenIfSet c with
      | none => none
      | some token =>
          if validateApiToken db token then some .apiKey
          else (validateAppToken db token).map .app

/-- How a check can end. -/
inductive Verdict (α : Type) where
  | accepted (a : α)
  | notAuthorized
  | raised
  deriving DecidableEq, Repr

/-- `verify_owner_auth` -/
def verifyOwnerAuth (fw : Framework) (c : Connection) (db : Db) : Verdict Unit :=
  match getConnectionOrigin fw c with
  | none => .raised
  | some origin =>
      match authenticate fw c db with
      | some (.user _) =>
          -- a session counts only for requests of the same origin
          if origin.all (· = fw.baseNetloc (getHeader c.headers "host")) then .accepted ()
          else .notAuthorized
      | some .apiKey => .accepted ()
      | _ => .notAuthorized

/-- `verify_app_auth`: the id of the app that makes the request. -/
def verifyAppAuth (fw : Framework) (c : Connection) (db : Db) : Verdict String :=
  match getConnectionOrigin fw c with
  | none => .raised
  | some origin =>
      match authenticate fw c db with
      | some (.user _) =>
          match origin.bind (getAppFromHostname · db) with
          | some app => .accepted app.appId
          | none => .notAuthorized
      | some (.app appId) => .accepted appId
      | _ => .notAuthorized

end OpenHost.Web
