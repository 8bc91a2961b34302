import OpenHost.Web.Auth

/-!
# URLs taken apart and put together

`urllib.parse.urlparse` and `urlunparse` in full.  The scheme is cut off and the network location is
read as for the `Origin` header; here the rest of the URL is kept as well.
-/

namespace OpenHost.Web

open Text (lower)

/-- `ParseResult` -/
structure ParseResult where
  scheme : String
  netloc : List Char
  path : List Char
  params : List Char
  query : List Char
  fragment : List Char
  deriving DecidableEq, Repr

/-! ## Parsing -/

/-- `urlsplit` finds a scheme in front of the first colon. -/
def hasScheme (url : List Char) : Bool :=
  let scheme := url.takeWhile (· ≠ ':')
  scheme.length < url.length && scheme.head?.any isAsciiAlpha && scheme.all isSchemeChar

/-- The scheme of a URL, in lower case; empty where it has none. -/
def urlScheme (url : List Char) : String :=
  if hasScheme url then lower (String.ofList (url.takeWhile (· ≠ ':'))) else ""

/-- What follows the network location in a URL without its scheme. -/
def afterNetloc (url : List Char) : List Char :=
  match url with
  | '/' :: '/' :: rest => rest.dropWhile (!endsNetloc ·)
  | url => url

/-- `uses_params` -/
def usesParams : List String :=
  ["", "ftp", "hdl", "prospero", "http", "imap", "https", "shttp", "rtsp", "rtsps", "rtspu", "sip",
    "sips", "mms", "sftp", "tel"]

/-- `_splitparams`: the parameters of the last segment. -/
def splitParams (path : List Char) : List Char × List Char :=
  let last := (path.reverse.takeWhile (· ≠ '/')).reverse
  if ';' ∈ last then
    (path.take (path.length - last.length) ++ last.takeWhile (· ≠ ';'),
      (last.dropWhile (· ≠ ';')).tail)
  else (path, [])

/-- `urlparse`; `none` is a `ValueError`. -/
def urlparse (fw : Framework) (url : String) : Option ParseResult :=
  let cleaned := cleanUrl url.toList
  let scheme := urlScheme cleaned
  let rest := dropScheme cleaned
  if netlocOk fw (splitNetloc rest) then
    let beforeFragment := (afterNetloc rest).takeWhile (· ≠ '#')
    let path := beforeFragment.takeWhile (· ≠ '?')
    let split := if scheme ∈ usesParams then splitParams path else (path, [])
    some {
      scheme := scheme
      netloc := splitNetloc rest
      path := split.1
      params := split.2
      query := (beforeFragment.dropWhile (· ≠ '?')).tail
      fragment := ((afterNetloc rest).dropWhile (· ≠ '#')).tail }
  else none

namespace ParseResult

variable (p : ParseResult)

/-- `hostname` -/
def hostname : Option String :=
  let host := (hostAndPort p.netloc).1
  if host = [] then none else some (hostnameLower host)

/-- `port`: `none` inside is no port, `none` outside a `ValueError`. -/
def port : Option (Option Nat) := portOf (hostAndPort p.netloc).2

/-- `netloc.rpartition('@')[0]` -/
def userinfo : List Char :=
  if '@' ∈ p.netloc then p.netloc.take (p.netloc.length - (hostInfo p.netloc).length - 1) else []

/-- `username or password` -/
def hasCredentials : Bool :=
  p.userinfo.takeWhile (· ≠ ':') ≠ [] || (p.userinfo.dropWhile (· ≠ ':')).tail ≠ []

/-! ## Putting together -/

/-- `uses_netloc` -/
def usesNetloc : List String :=
  ["", "ftp", "http", "gopher", "nntp", "telnet", "imap", "wais", "file", "mms", "https", "shttp",
    "snews", "prospero", "rtsp", "rtsps", "rtspu", "rsync", "svn", "svn+ssh", "sftp", "nfs", "git",
    "git+ssh", "ws", "wss", "itms-services"]

/-- The network location and the path, as `urlunsplit` joins them. -/
def location (path : List Char) : List Char :=
  if p.netloc ≠ [] then
    '/' :: '/' :: p.netloc ++
      (if path ≠ [] && path.head? ≠ some '/' then '/' :: path else path)
  else if path.take 2 = ['/', '/'] then '/' :: '/' :: path
  else if p.scheme ≠ "" && p.scheme ∈ usesNetloc && (path = [] || path.head? = some '/') then
    '/' :: '/' :: path
  else path

/-- `geturl`, that is `urlunparse` -/
def geturl : String :=
  let path := if p.params ≠ [] then p.path ++ ';' :: p.params else p.path
  let url := p.location path
  let url := if p.scheme ≠ "" then p.scheme.toList ++ ':' :: url else url
  let url := if p.query ≠ [] then url ++ '?' :: p.query else url
  String.ofList (if p.fragment ≠ [] then url ++ '#' :: p.fragment else url)

end ParseResult

end OpenHost.Web
