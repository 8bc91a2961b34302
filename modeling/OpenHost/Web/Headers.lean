import OpenHost.Web.Auth

/-!
# The headers a backend app receives

`_sanitize_forwarded_headers` and `_build_forwarded_request_headers`: what is dropped from the
headers of the client, and what the router adds to them.
-/

namespace OpenHost.Web

open Text (lower split startsWith stripBlank)

abbrev Header := String × String

/-! ## The client's headers -/

/-- `_STRIPPED_COOKIES`, each with the `=` that follows the name -/
def cookiePrefixes : List String := [sessionCookieName].map (· ++ "=")

/-- `_OPENHOST_HEADER_PREFIX` -/
def openhostHeaderPrefix : String := "x-openhost-"

/-- The part of a cookie header is one that must not reach a backend app. -/
def isStripped (part : String) : Bool := cookiePrefixes.any (startsWith (stripBlank part))

/-- The parts of a cookie header that are forwarded. -/
def keptParts (value : String) : List String :=
  ((split ';' value).filter fun part => !isStripped part).map stripBlank

/-- The value of a cookie header that is forwarded. -/
def sanitizeCookie (value : String) : String := "; ".intercalate (keptParts value)

/-- What becomes of one header. -/
def sanitizeHeader (header : Header) : Option Header :=
  let (key, value) := header
  if startsWith (lower key) openhostHeaderPrefix then none
  else if lower key = "cookie" then
    if sanitizeCookie value = "" then none else some (key, sanitizeCookie value)
  else some (key, value)

/-- `_sanitize_forwarded_headers` -/
def sanitizeForwardedHeaders (headers : List Header) : List Header :=
  headers.filterMap sanitizeHeader

/-- `_HTTP_REQUEST_EXCLUDED_HEADERS` and `_WS_REQUEST_EXCLUDED_HEADERS` -/
def excludedHeaders : ScopeType → List String
  | .http =>
      ["host", "connection", "transfer-encoding", "accept-encoding",
       "x-forwarded-for", "x-forwarded-proto", "x-forwarded-host"]
  | .websocket =>
      ["host", "connection", "upgrade", "sec-websocket-key", "sec-websocket-version",
       "sec-websocket-extensions", "sec-websocket-protocol",
       "x-forwarded-for", "x-forwarded-proto", "x-forwarded-host"]

/-! ## The router's headers -/

/-- The headers that the router itself puts on a forwarded request. -/
inductive RouterHeader where
  | xForwardedHost (value : String)
  | xForwardedProto (value : String)
  | xForwardedFor (value : String)
  | xOpenHostIsOwner
  | xOpenHostConsumerId (value : String)
  | xOpenHostConsumerName (value : String)
  | xOpenHostPermissions (value : String)
  | host (value : String)
  deriving DecidableEq, Repr

/-- Name and value of the header. -/
def RouterHeader.pair : RouterHeader → Header
  | .xForwardedHost value => ("X-Forwarded-Host", value)
  | .xForwardedProto value => ("X-Forwarded-Proto", value)
  | .xForwardedFor value => ("X-Forwarded-For", value)
  | .xOpenHostIsOwner => ("X-OpenHost-Is-Owner", "true")
  | .xOpenHostConsumerId value => ("X-OpenHost-Consumer-Id", value)
  | .xOpenHostConsumerName value => ("X-OpenHost-Consumer-Name", value)
  | .xOpenHostPermissions value => ("X-OpenHost-Permissions", value)
  | .host value => ("Host", value)

/-- The name of the header in lower case. -/
def RouterHeader.key : RouterHeader → String
  | .xForwardedHost _ => "x-forwarded-host"
  | .xForwardedProto _ => "x-forwarded-proto"
  | .xForwardedFor _ => "x-forwarded-for"
  | .xOpenHostIsOwner => "x-openhost-is-owner"
  | .xOpenHostConsumerId _ => "x-openhost-consumer-id"
  | .xOpenHostConsumerName _ => "x-openhost-consumer-name"
  | .xOpenHostPermissions _ => "x-openhost-permissions"
  | .host _ => "host"

@[simp] theorem lower_pair (h : RouterHeader) : lower h.pair.1 = h.key := by
  cases h <;> simp only [RouterHeader.pair, RouterHeader.key] <;> decide +kernel

/-- `_build_forwarded_request_headers` -/
def buildForwardedRequestHeaders (headers : List Header) (type : ScopeType)
    (extraHeaders : List RouterHeader) : List Header :=
  (sanitizeForwardedHeaders headers).filter (fun kv => lower kv.1 ∉ excludedHeaders type) ++
    extraHeaders.map RouterHeader.pair

/-! ## What is left of a name -/

/-- The values of the headers of this name, in any casing. -/
def valuesOf (name : String) (headers : List Header) : List String :=
  (headers.filter fun kv => lower kv.1 = name).map Prod.snd

@[simp] theorem valuesOf_append (name : String) (headers headers' : List Header) :
    valuesOf name (headers ++ headers') = valuesOf name headers ++ valuesOf name headers' := by
  simp [valuesOf]

end OpenHost.Web
