import Mathlib.Data.List.TakeWhile
import OpenHost.Web.Headers

/-!
# The URL a request is forwarded to

`_format_proxy_request_url`, and the path and query that the backend receives once the HTTP client
has parsed the URL.
-/

namespace OpenHost.Web

open Utf8 (Bytes)
open Url (slash question)

/-! ## Targets -/

/-- `ProxyTarget` -/
inductive ProxyTarget where
  | localPort (port : Nat)
  | inProcess
  deriving DecidableEq, Repr

/-- `BUILTIN_HOST` -/
def builtinHost : String := "http://builtin.openhost.internal"

/-- The base URL of a target: of `client_for` over HTTP, of `proxy_websocket_request` over a
WebSocket, which is refused for a target inside the process. -/
def baseUrl : ScopeType → ProxyTarget → Option String
  | .http, .localPort port => some ("http://127.0.0.1:" ++ toString port)
  | .http, .inProcess => some builtinHost
  | .websocket, .localPort port => some ("ws://127.0.0.1:" ++ toString port)
  | .websocket, .inProcess => none

/-! ## `_format_proxy_request_url` -/

/-- The path that is put behind the base URL: `none` is a `UnicodeDecodeError`. -/
def proxyPath (c : Connection) (overridePath : Option String) : Option Bytes :=
  match Text.truthy? overridePath with
  | some path => some (Utf8.encode path)
  -- `scope["raw_path"].decode("ascii")`
  | none => if c.rawPath.all (· < 0x80) then some c.rawPath else none

/-- `_format_proxy_request_url`: `none` is a `UnicodeDecodeError`. -/
def formatProxyRequestUrl (c : Connection) (base : String) (overridePath : Option String) :
    Option Bytes :=
  match proxyPath c overridePath with
  | none => none
  | some path =>
      let targetUrl := Utf8.encode base ++ slash :: path.dropWhile (· = slash)
      if c.queryString = [] then some targetUrl
      else if Utf8.valid c.queryString then some (targetUrl ++ question :: c.queryString)
      else none

/-! ## What the backend receives -/

/-- The path of the request that the client sends for a URL.  The HTTP client removes dot segments,
the WebSocket client sends the path as it stands. -/
def receivedPath (type : ScopeType) (url : Bytes) : Bytes :=
  match type with
  | .http => Url.removeDots (Url.path url)
  | .websocket => Url.path url

/-- The query string of that request. -/
def receivedQuery (url : Bytes) : Bytes := Url.query url

/-! ## Base URLs -/

/-- A base URL is a scheme and an authority: what comes after it is the path. -/
structure IsBase (base : Bytes) : Prop where
  split : ∃ scheme authority, base = scheme ++ Url.colon :: slash :: slash :: authority ∧
    (∀ b ∈ scheme, b ≠ Url.colon) ∧ ∀ b ∈ authority, Url.endsAuthority b = false

theorem afterAuthority_base {base : Bytes} (h : IsBase base) (rest : Bytes) :
    Url.afterAuthority (Url.afterScheme (base ++ slash :: rest)) = slash :: rest := by
  obtain ⟨scheme, authority, rfl, hscheme, hauthority⟩ := h.split
  have hs : ∀ b ∈ scheme, decide (b ≠ Url.colon) = true := fun b hb => by
    simpa using hscheme b hb
  have ha : ∀ b ∈ authority, (!Url.endsAuthority b) = true := fun b hb => by
    simp [hauthority b hb]
  have hcut : Url.afterScheme (scheme ++ Url.colon :: slash :: slash :: authority ++ slash :: rest) =
      slash :: slash :: (authority ++ slash :: rest) := by
    rw [Url.afterScheme, List.append_assoc, List.dropWhile_append_of_pos hs]
    simp
  have hend : (!Url.endsAuthority slash) = false := by decide
  rw [hcut, Url.afterAuthority, if_pos ⟨rfl, rfl⟩, List.dropWhile_append_of_pos ha,
    List.dropWhile_cons_of_neg (by simp [hend])]

theorem isDigit_of_mem_encode {c : Char} (h : c.isDigit = true) :
    ∀ b ∈ String.utf8EncodeChar c, 0x30 ≤ b ∧ b ≤ 0x39 := by
  have key : ∀ n : Fin 256, (Char.ofNat n).isDigit = true →
      ∀ b ∈ String.utf8EncodeChar (Char.ofNat n), 0x30 ≤ b ∧ b ≤ 0x39 := by
    decide +kernel
  have hlt : c.toNat < 256 := by
    simp only [Char.isDigit, Bool.and_eq_true, decide_eq_true_eq] at h
    have hle : c ≤ '9' := h.2
    rw [Text.le_iff_toNat] at hle
    exact Nat.lt_of_le_of_lt hle (by decide)
  have hc := key ⟨c.toNat, hlt⟩
  rw [Char.ofNat_toNat] at hc
  exact hc h

theorem isBase_localPort (scheme : String) (port : Nat)
    (hscheme : ∀ b ∈ Utf8.encode scheme, b ≠ Url.colon) :
    IsBase (Utf8.encode (scheme ++ "://127.0.0.1:" ++ toString port)) := by
  refine ⟨Utf8.encode scheme, Utf8.encode ("127.0.0.1:" ++ toString port), ?_, hscheme, ?_⟩
  · have hsep : Utf8.encode "://127.0.0.1:" =
        Url.colon :: slash :: slash :: Utf8.encode "127.0.0.1:" := by decide +kernel
    simp [hsep]
  · intro b hb
    rw [Utf8.encode_append, List.mem_append] at hb
    rcases hb with hb | hb
    · have hhost : ∀ b ∈ Utf8.encode "127.0.0.1:", Url.endsAuthority b = false := by
        decide +kernel
      exact hhost b hb
    · obtain ⟨c, hc, hb⟩ := List.mem_flatMap.mp hb
      rw [Nat.toString_eq_repr, Nat.toList_repr] at hc
      have hdigit : c.isDigit = true := Nat.isDigit_of_mem_toDigits (by decide) (by decide) hc
      have hrange := isDigit_of_mem_encode hdigit b hb
      -- a digit is none of the delimiters
      simp only [Url.endsAuthority, Bool.or_eq_false_iff, decide_eq_false_iff_not]
      refine ⟨⟨?_, ?_⟩, ?_⟩ <;> rintro rfl <;> exact absurd hrange (by decide)

theorem isBase_of_baseUrl {type : ScopeType} {target : ProxyTarget} {base : String}
    (h : baseUrl type target = some base) : IsBase (Utf8.encode base) := by
  cases type with
  | http =>
    cases target with
    | localPort port =>
      have hbase : base = "http" ++ "://127.0.0.1:" ++ toString port := (Option.some.inj h).symm
      rw [hbase]
      exact isBase_localPort "http" port (by decide +kernel)
    | inProcess =>
      have hbase : base = builtinHost := (Option.some.inj h).symm
      rw [hbase]
      exact ⟨Utf8.encode "http", Utf8.encode "builtin.openhost.internal", by decide +kernel,
        by decide +kernel, by decide +kernel⟩
  | websocket =>
    cases target with
    | localPort port =>
      have hbase : base = "ws" ++ "://127.0.0.1:" ++ toString port := (Option.some.inj h).symm
      rw [hbase]
      exact isBase_localPort "ws" port (by decide +kernel)
    | inProcess => cases h

/-! ## Reading the URL back -/

/-- What stands behind the base URL, up to the first `#` and then the first `?`. -/
theorem path_base_append {base : Bytes} (h : IsBase base) (rest : Bytes) :
    Url.path (base ++ slash :: rest) =
      slash :: (rest.takeWhile (· ≠ Url.hash)).takeWhile (· ≠ question) := by
  have hcut : (Url.beforeFragment (slash :: rest)).takeWhile (· ≠ question) =
      slash :: (rest.takeWhile (· ≠ Url.hash)).takeWhile (· ≠ question) := by
    simp [Url.beforeFragment, slash, Url.hash, question]
  rw [Url.path, afterAuthority_base h, hcut]

theorem query_base_append {base : Bytes} (h : IsBase base) (rest : Bytes) :
    receivedQuery (base ++ slash :: rest) =
      ((rest.takeWhile (· ≠ Url.hash)).dropWhile (· ≠ question)).tail := by
  have hcut : Url.beforeFragment (slash :: rest) = slash :: rest.takeWhile (· ≠ Url.hash) := by
    simp [Url.beforeFragment, slash, Url.hash]
  rw [receivedQuery, Url.query, afterAuthority_base h, hcut]
  simp [slash, question]

theorem takeWhile_takeWhile_append {p q : UInt8 → Bool} {b : UInt8} (hb : q b = false)
    {r : Bytes} (hr : ∀ a ∈ r, q a = true) (tail : Bytes) :
    ((r ++ b :: tail).takeWhile p).takeWhile q = r.takeWhile p := by
  induction r with
  | nil => by_cases hp : p b = true <;> simp [hp, hb]
  | cons a r ih =>
    have hrest := ih fun a ha => hr a (List.mem_cons_of_mem _ ha)
    by_cases hp : p a = true <;> simp [hp, hr a List.mem_cons_self, hrest]

/-- The shape of a URL that was put together, and the path in it: that of the client or of the
override, cut at the first `#`. -/
theorem path_of_formatProxyRequestUrl {c : Connection} {base : String}
    {overridePath : Option String} {url path : Bytes} (hbase : IsBase (Utf8.encode base))
    (hpath : proxyPath c overridePath = some path) (hno : question ∉ path)
    (h : formatProxyRequestUrl c base overridePath = some url) :
    Url.path url = slash :: (path.dropWhile (· = slash)).takeWhile (· ≠ Url.hash) := by
  have hq : ∀ b ∈ path.dropWhile (· = slash), decide (b ≠ question) = true := by
    intro b hb
    simp only [decide_eq_true_eq]
    rintro rfl
    exact hno ((List.dropWhile_suffix _).mem hb)
  rw [formatProxyRequestUrl, hpath] at h
  simp only at h
  split at h
  · rw [← Option.some.inj h, path_base_append hbase]
    congr 1
    apply List.takeWhile_eq_self_iff.mpr
    intro b hb
    exact hq b ((List.takeWhile_prefix _).mem hb)
  · split at h
    · rw [← Option.some.inj h, List.append_assoc, List.cons_append, path_base_append hbase,
        takeWhile_takeWhile_append (by simp) hq]
    · cases h

end OpenHost.Web
