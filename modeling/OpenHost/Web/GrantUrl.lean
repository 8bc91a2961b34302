import OpenHost.Library.JsonReads
import OpenHost.Web.LoginRedirect

/-!
# The page for a grant that a provider requires

A provider that misses a grant answers 403 and says in the body which one it requires.  Where that is a
grant in the global scope, the router adds the URL of the page on which the owner can approve it.

## Reasoning

* `names_approveGrantUrl`: the URL says which app, which service and which grant.
* `injectGrantUrl_of_requiredGrant`: what becomes of a response that requires a grant the function knows.
* `serviceCall_honoured_iff`: which responses are treated as they should be.
-/

namespace OpenHost.Web

open Domains (DomainRecord Domain matchDomain effectiveDomains)
open Json (Value PyStr Limits FloatRepr Denotes Good ofString get? setItem)

/-! ## The URL -/

/-- `primary_domain_or_none` -/
def primaryDomainOrNone (rows : List DomainRecord) : Option Domain :=
  (rows.find? (·.isPrimary)).map DomainRecord.toDomain

/-- The query of the URL. -/
def approveQuery (consumerAppId serviceUrl : String) (grant : List Char) : Utf8.Bytes :=
  Url.urlencode
    [(Utf8.encode "app", Utf8.encode consumerAppId), (Utf8.encode "service", Utf8.encode serviceUrl),
      (Utf8.encode "grant", Utf8.encode (String.ofList grant))]

/-- What stands before the path: the domain that the owner is browsing, or the primary one. -/
def approveBase (rows : List DomainRecord) (browsingNetloc : Option String) : String :=
  match (browsingNetloc.filter (· ≠ "")).bind (matchDomain rows) with
  | some matched =>
      matched.scheme ++ "://" ++ hostWithRequestPort matched.nameNoPort (browsingNetloc.getD "")
  | none =>
      match primaryDomainOrNone rows with
      | none => ""
      | some primary => primary.scheme ++ "://" ++ primary.name

/-- `approve_grant_url`, where `json.dumps` gets through the grant. -/
def approveGrantUrl (lim : Limits) (rows : List DomainRecord) (consumerAppId serviceUrl : String)
    (grant : Value) (browsingNetloc : Option String) : Option String :=
  (Json.dumpsSorted lim grant).map fun text =>
    let approvePath := "/approve-permissions-v2?" ++ Utf8.decode (approveQuery consumerAppId serviceUrl text)
    approveBase rows browsingNetloc ++ approvePath

/-! ## The response -/

/-- What `proxy_http_request` hands on of a provider's answer. -/
structure ProviderResponse where
  status : Nat
  headers : List (String × String)
  mediaType : Option String
  contentLength : Option Nat
  /-- The text to which `json.loads` decodes the bytes of the body, `none` where it cannot. -/
  body : Option PyStr

/-- `_BUFFER_THRESHOLD` -/
def bufferThreshold : Nat := 512000

/-- `should_buffer`: the others are streamed. -/
def ProviderResponse.buffered (r : ProviderResponse) : Bool := r.contentLength.any (· ≤ bufferThreshold)

/-- `response.body`, which is empty while the body is still to be streamed. -/
def ProviderResponse.raw (r : ProviderResponse) : Option PyStr := if r.buffered then r.body else some []

/-- `_carry_response_headers` -/
def carryResponseHeaders (headers : List (String × String)) : List (String × String) :=
  headers.filter fun h => Text.lower h.1 ∉ ["content-length", "content-type"]

/-- `required_grant.get("scope", "global") == "global"` -/
def isGlobalScope (required : List (PyStr × Value)) : Bool :=
  match get? required "scope" with
  | none => true
  | some (.str scope) => scope = ofString "global"
  | some _ => false

/-- `isinstance(grant, (str, dict))` -/
def isStrOrDict : Value → Bool
  | .str _ | .dict _ => true
  | _ => false

/-- The part of a body that is about a grant. -/
structure RequiredGrant where
  /-- The body. -/
  members : List (PyStr × Value)
  /-- `required_grant` -/
  required : List (PyStr × Value)
  grant : Value

/-- What `_inject_grant_url_if_global` takes out of the body. -/
def requiredGrant? (body : Value) : Option RequiredGrant :=
  match body with
  | .dict members =>
      match get? members "required_grant" with
      | some (.dict required) =>
          if isGlobalScope required then
            (get? required "grant").bind fun grant =>
              if isStrOrDict grant then some ⟨members, required, grant⟩ else none
          else none
      | _ => none
  | _ => none

/-- The body with `grant_url` in it. -/
def RequiredGrant.withUrl (g : RequiredGrant) (url : String) : Value :=
  let required := setItem g.required (ofString "grant_url") (.str (ofString url))
  .dict (setItem g.members (ofString "required_grant") (.dict required))

/-- `json.loads(raw)`; `none` is the `UnicodeDecodeError`. -/
def loadsRaw (F : FloatRepr) (lim : Limits) (raw : Option PyStr) : Option (Except Json.Error Value) :=
  raw.map fun text => (Json.loadsPoints lim text).map (Value.withFloats F)

/-- The response with another body. -/
def decoratedResponse (response : ProviderResponse) (text : List Char) : ProviderResponse where
  status := 403
  headers := carryResponseHeaders response.headers
  mediaType := some "application/json"
  contentLength := some text.length
  body := some (text.map Json.ord)

/-- `_inject_grant_url_if_global` -/
def injectGrantUrlIfGlobal (F : FloatRepr) (lim : Limits) (rows : List DomainRecord)
    (response : ProviderResponse) (serviceUrl consumerAppId : String) (origin : Option String) :
    Except Json.Error ProviderResponse :=
  match loadsRaw F lim response.raw with
  | none => .ok response
  -- neither a `JSONDecodeError` nor another `ValueError`
  | some (.error .recursion) => .error .recursion
  | some (.error _) => .ok response
  | some (.ok body) =>
      match requiredGrant? body with
      | none => .ok response
      | some g =>
          match approveGrantUrl lim rows consumerAppId serviceUrl g.grant origin with
          | none => .error .recursion
          | some url =>
              match Json.dumpsValue lim (g.withUrl url) with
              | none => .error .recursion
              | some text => .ok (decoratedResponse response text)

/-- The response of `service_call`, before the headers for the caller's origin are added. -/
def serviceCallResponse (F : FloatRepr) (lim : Limits) (rows : List DomainRecord)
    (response : ProviderResponse) (serviceUrl consumerAppId : String) (origin : Option String) :
    Except Json.Error ProviderResponse :=
  if response.status = 403 then
    injectGrantUrlIfGlobal F lim rows response serviceUrl consumerAppId origin
  else .ok response

/-! ## What the URL says -/

/-- The parameters of a URL, as the page reads them. -/
def urlParams (url : String) : List (Utf8.Bytes × Utf8.Bytes) :=
  Url.parseQuery ((Url.beforeFragment (Utf8.encode url)).dropWhile (· ≠ Url.question)).tail

/-- The URL names the app, the service and the grant; the keys of the grant may be in another order. -/
def Names (consumerAppId serviceUrl : String) (grant : Value) (url : String) : Prop :=
  ∃ text w, urlParams url = [(Utf8.encode "app", Utf8.encode consumerAppId),
      (Utf8.encode "service", Utf8.encode serviceUrl), (Utf8.encode "grant", Utf8.encode (String.ofList text))] ∧
    Denotes (text.map Json.ord) w ∧ w.sorted = grant.sorted

/-- The character ends nothing in a URL that its query belongs to. -/
def KeepsQuery (c : Char) : Prop := c ≠ '?' ∧ c ≠ '#'

/-- No name of a domain holds a character that ends the path of a URL. -/
def PlainNames (rows : List DomainRecord) : Prop := ∀ r ∈ rows, ∀ c ∈ r.name.toList, KeepsQuery c

theorem keepsQuery_lowerChar {c : Char} (h : KeepsQuery c) : KeepsQuery (Text.lowerChar c) := by
  have key : ∀ c, (Text.lowerChar c = '?' → c = '?') ∧ (Text.lowerChar c = '#' → c = '#') := by
    apply Text.forall_char
    · decide +kernel
    · intro c hc
      rw [hc]
      exact ⟨id, id⟩
  exact ⟨fun hq => h.1 ((key c).1 hq), fun hh => h.2 ((key c).2 hh)⟩

/-- The name of a configured domain. -/
theorem keepsQuery_name {rows : List DomainRecord} (h : PlainNames rows) {r : DomainRecord} (hr : r ∈ rows) :
    ∀ c ∈ r.toDomain.name.toList, KeepsQuery c := by
  intro c hc
  have hname : r.toDomain.name = Text.lower r.name := rfl
  rw [hname, Text.toList_lower] at hc
  obtain ⟨d, hd, rfl⟩ := List.mem_map.mp hc
  exact keepsQuery_lowerChar (h r hr d hd)

theorem keepsQuery_scheme (d : Domain) : ∀ c ∈ (d.scheme ++ "://").toList, KeepsQuery c := by
  have hhttps : ∀ c ∈ "https://".toList, KeepsQuery c := by simp [KeepsQuery]
  have hhttp : ∀ c ∈ "http://".toList, KeepsQuery c := by simp [KeepsQuery]
  unfold Domain.scheme
  split
  · exact hhttps
  · exact hhttp

theorem keepsQuery_hostWithRequestPort {host netloc : String} (h : ∀ c ∈ host.toList, KeepsQuery c) :
    ∀ c ∈ (hostWithRequestPort host netloc).toList, KeepsQuery c := by
  unfold hostWithRequestPort
  dsimp only
  split
  · next hport =>
    intro c hc
    rw [String.toList_append, String.toList_append, String.toList_ofList] at hc
    rcases List.mem_append.mp hc with hc | hc
    · rcases List.mem_append.mp hc with hc | hc
      · exact h c hc
      · rw [List.mem_singleton.mp hc]
        simp [KeepsQuery]
    · -- a port is digits
      have hdigits := (Bool.and_eq_true_iff.mp (Bool.and_eq_true_iff.mp hport).2).2
      rw [String.toList_ofList] at hc
      have hdigit := List.all_eq_true.mp hdigits c hc
      constructor
      · rintro rfl
        simp at hdigit
      · rintro rfl
        simp at hdigit
  · exact h

theorem keepsQuery_approveBase {rows : List DomainRecord} (h : PlainNames rows) (netloc : Option String) :
    ∀ c ∈ (approveBase rows netloc).toList, KeepsQuery c := by
  have hjoin : ∀ (d : Domain) (host : String), (∀ c ∈ host.toList, KeepsQuery c) →
      ∀ c ∈ (d.scheme ++ "://" ++ host).toList, KeepsQuery c := by
    intro d host hhost c hc
    rw [String.toList_append] at hc
    rcases List.mem_append.mp hc with hc | hc
    · exact keepsQuery_scheme d c hc
    · exact hhost c hc
  unfold approveBase
  split
  · next matched hmatched =>
    obtain ⟨host, -, hmatch⟩ := Option.bind_eq_some_iff.mp hmatched
    obtain ⟨r, hr, rfl⟩ := Domains.mem_effectiveDomains.mp (Domains.mostSpecific_of_matchDomain hmatch).mem
    apply hjoin
    apply keepsQuery_hostWithRequestPort
    intro c hc
    rw [Domain.nameNoPort, Text.toList_before] at hc
    exact keepsQuery_name h hr c ((List.takeWhile_sublist _).subset hc)
  · split
    · simp
    · next primary hprimary =>
      obtain ⟨r, hr, rfl⟩ := Option.map_eq_some_iff.mp hprimary
      exact hjoin _ _ (keepsQuery_name h (List.mem_of_find?_eq_some hr))

theorem keepsQuery_encode {s : String} (h : ∀ c ∈ s.toList, KeepsQuery c) :
    ∀ b ∈ Utf8.encode s, b ≠ Url.question ∧ b ≠ Url.hash := by
  intro b hb
  obtain ⟨c, hc, hmem⟩ := List.mem_flatMap.mp hb
  -- a byte below 128 is a character
  have hchar : b < 0x80 → c.toNat = b.toNat := fun hlt => (Utf8.mem_utf8EncodeChar_of_lt hmem hlt).2
  constructor
  · rintro rfl
    exact (h c hc).1 (Text.eq_iff_toNat.mpr (hchar (by decide)))
  · rintro rfl
    exact (h c hc).2 (Text.eq_iff_toNat.mpr (hchar (by decide)))

/-- The query of a URL is what stands behind a front that holds no other query. -/
theorem urlParams_append {front : String} (hfront : ∀ c ∈ front.toList, KeepsQuery c)
    (params : List (Utf8.Bytes × Utf8.Bytes)) (hparams : params ≠ []) :
    urlParams (front ++ "?" ++ Utf8.decode (Url.urlencode params)) = params := by
  have hplain := fun b (hb : b ∈ Url.urlencode params) => Url.plain_of_mem_urlencode hb
  have hbytes : Utf8.encode (front ++ "?" ++ Utf8.decode (Url.urlencode params)) =
      Utf8.encode front ++ Url.question :: Url.urlencode params := by
    rw [Utf8.encode_append, Utf8.encode_append, Utf8.encode_decode_of_ascii fun b hb => (hplain b hb).1,
      List.append_assoc]
    rfl
  have hkeeps := keepsQuery_encode hfront
  have hfragment : Url.beforeFragment (Utf8.encode front ++ Url.question :: Url.urlencode params) =
      Utf8.encode front ++ Url.question :: Url.urlencode params := by
    rw [Url.beforeFragment, List.takeWhile_eq_self_iff]
    intro b hb
    rcases List.mem_append.mp hb with hb | hb
    · exact decide_eq_true (hkeeps b hb).2
    rcases List.mem_cons.mp hb with rfl | hb
    · decide
    · exact decide_eq_true (hplain b hb).2
  have hfront' : ∀ b ∈ Utf8.encode front, decide (b ≠ Url.question) = true := fun b hb =>
    decide_eq_true (hkeeps b hb).1
  rw [urlParams, hbytes, hfragment, List.dropWhile_append_of_pos hfront']
  simpa using Url.parseQuery_urlencode hparams

/-- The URL says what it is about. -/
theorem names_approveGrantUrl {lim : Limits} {rows : List DomainRecord} (hnames : PlainNames rows)
    (consumerAppId serviceUrl : String) {grant : Value} (hgrant : Good lim lim.depth grant)
    (netloc : Option String) :
    ∃ url, approveGrantUrl lim rows consumerAppId serviceUrl grant netloc = some url ∧
      Names consumerAppId serviceUrl grant url := by
  obtain ⟨hdumps, hloads⟩ := hgrant.dumpsSorted
  have hfront : ∀ c ∈ (approveBase rows netloc ++ "/approve-permissions-v2").toList, KeepsQuery c := by
    intro c hc
    rw [String.toList_append] at hc
    rcases List.mem_append.mp hc with hc | hc
    · exact keepsQuery_approveBase hnames netloc c hc
    · have hpath : ∀ c ∈ "/approve-permissions-v2".toList, KeepsQuery c := by simp [KeepsQuery]
      exact hpath c hc
  refine ⟨_, by rw [approveGrantUrl, hdumps]; rfl, grant.sorted.text, grant.sorted, ?_, ?_, ?_⟩
  · have hurl := urlParams_append hfront _ (List.cons_ne_nil
      (Utf8.encode "app", Utf8.encode consumerAppId)
      [(Utf8.encode "service", Utf8.encode serviceUrl),
        (Utf8.encode "grant", Utf8.encode (String.ofList grant.sorted.text))])
    simpa [approveQuery, String.append_assoc] using hurl
  · exact ⟨lim, by rw [Json.loadsPoints_ord, hloads]⟩
  · exact Json.sorted_sorted grant

/-! ## What becomes of a response -/

/-- The shapes of a grant that a manifest can declare. -/
def isDeclarable : Value → Bool
  | .str _ | .dict _ | .list _ => true
  | _ => false

/-- The value requires a grant in the global scope, of a shape that a manifest can declare. -/
structure Requires (v : Value) (g : RequiredGrant) : Prop where
  body : v = .dict g.members
  required : get? g.members "required_grant" = some (.dict g.required)
  scope : isGlobalScope g.required = true
  grant : get? g.required "grant" = some g.grant
  declarable : isDeclarable g.grant = true

/-- What the body of the response says, as Python reads it. -/
def ProviderResponse.Says (F : FloatRepr) (r : ProviderResponse) (v : Value) : Prop :=
  ∃ text w, r.body = some text ∧ Denotes text w ∧ w.withFloats F = v

/-- The provider refuses the call and requires the grant. -/
structure ProviderResponse.Refuses (F : FloatRepr) (r : ProviderResponse) (g : RequiredGrant) : Prop where
  status : r.status = 403
  body : ∃ v, r.Says F v ∧ Requires v g

/-- A refusal that is the required one but for the URL, which says what is required. -/
structure Decorated (consumerAppId serviceUrl : String) (g : RequiredGrant) (r : ProviderResponse) : Prop where
  status : r.status = 403
  body : ∃ url text, r.body = some text ∧ Denotes text (g.withUrl url) ∧
    Names consumerAppId serviceUrl g.grant url

/-- A refusal gets its URL, and every other response stays as it is. -/
structure Honoured (F : FloatRepr) (consumerAppId serviceUrl : String) (r : ProviderResponse)
    (result : Except Json.Error ProviderResponse) : Prop where
  decorated : ∀ g, r.Refuses F g → ∃ r', result = .ok r' ∧ Decorated consumerAppId serviceUrl g r'
  relayed : (∀ g, ¬ r.Refuses F g) → result = .ok r

/-- The router can treat the response as it should. -/
structure Decoratable (F : FloatRepr) (lim : Limits) (consumerAppId serviceUrl : String)
    (r : ProviderResponse) : Prop where
  /-- A refusal that is read at all does not nest too deep for the reader. -/
  shallow : r.status = 403 → r.buffered = true → loadsRaw F lim r.body ≠ some (.error .recursion)
  /-- A refusal that requires a grant is not streamed, has no integer that is too long, and does not
  require a list, or the provider has said the URL itself. -/
  known : ∀ g, r.Refuses F g →
    r.buffered = true ∧ isStrOrDict g.grant = true ∧ (∃ v, loadsRaw F lim r.body = some (.ok v)) ∨
      Decorated consumerAppId serviceUrl g r

variable {F : FloatRepr} {lim : Limits} {rows : List DomainRecord} {r : ProviderResponse}

theorem requiredGrant?_eq_some_iff {v : Value} {g : RequiredGrant} :
    requiredGrant? v = some g ↔ Requires v g ∧ isStrOrDict g.grant = true := by
  constructor
  · intro h
    unfold requiredGrant? at h
    split at h
    · next members =>
      split at h
      · next required hrequired =>
        split at h
        · next hscope =>
          obtain ⟨grant, hgrant, hsome⟩ := Option.bind_eq_some_iff.mp h
          split at hsome
          · next hknown =>
            cases hsome
            have hdeclarable : isDeclarable grant = true := by
              cases grant <;> first | rfl | cases hknown
            exact ⟨⟨rfl, hrequired, hscope, hgrant, hdeclarable⟩, hknown⟩
          · cases hsome
        · cases h
      · cases h
    · cases h
  · rintro ⟨⟨rfl, hrequired, hscope, hgrant, -⟩, hknown⟩
    simp [requiredGrant?, hrequired, hscope, hgrant, hknown]

/-- What is read of a body. -/
theorem exists_of_loadsRaw {raw : Option PyStr} {v : Value} (h : loadsRaw F lim raw = some (.ok v)) :
    ∃ text w, raw = some text ∧ Json.loadsPoints lim text = .ok w ∧ w.withFloats F = v := by
  obtain ⟨text, htext, hv⟩ := Option.map_eq_some_iff.mp h
  cases hloads : Json.loadsPoints lim text with
  | error e =>
    rw [hloads] at hv
    cases hv
  | ok w =>
    rw [hloads] at hv
    cases hv
    exact ⟨text, w, htext, hloads, rfl⟩

theorem good_of_loadsRaw {raw : Option PyStr} {v : Value} (h : loadsRaw F lim raw = some (.ok v)) :
    Good lim lim.depth v := by
  obtain ⟨text, w, -, hloads, rfl⟩ := exists_of_loadsRaw h
  exact (Json.good_of_loadsPoints hloads).withFloats

theorem says_iff_of_loadsRaw {v v' : Value} (h : loadsRaw F lim r.body = some (.ok v)) :
    r.Says F v' ↔ v' = v := by
  obtain ⟨text, w, htext, hloads, rfl⟩ := exists_of_loadsRaw h
  constructor
  · rintro ⟨text', w', htext', hdenotes, rfl⟩
    cases htext.symm.trans htext'
    rw [hdenotes.eq_of_loadsPoints hloads]
  · rintro rfl
    exact ⟨text, w, htext, ⟨lim, hloads⟩, rfl⟩

theorem good_str (url : String) (depth : Nat) : Good lim depth (.str (ofString url)) :=
  ⟨decide_eq_true (Json.joined_ofString url), by cases depth <;> rfl⟩

/-- The body with the URL in it is a value that can be written. -/
theorem good_withUrl {v : Value} {g : RequiredGrant} (hv : Good lim lim.depth v) (hrequires : Requires v g)
    (url : String) : Good lim lim.depth (g.withUrl url) := by
  rw [hrequires.body] at hv
  obtain ⟨depth, hdepth, hrequired⟩ := hv.member hrequires.required
  obtain ⟨depth', rfl, -⟩ := hrequired.member hrequires.grant
  rw [hdepth] at hv ⊢
  have hinner := Json.membersGood_setItem (Json.membersGood_of_good hrequired)
    (Json.joined_ofString "grant_url") (good_str url depth')
  have houter := Json.membersGood_setItem (Json.membersGood_of_good hv)
    (Json.joined_ofString "required_grant") (Json.good_dict hinner)
  exact Json.good_dict houter

theorem good_grant {v : Value} {g : RequiredGrant} (hv : Good lim lim.depth v) (hrequires : Requires v g) :
    Good lim lim.depth g.grant := by
  rw [hrequires.body] at hv
  obtain ⟨depth, hdepth, hrequired⟩ := hv.member hrequires.required
  obtain ⟨depth', rfl, hgrant⟩ := hrequired.member hrequires.grant
  exact hgrant.mono (by omega)

/-- A grant that the function knows gets its URL. -/
theorem injectGrantUrl_of_requiredGrant (hnames : PlainNames rows) {v : Value} {g : RequiredGrant}
    (hread : loadsRaw F lim r.raw = some (.ok v)) (hgrant : requiredGrant? v = some g)
    (serviceUrl consumerAppId : String) (origin : Option String) :
    ∃ r', injectGrantUrlIfGlobal F lim rows r serviceUrl consumerAppId origin = .ok r' ∧
      Decorated consumerAppId serviceUrl g r' := by
  have hgood := good_of_loadsRaw hread
  obtain ⟨hrequires, -⟩ := requiredGrant?_eq_some_iff.mp hgrant
  obtain ⟨url, hurl, hsays⟩ :=
    names_approveGrantUrl hnames consumerAppId serviceUrl (good_grant hgood hrequires) origin
  obtain ⟨hdumps, hloads⟩ := (good_withUrl hgood hrequires url).dumpsValue
  have hdenotes : Denotes ((g.withUrl url).text.map Json.ord) (g.withUrl url) :=
    ⟨lim, by rw [Json.loadsPoints_ord, hloads]⟩
  refine ⟨decoratedResponse r (g.withUrl url).text, ?_, rfl, url, _, rfl, hdenotes, hsays⟩
  simp only [injectGrantUrlIfGlobal, hread, hgrant, hurl, hdumps]

/-- Every other response is handed on, unless the reader runs out of stack. -/
theorem injectGrantUrl_of_other (hrecursion : loadsRaw F lim r.raw ≠ some (.error .recursion))
    (hother : ∀ v, loadsRaw F lim r.raw = some (.ok v) → requiredGrant? v = none)
    (serviceUrl consumerAppId : String) (origin : Option String) :
    injectGrantUrlIfGlobal F lim rows r serviceUrl consumerAppId origin = .ok r := by
  cases hread : loadsRaw F lim r.raw with
  | none => simp only [injectGrantUrlIfGlobal, hread]
  | some read =>
    cases read with
    | ok v => simp only [injectGrantUrlIfGlobal, hread, hother v hread]
    | error e =>
      cases e with
      | recursion => exact absurd hread hrecursion
      | decode => simp only [injectGrantUrlIfGlobal, hread]
      | digits => simp only [injectGrantUrlIfGlobal, hread]

theorem raw_of_buffered (h : r.buffered = true) : r.raw = r.body := if_pos h

/-- Nothing is read of a response that is streamed. -/
theorem loadsRaw_of_streamed (h : r.buffered = false) : loadsRaw F lim r.raw = some (.error .decode) := by
  rw [ProviderResponse.raw, if_neg (by simp [h])]
  rfl

/-- A response in which the function sees no grant that it knows. -/
theorem serviceCall_of_unknown (hstatus : r.status = 403)
    (hshallow : r.buffered = true → loadsRaw F lim r.body ≠ some (.error .recursion))
    (hunknown : ∀ v g, loadsRaw F lim r.body = some (.ok v) → Requires v g →
      ¬ (r.buffered = true ∧ isStrOrDict g.grant = true))
    (serviceUrl consumerAppId : String) (origin : Option String) :
    serviceCallResponse F lim rows r serviceUrl consumerAppId origin = .ok r := by
  rw [serviceCallResponse, if_pos hstatus]
  cases hbuffered : r.buffered with
  | false =>
    have hread : loadsRaw F lim r.raw = some (.error .decode) := loadsRaw_of_streamed hbuffered
    apply injectGrantUrl_of_other
    · rw [hread]
      simp
    · rw [hread]
      simp
  | true =>
    have hraw := raw_of_buffered hbuffered
    apply injectGrantUrl_of_other
    · rw [hraw]
      exact hshallow hbuffered
    · intro v hv
      rw [hraw] at hv
      cases hgrant : requiredGrant? v with
      | none => rfl
      | some g =>
        obtain ⟨hrequires, hknown⟩ := requiredGrant?_eq_some_iff.mp hgrant
        exact absurd ⟨hbuffered, hknown⟩ (hunknown v g hv hrequires)

/-- A body requires one grant at most. -/
theorem Requires.eq {v : Value} {g g' : RequiredGrant} (h : Requires v g) (h' : Requires v g') : g = g' := by
  have hmembers : g.members = g'.members := Value.dict.inj (h.body.symm.trans h'.body)
  have hrequired : g.required = g'.required := by
    have hsame := h.required
    rw [hmembers, h'.required] at hsame
    exact (Value.dict.inj (Option.some.inj hsame)).symm
  have hgrant : g.grant = g'.grant := by
    have hsame := h.grant
    rw [hrequired, h'.grant] at hsame
    exact (Option.some.inj hsame).symm
  cases g
  cases g'
  simp_all

/-- A refusal that the function does not see stays as it is. -/
theorem serviceCall_of_unseen {g : RequiredGrant} (hrefuses : r.Refuses F g)
    (hshallow : r.buffered = true → loadsRaw F lim r.body ≠ some (.error .recursion))
    (hunseen : ¬ (r.buffered = true ∧ isStrOrDict g.grant = true ∧
      ∃ v, loadsRaw F lim r.body = some (.ok v)))
    (serviceUrl consumerAppId : String) (origin : Option String) :
    serviceCallResponse F lim rows r serviceUrl consumerAppId origin = .ok r := by
  apply serviceCall_of_unknown hrefuses.status hshallow
  rintro v g' hread hrequires' ⟨hbuffered, hknown⟩
  obtain ⟨w, hsays, hrequires⟩ := hrefuses.body
  cases (says_iff_of_loadsRaw hread).mp hsays
  cases hrequires.eq hrequires'
  exact hunseen ⟨hbuffered, hknown, v, hread⟩

/-- **Exactly when a response is treated as it should be**: a refusal with a required grant gets the URL
that says which app, which service and which grant, and every other response stays as it is. -/
theorem serviceCall_honoured_iff (hnames : PlainNames rows) (serviceUrl consumerAppId : String)
    (origin : Option String) :
    Honoured F consumerAppId serviceUrl r
        (serviceCallResponse F lim rows r serviceUrl consumerAppId origin) ↔
      Decoratable F lim consumerAppId serviceUrl r := by
  constructor
  · intro h
    have hshallow : r.status = 403 → r.buffered = true → loadsRaw F lim r.body ≠ some (.error .recursion) := by
      intro hstatus hbuffered hread
      have hraise : serviceCallResponse F lim rows r serviceUrl consumerAppId origin = .error .recursion := by
        rw [serviceCallResponse, if_pos hstatus]
        simp only [injectGrantUrlIfGlobal, raw_of_buffered hbuffered, hread]
      by_cases hrefuses : ∃ g, r.Refuses F g
      · obtain ⟨g, hg⟩ := hrefuses
        obtain ⟨r', hresult, -⟩ := h.decorated g hg
        cases hraise.symm.trans hresult
      · cases hraise.symm.trans (h.relayed (not_exists.mp hrefuses))
    refine ⟨hshallow, fun g hg => ?_⟩
    by_cases hseen : r.buffered = true ∧ isStrOrDict g.grant = true ∧
        ∃ v, loadsRaw F lim r.body = some (.ok v)
    · exact .inl hseen
    · -- what is returned is the response itself
      obtain ⟨r', hresult, hdecorated⟩ := h.decorated g hg
      have hsame : serviceCallResponse F lim rows r serviceUrl consumerAppId origin = .ok r :=
        serviceCall_of_unseen hg (hshallow hg.status) hseen serviceUrl consumerAppId origin
      cases hresult.symm.trans hsame
      exact .inr hdecorated
  · intro h
    refine ⟨fun g hg => ?_, fun hnone => ?_⟩
    · by_cases hseen : r.buffered = true ∧ isStrOrDict g.grant = true ∧
          ∃ v, loadsRaw F lim r.body = some (.ok v)
      · obtain ⟨hbuffered, hknown, v, hread⟩ := hseen
        obtain ⟨w, hsays, hrequires⟩ := hg.body
        cases (says_iff_of_loadsRaw hread).mp hsays
        have hraw : loadsRaw F lim r.raw = some (.ok v) := by rw [raw_of_buffered hbuffered, hread]
        rw [serviceCallResponse, if_pos hg.status]
        exact injectGrantUrl_of_requiredGrant hnames hraw (requiredGrant?_eq_some_iff.mpr ⟨hrequires, hknown⟩)
          serviceUrl consumerAppId origin
      · have hsame : serviceCallResponse F lim rows r serviceUrl consumerAppId origin = .ok r :=
          serviceCall_of_unseen hg (h.shallow hg.status) hseen serviceUrl consumerAppId origin
        rcases h.known g hg with hknown | hdecorated
        · exact absurd hknown hseen
        · exact ⟨r, hsame, hdecorated⟩
    · by_cases hstatus : r.status = 403
      · apply serviceCall_of_unknown hstatus (h.shallow hstatus)
        intro v g hread hrequires _
        exact hnone g ⟨hstatus, v, (says_iff_of_loadsRaw hread).mpr rfl, hrequires⟩
      · rw [serviceCallResponse, if_neg hstatus]

/-! ## Two refusals -/

/-- Floats that are written as they are read. -/
def keepFloats : FloatRepr where
  repr := id
  isFloat_repr := id

/-- A body that requires the grant and says nothing else. -/
def refusalBody (grant : Value) : RequiredGrant where
  members := [(ofString "required_grant", .dict [(ofString "grant", grant)])]
  required := [(ofString "grant", grant)]
  grant := grant

def refusal (grant : Value) : ProviderResponse where
  status := 403
  headers := []
  mediaType := some "application/json"
  contentLength := some (Value.dict (refusalBody grant).members).text.length
  body := some ((Value.dict (refusalBody grant).members).text.map Json.ord)

theorem loadsRaw_refusal {grant : Value} (h : Good Json.defaultLimits 998 grant)
    (hfloats : grant.withFloats keepFloats = grant) :
    loadsRaw keepFloats Json.defaultLimits (refusal grant).body =
      some (.ok (.dict (refusalBody grant).members)) := by
  have hinner : Good Json.defaultLimits 999 (.dict [(ofString "grant", grant)]) :=
    Json.good_dict ⟨by simp, by simpa using Json.joined_ofString "grant", by simpa using h⟩
  have houter : Good Json.defaultLimits 1000 (.dict (refusalBody grant).members) :=
    Json.good_dict ⟨by simp [refusalBody], by simpa [refusalBody] using Json.joined_ofString "required_grant",
      by simpa [refusalBody] using hinner⟩
  have hloads := Json.loads_text houter.wellFormed houter.fits
  have hkeep : (Value.dict (refusalBody grant).members).withFloats keepFloats =
      .dict (refusalBody grant).members := by
    simp [refusalBody, Value.withFloats, Json.membersWithFloats, hfloats]
  simp only [loadsRaw, refusal, Option.map_some, Json.loadsPoints_ord, hloads, Except.map, hkeep]

theorem requires_refusalBody {grant : Value} (h : isDeclarable grant = true) :
    Requires (.dict (refusalBody grant).members) (refusalBody grant) where
  body := rfl
  required := rfl
  scope := rfl
  grant := rfl
  declarable := h

theorem withUrl_refusalBody (grant : Value) (url : String) :
    (refusalBody grant).withUrl url = .dict [(ofString "required_grant",
      .dict [(ofString "grant", grant), (ofString "grant_url", .str (ofString url))])] := by
  have hkey : ofString "grant_url" ∉ [ofString "grant"] := by decide
  simp only [RequiredGrant.withUrl, refusalBody, setItem, List.map_cons, List.map_nil, if_neg hkey]
  rw [if_pos (List.mem_singleton_self _), if_pos trivial]
  rfl

theorem good_read (depth : Nat) : Good Json.defaultLimits depth (.str (ofString "read")) := good_str "read" depth

theorem serviceCall_honoured_for_text :
    Honoured keepFloats "a1" "github.com/acme/photos" (refusal (.str (ofString "read")))
      (serviceCallResponse keepFloats Json.defaultLimits
        [{ name := "host.example.com", tls := true, mdns := false, isPrimary := true }]
        (refusal (.str (ofString "read"))) "github.com/acme/photos" "a1" none) := by
  have hread := loadsRaw_refusal (good_read 998) rfl
  refine (serviceCall_honoured_iff (by simp [PlainNames, KeepsQuery]) _ _ _).mpr ⟨?_, ?_⟩
  · intro _ _ hraise
    cases hread.symm.trans hraise
  · intro g hg
    obtain ⟨v, hsays, hrequires⟩ := hg.body
    cases (says_iff_of_loadsRaw hread).mp hsays
    cases hrequires.eq (requires_refusalBody rfl)
    exact .inl ⟨by decide, rfl, _, hread⟩

/-- A grant that is a list, which a manifest can declare, gets no URL. -/
theorem list_grant_not_decorated :
    ¬ ∀ (F : FloatRepr) (lim : Limits) (rows : List DomainRecord) (r : ProviderResponse)
        (serviceUrl consumerAppId : String) (origin : Option String), PlainNames rows →
      Honoured F consumerAppId serviceUrl r
        (serviceCallResponse F lim rows r serviceUrl consumerAppId origin) := by
  intro h
  have hgood : Good Json.defaultLimits 998 (.list [.str (ofString "read")]) :=
    Json.good_list (by simpa using good_read 997)
  have hread := loadsRaw_refusal hgood rfl
  have hrefuses : (refusal (.list [.str (ofString "read")])).Refuses keepFloats
      (refusalBody (.list [.str (ofString "read")])) :=
    ⟨rfl, _, (says_iff_of_loadsRaw hread).mpr rfl, requires_refusalBody rfl⟩
  have hunseen : isStrOrDict (refusalBody (.list [.str (ofString "read")])).grant = false := rfl
  have hsame : serviceCallResponse keepFloats Json.defaultLimits []
      (refusal (.list [.str (ofString "read")])) "github.com/acme/photos" "a1" none = .ok _ :=
    serviceCall_of_unseen hrefuses (by simp [hread]) (by simp [hunseen]) _ _ _
  have hclaim := h keepFloats Json.defaultLimits [] (refusal (.list [.str (ofString "read")]))
    "github.com/acme/photos" "a1" none (by simp [PlainNames])
  obtain ⟨r', hresult, hdecorated⟩ := hclaim.decorated _ hrefuses
  cases hresult.symm.trans hsame
  -- the text of the response has no `grant_url`
  obtain ⟨url, text, htext, hdenotes, -⟩ := hdecorated.body
  obtain ⟨text', w, htext', hloads, hw⟩ := exists_of_loadsRaw hread
  cases htext.symm.trans htext'
  rw [← hdenotes.eq_of_loadsPoints hloads, withUrl_refusalBody] at hw
  simp [refusalBody, Value.withFloats, Json.membersWithFloats] at hw

end OpenHost.Web
