import OpenHost.Web.Dispatch

/-!
# Calls to a service

`_service_call_common` and `service_call`: where in the provider a consumer's call arrives.  The
sub-path that the framework has decoded is put behind the endpoint and read as part of a URL again.
-/

namespace OpenHost.Web

open Text (lstrip rstrip stripPrefix?)
open Utf8 (Bytes)
open Url (slash question hash plainSegment staysWithin)

/-! ## The call -/

/-- `ResolvedProvider`, without the version that was checked. -/
structure ResolvedProvider where
  serviceUrl : String
  appId : String
  appName : String
  endpoint : String
  target : ProxyTarget
  deriving DecidableEq, Repr

/-- `ServiceRequest` -/
structure ServiceRequest where
  serviceUrl : String
  target : ProxyTarget
  targetPath : String
  extraHeaders : List RouterHeader
  deriving DecidableEq, Repr

/-- What `_service_call_common` returns for the provider it has resolved, with the headers that
`app_consumer_headers` has built for the consumer. -/
def serviceCallCommon (provider : ResolvedProvider) (rest : String)
    (extraHeaders : List RouterHeader) : ServiceRequest where
  serviceUrl := provider.serviceUrl
  target := provider.target
  targetPath := rstrip '/' provider.endpoint ++ "/" ++ lstrip '/' rest
  extraHeaders := extraHeaders

/-- The request that `service_call` and `service_call_ws` send to the provider. -/
def serviceCall (c : Connection) (provider : ResolvedProvider) (rest : String)
    (extraHeaders : List RouterHeader) : Option Forwarded :=
  let resolved := serviceCallCommon provider rest extraHeaders
  proxyRequest c resolved.target resolved.extraHeaders (some resolved.targetPath)

/-! ## What the provider should receive -/

/-- The endpoint without its trailing slashes. -/
def ResolvedProvider.endpointPath (provider : ResolvedProvider) : Bytes :=
  Utf8.encode (rstrip '/' provider.endpoint)

/-- The client's sub-path: what was captured, without the slash that it begins with. -/
def subPath (rest : String) : String := (stripPrefix? "/" rest).getD rest

/-- A URL delivers a call: its path is the endpoint, a slash and the client's sub-path, its query is
the client's, and no segment of the sub-path leads out of the endpoint, not even for a later one to
lead back. -/
structure Delivers (endpoint sub query url : Bytes) : Prop where
  path : ∃ t, Url.path url = endpoint ++ slash :: t ∧ Url.unquote t = sub ∧
    ∀ n, ∃ r, Url.removeDots (endpoint ++ slash :: [slash].intercalate
      ((t.splitOn slash).take (n + 1))) = endpoint ++ slash :: r
  query : receivedQuery url = query

/-- The provider receives a path under its endpoint. -/
theorem Delivers.under {endpoint sub query url : Bytes} (h : Delivers endpoint sub query url)
    (type : ScopeType) : ∃ r, receivedPath type url = endpoint ++ slash :: r := by
  obtain ⟨t, hpath, -, hwithin⟩ := h.path
  cases type with
  | websocket => exact ⟨t, hpath⟩
  | http =>
    obtain ⟨r, hr⟩ := hwithin (t.splitOn slash).length
    rw [List.take_of_length_le (by omega), List.intercalate_splitOn] at hr
    exact ⟨r, by rw [receivedPath, hpath, hr]⟩

/-! ## When it does -/

/-- The endpoint is an absolute path without dot segments, or empty. -/
def endpointOk (endpoint : Bytes) : Bool :=
  endpoint = [] || (endpoint.head? = some slash && endpoint.tail.head? ≠ some slash &&
    !endpoint.contains question && !endpoint.contains hash &&
    (Url.segments endpoint).all plainSegment)

/-- The sub-path is read as it stands and stays below the endpoint. -/
def subPathOk (endpoint sub : Bytes) : Bool :=
  sub.head? ≠ some slash && !sub.contains question && !sub.contains hash && Url.unescaped sub &&
    (endpoint = [] || staysWithin 0 (sub.splitOn slash))

/-- A request is sent: the target takes requests of this type and the query string is text. -/
def isSent (c : Connection) (provider : ResolvedProvider) : Bool :=
  (baseUrl c.type provider.target).isSome && (c.queryString = [] || Utf8.valid c.queryString)

/-! ## The URL of a call -/

/-- What a URL parser takes for the path of a text behind the base of a URL. -/
def cutPath (l : Bytes) : Bytes := (l.takeWhile (· ≠ hash)).takeWhile (· ≠ question)

theorem cutPath_prefix (l : Bytes) : cutPath l <+: l :=
  (List.takeWhile_prefix _).trans (List.takeWhile_prefix _)

theorem cutPath_append_of_not_mem {e : Bytes} (hq : question ∉ e) (hh : hash ∉ e) (l : Bytes) :
    cutPath (e ++ l) = e ++ cutPath l := by
  have h1 : ∀ b ∈ e, decide (b ≠ hash) = true := fun b hb => decide_eq_true fun h => hh (h ▸ hb)
  have h2 : ∀ b ∈ e, decide (b ≠ question) = true := fun b hb =>
    decide_eq_true fun h => hq (h ▸ hb)
  rw [cutPath, List.takeWhile_append_of_pos h1, List.takeWhile_append_of_pos h2, cutPath]

theorem cutPath_append_question (l q : Bytes) : cutPath (l ++ question :: q) = cutPath l := by
  have hq : (question ≠ hash) := by decide
  induction l with
  | nil => simp [cutPath, hq]
  | cons b l ih =>
    rw [cutPath, cutPath] at ih ⊢
    by_cases hb : b = hash
    · simp [hb]
    · by_cases hb' : b = question
      · simp [hb', hq]
      · simpa [hb, hb'] using ih

theorem not_mem_cutPath (l : Bytes) : question ∉ cutPath l ∧ hash ∉ cutPath l := by
  constructor
  · intro h
    have hb := List.all_eq_true.mp List.all_takeWhile _ h
    simp at hb
  · intro h
    have hmem := (List.takeWhile_prefix _).subset h
    have hb := List.all_eq_true.mp List.all_takeWhile _ hmem
    simp at hb

theorem cutPath_eq_self_iff {l : Bytes} : cutPath l = l ↔ question ∉ l ∧ hash ∉ l := by
  constructor
  · intro h
    rw [← h]
    exact not_mem_cutPath l
  · rintro ⟨hq, hh⟩
    have h := cutPath_append_of_not_mem hq hh []
    simpa [cutPath] using h

/-- The path of the URL of a call. -/
def callPath (endpoint sub : Bytes) : Bytes :=
  slash :: cutPath ((endpoint ++ slash :: sub.dropWhile (· = slash)).dropWhile (· = slash))

/-- What is put behind the path. -/
def queryPart (query : Bytes) : Bytes := if query = [] then [] else question :: query

theorem encode_lstrip (rest : String) :
    Utf8.encode (lstrip '/' rest) = (Utf8.encode (subPath rest)).dropWhile (· = slash) := by
  have hslash : String.utf8EncodeChar '/' = [slash] := by decide
  have hstrip := fun l => Utf8.encode_dropWhile (c := '/') (b := slash) (by decide) hslash l
  rw [lstrip, hstrip, String.ofList_toList]
  cases h : stripPrefix? "/" rest with
  | none => rw [subPath, h, Option.getD_none]
  | some sub =>
    have hrest : rest = "/" ++ sub := Text.stripPrefix?_eq_some_iff.mp h
    have henc : Utf8.encode "/" = [slash] := by decide
    rw [subPath, h, Option.getD_some, hrest, Utf8.encode_append, henc, List.singleton_append,
      List.dropWhile_cons_of_pos (by simp)]

theorem encode_targetPath (provider : ResolvedProvider) (rest : String)
    (extra : List RouterHeader) :
    Utf8.encode (serviceCallCommon provider rest extra).targetPath =
      provider.endpointPath ++ slash :: (Utf8.encode (subPath rest)).dropWhile (· = slash) := by
  have henc : Utf8.encode "/" = [slash] := by decide
  rw [serviceCallCommon, Utf8.encode_append, Utf8.encode_append, henc, encode_lstrip,
    ResolvedProvider.endpointPath, List.append_assoc, List.singleton_append]

theorem proxyPath_targetPath (c : Connection) (provider : ResolvedProvider) (rest : String)
    (extra : List RouterHeader) :
    proxyPath c (some (serviceCallCommon provider rest extra).targetPath) =
      some (Utf8.encode (serviceCallCommon provider rest extra).targetPath) := by
  have hne : (serviceCallCommon provider rest extra).targetPath ≠ "" := by
    intro h
    have henc := congrArg Utf8.encode h
    rw [encode_targetPath] at henc
    simp at henc
  rw [proxyPath, Text.truthy?_some_of_ne hne]

/-- The URL of a call that is sent. -/
theorem url_of_serviceCall {c : Connection} {provider : ResolvedProvider} {rest : String}
    {extra : List RouterHeader} {f : Forwarded} (h : serviceCall c provider rest extra = some f) :
    isSent c provider = true ∧ ∃ base, IsBase base ∧ f.url = base ++ slash ::
      ((provider.endpointPath ++ slash ::
        (Utf8.encode (subPath rest)).dropWhile (· = slash)).dropWhile (· = slash) ++
        queryPart c.queryString) := by
  obtain ⟨-, base, hbase, hurl⟩ := url_of_proxyRequest h
  have htarget : (serviceCallCommon provider rest extra).target = provider.target := rfl
  rw [htarget] at hbase
  rw [formatProxyRequestUrl, proxyPath_targetPath, encode_targetPath] at hurl
  simp only at hurl
  split at hurl
  · rename_i hquery
    refine ⟨by simp [isSent, hbase, hquery], _, isBase_of_baseUrl hbase, ?_⟩
    rw [← Option.some.inj hurl, queryPart, if_pos hquery, List.append_nil]
  · rename_i hquery
    split at hurl
    · rename_i hvalid
      refine ⟨by simp [isSent, hbase, hvalid], _, isBase_of_baseUrl hbase, ?_⟩
      rw [← Option.some.inj hurl, queryPart, if_neg hquery, List.append_assoc, List.cons_append]
    · cases hurl

theorem exists_serviceCall {c : Connection} {provider : ResolvedProvider} (rest : String)
    (extra : List RouterHeader) (h : isSent c provider = true) :
    ∃ f, serviceCall c provider rest extra = some f := by
  simp only [isSent, Bool.and_eq_true, Option.isSome_iff_exists, Bool.or_eq_true,
    decide_eq_true_eq] at h
  obtain ⟨⟨base, hbase⟩, hquery⟩ := h
  have hsome : (formatProxyRequestUrl c base
      (some (serviceCallCommon provider rest extra).targetPath)).isSome = true := by
    rw [formatProxyRequestUrl, proxyPath_targetPath]
    by_cases hnil : c.queryString = []
    · simp [hnil]
    · simp [hnil, hquery.resolve_left hnil]
  obtain ⟨url, hurl⟩ := Option.isSome_iff_exists.mp hsome
  have htarget : (serviceCallCommon provider rest extra).target = provider.target := rfl
  rw [serviceCall]
  simp only [proxyRequest, htarget, hbase, hurl]
  cases c.type with
  | http => exact ⟨_, rfl⟩
  | websocket => exact ⟨_, rfl⟩

theorem path_of_serviceCall {base : Bytes} (hbase : IsBase base) (p query : Bytes) :
    Url.path (base ++ slash :: (p ++ queryPart query)) = slash :: cutPath p := by
  rw [path_base_append hbase, ← cutPath, queryPart]
  split
  · rw [List.append_nil]
  · rw [cutPath_append_question]

/-- The query that is received, where nothing before it is taken for the query. -/
theorem query_of_serviceCall {base p : Bytes} (hbase : IsBase base) (hq : question ∉ p)
    (hh : hash ∉ p) (query : Bytes) :
    receivedQuery (base ++ slash :: (p ++ queryPart query)) = query.takeWhile (· ≠ hash) := by
  have h1 : ∀ b ∈ p, decide (b ≠ hash) = true := fun b hb => decide_eq_true fun h => hh (h ▸ hb)
  have h2 : ∀ b ∈ p, decide (b ≠ question) = true := fun b hb =>
    decide_eq_true fun h => hq (h ▸ hb)
  have hne : question ≠ hash := by decide
  rw [query_base_append hbase, List.takeWhile_append_of_pos h1, List.dropWhile_append_of_pos h2,
    queryPart]
  split
  · rename_i hnil
    simp [hnil]
  · simp [hne]

/-! ## Endpoints -/

/-- The endpoint begins with exactly one slash and has no `?` and no `#`, or is empty. -/
def endpointPlain (endpoint : Bytes) : Prop :=
  endpoint = [] ∨ ∃ e, endpoint = slash :: e ∧ e ≠ [] ∧ e.head? ≠ some slash ∧ question ∉ e ∧
    hash ∉ e

theorem endpointPath_ne_slash (provider : ResolvedProvider) :
    provider.endpointPath ≠ [slash] := by
  intro h
  have henc : Utf8.encode "/" = [slash] := by decide
  have hroot : rstrip '/' provider.endpoint = "/" := Utf8.encode_inj (h.trans henc.symm)
  -- what is left after stripping does not end in a slash
  have hlist := congrArg String.toList hroot
  rw [rstrip, String.toList_ofList] at hlist
  have hrev := congrArg List.reverse hlist
  rw [List.reverse_reverse] at hrev
  have hslash : "/".toList.reverse = ['/'] := rfl
  rw [hslash] at hrev
  have hhead := List.head?_dropWhile_not (· = '/') provider.endpoint.toList.reverse
  rw [hrev] at hhead
  simp at hhead

theorem endpointOk_iff {endpoint : Bytes} (hne : endpoint ≠ [slash]) :
    endpointOk endpoint = true ↔
      endpointPlain endpoint ∧ (endpoint = [] ∨ ∀ x ∈ Url.segments endpoint, plainSegment x = true) := by
  have hsq : slash ≠ question ∧ slash ≠ hash := by decide
  cases endpoint with
  | nil => simp [endpointOk, endpointPlain]
  | cons b e =>
    simp only [endpointOk, endpointPlain, reduceCtorEq, decide_false, Bool.false_or, false_or,
      Bool.and_eq_true, decide_eq_true_eq, List.head?_cons, Option.some.injEq, List.tail_cons,
      Bool.not_eq_true', List.contains_eq_mem, decide_eq_false_iff_not, List.all_eq_true,
      List.cons.injEq]
    constructor
    · rintro ⟨⟨⟨⟨rfl, hone⟩, hq⟩, hh⟩, hplain⟩
      refine ⟨⟨e, ⟨rfl, rfl⟩, fun he => hne (by rw [he]), of_decide_eq_true hone, ?_, ?_⟩,
        hplain⟩
      · exact fun h => hq (List.mem_cons_of_mem _ h)
      · exact fun h => hh (List.mem_cons_of_mem _ h)
    · rintro ⟨⟨e', ⟨rfl, rfl⟩, -, hone, hq, hh⟩, hplain⟩
      refine ⟨⟨⟨⟨rfl, decide_eq_true hone⟩, ?_⟩, ?_⟩, hplain⟩
      · intro h
        exact (List.mem_cons.mp h).elim (fun h => hsq.1 h.symm) hq
      · intro h
        exact (List.mem_cons.mp h).elim (fun h => hsq.2 h.symm) hh

theorem dropWhile_slash_of_head {l : Bytes} (h : l.head? ≠ some slash) :
    l.dropWhile (· = slash) = l := by
  cases l with
  | nil => rfl
  | cons b l =>
    have hb : b ≠ slash := by simpa using h
    rw [List.dropWhile_cons_of_neg (by simpa using hb)]

theorem head_dropWhile_slash (l : Bytes) : (l.dropWhile (· = slash)).head? ≠ some slash := by
  intro h
  have hnot := List.head?_dropWhile_not (· = slash) l
  rw [h] at hnot
  simp at hnot

/-- Behind a plain endpoint the path is the endpoint and what is left of the sub-path. -/
theorem callPath_of_plain {endpoint : Bytes} (h : endpointPlain endpoint) (sub : Bytes) :
    callPath endpoint sub = endpoint ++ slash :: cutPath (sub.dropWhile (· = slash)) := by
  rcases h with rfl | ⟨e, rfl, hne, hone, hq, hh⟩
  · rw [callPath, List.nil_append, List.dropWhile_cons_of_pos (by simp),
      dropWhile_slash_of_head (head_dropWhile_slash sub), List.nil_append]
  · have hcons : ∀ l, cutPath (slash :: l) = slash :: cutPath l := fun l =>
      cutPath_append_of_not_mem (e := [slash]) (by decide) (by decide) l
    have hhead : (e ++ slash :: sub.dropWhile (· = slash)).head? ≠ some slash := by
      rw [List.head?_append_of_ne_nil _ hne]
      exact hone
    rw [callPath, List.cons_append, List.dropWhile_cons_of_pos (by simp),
      dropWhile_slash_of_head hhead, cutPath_append_of_not_mem hq hh, hcons, List.cons_append]

/-- Only behind a plain endpoint the path begins with the endpoint. -/
theorem plain_of_callPath {endpoint sub t : Bytes} (hne : endpoint ≠ [slash])
    (h : callPath endpoint sub = endpoint ++ slash :: t) : endpointPlain endpoint := by
  cases endpoint with
  | nil => exact Or.inl rfl
  | cons b e =>
    rw [callPath, List.cons_append, List.cons_append, List.cons.injEq] at h
    obtain ⟨rfl, hcut⟩ := h
    have hmem : ∀ {a}, a ∈ e → a ∈ cutPath ((slash :: (e ++ slash ::
        sub.dropWhile (· = slash))).dropWhile (· = slash)) := by
      intro a ha
      rw [hcut]
      exact List.mem_append_left _ ha
    refine Or.inr ⟨e, rfl, fun he => hne (by rw [he]), ?_, ?_, ?_⟩
    · -- the path has only the one slash at its front
      intro hhead
      obtain ⟨e', rfl⟩ : ∃ e', e = slash :: e' := by
        cases e with
        | nil => simp at hhead
        | cons a e' => exact ⟨e', by simpa using hhead⟩
      obtain ⟨tail, htail⟩ := cutPath_prefix ((slash :: ((slash :: e') ++ slash ::
        sub.dropWhile (· = slash))).dropWhile (· = slash))
      have hfirst := head_dropWhile_slash (slash :: ((slash :: e') ++ slash ::
        sub.dropWhile (· = slash)))
      rw [← htail, hcut] at hfirst
      simp at hfirst
    · exact fun hq => (not_mem_cutPath _).1 (hmem hq)
    · exact fun hh => (not_mem_cutPath _).2 (hmem hh)

/-! ## Sub-paths -/

theorem subPathOk_iff {endpoint sub : Bytes} :
    subPathOk endpoint sub = true ↔
      (sub.head? ≠ some slash ∧ question ∉ sub ∧ hash ∉ sub ∧ Url.unescaped sub = true) ∧
        (endpoint = [] ∨ staysWithin 0 (sub.splitOn slash) = true) := by
  simp only [subPathOk, Bool.and_eq_true, Bool.or_eq_true, decide_eq_true_eq, Bool.not_eq_true',
    List.contains_eq_mem, decide_eq_false_iff_not, and_assoc]

/-- The provider decodes the sub-path that the client meant exactly when nothing in it has a
meaning of its own. -/
theorem unquote_cutPath_iff {sub : Bytes} :
    Url.unquote (cutPath (sub.dropWhile (· = slash))) = sub ↔
      sub.head? ≠ some slash ∧ question ∉ sub ∧ hash ∉ sub ∧ Url.unescaped sub = true := by
  constructor
  · intro h
    -- no step makes the text longer, so none has made it shorter
    have hcut := cutPath_prefix (sub.dropWhile (· = slash))
    have hdrop := List.dropWhile_suffix (l := sub) (· = slash)
    have hlen := Url.length_unquote_le (cutPath (sub.dropWhile (· = slash)))
    have hlen1 := hcut.length_le
    have hlen2 := hdrop.length_le
    rw [h] at hlen
    have heq2 : sub.dropWhile (· = slash) = sub := hdrop.eq_of_length (by omega)
    rw [heq2] at hcut hlen1 h
    have heq1 : cutPath sub = sub := hcut.eq_of_length (by rw [heq2] at hlen; omega)
    rw [heq1] at h
    obtain ⟨hq, hh⟩ := cutPath_eq_self_iff.mp heq1
    refine ⟨?_, hq, hh, (Url.unquote_eq_self_iff sub).mp h⟩
    rw [← heq2]
    exact head_dropWhile_slash sub
  · rintro ⟨hhead, hq, hh, hun⟩
    rw [dropWhile_slash_of_head hhead, cutPath_eq_self_iff.mpr ⟨hq, hh⟩,
      (Url.unquote_eq_self_iff sub).mpr hun]

/-- The endpoint has no dot segment and the sub-path stays within it, where every initial part of
the path is below the endpoint. -/
theorem below_iff {endpoint t : Bytes} (hplain : endpointPlain endpoint) :
    (∀ n, ∃ r, Url.removeDots (endpoint ++ slash :: [slash].intercalate
        ((t.splitOn slash).take (n + 1))) = endpoint ++ slash :: r) ↔
      (endpoint = [] ∨ ∀ x ∈ Url.segments endpoint, plainSegment x = true) ∧
        (endpoint = [] ∨ staysWithin 0 (t.splitOn slash) = true) := by
  rcases hplain with rfl | ⟨e, rfl, -⟩
  · -- nothing leads out of the root
    simp only [true_or, and_self, iff_true]
    exact fun n => ⟨_, rfl⟩
  · constructor
    · intro h
      obtain ⟨r, hr⟩ := h 0
      exact ⟨Or.inr (Url.plain_of_removeDots_below hr),
        Or.inr (Url.staysWithin_of_removeDots_below h)⟩
    · rintro ⟨hsegs, hstays⟩ n
      have hsegs' := hsegs.resolve_left (by simp)
      apply Url.removeDots_below hsegs'
      rw [Url.splitOn_intercalate_take]
      exact Url.staysWithin_take (hstays.resolve_left (by simp)) _

/-! ## Delivery -/

/-- Behind a plain endpoint, with a plain sub-path, the query begins where it should. -/
theorem receivedQuery_of_plain {base endpoint sub : Bytes} (hbase : IsBase base)
    (hplain : endpointPlain endpoint) (hq : question ∉ sub) (hh : Url.hash ∉ sub)
    (query : Bytes) :
    receivedQuery (base ++ slash ::
        ((endpoint ++ slash :: sub.dropWhile (· = slash)).dropWhile (· = slash) ++
          queryPart query)) = query.takeWhile (· ≠ Url.hash) := by
  have hne : question ≠ slash ∧ Url.hash ≠ slash := by decide
  have hend : question ∉ endpoint ∧ Url.hash ∉ endpoint := by
    rcases hplain with rfl | ⟨e, rfl, -, -, he⟩
    · simp
    · simpa [hne.1, hne.2] using he
  have hmem : ∀ b ∈ (endpoint ++ slash :: sub.dropWhile (· = slash)).dropWhile (· = slash),
      b ∈ endpoint ∨ b = slash ∨ b ∈ sub := by
    intro b hb
    rcases List.mem_append.mp ((List.dropWhile_suffix _).mem hb) with h | h
    · exact Or.inl h
    · rcases List.mem_cons.mp h with h | h
      · exact Or.inr (Or.inl h)
      · exact Or.inr (Or.inr ((List.dropWhile_suffix _).mem h))
  apply query_of_serviceCall hbase
  · intro h
    rcases hmem _ h with h | h | h
    · exact hend.1 h
    · exact hne.1 h
    · exact hq h
  · intro h
    rcases hmem _ h with h | h | h
    · exact hend.2 h
    · exact hne.2 h
    · exact hh h

theorem takeWhile_ne_hash_iff {query : Bytes} :
    query.takeWhile (· ≠ Url.hash) = query ↔ Url.hash ∉ query := by
  rw [List.takeWhile_eq_self_iff]
  constructor
  · intro h hmem
    exact absurd (h _ hmem) (by simp)
  · exact fun h b hb => decide_eq_true fun heq => h (heq ▸ hb)

theorem delivers_iff {base endpoint sub query : Bytes} (hbase : IsBase base)
    (hne : endpoint ≠ [slash]) :
    Delivers endpoint sub query (base ++ slash ::
        ((endpoint ++ slash :: sub.dropWhile (· = slash)).dropWhile (· = slash) ++
          queryPart query)) ↔
      endpointOk endpoint = true ∧ subPathOk endpoint sub = true ∧ hash ∉ query := by
  have hpath : Url.path (base ++ slash ::
      ((endpoint ++ slash :: sub.dropWhile (· = slash)).dropWhile (· = slash) ++
        queryPart query)) = callPath endpoint sub :=
    path_of_serviceCall hbase _ _
  rw [endpointOk_iff hne, subPathOk_iff]
  constructor
  · rintro ⟨⟨t, ht, hun, hbelow⟩, hreceived⟩
    rw [hpath] at ht
    have hplain := plain_of_callPath hne ht
    rw [callPath_of_plain hplain, List.append_cancel_left_eq, List.cons.injEq] at ht
    rw [← ht.2] at hun hbelow
    obtain ⟨hhead, hq, hh, hesc⟩ := unquote_cutPath_iff.mp hun
    rw [dropWhile_slash_of_head hhead, cutPath_eq_self_iff.mpr ⟨hq, hh⟩, below_iff hplain] at hbelow
    rw [receivedQuery_of_plain hbase hplain hq hh] at hreceived
    exact ⟨⟨hplain, hbelow.1⟩, ⟨⟨hhead, hq, hh, hesc⟩, hbelow.2⟩,
      takeWhile_ne_hash_iff.mp hreceived⟩
  · rintro ⟨⟨hplain, hsegs⟩, ⟨hsub, hstays⟩, hno⟩
    obtain ⟨hhead, hq, hh, hun⟩ := hsub
    refine ⟨⟨sub, ?_, (Url.unquote_eq_self_iff sub).mpr hun,
      (below_iff hplain).mpr ⟨hsegs, hstays⟩⟩, ?_⟩
    · rw [hpath, callPath_of_plain hplain, dropWhile_slash_of_head hhead,
        cutPath_eq_self_iff.mpr ⟨hq, hh⟩]
    · rw [receivedQuery_of_plain hbase hplain hq hh, takeWhile_ne_hash_iff.mpr hno]

/-- A call is delivered, whatever is sent for it, exactly when the endpoint is a plain path, the
sub-path is read as it stands and stays below it, and the query has no `#`. -/
theorem serviceCall_delivers_iff (c : Connection) (provider : ResolvedProvider) (rest : String)
    (extra : List RouterHeader) :
    (∀ f, serviceCall c provider rest extra = some f →
      Delivers provider.endpointPath (Utf8.encode (subPath rest)) c.queryString f.url) ↔
    (isSent c provider = true → endpointOk provider.endpointPath = true ∧
      subPathOk provider.endpointPath (Utf8.encode (subPath rest)) = true ∧
      hash ∉ c.queryString) := by
  have hne := endpointPath_ne_slash provider
  constructor
  · intro h hsent
    obtain ⟨f, hf⟩ := exists_serviceCall rest extra hsent
    obtain ⟨-, base, hbase, hurl⟩ := url_of_serviceCall hf
    have hdelivers := h f hf
    rw [hurl] at hdelivers
    exact (delivers_iff hbase hne).mp hdelivers
  · intro h f hf
    obtain ⟨hsent, base, hbase, hurl⟩ := url_of_serviceCall hf
    rw [hurl]
    exact (delivers_iff hbase hne).mpr (h hsent)

/-! ## A question mark in a sub-path -/

/-- A consumer asks a key-value service for the key `a?b`. -/
def lookupCall : Connection where
  type := .http
  method := "GET"
  rawPath := Utf8.encode "/api/services/v2/call/kv/a%3Fb"
  queryString := []
  headers := [("host", "example.com"), ("authorization", "Bearer t1")]
  client := some "127.0.0.1"
  body := []
  cut := by decide

/-- The provider of that service. -/
def kvProvider : ResolvedProvider :=
  ⟨"github.com/example/kv", "a1", "store", "/api", .localPort 9000⟩

/-- The key ends at the question mark, and what comes after it is a query. -/
theorem lookupCall_not_delivered :
    ¬ ∀ f, serviceCall lookupCall kvProvider "/a?b" [] = some f →
      Delivers kvProvider.endpointPath (Utf8.encode (subPath "/a?b")) lookupCall.queryString
        f.url := by
  intro h
  have hcall : (serviceCall lookupCall kvProvider "/a?b" []).map
      (fun f => (Url.path f.url, receivedQuery f.url)) =
        some (Utf8.encode "/api/a", Utf8.encode "b") := by decide +kernel
  obtain ⟨f, hf, hread⟩ := Option.map_eq_some_iff.mp hcall
  have hquery := (h f hf).query
  rw [(Prod.mk.inj hread).2] at hquery
  exact absurd hquery (by decide)

end OpenHost.Web
