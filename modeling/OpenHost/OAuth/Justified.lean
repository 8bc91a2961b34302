import OpenHost.Library.Traces
import OpenHost.OAuth.Routes

/-!
# What each event rests on

Of each thing that the OAuth app does, what must have happened before: a token that it hands out was
issued and stored, in a flow that a request began; a grant that it asks for is for what it has stored.
The invariant says that every event so far rests on what came before it, and ties the app's memory to
its events.  Each change of the memory has one lemma.
-/

namespace OpenHost.OAuth

open Json (Limits)
open Text (truthy? split)

/-! ## The setting -/

/-- What the app runs with.  Random tokens do not repeat.  `Vouched` is what is known of a request when
it arrives, from what has happened before. -/
structure Setting where
  lim : Limits
  config : Config
  secret : Nat → String
  fresh : Function.Injective secret
  Vouched : Request → List Event → Prop
  mono : ∀ {r before after}, Vouched r before → before <+: after → Vouched r after

/-! ## Flows -/

/-- What a flow is for. -/
structure Origin where
  provider : String
  scopes : List String
  account : String
  consumerApp : Option String
  deriving DecidableEq, Repr

def Flow.origin (f : Flow) : Origin := ⟨f.provider, f.scopes, f.account, f.consumerApp⟩

def DeviceFlow.origin (f : DeviceFlow) : Origin := ⟨f.provider, f.scopes, f.account, some f.consumerApp⟩

/-- The request asks for such a flow; only `/grant` and a consumer that wants a new account begin one
for a consumer. -/
def Request.Begins : Request → Origin → Prop
  | .grant provider scopes consumer _, o =>
      o.provider = provider ∧ o.scopes = split ',' scopes ∧ o.account = "default" ∧
        (o.consumerApp = none ∨ o.consumerApp = some consumer)
  | .token caller data, o =>
      o.provider = data.provider ∧ o.scopes = data.scopes ∧ o.account = data.account ∧
        (o.consumerApp = none ∨ data.account = "NEW" ∧ o.consumerApp = some (caller.consumerId.getD ""))
  | .device provider scopes _ account consumer, o =>
      o.provider = provider ∧ o.scopes = split ',' scopes ∧ o.account = account ∧
        o.consumerApp = some consumer
  | _, _ => False

/-- The flow is one that a callback has taken, or that runs on a device. -/
def Recorded (before : List Event) (o : Origin) : Prop :=
  (∃ key flow, Event.taken key flow ∈ before ∧ flow.origin = o) ∨
    ∃ flowId flow, Event.beganDevice flowId flow ∈ before ∧ flow.origin = o

/-! ## What an event rests on -/

/-- The provider gave this access token and this refresh token. -/
def Issued (before : List Event) (provider accessToken : String) (refreshToken : Option String) : Prop :=
  ∃ result, Event.issued provider result ∈ before ∧ result.accessToken = accessToken ∧
    result.refreshToken = refreshToken

/-- The access token is the one of the row, or one that its refresh token gave. -/
def Current (before : List Event) (row : StoredToken) (accessToken : String) : Prop :=
  accessToken = row.accessToken ∨ ∃ refreshToken, row.refreshToken = some refreshToken ∧
    Event.refreshed row.provider refreshToken accessToken ∈ before

/-- Every scope is covered by a grant in the header. -/
def Covered (lim : Limits) (header : Option String) (provider : String) (scopes : List String)
    (account : Option String) : Prop :=
  ∃ grants, parseOauthV2Grants lim header = .ok grants ∧
    ∀ s ∈ scopes, ∃ g ∈ grants, g.Covers provider account s

/-- The account that is asked for; `"default"` and the empty one are any. -/
def Matches (account : String) (row : StoredToken) : Prop :=
  account ≠ "default" → account ≠ "" → row.account = account

/-- What a call to the outside rests on. -/
def CallJustified (before : List Event) : Call → Prop
  | .exchangeCode provider _ _ _ _ redirectUri =>
      ∃ key flow, Event.taken key flow ∈ before ∧ flow.provider = provider ∧
        flow.redirectUri = redirectUri
  | .userinfo provider _ accessToken => ∃ refreshToken, Issued before provider accessToken refreshToken
  | .refresh provider _ _ _ refreshToken =>
      ∃ row, Event.stored row ∈ before ∧ row.provider = provider ∧ row.refreshToken = some refreshToken
  | .revoke provider _ _ _ _ token =>
      ∃ row, Event.stored row ∈ before ∧ row.provider = provider ∧
        (row.refreshToken = some token ∨ Current before row token)
  | .grantAppScoped consumerApp serviceUrl g =>
      serviceUrl = oauthServiceUrl ∧ consumerApp ≠ "" ∧
        (∃ o, Recorded before o ∧ o.consumerApp = some consumerApp ∧ o.provider = g.provider ∧
          o.scopes = g.scopes) ∧
        ∃ row, Event.stored row ∈ before ∧ row.provider = g.provider ∧
          row.scopes = normalizeScopes g.scopes ∧ row.account = g.account
  | _ => True

/-- What an answer rests on.  Nothing but a request for a token is answered with one. -/
def AnswerJustified (S : Setting) (before : List Event) (r : Request) : Response → Prop
  | .token accessToken _ =>
      ∃ caller data, r = .token caller data ∧ data.scopes ≠ [] ∧
        Covered S.lim caller.permissions data.provider data.scopes (some data.account) ∧
        ∃ row, Event.stored row ∈ before ∧ row.provider = data.provider ∧
          row.scopes = normalizeScopes data.scopes ∧ Matches data.account row ∧
          Current before row accessToken
  | .accounts accounts =>
      ∃ caller data, r = .accounts caller data ∧ data.scopes ≠ [] ∧
        Covered S.lim caller.permissions data.provider data.scopes none ∧
        ∀ a ∈ accounts, ∃ row, Event.stored row ∈ before ∧ row.provider = data.provider ∧
          row.scopes = normalizeScopes data.scopes ∧ row.account = a ∧ Event.removed row.id ∉ before
  | _ => True

/-- What an event rests on. -/
def Justified (S : Setting) (before : List Event) : Event → Prop
  | .received r => S.Vouched r before
  | .called c => CallJustified before c
  | .began _ flow => (∃ r, Event.received r ∈ before ∧ r.Begins flow.origin) ∧
      (flow.consumerApp = none ∨ flow.serviceUrl = some oauthServiceUrl)
  | .beganDevice _ flow => ∃ r, Event.received r ∈ before ∧ r.Begins flow.origin
  -- no flow is taken twice
  | .taken key flow => Event.began key flow ∈ before ∧ ∀ flow', Event.taken key flow' ∉ before
  | .issued provider _ =>
      (∃ url clientId clientSecret code redirectUri,
        Event.called (.exchangeCode provider url clientId clientSecret code redirectUri) ∈ before) ∨
      ∃ url clientId deviceCode, Event.called (.pollToken provider url clientId deviceCode) ∈ before
  | .refreshed provider refreshToken _ => ∃ url clientId clientSecret,
      Event.called (.refresh provider url clientId clientSecret refreshToken) ∈ before
  | .identified provider accessToken _ =>
      ∃ url, Event.called (.userinfo provider url accessToken) ∈ before
  | .stored row =>
      Issued before row.provider row.accessToken row.refreshToken ∧
        ∃ o, Recorded before o ∧ o.provider = row.provider ∧ normalizeScopes o.scopes = row.scopes ∧
          (row.account = o.account ∨
            Event.identified row.provider row.accessToken row.account ∈ before)
  | .removed id => ∃ row, Event.stored row ∈ before ∧ row.id = id
  | .answered r response => Event.received r ∈ before ∧ AnswerJustified S before r response

/-! ## Monotonicity -/

section

variable {before after : List Event}

theorem Recorded.mono {o : Origin} (h : Recorded before o) (hle : before <+: after) :
    Recorded after o := by
  rcases h with ⟨key, flow, hmem, ho⟩ | ⟨flowId, flow, hmem, ho⟩
  · exact Or.inl ⟨key, flow, hle.subset hmem, ho⟩
  · exact Or.inr ⟨flowId, flow, hle.subset hmem, ho⟩

theorem Issued.mono {provider accessToken : String} {refreshToken : Option String}
    (h : Issued before provider accessToken refreshToken) (hle : before <+: after) :
    Issued after provider accessToken refreshToken := by
  obtain ⟨result, hmem, hresult⟩ := h
  exact ⟨result, hle.subset hmem, hresult⟩

theorem Current.mono {row : StoredToken} {accessToken : String} (h : Current before row accessToken)
    (hle : before <+: after) : Current after row accessToken := by
  rcases h with h | ⟨refreshToken, hrow, hmem⟩
  · exact Or.inl h
  · exact Or.inr ⟨refreshToken, hrow, hle.subset hmem⟩

end

/-! ## The invariant -/

/-- A row of the table is one that was stored, with a token that may have been refreshed. -/
structure Stands (trace : List Event) (row : StoredToken) : Prop where
  kept : Event.removed row.id ∉ trace
  source : ∃ row₀, Event.stored row₀ ∈ trace ∧ row₀.id = row.id ∧ row₀.provider = row.provider ∧
    row₀.scopes = row.scopes ∧ row₀.account = row.account ∧ row₀.refreshToken = row.refreshToken ∧
    Current trace row₀ row.accessToken

/-- A flow that is still pending has begun, and no callback has taken it. -/
structure Pends (trace : List Event) (key : String) (flow : Flow) : Prop where
  began : Event.began key flow ∈ trace
  untaken : ∀ flow', Event.taken key flow' ∉ trace

/-- A device flow is one that has begun; its tokens, once it has some, were issued. -/
structure Runs (trace : List Event) (flowId : String) (flow : DeviceFlow) : Prop where
  began : ∃ flow₀, Event.beganDevice flowId flow₀ ∈ trace ∧ flow₀.origin = flow.origin
  issued : ∀ result, flow.status = .completed result →
    Issued trace flow.provider result.accessToken result.refreshToken

/-- The key of a flow is one of the random tokens drawn so far. -/
def Drawn (S : Setting) (s : State) (key : String) : Prop :=
  ∃ n < s.drawn, key = stateText S.config (S.secret n)

structure Inv (S : Setting) (s : State) : Prop where
  trace : Throughout (Justified S) s.trace
  rows : ∀ row ∈ s.tokens, Stands s.trace row
  ids : ∀ row, Event.stored row ∈ s.trace → row.id < s.nextId
  unique : ∀ row row', Event.stored row ∈ s.trace → Event.stored row' ∈ s.trace → row.id = row'.id →
    row = row'
  pending : ∀ m ∈ s.pendingAuthFlows, Pends s.trace m.1 m.2 ∧ Drawn S s m.1
  taken : ∀ key flow, Event.taken key flow ∈ s.trace → Drawn S s key
  device : ∀ m ∈ s.activeDeviceFlows, Runs s.trace m.1 m.2
  deviceIds : ∀ flowId flow, Event.beganDevice flowId flow ∈ s.trace →
    ∃ n < s.drawn, flowId = S.secret n
  deviceUnique : ∀ flowId flow flow', Event.beganDevice flowId flow ∈ s.trace →
    Event.beganDevice flowId flow' ∈ s.trace → flow = flow'

/-- What has happened stays so, and no id is given out twice. -/
structure Rel (s s' : State) : Prop where
  trace : s.trace <+: s'.trace
  nextId : s.nextId ≤ s'.nextId

/-- What a job counts on. -/
def Pre (S : Setting) : Job → State → Prop
  | .request r, s => S.Vouched r s.trace
  | .pollDeviceFlow _, _ => True
  | .pollAgain flowId flow _, s =>
      ∃ flow₀, Event.beganDevice flowId flow₀ ∈ s.trace ∧ flow₀.origin = flow.origin

/-- What the programs of the app rely on and guarantee. -/
def contract (S : Setting) : Contract Job State where
  inv := Inv S
  rel := Rel
  pre := Pre S
  refl _ := ⟨List.prefix_refl _, Nat.le_refl _⟩
  trans h h' := ⟨h.trace.trans h'.trace, h.nextId.trans h'.nextId⟩
  stable := by
    intro job s s' h hrel
    cases job with
    | request r => exact S.mono h hrel.trace
    | pollDeviceFlow flowId => trivial
    | pollAgain flowId flow interval =>
      obtain ⟨flow₀, hmem, horigin⟩ := h
      exact ⟨flow₀, hrel.trace.subset hmem, horigin⟩

/-- Nothing has happened. -/
theorem inv_start (S : Setting) {s : State} (htrace : s.trace = []) (htokens : s.tokens = [])
    (hpending : s.pendingAuthFlows = []) (hdevice : s.activeDeviceFlows = []) : Inv S s where
  trace := htrace ▸ Throughout.nil
  rows := by simp [htokens]
  ids := by simp [htrace]
  unique := by simp [htrace]
  pending := by simp [hpending]
  taken := by simp [htrace]
  device := by simp [hdevice]
  deviceIds := by simp [htrace]
  deviceUnique := by simp [htrace]

/-! ## What a change keeps -/

section

variable {S : Setting} {s : State} {before : List Event} {e : Event}

theorem Stands.concat {row : StoredToken} (h : Stands before row) (he : e ≠ .removed row.id) :
    Stands (before ++ [e]) row := by
  refine ⟨?_, ?_⟩
  · intro hmem
    rcases List.mem_append.mp hmem with hmem | hmem
    · exact h.kept hmem
    · exact he (List.mem_singleton.mp hmem).symm
  · obtain ⟨row₀, hmem, hid, hprovider, hscopes, haccount, hrefresh, hcurrent⟩ := h.source
    exact ⟨row₀, List.mem_append_left _ hmem, hid, hprovider, hscopes, haccount, hrefresh,
      hcurrent.mono (List.prefix_append _ _)⟩

theorem Pends.concat {key : String} {flow : Flow} (h : Pends before key flow)
    (he : ∀ flow', e ≠ .taken key flow') : Pends (before ++ [e]) key flow := by
  refine ⟨List.mem_append_left _ h.began, ?_⟩
  intro flow' hmem
  rcases List.mem_append.mp hmem with hmem | hmem
  · exact h.untaken flow' hmem
  · exact he flow' (List.mem_singleton.mp hmem).symm

theorem Runs.concat {flowId : String} {flow : DeviceFlow} (h : Runs before flowId flow) :
    Runs (before ++ [e]) flowId flow := by
  obtain ⟨flow₀, hmem, horigin⟩ := h.began
  refine ⟨⟨flow₀, List.mem_append_left _ hmem, horigin⟩, ?_⟩
  intro result hresult
  exact (h.issued result hresult).mono (List.prefix_append _ _)

/-- The event says nothing about a row, and takes no flow and begins none on a device. -/
def Event.plain : Event → Bool
  | .stored _ | .removed _ | .taken _ _ | .beganDevice _ _ => false
  | _ => true

/-- An event that is not the last one has happened before. -/
theorem mem_before {e' : Event} (h : e' ∈ before ++ [e]) (hne : e' ≠ e) : e' ∈ before := by
  rcases List.mem_append.mp h with h | h
  · exact h
  · exact absurd (List.mem_singleton.mp h) hne

theorem ne_of_plain {e' : Event} (he : e.plain = true) (he' : e'.plain = false) : e ≠ e' := by
  rintro rfl
  rw [he] at he'
  cases he'

theorem mem_of_plain {e' : Event} (he : e.plain = true) (he' : e'.plain = false)
    (h : e' ∈ before ++ [e]) : e' ∈ before :=
  mem_before h (ne_of_plain he he').symm

theorem inv_log (h : Inv S s) (hplain : e.plain = true) (he : Justified S s.trace e) :
    Inv S { s with trace := s.trace ++ [e] } where
  trace := h.trace.concat he
  rows row hrow := (h.rows row hrow).concat (ne_of_plain hplain rfl)
  ids row hrow := h.ids row (mem_of_plain hplain rfl hrow)
  unique row row' hrow hrow' :=
    h.unique row row' (mem_of_plain hplain rfl hrow) (mem_of_plain hplain rfl hrow')
  pending m hm :=
    ⟨(h.pending m hm).1.concat fun _ => ne_of_plain hplain rfl, (h.pending m hm).2⟩
  taken key flow hmem := h.taken key flow (mem_of_plain hplain rfl hmem)
  device m hm := (h.device m hm).concat
  deviceIds flowId flow hmem := h.deviceIds flowId flow (mem_of_plain hplain rfl hmem)
  deviceUnique flowId flow flow' hmem hmem' :=
    h.deviceUnique flowId flow flow' (mem_of_plain hplain rfl hmem) (mem_of_plain hplain rfl hmem')

theorem Drawn.succ {key : String} (h : Drawn S s key) : Drawn S { s with drawn := s.drawn + 1 } key := by
  obtain ⟨n, hn, hkey⟩ := h
  exact ⟨n, Nat.lt_succ_of_lt hn, hkey⟩

theorem inv_tokenUrlsafe (h : Inv S s) : Inv S { s with drawn := s.drawn + 1 } where
  trace := h.trace
  rows := h.rows
  ids := h.ids
  unique := h.unique
  pending m hm := ⟨(h.pending m hm).1, (h.pending m hm).2.succ⟩
  taken key flow hmem := (h.taken key flow hmem).succ
  device := h.device
  deviceIds flowId flow hmem := by
    obtain ⟨n, hn, hid⟩ := h.deviceIds flowId flow hmem
    exact ⟨n, Nat.lt_succ_of_lt hn, hid⟩
  deviceUnique := h.deviceUnique

theorem inv_putFlow {key : String} {flow : Flow} (h : Inv S s)
    (hbegins : Justified S s.trace (.began key flow)) (hdrawn : Drawn S s key)
    (huntaken : ∀ flow', Event.taken key flow' ∉ s.trace) :
    Inv S { s with pendingAuthFlows := setItem key flow s.pendingAuthFlows
                   trace := s.trace ++ [.began key flow] } := by
  have hlog := inv_log h (e := .began key flow) rfl hbegins
  refine ⟨hlog.trace, hlog.rows, hlog.ids, hlog.unique, ?_, hlog.taken, hlog.device, hlog.deviceIds,
    hlog.deviceUnique⟩
  intro m hm
  rcases mem_setItem hm with rfl | ⟨hm, -⟩
  · refine ⟨⟨List.mem_append_right _ (List.mem_singleton_self _), ?_⟩, hdrawn⟩
    intro flow' hmem
    exact huntaken flow' (mem_of_plain (e := .began key flow) rfl rfl hmem)
  · exact hlog.pending m hm

theorem inv_takeFlow {key : String} {flow : Flow} (h : Inv S s)
    (hmem : (key, flow) ∈ s.pendingAuthFlows) :
    Inv S { s with pendingAuthFlows := remove key s.pendingAuthFlows
                   trace := s.trace ++ [.taken key flow] } := by
  obtain ⟨hpends, hdrawn⟩ := h.pending _ hmem
  refine ⟨h.trace.concat ⟨hpends.began, hpends.untaken⟩, ?_, ?_, ?_, ?_, ?_, ?_, ?_, ?_⟩
  · exact fun row hrow => (h.rows row hrow).concat (by simp)
  · exact fun row hrow => h.ids row (mem_before hrow (by simp))
  · exact fun row row' hrow hrow' =>
      h.unique row row' (mem_before hrow (by simp)) (mem_before hrow' (by simp))
  · intro m hm
    obtain ⟨hm, hne⟩ := mem_remove.mp hm
    refine ⟨(h.pending m hm).1.concat ?_, (h.pending m hm).2⟩
    intro flow' heq
    exact hne (Event.taken.inj heq).1.symm
  · intro k f hin
    rcases List.mem_append.mp hin with hin | hin
    · exact h.taken k f hin
    · obtain ⟨rfl, rfl⟩ := Event.taken.inj (List.mem_singleton.mp hin)
      exact hdrawn
  · exact fun m hm => (h.device m hm).concat
  · exact fun flowId f hin => h.deviceIds flowId f (mem_before hin (by simp))
  · exact fun flowId f f' hin hin' =>
      h.deviceUnique flowId f f' (mem_before hin (by simp)) (mem_before hin' (by simp))

/-- A row that is stored under a new id. -/
theorem inv_storeToken {row : StoredToken} (h : Inv S s) (hid : row.id = s.nextId)
    (hrow : Justified S s.trace (.stored row)) :
    Inv S { s with tokens := s.tokens ++ [row], nextId := s.nextId + 1
                   trace := s.trace ++ [.stored row] } := by
  refine ⟨h.trace.concat hrow, ?_, ?_, ?_, ?_, ?_, ?_, ?_, ?_⟩
  · intro r hr
    rcases List.mem_append.mp hr with hr | hr
    · exact (h.rows r hr).concat (by simp)
    · obtain rfl := List.mem_singleton.mp hr
      refine ⟨?_, r, List.mem_append_right _ (List.mem_singleton_self _), rfl, rfl, rfl, rfl, rfl,
        Or.inl rfl⟩
      -- an id that was removed had been given out before
      intro hremoved
      have hbefore := mem_before hremoved (by simp)
      obtain ⟨front, rest, htrace⟩ := List.append_of_mem hbefore
      obtain ⟨old, hold, hsame⟩ := h.trace front _ rest htrace
      have hlt := h.ids old (by rw [htrace]; exact List.mem_append_left _ hold)
      omega
  · intro r hr
    rcases List.mem_append.mp hr with hr | hr
    · exact Nat.lt_succ_of_lt (h.ids r hr)
    · obtain rfl := Event.stored.inj (List.mem_singleton.mp hr)
      exact Nat.lt_succ_of_le (Nat.le_of_eq hid)
  · intro r r' hr hr' hsame
    rcases List.mem_append.mp hr with hold | hlast <;>
      rcases List.mem_append.mp hr' with hold' | hlast'
    · exact h.unique r r' hold hold' hsame
    · have hlt := h.ids r hold
      rw [hsame, Event.stored.inj (List.mem_singleton.mp hlast'), hid] at hlt
      exact absurd hlt (Nat.lt_irrefl _)
    · have hlt := h.ids r' hold'
      rw [← hsame, Event.stored.inj (List.mem_singleton.mp hlast), hid] at hlt
      exact absurd hlt (Nat.lt_irrefl _)
    · rw [Event.stored.inj (List.mem_singleton.mp hlast),
        Event.stored.inj (List.mem_singleton.mp hlast')]
  · exact fun m hm => ⟨(h.pending m hm).1.concat (by simp), (h.pending m hm).2⟩
  · exact fun key flow hin => h.taken key flow (mem_before hin (by simp))
  · exact fun m hm => (h.device m hm).concat
  · exact fun flowId f hin => h.deviceIds flowId f (mem_before hin (by simp))
  · exact fun flowId f f' hin hin' =>
      h.deviceUnique flowId f f' (mem_before hin (by simp)) (mem_before hin' (by simp))

/-- A row is given a token that the provider gave for its refresh token. -/
theorem inv_updateToken {row₀ : StoredToken} {accessToken refreshToken : String}
    {expiresAt : Option Nat} (h : Inv S s) (hrow₀ : Event.stored row₀ ∈ s.trace)
    (hrefresh : row₀.refreshToken = some refreshToken)
    (hrefreshed : Event.refreshed row₀.provider refreshToken accessToken ∈ s.trace) :
    Inv S { s with tokens := s.tokens.map fun r =>
      if r.id = row₀.id then { r with accessToken, expiresAt, updatedAt := s.now } else r } := by
  refine ⟨h.trace, ?_, h.ids, h.unique, h.pending, h.taken, h.device, h.deviceIds, h.deviceUnique⟩
  intro r hr
  obtain ⟨r', hr', rfl⟩ := List.mem_map.mp hr
  have hstands := h.rows r' hr'
  split
  · rename_i hid
    obtain ⟨r₀, hr₀, hid₀, hprovider, hscopes, haccount, hrefresh₀, -⟩ := hstands.source
    obtain rfl : r₀ = row₀ := h.unique r₀ row₀ hr₀ hrow₀ (hid₀.trans hid)
    exact ⟨hstands.kept, r₀, hr₀, hid₀, hprovider, hscopes, haccount, hrefresh₀,
      Or.inr ⟨refreshToken, hrefresh, hrefreshed⟩⟩
  · exact hstands

theorem inv_removeToken {row : StoredToken} (h : Inv S s) (hrow : Event.stored row ∈ s.trace) :
    Inv S { s with tokens := s.tokens.filter (·.id ≠ row.id)
                   trace := s.trace ++ [.removed row.id] } := by
  refine ⟨h.trace.concat ⟨row, hrow, rfl⟩, ?_, ?_, ?_, ?_, ?_, ?_, ?_, ?_⟩
  · intro r hr
    obtain ⟨hr, hne⟩ := List.mem_filter.mp hr
    apply (h.rows r hr).concat
    intro heq
    exact of_decide_eq_true hne (Event.removed.inj heq).symm
  · exact fun r hr => h.ids r (mem_before hr (by simp))
  · exact fun r r' hr hr' => h.unique r r' (mem_before hr (by simp)) (mem_before hr' (by simp))
  · exact fun m hm => ⟨(h.pending m hm).1.concat (by simp), (h.pending m hm).2⟩
  · exact fun key flow hin => h.taken key flow (mem_before hin (by simp))
  · exact fun m hm => (h.device m hm).concat
  · exact fun flowId f hin => h.deviceIds flowId f (mem_before hin (by simp))
  · exact fun flowId f f' hin hin' =>
      h.deviceUnique flowId f f' (mem_before hin (by simp)) (mem_before hin' (by simp))

/-- A device flow begins under an id that was drawn for it. -/
theorem inv_putDeviceFlow {flowId : String} {flow : DeviceFlow} (h : Inv S s)
    (hbegins : ∃ r, Event.received r ∈ s.trace ∧ r.Begins flow.origin)
    (hid : ∃ n < s.drawn, flowId = S.secret n)
    (hnew : ∀ flow', Event.beganDevice flowId flow' ∉ s.trace) (hpending : flow.status = .pending) :
    Inv S { s with activeDeviceFlows := setItem flowId flow s.activeDeviceFlows
                   trace := s.trace ++ [.beganDevice flowId flow] } := by
  refine ⟨h.trace.concat hbegins, ?_, ?_, ?_, ?_, ?_, ?_, ?_, ?_⟩
  · exact fun r hr => (h.rows r hr).concat (by simp)
  · exact fun r hr => h.ids r (mem_before hr (by simp))
  · exact fun r r' hr hr' => h.unique r r' (mem_before hr (by simp)) (mem_before hr' (by simp))
  · exact fun m hm => ⟨(h.pending m hm).1.concat (by simp), (h.pending m hm).2⟩
  · exact fun key flow hin => h.taken key flow (mem_before hin (by simp))
  · intro m hm
    rcases mem_setItem hm with rfl | ⟨hm, -⟩
    · refine ⟨⟨flow, List.mem_append_right _ (List.mem_singleton_self _), rfl⟩, ?_⟩
      intro result hresult
      rw [hpending] at hresult
      cases hresult
    · exact (h.device m hm).concat
  · intro i f hin
    rcases List.mem_append.mp hin with hin | hin
    · exact h.deviceIds i f hin
    · obtain ⟨rfl, rfl⟩ := Event.beganDevice.inj (List.mem_singleton.mp hin)
      exact hid
  · intro i f f' hin hin'
    rcases List.mem_append.mp hin with hold | hlast <;>
      rcases List.mem_append.mp hin' with hold' | hlast'
    · exact h.deviceUnique i f f' hold hold'
    · rw [(Event.beganDevice.inj (List.mem_singleton.mp hlast')).1] at hold
      exact absurd hold (hnew f)
    · rw [(Event.beganDevice.inj (List.mem_singleton.mp hlast)).1] at hold'
      exact absurd hold' (hnew f')
    · rw [(Event.beganDevice.inj (List.mem_singleton.mp hlast)).2,
        (Event.beganDevice.inj (List.mem_singleton.mp hlast')).2]

/-- A device flow changes, but not what it is for; its tokens, if it has some now, were issued. -/
theorem inv_updateDeviceFlow {flowId : String} {f : DeviceFlow → DeviceFlow} (h : Inv S s)
    (horigin : ∀ flow, (f flow).origin = flow.origin)
    (hissued : ∀ flow, (flowId, flow) ∈ s.activeDeviceFlows → ∀ result,
      (f flow).status = .completed result →
        Issued s.trace (f flow).provider result.accessToken result.refreshToken) :
    Inv S { s with activeDeviceFlows := s.activeDeviceFlows.map fun m =>
      if m.1 = flowId then (m.1, f m.2) else m } := by
  refine ⟨h.trace, h.rows, h.ids, h.unique, h.pending, h.taken, ?_, h.deviceIds, h.deviceUnique⟩
  intro m hm
  obtain ⟨⟨i, flow⟩, hm', rfl⟩ := List.mem_map.mp hm
  have hruns := h.device _ hm'
  split
  · rename_i hi
    obtain rfl : i = flowId := hi
    obtain ⟨flow₀, hmem, ho⟩ := hruns.began
    exact ⟨⟨flow₀, hmem, ho.trans (horigin flow).symm⟩, hissued flow hm'⟩
  · exact hruns

theorem inv_dropDeviceFlow {flowId : String} (h : Inv S s) :
    Inv S { s with activeDeviceFlows := remove flowId s.activeDeviceFlows } := by
  refine ⟨h.trace, h.rows, h.ids, h.unique, h.pending, h.taken, ?_, h.deviceIds, h.deviceUnique⟩
  intro m hm
  exact h.device m (mem_remove.mp hm).1

end

end OpenHost.OAuth
