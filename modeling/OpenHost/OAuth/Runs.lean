import OpenHost.OAuth.Safety

/-!
# Every run of the OAuth app

Requests arrive and are served in turns, the clock changes, the world outside answers or does not, and
the process is started again.  What holds of the app at every moment of every such run: which tokens it
hands out, what it asks the router to grant, and to whom it shows a token.
-/

namespace OpenHost.OAuth

open Coop (Loop)

/-! ## The system -/

/-- What the app is started with. -/
structure Boot where
  providers : List (String × Provider)
  userinfoUrls : List (String × String × String) := []
  redirectUri : String

/-- The state before the first request. -/
def Boot.state (b : Boot) : State where
  providers := b.providers
  userinfoUrls := b.userinfoUrls
  redirectUri := b.redirectUri

/-- A new process: the table is on disk, the flows were in memory. -/
def Boot.restarted (b : Boot) (s : State) : State :=
  { s with
    providers := b.providers
    userinfoUrls := b.userinfoUrls
    redirectUri := b.redirectUri
    pendingAuthFlows := []
    activeDeviceFlows := [] }

/-- What happens to the app. -/
inductive AppAction where
  | arrive (r : Request)
  | tick (now : Nat)
  /-- The job at a position goes on, with the answer that it has waited for. -/
  | resume (i : Nat) (reply : Reply)
  | restart
  deriving DecidableEq, Repr

/-- The app, with its requests in flight. -/
abbrev App := Loop Job Raised State Reply

variable (S : Setting) (boot : Boot)

def appStep (p : App) : AppAction → Option App
  | .arrive r => Coop.step (body S.lim S.config S.secret) p (.arrive (.request r))
  | .tick now => Coop.step (body S.lim S.config S.secret) p (.elapse { p.shared with now })
  | .resume i reply => Coop.step (body S.lim S.config S.secret) p (.resume i reply)
  | .restart => some { shared := boot.restarted p.shared, tasks := [] }

/-- Nothing is asked of the world outside but that what is known of a request holds of it. -/
def Admitted (p : App) : AppAction → Prop
  | .arrive r => S.Vouched r p.shared.trace
  | _ => True

/-- The runs of the app from its first start. -/
abbrev AppRuns (q : App) : Prop :=
  Reach (fun p a q => appStep S boot p a = some q) (Admitted S) ⟨boot.state, []⟩ q

/-! ## The invariant -/

section

variable {S : Setting} {boot : Boot} {p q : App} {a : AppAction}

theorem inv_restarted {s : State} (h : Inv S s) : Inv S (boot.restarted s) where
  trace := h.trace
  rows := h.rows
  ids := h.ids
  unique := h.unique
  pending := by simp [Boot.restarted]
  taken := h.taken
  device := by simp [Boot.restarted]
  deviceIds := h.deviceIds
  deviceUnique := h.deviceUnique

theorem inv_tick {s : State} {now : Nat} (h : Inv S s) : Inv S { s with now } where
  trace := h.trace
  rows := h.rows
  ids := h.ids
  unique := h.unique
  pending := h.pending
  taken := h.taken
  device := h.device
  deviceIds := h.deviceIds
  deviceUnique := h.deviceUnique

/-- One step keeps the contract, and what has happened stays so. -/
theorem holds_of_appStep (hp : (contract S).Holds p) (ha : Admitted S p a)
    (h : appStep S boot p a = some q) :
    (contract S).Holds q ∧ p.shared.trace <+: q.shared.trace := by
  have hsame : Rel p.shared p.shared := (contract S).refl p.shared
  cases a with
  | arrive r =>
    obtain ⟨hq, hrel⟩ := Contract.keeps_step (kept S) (a := .arrive (.request r)) hp ha h
    exact ⟨hq, hrel.trace⟩
  | tick now =>
    have hadmits : (contract S).Admits p (.elapse { p.shared with now }) :=
      ⟨⟨hsame.trace, hsame.nextId⟩, inv_tick⟩
    obtain ⟨hq, hrel⟩ := Contract.keeps_step (kept S) hp hadmits h
    exact ⟨hq, hrel.trace⟩
  | resume i reply =>
    obtain ⟨hq, hrel⟩ := Contract.keeps_step (kept S) (a := .resume i reply) hp trivial h
    exact ⟨hq, hrel.trace⟩
  | restart =>
    obtain rfl := Option.some.inj h
    exact ⟨⟨inv_restarted hp.inv, fun t ht => absurd ht List.not_mem_nil⟩, hsame.trace⟩

theorem holds_boot (S : Setting) (boot : Boot) : (contract S).Holds (⟨boot.state, []⟩ : App) where
  inv := inv_start S rfl rfl rfl rfl
  good _ ht := absurd ht List.not_mem_nil

theorem holds_of_appRuns (h : AppRuns S boot q) : (contract S).Holds q := by
  apply h.invariant
  · exact holds_boot S boot
  · intro p a q hp ha hstep
    exact (holds_of_appStep hp ha hstep).1

/-- Every event of a run rests on what came before it. -/
theorem justified_of_appRuns (h : AppRuns S boot q) {before after : List Event} {e : Event}
    (htrace : q.shared.trace = before ++ e :: after) : Justified S before e :=
  (holds_of_appRuns h).inv.trace before e after htrace

/-- What came before an event of a run rests on what came before that. -/
theorem justified_of_mem_before (h : AppRuns S boot q) {before after : List Event} {e e' : Event}
    (htrace : q.shared.trace = before ++ e :: after) (hmem : e' ∈ before) :
    ∃ front, front <+: before ∧ Justified S front e' := by
  obtain ⟨front, rest, rfl⟩ := List.append_of_mem hmem
  refine ⟨front, List.prefix_append _ _, ?_⟩
  have hsplit : q.shared.trace = front ++ e' :: (rest ++ e :: after) := by
    rw [htrace, List.append_assoc, List.cons_append]
  exact justified_of_appRuns h hsplit

end

/-! ## Flows -/

section

variable {S : Setting} {boot : Boot} {q : App} {before after front : List Event} {e : Event}

/-- A flow that came to an end was asked for. -/
theorem request_of_recorded (h : AppRuns S boot q) (htrace : q.shared.trace = before ++ e :: after)
    (hle : front <+: before) {o : Origin} (ho : Recorded front o) :
    ∃ r, Event.received r ∈ before ∧ r.Begins o := by
  rcases ho with ⟨key, flow, hmem, rfl⟩ | ⟨flowId, flow, hmem, rfl⟩
  · obtain ⟨front₁, hle₁, hbegan, -⟩ := justified_of_mem_before h htrace (hle.subset hmem)
    obtain ⟨front₂, hle₂, ⟨r, hr, horigin⟩, -⟩ :=
      justified_of_mem_before h htrace (hle₁.subset hbegan)
    exact ⟨r, hle₂.subset hr, horigin⟩
  · obtain ⟨front₁, hle₁, r, hr, horigin⟩ := justified_of_mem_before h htrace (hle.subset hmem)
    exact ⟨r, hle₁.subset hr, horigin⟩

/-- A row that was stored holds what its provider issued, in a flow that was asked for. -/
theorem source_of_stored (h : AppRuns S boot q) (htrace : q.shared.trace = before ++ e :: after)
    {row : StoredToken} (hrow : Event.stored row ∈ before) :
    Issued before row.provider row.accessToken row.refreshToken ∧
      ∃ r o, Event.received r ∈ before ∧ r.Begins o ∧ o.provider = row.provider ∧
        normalizeScopes o.scopes = row.scopes ∧ (row.account = o.account ∨
          Event.identified row.provider row.accessToken row.account ∈ before) := by
  obtain ⟨front, hle, hissued, o, ho, hprovider, hscopes, haccount⟩ :=
    justified_of_mem_before h htrace hrow
  obtain ⟨r, hr, hbegins⟩ := request_of_recorded h htrace hle ho
  exact ⟨hissued.mono hle, r, o, hr, hbegins, hprovider, hscopes,
    haccount.imp_right fun hmem => hle.subset hmem⟩

end

/-! ## A run -/

/-- A run in which nothing need be known of requests, from the actions themselves. -/
theorem appRuns_of_foldlM {S : Setting} {boot : Boot} (hvouched : ∀ r before, S.Vouched r before)
    {p q : App} {actions : List AppAction} (h : actions.foldlM (appStep S boot) p = some q) :
    Reach (fun p a q => appStep S boot p a = some q) (Admitted S) p q := by
  induction actions generalizing p with
  | nil =>
    obtain rfl := Option.some.inj h
    exact .refl
  | cons a actions ih =>
    rw [List.foldlM_cons] at h
    obtain ⟨p', hp', hrest⟩ := Option.bind_eq_some_iff.mp h
    have hadmitted : Admitted S p a := by
      cases a with
      | arrive r => exact hvouched r _
      | _ => trivial
    exact Reach.trans (.step .refl hadmitted hp') (ih hrest)

theorem exampleSecret_injective :
    Function.Injective fun n => String.ofList (List.replicate n 'a') :=
  fun _ _ h => List.replicate_left_injective 'a' (String.ofList_injective h)

def exampleSetting : Setting where
  lim := Json.defaultLimits
  config := ⟨"oauth", "zone.example", "my.example"⟩
  secret n := String.ofList (List.replicate n 'a')
  fresh := exampleSecret_injective
  Vouched _ _ := True
  mono h _ := h

def exampleBoot : Boot where
  providers := [("mock",
    { flow := .authCode, clientId := some "id", clientSecret := some "secret"
      authUrl := some "https://mock.example/authorize"
      tokenUrl := some "https://mock.example/token" })]
  userinfoUrls := [("mock", "https://mock.example/me", "email")]
  redirectUri := "https://my.example/callback"

/-- The header of the app `blog` once it has been granted what it asked for. -/
def exampleCaller : Caller where
  permissions := some ("[\x7b\"grant\": \x7b\"account\": \"me\", \"provider\": \"mock\", " ++
    "\"scopes\": [\"read\"]\x7d, \"scope\": \"app\"\x7d]")
  consumerId := some "blog"

def exampleRequest : TokenRequest := { provider := "mock", scopes := ["read"], account := "me" }

/-- Consent for the app `blog`, and then its request for a token. -/
def exampleActions : List AppAction :=
  [.arrive (.grant "mock" "read" "blog" "/"), .resume 0 none,
    .arrive (.callback "code" (stateText exampleSetting.config "") "" "read"), .resume 0 none,
    .resume 0 (some { json := some { texts := [("access_token", "t1")] } }),
    .resume 0 (some { json := some { texts := [("email", "me")] } }), .resume 0 (some {}),
    .arrive (.token exampleCaller exampleRequest), .resume 0 none]

def exampleRun : Option App :=
  exampleActions.foldlM (appStep exampleSetting exampleBoot) ⟨exampleBoot.state, []⟩

def exampleFlow : Flow where
  provider := "mock"
  scopes := ["read"]
  redirectUri := "https://my.example/callback"
  returnTo := "/"
  account := "default"
  consumerApp := some "blog"
  serviceUrl := some oauthServiceUrl

def exampleRow : StoredToken where
  id := 1
  provider := "mock"
  scopes := "read"
  account := "me"
  accessToken := "t1"
  refreshToken := none
  expiresAt := none
  createdAt := 0
  updatedAt := 0

/-- The state parameter of the flow. -/
def exampleState : String := "\x7b\"app\": \"oauth\", \"nonce\": \"\"\x7d"

/-- From the callback until the token has been issued. -/
def exampleIssued : List Event :=
  [.received (.callback "code" exampleState "" "read"), .taken exampleState exampleFlow,
    .called (.exchangeCode "mock" "https://mock.example/token" "id" "secret" "code"
      "https://my.example/callback"),
    .issued "mock" ⟨"t1", none, none, "Bearer"⟩]

/-- Until it has been stored. -/
def exampleStored : List Event :=
  exampleIssued ++
    [.called (.userinfo "mock" "https://mock.example/me" "t1"), .identified "mock" "t1" "me",
      .stored exampleRow]

/-- Until the app `blog` has asked for it. -/
def exampleAsked : List Event :=
  exampleStored ++
    [.called (.grantAppScoped "blog" oauthServiceUrl ⟨"mock", ["read"], "me"⟩),
      .answered (.callback "code" exampleState "" "read") (.redirect "/"),
      .received (.token exampleCaller exampleRequest)]

def exampleTrace : List Event :=
  exampleAsked ++ [.answered (.token exampleCaller exampleRequest) (.token "t1" none)]

theorem exists_exampleRun : ∃ q front, AppRuns exampleSetting exampleBoot q ∧
    q.shared.trace = front ++ exampleTrace := by
  have htrace : exampleRun.map (fun q => q.shared.trace.drop 4) = some exampleTrace := by
    decide +kernel
  obtain ⟨q, hq, hevents⟩ := Option.map_eq_some_iff.mp htrace
  refine ⟨q, q.shared.trace.take 4, appRuns_of_foldlM (fun _ _ => trivial) hq, ?_⟩
  rw [← hevents, List.take_append_drop]

/-! ## Tokens that are handed out -/

/-- No scope holds a comma. -/
def CommaFree (scopes : List String) : Prop := ∀ s ∈ scopes, ',' ∉ s.toList

/-- In every run a token is the answer to a request for one, whose header covers every scope it asks
for.  It is the token of a row stored for that provider and those scopes, and for the account unless any
will do; the provider issued it, or gave it for the row's refresh token, and somebody had asked for that
consent: the same provider and, where no scope holds a comma, the same scopes. -/
theorem token_of_appRuns (S : Setting) (boot : Boot) : ∀ q, AppRuns S boot q →
    ∀ before after r accessToken expiresAt,
      q.shared.trace = before ++ .answered r (.token accessToken expiresAt) :: after →
      ∃ caller data, r = .token caller data ∧ Event.received r ∈ before ∧ data.scopes ≠ [] ∧
        Covered S.lim caller.permissions data.provider data.scopes (some data.account) ∧
        ∃ row, Event.stored row ∈ before ∧ row.provider = data.provider ∧
          row.scopes = normalizeScopes data.scopes ∧ Matches data.account row ∧
          Issued before row.provider row.accessToken row.refreshToken ∧
          Current before row accessToken ∧
          ∃ r' o, Event.received r' ∈ before ∧ r'.Begins o ∧ o.provider = data.provider ∧
            (o.scopes ≠ [] → CommaFree o.scopes → CommaFree data.scopes → o.scopes.Perm data.scopes) ∧
            (row.account = o.account ∨
              Event.identified row.provider row.accessToken row.account ∈ before) := by
  intro q hrun before after r accessToken expiresAt htrace
  obtain ⟨hreceived, caller, data, rfl, hne, hcovered, row, hrow, hprovider, hscopes, haccount,
    hcurrent⟩ := justified_of_appRuns hrun htrace
  obtain ⟨hissued, r', o, hr', hbegins, hoprovider, hoscopes, hoaccount⟩ :=
    source_of_stored hrun htrace hrow
  refine ⟨caller, data, rfl, hreceived, hne, hcovered, row, hrow, hprovider, hscopes, haccount, hissued,
    hcurrent, r', o, hr', hbegins, hoprovider.trans hprovider, ?_, hoaccount⟩
  intro hne' hcomma hcomma'
  exact (normalizeScopes_eq_iff hne' hne hcomma hcomma').mp (hoscopes.trans hscopes)

theorem token_of_exampleRun :
    Covered Json.defaultLimits exampleCaller.permissions "mock" ["read"] (some "me") ∧
      ∃ front row, Event.stored row ∈ front ++ exampleAsked ∧ row.provider = "mock" ∧
        row.account = "me" ∧ Current (front ++ exampleAsked) row "t1" := by
  obtain ⟨q, front, hrun, htrace⟩ := exists_exampleRun
  rw [exampleTrace, ← List.append_assoc] at htrace
  obtain ⟨caller, data, hr, -, -, hcovered, row, hrow, hprovider, -, haccount, -, hcurrent, -⟩ :=
    token_of_appRuns exampleSetting exampleBoot q hrun _ _ _ _ _ htrace
  obtain ⟨rfl, rfl⟩ := Request.token.inj hr
  exact ⟨hcovered, front, row, hrow, hprovider, haccount (by decide) (by decide), hcurrent⟩

/-! ## Grants that are asked for -/

/-- In every run the router is asked to grant an app only what a request began a consent flow for: the
same app, the same provider and the same scopes.  By then a token that the provider issued has been
stored under these scopes and the account of the grant. -/
theorem grant_of_appRuns (S : Setting) (boot : Boot) : ∀ q, AppRuns S boot q →
    ∀ before after consumerApp serviceUrl g,
      q.shared.trace = before ++ .called (.grantAppScoped consumerApp serviceUrl g) :: after →
      serviceUrl = oauthServiceUrl ∧ consumerApp ≠ "" ∧
        (∃ r o, Event.received r ∈ before ∧ r.Begins o ∧ o.consumerApp = some consumerApp ∧
          o.provider = g.provider ∧ o.scopes = g.scopes) ∧
        ∃ row, Event.stored row ∈ before ∧ row.provider = g.provider ∧
          row.scopes = normalizeScopes g.scopes ∧ row.account = g.account ∧
          Issued before row.provider row.accessToken row.refreshToken := by
  intro q hrun before after consumerApp serviceUrl g htrace
  obtain ⟨hurl, hne, ⟨o, ho, hconsumer, hprovider, hscopes⟩, row, hrow, hrest⟩ :=
    justified_of_appRuns hrun htrace
  obtain ⟨r, hr, hbegins⟩ := request_of_recorded hrun htrace (List.prefix_refl _) ho
  obtain ⟨hissued, -⟩ := source_of_stored hrun htrace hrow
  obtain ⟨hrprovider, hrscopes, hraccount⟩ := hrest
  exact ⟨hurl, hne, ⟨r, o, hr, hbegins, hconsumer, hprovider, hscopes⟩, row, hrow, hrprovider,
    hrscopes, hraccount, hissued⟩

theorem grant_of_exampleRun :
    ∃ front row, Event.stored row ∈ front ++ exampleStored ∧ row.provider = "mock" ∧
      row.scopes = "read" ∧ row.account = "me" := by
  obtain ⟨q, front, hrun, htrace⟩ := exists_exampleRun
  rw [exampleTrace, exampleAsked, List.append_assoc, ← List.append_assoc] at htrace
  obtain ⟨-, -, -, row, hrow, hprovider, hscopes, haccount, -⟩ :=
    grant_of_appRuns exampleSetting exampleBoot q hrun _ _ _ _ _ htrace
  exact ⟨front, row, hrow, hprovider, hscopes.trans (by decide), haccount⟩

/-! ## Tokens that are shown -/

/-- The provider that a call shows a token, and the token. -/
def Call.shows : Call → Option (String × String)
  | .userinfo provider _ accessToken => some (provider, accessToken)
  | .refresh provider _ _ _ refreshToken => some (provider, refreshToken)
  | .revoke provider _ _ _ _ token => some (provider, token)
  | _ => none

/-- The provider gave this token: as an access token or a refresh token of a flow, or for a refresh
token. -/
def Gave (before : List Event) (provider token : String) : Prop :=
  (∃ result, Event.issued provider result ∈ before ∧
    (result.accessToken = token ∨ result.refreshToken = some token)) ∨
  ∃ refreshToken, Event.refreshed provider refreshToken token ∈ before

theorem Issued.gave {before : List Event} {provider accessToken token : String}
    {refreshToken : Option String} (h : Issued before provider accessToken refreshToken)
    (htoken : accessToken = token ∨ refreshToken = some token) : Gave before provider token := by
  obtain ⟨result, hmem, hresult, hrefresh⟩ := h
  refine Or.inl ⟨result, hmem, ?_⟩
  rcases htoken with rfl | rfl
  · exact Or.inl hresult
  · exact Or.inr hrefresh

/-- In every run a token is shown only to the provider that gave it. -/
theorem shown_of_appRuns (S : Setting) (boot : Boot) : ∀ q, AppRuns S boot q →
    ∀ before after c provider token, q.shared.trace = before ++ .called c :: after →
      c.shows = some (provider, token) → Gave before provider token := by
  intro q hrun before after c provider token htrace hshows
  have hjustified : CallJustified before c := justified_of_appRuns hrun htrace
  cases c with
  | userinfo p url accessToken =>
    obtain ⟨rfl, rfl⟩ := Prod.mk.inj (Option.some.inj hshows)
    obtain ⟨refreshToken, hissued⟩ := hjustified
    exact hissued.gave (Or.inl rfl)
  | refresh p url clientId clientSecret refreshToken =>
    obtain ⟨rfl, rfl⟩ := Prod.mk.inj (Option.some.inj hshows)
    obtain ⟨row, hrow, rfl, hrefresh⟩ := hjustified
    obtain ⟨hissued, -⟩ := source_of_stored hrun htrace hrow
    exact hissued.gave (Or.inr hrefresh)
  | revoke p url method auth json token =>
    obtain ⟨rfl, rfl⟩ := Prod.mk.inj (Option.some.inj hshows)
    obtain ⟨row, hrow, rfl, htoken⟩ := hjustified
    obtain ⟨hissued, -⟩ := source_of_stored hrun htrace hrow
    rcases htoken with hrefresh | hcurrent | ⟨refreshToken, -, hrefreshed⟩
    · exact hissued.gave (Or.inr hrefresh)
    · exact hissued.gave (Or.inl hcurrent.symm)
    · exact Or.inr ⟨refreshToken, hrefreshed⟩
  | _ => cases hshows

theorem shown_of_exampleRun : ∃ front, Gave (front ++ exampleIssued) "mock" "t1" := by
  obtain ⟨q, front, hrun, htrace⟩ := exists_exampleRun
  rw [exampleTrace, exampleAsked, exampleStored, List.append_assoc, List.append_assoc,
    ← List.append_assoc] at htrace
  exact ⟨front, shown_of_appRuns exampleSetting exampleBoot q hrun _ _ _ _ _ htrace rfl⟩

end OpenHost.OAuth
