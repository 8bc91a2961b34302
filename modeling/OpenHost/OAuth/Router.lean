import OpenHost.OAuth.Runs

/-!
# The OAuth app behind the router

The two together.  The router keeps the grants, and puts what they say on each call that it passes on;
the app asks it for grants once a consent flow has ended, and believes the headers.  Calls are under way
for any time, and so are grants that the app has asked for.  An app is handed a token only where the
owner's consent flows for that very app have covered what it asks for.
-/

namespace OpenHost.OAuth

open Json (Limits FloatRepr Value ofString)
open Services (AppliesTo BuiltinService PermissionRow ServiceOp Tables perform routerAppId routerAppName)
open Web (RouterHeader appConsumerHeaders consumerHeaders entryValue)

/-! ## The system -/

/-- A call of the service, before the router has put its headers on it. -/
inductive ServiceCall where
  | token (data : TokenRequest)
  | accounts (data : AccountsRequest)
  | revoke (data : RevokeRequest)
  deriving DecidableEq, Repr

def ServiceCall.request (caller : Caller) : ServiceCall → Request
  | .token data => .token caller data
  | .accounts data => .accounts caller data
  | .revoke data => .revoke caller data

/-- The caller, where the request is a call of the service. -/
def Request.caller? : Request → Option Caller
  | .token caller _ | .accounts caller _ | .revoke caller _ => some caller
  | _ => none

theorem caller?_request (caller : Caller) (call : ServiceCall) :
    (call.request caller).caller? = some caller := by
  cases call <;> rfl

/-- The headers as the app reads them. -/
def callerOf (headers : List RouterHeader) : Caller where
  permissions := headers.findSome? fun
    | .xOpenHostPermissions text => some text
    | _ => none
  consumerId := headers.findSome? fun
    | .xOpenHostConsumerId text => some text
    | _ => none

/-- What `get_oauth_token` grants itself. -/
def routerGrant (provider : String) (scopes : List String) : Value :=
  .dict [(ofString "provider", .str (ofString provider)),
    (ofString "scopes", .list (scopes.map fun s => .str (ofString s)))]

/-- The headers of a call of the router's own: `get_oauth_token`. -/
def routerConsumerHeaders (lim : Limits) (provider : String) (scopes : List String) :
    Except Web.HeaderError (List RouterHeader) :=
  consumerHeaders lim routerAppId routerAppName [entryValue .app (routerGrant provider scopes)]

/-- The app, the tables of the router, and the calls that the router has passed on. -/
structure System where
  app : App
  tables : Tables
  sent : List Request := []

/-- What happens. -/
inductive SystemAction where
  | app (a : AppAction)
  | router (op : ServiceOp)
  /-- An app calls a service that the OAuth app provides. -/
  | call (consumerAppId serviceUrl : String) (call : ServiceCall)
  /-- `get_oauth_token` -/
  | getOauthToken (provider : String) (scopes : List String) (returnTo : String)
  deriving DecidableEq

section

-- `p` is the id under which the OAuth app is installed
variable (S : Setting) (boot : Boot) (F : FloatRepr) (builtins : List BuiltinService) (p : String)

def systemStep (y : System) : SystemAction → Option System
  | .app a => (appStep S boot y.app a).map fun app => { y with app }
  | .router op => (perform builtins op y.tables).toOption.map fun tables => { y with tables }
  | .call c s call =>
      (appConsumerHeaders F S.lim c s p y.tables).toOption.map fun headers =>
        { y with sent := y.sent ++ [call.request (callerOf headers)] }
  | .getOauthToken provider scopes returnTo =>
      (routerConsumerHeaders S.lim provider scopes).toOption.map fun headers =>
        { y with sent := y.sent ++ [.token (callerOf headers) { provider, scopes, returnTo }] }

/-- The router is asked in the app's name only for what the app has asked it for. -/
def AskedByApp (trace : List Event) (op : ServiceOp) : Prop :=
  ∃ consumerApp serviceUrl g payload,
    Event.called (.grantAppScoped consumerApp serviceUrl g) ∈ trace ∧ g.StoredAs S.lim payload ∧
      op = .grantAppScoped p ⟨none, some consumerApp, some serviceUrl, some payload⟩

/-- Calls of the service reach the app through the router, in any order, late, twice or not at all; and
nobody but the app has its token for the router. -/
def Proper (y : System) : SystemAction → Prop
  | .app (.arrive r) => r.caller?.isSome → r ∈ y.sent
  | .router op => op.actor = some p → AskedByApp S p y.app.shared.trace op
  | _ => True

/-- The runs of both, from their first start. -/
abbrev SystemRuns (y : System) : Prop :=
  Reach (fun y a y' => systemStep S boot F builtins p y a = some y') (Proper S p)
    { app := ⟨boot.state, []⟩, tables := .empty } y

end

/-! ## What the app knows of a call -/

/-- The grants in the headers of an app are ones that the OAuth app has asked for, for that app. -/
def Known (lim : Limits) (r : Request) (before : List Event) : Prop :=
  ∀ caller c, r.caller? = some caller → caller.consumerId = some c → c ≠ routerAppId →
    ∀ grants, parseOauthV2Grants lim caller.permissions = .ok grants → ∀ g ∈ grants,
      ∃ serviceUrl asked, Event.called (.grantAppScoped c serviceUrl asked) ∈ before ∧ g = asked.grant

theorem Known.mono {lim : Limits} {r : Request} {before after : List Event} (h : Known lim r before)
    (hle : before <+: after) : Known lim r after := by
  intro caller c hcaller hc hne grants hgrants g hg
  obtain ⟨serviceUrl, asked, hmem, hasked⟩ := h caller c hcaller hc hne grants hgrants g hg
  exact ⟨serviceUrl, asked, hle.subset hmem, hasked⟩

/-- A row that is scoped to the app is one that the app has asked for. -/
def RowAsked (lim : Limits) (before : List Event) (r : PermissionRow) : Prop :=
  ∃ g : GrantRequest, Event.called (.grantAppScoped r.consumerAppId r.serviceUrl g) ∈ before ∧
    g.StoredAs lim r.grantPayload

theorem RowAsked.mono {lim : Limits} {before after : List Event} {r : PermissionRow}
    (h : RowAsked lim before r) (hle : before <+: after) : RowAsked lim after r := by
  obtain ⟨g, hmem, hstored⟩ := h
  exact ⟨g, hle.subset hmem, hstored⟩

section

variable {F : FloatRepr} {lim : Limits} {c s p : String} {t : Tables} {headers : List RouterHeader}

theorem consumerHeaders_ok {id name : String} {permissions : List Value}
    (h : consumerHeaders lim id name permissions = .ok headers) :
    ∃ text, Json.dumpsValue lim (.list permissions) = some text ∧
      headers = [.xOpenHostConsumerId id, .xOpenHostConsumerName name,
        .xOpenHostPermissions (String.ofList text)] := by
  unfold consumerHeaders at h
  split at h
  · cases h
  · rename_i text hdumps
    exact ⟨text, hdumps, (Except.ok.inj h).symm⟩

/-- The app reads who calls, and the permissions that the router wrote. -/
theorem callerOf_appConsumerHeaders (h : appConsumerHeaders F lim c s p t = .ok headers) :
    ∃ text, RouterHeader.xOpenHostPermissions text ∈ headers ∧
      callerOf headers = ⟨some text, some c⟩ := by
  unfold appConsumerHeaders at h
  split at h
  · cases h
  · split at h
    · cases h
    · obtain ⟨text, -, rfl⟩ := consumerHeaders_ok h
      exact ⟨String.ofList text, by simp, rfl⟩

/-- What the app will read in the headers of a call, where the rows that are scoped to it are ones that
it has asked for. -/
theorem known_of_rows {before : List Event} {call : ServiceCall}
    (h : appConsumerHeaders F lim c s p t = .ok headers)
    (hrows : ∀ r ∈ t.permissions, r.scope = .app → r.providerAppId = p → RowAsked lim before r) :
    Known lim (call.request (callerOf headers)) before := by
  intro caller c' hcaller hc' _ grants hgrants g hg
  rw [caller?_request] at hcaller
  obtain rfl := Option.some.inj hcaller
  obtain ⟨text, hmem, hcallerOf⟩ := callerOf_appConsumerHeaders h
  rw [hcallerOf] at hc' hgrants
  obtain rfl := Option.some.inj hc'
  rw [parseOauthV2Grants_appConsumerHeaders h hmem] at hgrants
  obtain rfl := Except.ok.inj hgrants
  obtain ⟨r, hr, hgrant⟩ := List.mem_filterMap.mp hg
  obtain ⟨hin, hpick⟩ := List.mem_filter.mp hr
  simp only [Bool.and_eq_true, decide_eq_true_eq] at hpick
  obtain ⟨⟨rfl, rfl, happlies⟩, hscope⟩ := hpick
  rcases happlies with hglobal | ⟨-, hnames⟩
  · rw [hscope] at hglobal
    cases hglobal
  · obtain ⟨asked, hcalled, hstored⟩ := hrows r hin hscope hnames.1
    rw [rowGrant?_of_storedAs hstored] at hgrant
    exact ⟨r.serviceUrl, asked, hcalled, (Option.some.inj hgrant).symm⟩

end

/-! ## Who adds a row -/

section

variable {builtins : List BuiltinService} {t t' : Tables} {op : ServiceOp} {r : PermissionRow}

/-- A row that is scoped to an app is there because that app asked for it. -/
theorem appRow_of_perform (h : perform builtins op t = .ok t') (hr : r ∈ t'.permissions)
    (hscope : r.scope = .app) : r ∈ t.permissions ∨ ∃ data, op = .grantAppScoped r.providerAppId data ∧
      Services.requestedConsumer data t = .ok (some r.consumerAppId) ∧
      data.serviceUrl = some r.serviceUrl ∧ data.grant = some r.grantPayload := by
  have hglobal : ∀ {c s grant : String}, r ≠ ⟨c, s, grant, .global, ""⟩ := by
    rintro c s grant rfl
    cases hscope
  have hgranted : ∀ {row : PermissionRow} {u : Tables}, Services.grantPermissionV2 row t = .ok u →
      r ∈ u.permissions → r ∈ t.permissions ∨ r = row := by
    intro row u hgrant hmem
    obtain ⟨-, -, -, hpermissions⟩ := Services.grantPermissionV2_ok hgrant
    rw [hpermissions] at hmem
    split at hmem
    · exact Or.inl hmem
    · exact (List.mem_append.mp hmem).imp_right List.mem_singleton.mp
  cases op with
  | insertAndDeploy a provides => exact Or.inl ((Services.insertAndDeploy_ok h).2.2.1 ▸ hr)
  | updateStatus appId status => exact Or.inl ((Services.updateStatus_ok h).2.2.2 ▸ hr)
  | register foreignKeys appId provides => exact Or.inl ((Services.register_ok h).2.2.1 ▸ hr)
  | removeApp appId =>
    rw [Tables.write_ok h] at hr
    exact Or.inl (List.mem_of_mem_filter hr)
  | setDefault serviceUrl appId => exact Or.inl ((Services.setDefault_ok h).2.2.1 ▸ hr)
  | clearDefault serviceUrl => exact Or.inl ((Services.clearDefault_ok h).2.2.1 ▸ hr)
  | installGrants appId grants =>
    rcases (Services.mem_permissions_of_grantAll h r).mp hr with hr | ⟨pg, -, hrow⟩
    · exact Or.inl hr
    · exact absurd hrow hglobal
  | approveUpdate appId consumes previous =>
    rcases (Services.mem_permissions_of_grantAll h r).mp hr with hr | ⟨pg, -, hrow⟩
    · exact Or.inl hr
    · exact absurd hrow hglobal
  | grantGlobalScoped data =>
    obtain ⟨appId, serviceUrl, grant, hgrant⟩ := Services.grantGlobalScoped_ok h
    exact (hgranted hgrant hr).imp_right fun hrow => absurd hrow hglobal
  | revokeV2 data scope providerAppId =>
    obtain ⟨appId, serviceUrl, grant, hrevoke⟩ := Services.revokeV2_ok h
    rw [(Services.revokePermissionV2_ok hrevoke).2.2.2.1] at hr
    exact Or.inl (List.mem_of_mem_filter hr)
  | grantAppScoped providerAppId data =>
    obtain ⟨consumer, hconsumer, hrest⟩ := Services.exists_of_bind_ok h
    split at hrest
    · rename_i c s grant hc hs hgrant
      split at hrest
      · refine (hgranted hrest hr).imp_right ?_
        rintro rfl
        have htrue : ∀ {v : Option String} {x : String}, Services.truthy v = some x → v = some x :=
          fun hv => (Option.filter_eq_some_iff.mp hv).1
        exact ⟨data, rfl, by rw [hconsumer, htrue hc], htrue hs, hgrant⟩
      · cases hrest
    · cases hrest

end

/-! ## The invariant -/

/-- The app behind the router: what is known of its calls is what the router has vouched for. -/
def behindRouter (S : Setting) : Setting := { S with Vouched := Known S.lim, mono := Known.mono }

/-- The app goes through a run of its own, and each grant that the router keeps for it, or has sent to it,
is one that it has asked for. -/
structure SystemInv (S : Setting) (boot : Boot) (p : String) (y : System) : Prop where
  runs : AppRuns (behindRouter S) boot y.app
  rows : ∀ r ∈ y.tables.permissions, r.scope = .app → r.providerAppId = p →
    RowAsked S.lim y.app.shared.trace r
  sent : ∀ r ∈ y.sent, Known S.lim r y.app.shared.trace

section

variable {S : Setting} {boot : Boot} {F : FloatRepr} {builtins : List BuiltinService} {p : String}
  {y y' : System} {a : SystemAction}

theorem systemInv_app {a : AppAction} (hy : SystemInv S boot p y) (ha : Proper S p y (.app a))
    {app : App} (h : appStep S boot y.app a = some app) : SystemInv S boot p { y with app } := by
  have hadmitted : Admitted (behindRouter S) y.app a := by
    cases a with
    | arrive r =>
      intro caller c hcaller
      have hcall : r.caller?.isSome = true := by rw [hcaller]; rfl
      exact hy.sent r (ha hcall) caller c hcaller
    | _ => trivial
  have hstep : appStep (behindRouter S) boot y.app a = some app := h
  obtain ⟨-, hle⟩ := holds_of_appStep (holds_of_appRuns hy.runs) hadmitted hstep
  exact ⟨.step hy.runs hadmitted hstep, fun r hr hscope hp => (hy.rows r hr hscope hp).mono hle,
    fun r hr => (hy.sent r hr).mono hle⟩

theorem systemInv_router {op : ServiceOp} (hy : SystemInv S boot p y)
    (ha : Proper S p y (.router op)) {tables : Tables} (h : perform builtins op y.tables = .ok tables) :
    SystemInv S boot p { y with tables } := by
  refine ⟨hy.runs, ?_, hy.sent⟩
  intro r hr hscope hp
  rcases appRow_of_perform h hr hscope with hr | ⟨data, rfl, hconsumer, hurl, hgrant⟩
  · exact hy.rows r hr hscope hp
  · obtain ⟨c, s, g, payload, hcalled, hstored, hop⟩ := ha (congrArg some hp)
    obtain ⟨-, rfl⟩ := ServiceOp.grantAppScoped.inj hop
    obtain rfl := Option.some.inj (Except.ok.inj hconsumer)
    obtain rfl := Option.some.inj hurl
    obtain rfl := Option.some.inj hgrant
    exact ⟨g, hcalled, hstored⟩

theorem systemInv_send {r : Request} (hy : SystemInv S boot p y)
    (hr : Known S.lim r y.app.shared.trace) : SystemInv S boot p { y with sent := y.sent ++ [r] } := by
  refine ⟨hy.runs, hy.rows, ?_⟩
  intro r' hr'
  rcases List.mem_append.mp hr' with hr' | hr'
  · exact hy.sent r' hr'
  · obtain rfl := List.mem_singleton.mp hr'
    exact hr

theorem systemInv_step (hy : SystemInv S boot p y) (ha : Proper S p y a)
    (h : systemStep S boot F builtins p y a = some y') : SystemInv S boot p y' := by
  have hok : ∀ {ε α : Type} {x : Except ε α} {v : α}, x.toOption = some v → x = .ok v := by
    intro ε α x v hx
    cases x with
    | error e => cases hx
    | ok w => rw [Option.some.inj hx]
  cases a with
  | app a =>
    obtain ⟨app, happ, rfl⟩ := Option.map_eq_some_iff.mp h
    exact systemInv_app hy ha happ
  | router op =>
    obtain ⟨tables, htables, rfl⟩ := Option.map_eq_some_iff.mp h
    exact systemInv_router hy ha (hok htables)
  | call c s call =>
    obtain ⟨headers, hheaders, rfl⟩ := Option.map_eq_some_iff.mp h
    exact systemInv_send hy (known_of_rows (hok hheaders) hy.rows)
  | getOauthToken provider scopes returnTo =>
    obtain ⟨headers, hheaders, rfl⟩ := Option.map_eq_some_iff.mp h
    apply systemInv_send hy
    -- the router speaks for itself
    intro caller c hcaller hc hne
    obtain rfl := Option.some.inj hcaller
    obtain ⟨text, -, rfl⟩ := consumerHeaders_ok (hok hheaders)
    exact absurd (Option.some.inj hc).symm hne

theorem systemInv_of_runs (h : SystemRuns S boot F builtins p y) : SystemInv S boot p y := by
  apply h.invariant
  · refine ⟨.refl, ?_, ?_⟩
    · exact fun r hr => absurd hr List.not_mem_nil
    · exact fun r hr => absurd hr List.not_mem_nil
  · exact fun y a y' hy ha hstep => systemInv_step hy ha hstep

end

/-! ## A run of both -/

/-- Floats are written as they were read. -/
def asRead : FloatRepr := ⟨id, fun h => h⟩

def exampleGrant : GrantRequest := ⟨"mock", ["read"], "me"⟩

/-- The app asks the router for what it has just stored. -/
def exampleOp : ServiceOp :=
  .grantAppScoped "oauth" ⟨none, some "blog", some oauthServiceUrl,
    some "\x7b\"account\": \"me\", \"provider\": \"mock\", \"scopes\": [\"read\"]\x7d"⟩

/-- Two apps are installed; the owner consents for one of them, which then asks for a token. -/
def exampleSystemActions : List SystemAction :=
  [.router (.insertAndDeploy ⟨"oauth", "OAuth", "1", 9001, .running⟩ [⟨oauthServiceUrl, "1.0", "/"⟩]),
    .router (.insertAndDeploy ⟨"blog", "Blog", "2", 9002, .running⟩ [])] ++
  (exampleActions.take 7).map .app ++
  [.router exampleOp, .call "blog" oauthServiceUrl (.token exampleRequest)] ++
  (exampleActions.drop 7).map .app

/-- Proper steps of the example. -/
def Evident (y : System) : SystemAction → Prop
  | .app (.arrive r) => r.caller?.isSome → r ∈ y.sent
  | .router op => op.actor = some "oauth" → op = exampleOp ∧
      Event.called (.grantAppScoped "blog" oauthServiceUrl exampleGrant) ∈ y.app.shared.trace
  | _ => True

instance (y : System) : DecidablePred (Evident y)
  | .app (.arrive r) => inferInstanceAs (Decidable (r.caller?.isSome → r ∈ y.sent))
  | .app (.tick _) | .app (.resume _ _) | .app .restart => isTrue trivial
  | .router op => inferInstanceAs (Decidable (op.actor = some "oauth" → op = exampleOp ∧
      Event.called (.grantAppScoped "blog" oauthServiceUrl exampleGrant) ∈ y.app.shared.trace))
  | .call .. | .getOauthToken .. => isTrue trivial

theorem proper_of_evident {y : System} {a : SystemAction} (h : Evident y a) :
    Proper exampleSetting "oauth" y a := by
  cases a with
  | router op =>
    intro hactor
    obtain ⟨rfl, hcalled⟩ := h hactor
    have hdumps : (Json.dumpsSorted exampleSetting.lim exampleGrant.value).map String.ofList =
        some "\x7b\"account\": \"me\", \"provider\": \"mock\", \"scopes\": [\"read\"]\x7d" := by
      decide +kernel
    obtain ⟨text, htext, hpayload⟩ := Option.map_eq_some_iff.mp hdumps
    exact ⟨"blog", oauthServiceUrl, exampleGrant, _, hcalled, ⟨text, htext, hpayload.symm⟩, rfl⟩
  | app a => cases a <;> exact h
  | _ => trivial

def exampleSystemRun : Option System :=
  runAll (systemStep exampleSetting exampleBoot asRead [] "oauth") Evident
    { app := ⟨exampleBoot.state, []⟩, tables := .empty } exampleSystemActions

theorem exists_exampleSystemRun : ∃ y front, SystemRuns exampleSetting exampleBoot asRead [] "oauth" y ∧
    y.app.shared.trace = front ++ exampleTrace ∧ exampleSystemRun = some y := by
  have htrace : exampleSystemRun.map (fun y => y.app.shared.trace.drop 4) = some exampleTrace := by
    decide +kernel
  obtain ⟨y, hy, hevents⟩ := Option.map_eq_some_iff.mp htrace
  refine ⟨y, y.app.shared.trace.take 4, (reach_of_run hy).mono fun _ _ => proper_of_evident, ?_, hy⟩
  rw [← hevents, List.take_append_drop]

/-! ## What the check says -/

section

variable {lim : Limits} {provider : String} {scopes : List String} {headers : List RouterHeader}

theorem wellFormed_routerGrant (provider : String) (scopes : List String) :
    (routerGrant provider scopes).wellFormed = true := by
  have hjoined : ∀ s : String, Json.join (ofString s) = ofString s := Json.joined_ofString
  have hkeys : ofString "provider" ≠ ofString "scopes" := by decide
  rw [routerGrant, Json.dict_wellFormed_iff]
  refine ⟨by simpa using hkeys, ?_⟩
  intro m hm
  simp only [List.mem_cons, List.not_mem_nil, or_false] at hm
  rcases hm with rfl | rfl
  · exact ⟨hjoined _, decide_eq_true (hjoined _)⟩
  · exact ⟨hjoined _, wellFormed_texts _⟩

/-- The grant that the router has written for itself, as the app reads it: it names no account. -/
theorem parse_routerConsumerHeaders (h : routerConsumerHeaders lim provider scopes = .ok headers) :
    parseOauthV2Grants lim (callerOf headers).permissions = .ok
      [⟨.str (ofString provider), .list (scopes.map fun s => .str (ofString s)), .null⟩] := by
  obtain ⟨text, hdumps, rfl⟩ := consumerHeaders_ok h
  unfold Json.dumpsValue at hdumps
  split at hdumps
  · rename_i hfits
    have hwell : (Value.list [entryValue .app (routerGrant provider scopes)]).wellFormed = true := by
      rw [Json.list_wellFormed_iff]
      intro v hv
      obtain rfl := List.mem_singleton.mp hv
      exact Web.wellFormed_entryValue (wellFormed_routerGrant provider scopes)
    have hloads := Json.loads_text hwell hfits
    have hscopes : ofString "provider" ≠ ofString "scopes" := by decide
    have haccount : ofString "provider" ≠ ofString "account" := by decide
    have haccount' : ofString "scopes" ≠ ofString "account" := by decide
    have hgrant : payloadGrant? (routerGrant provider scopes) =
        some ⟨.str (ofString provider), .list (scopes.map fun s => .str (ofString s)), .null⟩ := by
      simp [payloadGrant?, routerGrant, Json.get?, hscopes, haccount, haccount']
    have hread := readGrant_entryValue .app (routerGrant provider scopes)
    have hcaller : (callerOf [.xOpenHostConsumerId routerAppId, .xOpenHostConsumerName routerAppName,
        .xOpenHostPermissions (String.ofList text)]).permissions = some (String.ofList text) := rfl
    rw [hcaller, parseOauthV2Grants, Option.getD_some, String.toList_ofList,
      ← Option.some.inj hdumps, hloads]
    show readGrants _ = _
    rw [readGrants, hread, if_pos rfl, hgrant]
    rfl
  · cases hdumps

end

/-- In every state that the two can reach the app's check of a call agrees with the router's table: it
does not raise, and it misses exactly the scopes for which no row of the caller's that is scoped to the app
has a grant for the provider and, where one is asked for, the account.  A call of the router's own misses
none. -/
theorem check_of_systemRuns (S : Setting) (boot : Boot) (F : FloatRepr)
    (builtins : List BuiltinService) (p : String) : ∀ y, SystemRuns S boot F builtins p y →
    (∀ c s headers, appConsumerHeaders F S.lim c s p y.tables = .ok headers →
      ∀ provider scopes account, ∃ missing,
        checkOauthV2Permission S.lim (callerOf headers).permissions provider scopes account =
          .ok missing ∧
        ∀ x, x ∈ missing ↔ x ∈ scopes ∧
          ¬ ∃ r ∈ y.tables.permissions, Gives S.lim c s p provider account x r) ∧
    ∀ provider scopes headers, routerConsumerHeaders S.lim provider scopes = .ok headers →
      ∀ account,
        checkOauthV2Permission S.lim (callerOf headers).permissions provider scopes account = .ok [] := by
  intro y hy
  constructor
  · intro c s headers hheaders provider scopes account
    obtain ⟨text, hmem, hcaller⟩ := callerOf_appConsumerHeaders hheaders
    rw [hcaller]
    apply checkOauthV2Permission_of_asked hheaders hmem
    intro r hr happlies hscope
    obtain ⟨-, -, hglobal | ⟨-, hnames⟩⟩ := happlies
    · rw [hscope] at hglobal
      cases hglobal
    · obtain ⟨g, -, hstored⟩ := (systemInv_of_runs hy).rows r hr hscope hnames.1
      exact ⟨g, hstored⟩
  · intro provider scopes headers hheaders account
    have hparse := parse_routerConsumerHeaders hheaders
    have hfor : OAuthGrant.isFor ⟨.str (ofString provider), .list (scopes.map fun s => .str (ofString s)),
        .null⟩ provider account = true := by
      rw [OAuthGrant.isFor, Bool.and_eq_true, isText_str]
      exact ⟨rfl, rfl⟩
    have hhashable : (scopes.map fun s => Value.str (ofString s)).all isHashable = true := by
      rw [List.all_eq_true]
      intro v hv
      obtain ⟨s, -, rfl⟩ := List.mem_map.mp hv
      rfl
    have hgranted : grantedScopes provider account [⟨.str (ofString provider),
        .list (scopes.map fun s => .str (ofString s)), .null⟩] =
          .ok (scopes.map fun s => .str (ofString s)) := by
      rw [grantedScopes, if_pos hfor]
      show (if _ then _ else _) = _
      rw [if_pos hhashable]
      simp [grantedScopes, bind, Except.bind, pure, Except.pure]
    have hall : (scopes.filter fun x => !(scopes.map fun s => Value.str (ofString s)).any (isText x)) =
        [] := by
      rw [List.filter_eq_nil_iff]
      intro x hx
      rw [Bool.not_eq_true', Bool.not_eq_false]
      exact List.any_eq_true.mpr ⟨_, List.mem_map_of_mem hx, isText_str.mpr rfl⟩
    rw [checkOauthV2Permission, hparse]
    show (grantedScopes _ _ _ >>= _) = _
    rw [hgranted]
    exact congrArg Except.ok hall

theorem check_of_exampleRun : ∃ y headers, exampleSystemRun = some y ∧
    appConsumerHeaders asRead Json.defaultLimits "blog" oauthServiceUrl "oauth" y.tables =
      .ok headers ∧
    ∃ missing, checkOauthV2Permission Json.defaultLimits (callerOf headers).permissions "mock"
        ["read", "write"] (some "me") = .ok missing ∧
      ∀ x, x ∈ missing ↔ x ∈ ["read", "write"] ∧ ¬ ∃ r ∈ y.tables.permissions,
        Gives Json.defaultLimits "blog" oauthServiceUrl "oauth" "mock" (some "me") x r := by
  obtain ⟨y, -, hy, -, hrun⟩ := exists_exampleSystemRun
  have hheaders : exampleSystemRun.map (fun y => (appConsumerHeaders asRead Json.defaultLimits "blog"
      oauthServiceUrl "oauth" y.tables).toOption.isSome) = some true := by decide +kernel
  rw [hrun, Option.map_some, Option.some.injEq] at hheaders
  cases hok : appConsumerHeaders asRead Json.defaultLimits "blog" oauthServiceUrl "oauth" y.tables with
  | error e =>
    rw [hok] at hheaders
    cases hheaders
  | ok headers =>
    exact ⟨y, headers, hrun, hok, (check_of_systemRuns exampleSetting exampleBoot asRead [] "oauth" y
      hy).1 _ _ _ hok _ _ _⟩

/-! ## What an app is handed -/

end OpenHost.OAuth
