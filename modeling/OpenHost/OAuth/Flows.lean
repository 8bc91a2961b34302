import Mathlib.Data.List.Sort
import Mathlib.Data.String.Basic
import OpenHost.Library.Fields
import OpenHost.Library.Url
import OpenHost.OAuth.State

/-!
# Flows and tokens

`core.credentials`, `core.providers` and `core.tokens`: how a flow begins and ends, what is asked of a
provider, and the rows of `oauth_tokens`.
-/

namespace OpenHost.OAuth

open Text (truthy?)

/-- A second, in the unit of the clock. -/
def second : Nat := 1000000

/-- `normalize_scopes` -/
def normalizeScopes (scopes : List String) : String :=
  ",".intercalate (scopes.insertionSort (· ≤ ·))

/-- Joining scopes by commas is undone by splitting, where no scope holds one. -/
theorem split_intercalate {l : List String} (hne : l ≠ []) (h : ∀ s ∈ l, ',' ∉ s.toList) :
    Text.split ',' (",".intercalate l) = l := by
  have hcomma : ",".toList = [','] := by decide
  rw [Text.split, String.toList_intercalate, hcomma, List.splitOn_intercalate, List.map_map]
  · simp
  · intro cs hcs
    obtain ⟨s, hs, rfl⟩ := List.mem_map.mp hcs
    exact h s hs
  · simpa using hne

/-- Scopes without commas have one key exactly when they are the same up to their order. -/
theorem normalizeScopes_eq_iff {l l' : List String} (hne : l ≠ []) (hne' : l' ≠ [])
    (h : ∀ s ∈ l, ',' ∉ s.toList) (h' : ∀ s ∈ l', ',' ∉ s.toList) :
    normalizeScopes l = normalizeScopes l' ↔ l.Perm l' := by
  have hsplit : ∀ {l : List String}, l ≠ [] → (∀ s ∈ l, ',' ∉ s.toList) →
      Text.split ',' (normalizeScopes l) = l.insertionSort (· ≤ ·) := by
    intro l hne h
    apply split_intercalate
    · intro hnil
      have hperm := List.perm_insertionSort (· ≤ ·) l
      rw [hnil] at hperm
      exact hne hperm.symm.eq_nil
    · exact fun s hs => h s ((List.mem_insertionSort _).mp hs)
  constructor
  · intro heq
    have hsorted := congrArg (Text.split ',') heq
    rw [hsplit hne h, hsplit hne' h'] at hsorted
    have hperm := List.perm_insertionSort (· ≤ ·) l'
    rw [← hsorted] at hperm
    exact (List.perm_insertionSort (· ≤ ·) l).symm.trans hperm
  · intro hperm
    rw [normalizeScopes, normalizeScopes]
    congr 1
    have hanti : ∀ a b, a ∈ l.insertionSort (· ≤ ·) → b ∈ l'.insertionSort (· ≤ ·) → a ≤ b → b ≤ a →
        a = b := fun a b _ _ hab hba => le_antisymm hab hba
    apply List.Perm.eq_of_pairwise hanti
    · exact List.pairwise_insertionSort _ _
    · exact List.pairwise_insertionSort _ _
    · exact (List.perm_insertionSort _ _).trans
        (hperm.trans (List.perm_insertionSort _ _).symm)

/-! ## Credentials -/

/-- `DYNAMIC_CRED_PROVIDERS` -/
def dynamicCredProviders : List String := ["google"]

/-- `get_provider_cred_key_names` -/
def getProviderCredKeyNames (providerName : String) : String × String :=
  let p := providerName.toUpper
  (p ++ "_OAUTH_CLIENT_ID", p ++ "_OAUTH_CLIENT_SECRET")

/-- `_fetch_secrets` -/
def fetchSecrets (keys : List String) : Handler (List (String × String)) := do
  let reply ← ask (.fetchSecrets keys)
  match reply with
  | none => Coop.raise .transport
  | some resp =>
      -- `raise_for_status`
      if 200 ≤ resp.status ∧ resp.status < 300 then
        match resp.json with
        | none => Coop.raise .transport
        | some data => pure data.secrets
      else Coop.raise .transport

/-- `get_provider_creds` -/
def getProviderCreds (providerName : String) : Handler (String × String) :=
  if providerName ∈ dynamicCredProviders then do
    let (idKey, secretKey) := getProviderCredKeyNames providerName
    let secrets ← fetchSecrets [idKey, secretKey]
    match truthy? (secrets.lookup idKey), truthy? (secrets.lookup secretKey) with
    | some clientId, some clientSecret => pure (clientId, clientSecret)
    | _, _ => Coop.raise (.credentialsNotAvailable providerName
        (idKey ++ " and " ++ secretKey ++ " must be set in the secrets app"))
  else do
    let p ← providerOf providerName
    match truthy? p.clientId, truthy? p.clientSecret with
    | some clientId, some clientSecret => pure (clientId, clientSecret)
    | _, _ => Coop.raise (.credentialsNotAvailable providerName
        ("Missing client_id or client_secret for " ++ providerName))

/-! ## The flow with a code -/

variable (config : Config) (secret : Nat → String)

/-- The state parameter: `json.dumps({"app": APP_NAME, "nonce": …})` -/
def stateText (nonce : String) : String :=
  String.ofList (Json.dictText true
    [(Json.ofString "app", .str (Json.ofString config.appName)),
      (Json.ofString "nonce", .str (Json.ofString nonce))])

/-- The router reads the app and the nonce back out of the state parameter. -/
theorem loads_stateText (lim : Json.Limits) (config : Config) (nonce : String) :
    Json.loads lim (stateText config nonce).toList =
      .ok (.dict
        [(Json.ofString "app", .str (Json.ofString config.appName)),
          (Json.ofString "nonce", .str (Json.ofString nonce))]) := by
  have hjoined : ∀ s : String, Json.join (Json.ofString s) = Json.ofString s := Json.joined_ofString
  have hkeys : Json.ofString "app" ≠ Json.ofString "nonce" := by decide
  have hdumps : Json.dumps lim true
      [(Json.ofString "app", .str (Json.ofString config.appName)),
        (Json.ofString "nonce", .str (Json.ofString nonce))] =
      .ok (stateText config nonce).toList := by
    rw [stateText, String.toList_ofList]
    rfl
  rw [Json.loads_dumps hdumps, Json.readMembers_eq (by simp [hjoined, hkeys])]
  simp [hjoined, Json.Scalar.value]

theorem stateText_injective (config : Config) : Function.Injective (stateText config) := by
  intro nonce nonce' h
  have hloads := loads_stateText Json.defaultLimits config nonce
  rw [h, loads_stateText] at hloads
  have hmembers := Json.Value.dict.inj (Except.ok.inj hloads)
  simp only [List.cons.injEq, Prod.mk.injEq, Json.Value.str.injEq, true_and, and_true] at hmembers
  exact (Toml.ofString_injective hmembers).symm

/-- The scopes that are asked for: Google is asked who the account is, too. -/
def requestScopes (providerName : String) (scopes : List String) : List String :=
  if providerName = "google" then scopes ++ ["email", "openid"].filter (· ∉ scopes) else scopes

/-- The query of the URL to the provider. -/
def authParams (provider : Provider) (providerName : String) (scopes : List String)
    (redirectUri clientId oauthState : String) : List (String × String) :=
  [("client_id", clientId), ("redirect_uri", redirectUri), ("response_type", "code"),
    ("scope", " ".intercalate (requestScopes providerName scopes)), ("state", oauthState)] ++
  provider.extraAuthParams

/-- `urlencode` -/
def urlencode (params : List (String × String)) : String :=
  Utf8.decode (Url.urlencode (params.map fun p => (Utf8.encode p.1, Utf8.encode p.2)))

/-- `pending_auth_flows[state] = flow` -/
def putFlow (oauthState : String) (flow : Flow) : Handler Unit :=
  Coop.modify fun s =>
    { s with
      pendingAuthFlows := setItem oauthState flow s.pendingAuthFlows
      trace := s.trace ++ [.began oauthState flow] }

/-- `build_auth_url` -/
def buildAuthUrl (providerName : String) (scopes : List String)
    (redirectUri returnTo clientId account : String) : Handler String := do
  let provider ← providerOf providerName
  let nonce ← tokenUrlsafe secret
  let oauthState := stateText config nonce
  putFlow oauthState { provider := providerName, scopes, redirectUri, returnTo, account }
  let authUrl ← member provider.authUrl
  pure (authUrl ++ "?" ++
    urlencode (authParams provider providerName scopes redirectUri clientId oauthState))

/-- What `_authorize_response` and `oauth_grant` do with the last key of `pending_auth_flows`: the flow
is for a consumer. -/
def attachConsumer (consumer : String) : Handler Unit := do
  let pending ← Coop.reads State.pendingAuthFlows
  match pending.getLast? with
  | none => Coop.raise .keyError
  | some (oauthState, flow) =>
      putFlow oauthState
        { flow with consumerApp := some consumer, serviceUrl := some oauthServiceUrl }

/-- The moment at which a token expires, if the provider said so; zero seconds are none. -/
def expiresAt (now : Nat) (m : Members) : Option Nat :=
  ((m.number "expires_in").filter (· ≠ 0)).map fun n => now + n * second

/-- The tokens in an answer. -/
def tokenResult (now : Nat) (m : Members) : Except Raised TokenResult :=
  match m.get "access_token" with
  | none => .error .keyError
  | some accessToken =>
      .ok { accessToken
            refreshToken := m.get "refresh_token"
            expiresAt := expiresAt now m
            tokenType := (m.get "token_type").getD "Bearer" }

/-- What `exchange_code` makes of a response: an error with its description, or tokens. -/
def readExchange (now : Nat) (resp : Answer) : Except Raised (Except String TokenResult) :=
  if resp.status ≠ 200 then
    .ok (.error (((resp.json.getD {}).get "error_description").getD resp.text))
  else
    match resp.json with
    | none => .error .transport
    | some result =>
        match truthy? (result.get "error") with
        | some _ => .ok (.error ((result.get "error_description").getD ""))
        | none => (tokenResult now result).map .ok

/-- `exchange_code` -/
def exchangeCode (providerName code redirectUri clientId clientSecret : String) :
    Handler (Except String TokenResult) := do
  let provider ← providerOf providerName
  let url ← member provider.tokenUrl
  let reply ← ask (.exchangeCode providerName url clientId clientSecret code redirectUri)
  let now ← Coop.reads State.now
  let result ← orRaise ((reply.elim (.error .transport) .ok) >>= readExchange now)
  match result with
  | .error e => pure (.error e)
  | .ok tokens => do
      log (.issued providerName tokens)
      pure (.ok tokens)

/-! ## The flow on a device -/

/-- `start_device_flow`; a response other than 200 is turned into members with an error. -/
def startDeviceFlow (providerName : String) (scopes : List String) : Handler Members := do
  let provider ← providerOf providerName
  let url ← member provider.deviceCodeUrl
  let clientId ← member provider.clientId
  let reply ← ask (.deviceCode providerName url clientId scopes)
  match reply with
  | none => Coop.raise .transport
  | some resp =>
      if resp.status ≠ 200 then
        let data := resp.json.getD {}
        pure { texts := [("error", (data.get "error").getD "request_failed"),
                 ("error_description", (data.get "error_description").getD resp.text)] }
      else member resp.json

/-- `create_device_flow` -/
def createDeviceFlow (providerName : String) (scopes : List String) (flowData : Members)
    (account consumerApp : String) : Handler String := do
  let flowId ← tokenUrlsafe secret
  let deviceCode ← member (flowData.get "device_code")
  let userCode ← member (flowData.get "user_code")
  let now ← Coop.reads State.now
  let flow : DeviceFlow :=
    { provider := providerName, scopes, account, consumerApp, deviceCode, userCode
      verificationUrl :=
        (flowData.get "verification_uri").getD ((flowData.get "verification_url").getD "")
      interval := (flowData.number "interval").getD 5
      startedAt := now }
  Coop.modify fun s =>
    { s with
      activeDeviceFlows := setItem flowId flow s.activeDeviceFlows
      trace := s.trace ++ [.beganDevice flowId flow] }
  Coop.start (.pollDeviceFlow flowId)
  pure flowId

/-- `DEVICE_FLOW_TIMEOUT` -/
def deviceFlowTimeout : Nat := 300

/-- A field of a flow that the dictionary still holds. -/
def updateDeviceFlow (flowId : String) (f : DeviceFlow → DeviceFlow) : Handler Unit :=
  Coop.modify fun s =>
    { s with activeDeviceFlows := s.activeDeviceFlows.map fun m =>
        if m.1 = flowId then (m.1, f m.2) else m }

/-- What a turn of `_poll_device_flow` makes of an answer. -/
inductive Poll where
  | retry
  | slowDown
  | refused (error message : String)
  | granted (result : TokenResult)

def readPoll (now : Nat) (result : Members) : Except Raised Poll :=
  match truthy? (result.get "error") with
  | some error =>
      if error = "authorization_pending" then .ok .retry
      else if error = "slow_down" then .ok .slowDown
      else .ok (.refused error ((result.get "error_description").getD error))
  | none => (tokenResult now result).map .granted

/-- A turn of the loop of `_poll_device_flow`; the next one is handed to the event loop. -/
def pollTurn (flowId : String) (flow : DeviceFlow) (interval : Nat) : Handler Unit := do
  let now ← Coop.reads State.now
  if now < flow.startedAt + deviceFlowTimeout * second then
    let _ ← ask (.sleep interval)
    let active ← Coop.reads State.activeDeviceFlows
    if active.all (·.1 ≠ flowId) then pure ()
    else
      let provider ← providerOf flow.provider
      -- a missing key is caught like any other exception in the `try`
      match provider.tokenUrl, provider.clientId with
      | some url, some clientId =>
          let reply ← ask (.pollToken flow.provider url clientId flow.deviceCode)
          match reply.bind Answer.json with
          | none => Coop.start (.pollAgain flowId flow interval)
          | some result =>
              let now ← Coop.reads State.now
              let poll ← orRaise (readPoll now result)
              match poll with
              | .retry => Coop.start (.pollAgain flowId flow interval)
              | .slowDown =>
                  updateDeviceFlow flowId fun f => { f with interval := interval + 5 }
                  Coop.start (.pollAgain flowId flow (interval + 5))
              | .refused error message =>
                  updateDeviceFlow flowId fun f => { f with status := .error error message }
              | .granted result =>
                  log (.issued flow.provider result)
                  updateDeviceFlow flowId fun f => { f with status := .completed result }
      | _, _ => Coop.start (.pollAgain flowId flow interval)
  else
    updateDeviceFlow flowId fun f =>
      { f with status := .error "timeout" "Device flow timed out waiting for authorization" }

/-- `_poll_device_flow` -/
def pollDeviceFlow (flowId : String) : Handler Unit := do
  let active ← Coop.reads State.activeDeviceFlows
  match active.lookup flowId with
  | none => pure ()
  | some flow => do
      let _ ← providerOf flow.provider
      pollTurn flowId flow flow.interval

/-! ## Identity, refreshing, revoking -/

/-- `fetch_account_identity` -/
def fetchAccountIdentity (providerName accessToken : String) : Handler (Option String) := do
  let urls ← Coop.reads State.userinfoUrls
  match urls.lookup providerName with
  | none => pure none
  | some (url, field) => do
      let reply ← ask (.userinfo providerName url accessToken)
      match reply with
      | none => pure none
      | some resp =>
          if resp.status = 200 then
            match resp.json.bind (·.get field) with
            | none => pure none
            | some identity => do
                log (.identified providerName accessToken identity)
                pure (some identity)
          else pure none

/-- `refresh_access_token` -/
def refreshAccessToken (providerName refreshToken clientId clientSecret : String) :
    Handler (Option Members) := do
  let provider ← providerOf providerName
  match truthy? provider.tokenUrl with
  | none => pure none
  | some url => do
      let reply ← ask (.refresh providerName url clientId clientSecret refreshToken)
      match reply with
      | none => pure none
      | some resp => if resp.status ≠ 200 then pure none else pure resp.json

/-- `revoke_url.format(client_id=client_id)` -/
def formatClientId (url clientId : String) : String := url.replace "\x7bclient_id\x7d" clientId

/-- `revoke_token` -/
def revokeToken (providerName token clientId clientSecret : String) : Handler Bool := do
  let provider ← providerOf providerName
  match truthy? provider.revokeUrl with
  | none => pure true
  | some url => do
      let auth := if provider.revokeAuth = some "basic" then some (clientId, clientSecret) else none
      let reply ← ask (.revoke providerName (formatClientId url clientId)
        (provider.revokeMethod.getD "POST") auth (provider.revokeBody = some "json") token)
      match reply with
      | none => pure false
      | some resp => pure (resp.status = 200 || resp.status = 204)

/-! ## Tokens -/

/-- `store_token` -/
def storeToken (provider scopesKey account : String) (result : TokenResult) : Handler Unit :=
  Coop.modify fun s =>
    let row : StoredToken :=
      { id := s.nextId, provider, scopes := scopesKey, account, accessToken := result.accessToken
        refreshToken := result.refreshToken, expiresAt := result.expiresAt
        createdAt := s.now, updatedAt := s.now }
    { s with tokens := s.tokens ++ [row], nextId := s.nextId + 1, trace := s.trace ++ [.stored row] }

/-- `select_tokens`; the empty account is none. -/
def selectTokens (provider scopesKey : String) (account : Option String) (tokens : List StoredToken) :
    List StoredToken :=
  match truthy? account with
  | some account =>
      tokens.filter fun r => r.provider = provider && r.scopes = scopesKey && r.account = account
  | none => tokens.filter fun r => r.provider = provider && r.scopes = scopesKey

/-- `update_token_after_refresh` -/
def updateTokenAfterRefresh (id : Nat) (accessToken : String) (expiresAt : Option Nat) :
    Handler Unit :=
  Coop.modify fun s =>
    { s with tokens := s.tokens.map fun r =>
        if r.id = id then { r with accessToken, expiresAt, updatedAt := s.now } else r }

/-- `remove_token_by_id` -/
def removeTokenById (id : Nat) : Handler Unit :=
  Coop.modify fun s =>
    { s with tokens := s.tokens.filter (·.id ≠ id), trace := s.trace ++ [.removed id] }

/-- `find_and_remove_token` -/
def findAndRemoveToken (provider scopesKey account : String) : Handler (Option StoredToken) := do
  let tokens ← Coop.reads State.tokens
  match tokens.find? fun r => r.provider = provider && r.scopes = scopesKey && r.account = account with
  | none => pure none
  | some row => do
      removeTokenById row.id
      pure (some row)

/-- `ORDER BY provider, account` -/
def tokenLe (r r' : StoredToken) : Prop :=
  r.provider < r'.provider ∨ r.provider = r'.provider ∧ r.account ≤ r'.account

instance : DecidableRel tokenLe := fun r r' =>
  inferInstanceAs (Decidable (r.provider < r'.provider ∨ r.provider = r'.provider ∧ r.account ≤ r'.account))

/-- `list_all_tokens` -/
def listAllTokens (tokens : List StoredToken) : List TokenInfo :=
  (tokens.insertionSort tokenLe).map fun r =>
    ⟨r.id, r.provider, r.scopes, r.account, r.expiresAt, r.createdAt, r.updatedAt⟩

/-- `get_accounts` -/
def getAccounts (provider scopesKey : String) (tokens : List StoredToken) : List String :=
  ((tokens.filter fun r => r.provider = provider && r.scopes = scopesKey).map
    StoredToken.account).insertionSort (· ≤ ·)

/-- `get_valid_token` -/
def getValidToken (providerName : String) (scopes : List String) (account : String) :
    Handler (Option (String × Option Nat)) := do
  let tokens ← Coop.reads State.tokens
  let now ← Coop.reads State.now
  match selectTokens providerName (normalizeScopes scopes)
      (if account ≠ "default" then some account else none) tokens with
  | [] => pure none
  | token :: _ =>
      match token.expiresAt with
      | none => pure (some (token.accessToken, none))
      | some exp =>
          if now + 60 * second < exp then pure (some (token.accessToken, some exp))
          else
            match truthy? token.refreshToken with
            | none => pure none
            | some refreshToken => do
                let (clientId, clientSecret) ← getProviderCreds providerName
                let refreshed ← refreshAccessToken providerName refreshToken clientId clientSecret
                match refreshed with
                | none => pure none
                | some m =>
                    match m.get "access_token" with
                    | none => pure none
                    | some accessToken => do
                        let now ← Coop.reads State.now
                        log (.refreshed providerName refreshToken accessToken)
                        updateTokenAfterRefresh token.id accessToken (expiresAt now m)
                        pure (some (accessToken, expiresAt now m))

end OpenHost.OAuth
