import OpenHost.Library.Fields
import OpenHost.OAuth.Flows

/-!
# The routes

`routes.service.oauth`, `routes.pages.oauth`, `routes.api`: what a request does from when it is
received to when it is answered, each as one program on the loop.
-/

namespace OpenHost.OAuth

open Json (Limits)
open Text (truthy? startsWith endsWith split)

variable (lim : Limits) (config : Config) (secret : Nat → String)

/-! ## Calls of other apps -/

/-- `_known_provider` and `min_len(1)`: otherwise the request is refused before its handler runs. -/
def validated (provider : String) (ok : Bool) (p : Handler Response) : Handler Response := do
  let providers ← Coop.reads State.providers
  if (providers.lookup provider).isSome && ok then p else pure .validationError

/-- `permission_denied_response` -/
def permissionDeniedResponse (caller : Caller) (provider : String)
    (scopes missingScopes : List String) (returnTo : String) : Response :=
  let params := urlencode
    [("provider", provider), ("scopes", ",".intercalate scopes),
      ("consumer", caller.consumerId.getD ""), ("return_to", returnTo)]
  .permissionDenied missingScopes provider
    ("https://" ++ config.appName ++ "." ++ config.zoneDomain ++ "/grant?" ++ params)

/-- `_authorize_response` -/
def authorizeResponse (providerName : String) (scopes : List String)
    (returnTo account consumerApp : String) : Handler Response := do
  let provider ← providerOf providerName
  match provider.flow with
  | .device =>
      if config.zoneDomain = "" then pure .zoneDomainNotConfigured
      else
        let params := urlencode
          [("provider", providerName), ("scopes", ",".intercalate scopes), ("return_to", returnTo),
            ("account", account), ("consumer", consumerApp)]
        pure (.authorizationRequired
          ("https://" ++ config.appName ++ "." ++ config.zoneDomain ++ "/device?" ++ params))
  | .authCode => do
      let creds ← catchCredentials (getProviderCreds providerName)
      match creds with
      | .error message => pure (.credentialsRequired message)
      | .ok (clientId, _) => do
          let redirectUri ← Coop.reads State.redirectUri
          let authorizeUrl ← buildAuthUrl config secret providerName scopes redirectUri returnTo
            clientId account
          if consumerApp ≠ "" then
            attachConsumer consumerApp
            pure (.authorizationRequired authorizeUrl)
          else pure (.authorizationRequired authorizeUrl)

/-- `get_token_request` -/
def getTokenRequest (caller : Caller) (data : TokenRequest) : Handler Response :=
  if data.account = "NEW" then
    authorizeResponse config secret data.provider data.scopes data.returnTo "NEW"
      (caller.consumerId.getD "")
  else do
    let missing ← orRaise
      (checkOauthV2Permission lim caller.permissions data.provider data.scopes (some data.account))
    if missing ≠ [] then
      pure (permissionDeniedResponse config caller data.provider data.scopes missing data.returnTo)
    else
      let result ← catchCredentials (getValidToken data.provider data.scopes data.account)
      match result with
      | .error message => pure (.credentialsRequired message)
      | .ok (some (accessToken, expiresAt)) => pure (.token accessToken expiresAt)
      | .ok none =>
          authorizeResponse config secret data.provider data.scopes data.returnTo data.account ""

/-- `svc_accounts` -/
def svcAccounts (caller : Caller) (data : AccountsRequest) : Handler Response := do
  let missing ← orRaise (checkOauthV2Permission lim caller.permissions data.provider data.scopes none)
  if missing ≠ [] then
    pure (permissionDeniedResponse config caller data.provider data.scopes missing "")
  else
    let tokens ← Coop.reads State.tokens
    pure (.accounts (getAccounts data.provider (normalizeScopes data.scopes) tokens))

/-- `token_row.refresh_token or token_row.access_token` -/
def tokenToRevoke (row : StoredToken) : String := (truthy? row.refreshToken).getD row.accessToken

/-- `svc_revoke` -/
def svcRevoke (caller : Caller) (data : RevokeRequest) : Handler Response := do
  let missing ← orRaise
    (checkOauthV2Permission lim caller.permissions data.provider data.scopes (some data.account))
  if missing ≠ [] then
    pure (permissionDeniedResponse config caller data.provider data.scopes missing "")
  else
    let found ← findAndRemoveToken data.provider (normalizeScopes data.scopes) data.account
    match found with
    | none => pure .tokenNotFound
    | some row => do
        -- a provider without credentials is not told
        let _ ← catchCredentials do
          let (clientId, clientSecret) ← getProviderCreds data.provider
          revokeToken data.provider (tokenToRevoke row) clientId clientSecret
        pure .ok

/-! ## Pages -/

/-- `oauth_grant` -/
def oauthGrant (provider scopes consumer returnTo : String) : Handler Response := do
  let providers ← Coop.reads State.providers
  match if provider = "" then none else providers.lookup provider with
  | none => pure (.text 400 ("Unknown provider: " ++ provider))
  | some prov =>
      if scopes = "" then pure (.text 400 "No scopes specified")
      else if consumer = "" then pure (.text 400 "No consumer app specified")
      else
        match prov.flow with
        | .device =>
            pure (.redirect ("/device?" ++ urlencode
              [("provider", provider), ("scopes", scopes), ("return_to", returnTo),
                ("account", "default"), ("consumer", consumer)]))
        | .authCode => do
            let creds ← catchCredentials (getProviderCreds provider)
            match creds with
            | .error message => pure (.text 503 message)
            | .ok (clientId, _) => do
                let redirectUri ← Coop.reads State.redirectUri
                let authorizeUrl ← buildAuthUrl config secret provider (split ',' scopes) redirectUri
                  returnTo clientId "default"
                attachConsumer consumer
                pure (.redirect authorizeUrl)

/-- Where `oauth_callback` leads back to: a path, or a host of the zone. -/
def safeReturnTo (returnTo : String) : String :=
  let returnTo := if startsWith returnTo "/" then returnTo else "/"
  if startsWith returnTo "//" then
    if config.zoneDomain = "" then "/"
    else
      let parts := split '/' returnTo
      let domain := if 3 ≤ parts.length then parts.getD 2 "" else ""
      if domain ≠ config.zoneDomain && !endsWith domain ("." ++ config.zoneDomain) then "/"
      else returnTo
  else returnTo

/-- `s.split()` -/
def splitBlank (s : String) : List String :=
  ((s.toList.splitOnP Text.isBlank).filter (· ≠ [])).map String.ofList

/-- The scopes of the flow that the provider did not grant, where it says which it did. -/
def missingScopes (scope : String) (scopes : List String) : List String :=
  if scope = "" then [] else scopes.filter (· ∉ splitBlank scope)

/-- `pending_auth_flows.pop(oauth_state, None)` -/
def takeFlow (oauthState : String) : Handler (Option Flow) := do
  let pending ← Coop.reads State.pendingAuthFlows
  match pending.lookup oauthState with
  | none => pure none
  | some flow => do
      Coop.modify fun s =>
        { s with
          pendingAuthFlows := remove oauthState s.pendingAuthFlows
          trace := s.trace ++ [.taken oauthState flow] }
      pure (some flow)

/-- The end of a flow: the tokens are stored, and the consumer is granted what they are for. -/
def finishFlow (provider : String) (scopes : List String) (account : String)
    (consumerApp : Option String) (serviceUrl : Option String) (result : TokenResult) :
    Handler Unit := do
  let identity ← fetchAccountIdentity provider result.accessToken
  let account := (truthy? identity).getD account
  storeToken provider (normalizeScopes scopes) account result
  match truthy? consumerApp with
  | none => pure ()
  | some consumerApp => do
      let serviceUrl ← member serviceUrl
      let reply ← ask (.grantAppScoped consumerApp serviceUrl { provider, scopes, account })
      match reply with
      | none => Coop.raise .transport
      | some _ => pure ()

/-- `oauth_callback` -/
def oauthCallback (code oauthState error scope : String) : Handler Response :=
  if error ≠ "" then pure (.text 400 ("Authorization denied: " ++ error))
  else if code = "" || oauthState = "" then pure (.text 400 "Missing code or state parameter")
  else do
    let flow ← takeFlow oauthState
    match flow with
    | none => pure (.text 400 "Invalid or expired authorization flow")
    | some flow =>
        let missing := missingScopes scope flow.scopes
        if missing ≠ [] then
          pure (.text 400 ("Authorization incomplete — the following permissions were not " ++
            "granted: " ++ ", ".intercalate missing ++ ". Please try again and make sure " ++
            "all permissions are checked."))
        else
          let creds ← catchCredentials (getProviderCreds flow.provider)
          match creds with
          | .error message => pure (.text 503 message)
          | .ok (clientId, clientSecret) => do
              let result ← exchangeCode flow.provider code flow.redirectUri clientId clientSecret
              match result with
              | .error description => pure (.text 502 ("Token exchange failed: " ++ description))
              | .ok tokens => do
                  finishFlow flow.provider flow.scopes flow.account flow.consumerApp flow.serviceUrl
                    tokens
                  pure (.redirect (safeReturnTo config flow.returnTo))

/-- `device_page` -/
def devicePage (provider scopes returnTo account consumer : String) : Handler Response := do
  let providers ← Coop.reads State.providers
  match if provider = "" then none else providers.lookup provider with
  | none => pure (.text 400 ("Unknown provider: " ++ provider))
  | some _ =>
      if scopes = "" then pure (.text 400 "No scopes specified")
      else
        let flowData ← startDeviceFlow provider (split ',' scopes)
        match flowData.get "error" with
        | some error =>
            pure (.text 502 ("Failed to start device flow: " ++
              (flowData.get "error_description").getD error))
        | none => do
            let flowId ← createDeviceFlow secret provider (split ',' scopes) flowData account consumer
            let active ← Coop.reads State.activeDeviceFlows
            let flow ← member (active.lookup flowId)
            pure (.devicePage flowId flow.userCode flow.verificationUrl provider (split ',' scopes)
              returnTo)

/-! ## The rest -/

/-- `active_device_flows.pop(flow_id, None)` -/
def dropDeviceFlow (flowId : String) : Handler Unit :=
  Coop.modify fun s => { s with activeDeviceFlows := remove flowId s.activeDeviceFlows }

/-- `device_poll` -/
def devicePoll (flowId : String) : Handler Response := do
  let active ← Coop.reads State.activeDeviceFlows
  match active.lookup flowId with
  | none => pure (.devicePoll "expired" "Flow not found or expired")
  | some flow =>
      match flow.status with
      | .completed result => do
          finishFlow flow.provider flow.scopes flow.account (some flow.consumerApp)
            (some oauthServiceUrl) result
          dropDeviceFlow flowId
          pure (.devicePoll "completed" "")
      | .error _ message => do
          dropDeviceFlow flowId
          pure (.devicePoll "error" message)
      | .pending => pure (.devicePoll "pending" "")

/-- `api_delete_token` -/
def apiDeleteToken (id : Nat) : Handler Response := do
  let tokens ← Coop.reads State.tokens
  match tokens.find? (·.id = id) with
  | none => pure .ok
  | some row => do
      let creds ← catchCredentials (getProviderCreds row.provider)
      match creds with
      | .error message => pure (.credentialsRequired message)
      | .ok (clientId, clientSecret) => do
          removeTokenById id
          let _ ← revokeToken row.provider (tokenToRevoke row) clientId clientSecret
          pure .ok

/-- The entry of a provider with the URLs that are given. -/
def withUrls (data : MockProviderUrlData) (p : Provider) : Provider :=
  let given := fun (url : String) (old : Option String) => if url = "" then old else some url
  { p with
    authUrl := given data.authorizeUrl p.authUrl
    deviceCodeUrl := given data.deviceUrl p.deviceCodeUrl
    tokenUrl := given data.tokenUrl p.tokenUrl
    revokeUrl := given data.revokeUrl p.revokeUrl }

/-- `set_mock_provider_url` -/
def setMockProviderUrl (data : MockProviderUrlData) : Handler Response :=
  if data.provider ∉ ["mock", "mock_device"] then Coop.raise .assertion
  else do
    Coop.modify fun s =>
      { s with
        providers := s.providers.map fun m =>
          if m.1 = data.provider then (m.1, withUrls data m.2) else m
        userinfoUrls :=
          if data.userinfoUrl = "" then s.userinfoUrls
          else setItem data.provider (data.userinfoUrl, data.userinfoField) s.userinfoUrls
        redirectUri := data.redirectUri }
    pure .ok

/-! ## The loop -/

/-- The handler of a request. -/
def handler : Request → Handler Response
  | .token caller data =>
      validated data.provider (data.scopes ≠ []) (getTokenRequest lim config secret caller data)
  | .accounts caller data =>
      validated data.provider (data.scopes ≠ []) (svcAccounts lim config caller data)
  | .revoke caller data =>
      validated data.provider (data.scopes ≠ [] && data.account ≠ "")
        (svcRevoke lim config caller data)
  | .grant provider scopes consumer returnTo =>
      oauthGrant config secret provider scopes consumer returnTo
  | .callback code oauthState error scope => oauthCallback config code oauthState error scope
  | .device provider scopes returnTo account consumer =>
      devicePage secret provider scopes returnTo account consumer
  | .devicePoll flowId => devicePoll flowId
  | .listTokens => do
      let tokens ← Coop.reads State.tokens
      pure (.tokens (listAllTokens tokens))
  | .deleteToken id => apiDeleteToken id
  | .setMockProviderUrl data => setMockProviderUrl data

/-- A request is answered; an exception is a 500. -/
def serve (r : Request) : Handler Unit := do
  log (.received r)
  let response ← Coop.tryExcept (handler lim config secret r) fun _ => pure .internalError
  log (.answered r response)

/-- What the loop runs. -/
def body : Job → Handler Unit
  | .request r => serve lim config secret r
  | .pollDeviceFlow flowId => pollDeviceFlow flowId
  | .pollAgain flowId flow interval => pollTurn flowId flow interval

end OpenHost.OAuth
