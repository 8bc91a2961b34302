import OpenHost.Library.Coop
import OpenHost.OAuth.Permissions

/-!
# The OAuth app

What the app keeps: its tokens, the consent flows that have begun and the device flows that are being
polled, and what it asks of the world outside.  Its requests run on one event loop.
-/

namespace OpenHost.OAuth

/-! ## Providers -/

/-- `flow` of an entry of `PROVIDERS`. -/
inductive FlowType where
  | authCode
  | device
  deriving DecidableEq, Repr

/-- An entry of `PROVIDERS`; a key that the entry does not have is `none`. -/
structure Provider where
  flow : FlowType
  clientId : Option String := none
  clientSecret : Option String := none
  authUrl : Option String := none
  deviceCodeUrl : Option String := none
  tokenUrl : Option String := none
  revokeUrl : Option String := none
  extraAuthParams : List (String × String) := []
  revokeMethod : Option String := none
  revokeAuth : Option String := none
  revokeBody : Option String := none
  deriving DecidableEq, Repr

/-- `core.config` -/
structure Config where
  appName : String
  zoneDomain : String
  myRedirectDomain : String

/-- `OAUTH_SERVICE_URL` -/
def oauthServiceUrl : String := "github.com/imbue-openhost/openhost/services/oauth"

/-! ## What is kept -/

/-- A row of `oauth_tokens`.  Moments are in microseconds; `expires_at` is the moment that its text
denotes. -/
structure StoredToken where
  id : Nat
  provider : String
  scopes : String
  account : String
  accessToken : String
  refreshToken : Option String
  expiresAt : Option Nat
  createdAt : Nat
  updatedAt : Nat
  deriving DecidableEq, Repr

/-- The members of a result of `exchange_code` or of a device flow. -/
structure TokenResult where
  accessToken : String
  refreshToken : Option String
  expiresAt : Option Nat
  tokenType : String
  deriving DecidableEq, Repr

/-- An entry of `pending_auth_flows`. -/
structure Flow where
  provider : String
  scopes : List String
  redirectUri : String
  returnTo : String
  account : String
  consumerApp : Option String := none
  serviceUrl : Option String := none
  deriving DecidableEq, Repr

/-- `status` and `result` of a device flow. -/
inductive DeviceStatus where
  | pending
  | completed (result : TokenResult)
  | error (error message : String)
  deriving DecidableEq, Repr

/-- An entry of `active_device_flows`. -/
structure DeviceFlow where
  provider : String
  scopes : List String
  account : String
  consumerApp : String
  deviceCode : String
  userCode : String
  verificationUrl : String
  interval : Nat
  startedAt : Nat
  status : DeviceStatus := .pending
  deriving DecidableEq, Repr

/-! ## The world outside -/

/-- What the app asks for and waits for. -/
inductive Call where
  | fetchSecrets (keys : List String)
  | exchangeCode (provider url clientId clientSecret code redirectUri : String)
  | deviceCode (provider url clientId : String) (scopes : List String)
  | sleep (seconds : Nat)
  | pollToken (provider url clientId deviceCode : String)
  | userinfo (provider url accessToken : String)
  | refresh (provider url clientId clientSecret refreshToken : String)
  | revoke (provider url method : String) (auth : Option (String × String)) (json : Bool)
      (token : String)
  | grantAppScoped (consumerApp serviceUrl : String) (grant : GrantRequest)
  deriving DecidableEq, Repr

/-- The members of a JSON object that the app reads, by what they are. -/
structure Members where
  texts : List (String × String) := []
  numbers : List (String × Nat) := []
  secrets : List (String × String) := []
  deriving DecidableEq, Repr

/-- `d.get(key)` -/
def Members.get (m : Members) (key : String) : Option String := m.texts.lookup key

def Members.number (m : Members) (key : String) : Option Nat := m.numbers.lookup key

/-- A response; `none` in place of its members is where `Response.json` raises. -/
structure Answer where
  status : Nat := 200
  json : Option Members := some {}
  text : String := ""
  deriving DecidableEq, Repr

/-- What the app waits for; `none` is an exception of the call itself. -/
abbrev Reply := Option Answer

/-! ## Requests -/

/-- The headers of the router on a call. -/
structure Caller where
  permissions : Option String
  consumerId : Option String
  deriving DecidableEq, Repr

/-- `TokenRequest` -/
structure TokenRequest where
  provider : String
  scopes : List String
  account : String := "default"
  returnTo : String := ""
  deriving DecidableEq, Repr

/-- `AccountsRequest` -/
structure AccountsRequest where
  provider : String
  scopes : List String
  deriving DecidableEq, Repr

/-- `RevokeRequest` -/
structure RevokeRequest where
  provider : String
  scopes : List String
  account : String
  deriving DecidableEq, Repr

/-- `MockProviderUrlData` -/
structure MockProviderUrlData where
  provider : String
  redirectUri : String
  authorizeUrl : String := ""
  deviceUrl : String := ""
  tokenUrl : String := ""
  revokeUrl : String := ""
  userinfoUrl : String := ""
  userinfoField : String := ""
  deriving DecidableEq, Repr

/-- The requests, each with what its handler is given. -/
inductive Request where
  | token (caller : Caller) (data : TokenRequest)
  | accounts (caller : Caller) (data : AccountsRequest)
  | revoke (caller : Caller) (data : RevokeRequest)
  | grant (provider scopes consumer returnTo : String)
  | callback (code oauthState error scope : String)
  | device (provider scopes returnTo account consumer : String)
  | devicePoll (flowId : String)
  | listTokens
  | deleteToken (id : Nat)
  | setMockProviderUrl (data : MockProviderUrlData)
  deriving DecidableEq, Repr

/-- `TokenInfo` -/
structure TokenInfo where
  id : Nat
  provider : String
  scopes : String
  account : String
  expiresAt : Option Nat
  createdAt : Nat
  updatedAt : Nat
  deriving DecidableEq, Repr

/-- What a handler returns. -/
inductive Response where
  | token (accessToken : String) (expiresAt : Option Nat)
  | accounts (accounts : List String)
  | ok
  | tokens (tokens : List TokenInfo)
  | authorizationRequired (authorizeUrl : String)
  | permissionDenied (grant : List String) (provider grantUrl : String)
  | credentialsRequired (message : String)
  | tokenNotFound
  | zoneDomainNotConfigured
  | devicePoll (status error : String)
  | redirect (path : String)
  | devicePage (flowId userCode verificationUrl provider : String) (scopes : List String)
      (returnTo : String)
  | text (status : Nat) (content : String)
  | validationError
  /-- An exception that the framework turns into a 500. -/
  | internalError
  deriving DecidableEq, Repr

/-- What has happened. -/
inductive Event where
  | received (request : Request)
  | called (call : Call)
  /-- An entry of `pending_auth_flows` was made or changed. -/
  | began (oauthState : String) (flow : Flow)
  | beganDevice (flowId : String) (flow : DeviceFlow)
  /-- A callback takes the flow. -/
  | taken (oauthState : String) (flow : Flow)
  /-- A provider gave tokens. -/
  | issued (provider : String) (result : TokenResult)
  | refreshed (provider refreshToken accessToken : String)
  | identified (provider accessToken account : String)
  | stored (row : StoredToken)
  | removed (id : Nat)
  | answered (request : Request) (response : Response)
  deriving DecidableEq, Repr

/-- The state of the app.  `drawn` is how many random tokens it has drawn, `now` the clock; nothing
reads the trace. -/
structure State where
  providers : List (String × Provider)
  /-- `USERINFO_URLS` -/
  userinfoUrls : List (String × String × String)
  /-- `OAUTH_REDIRECT_URI` -/
  redirectUri : String
  tokens : List StoredToken := []
  nextId : Nat := 1
  pendingAuthFlows : List (String × Flow) := []
  activeDeviceFlows : List (String × DeviceFlow) := []
  drawn : Nat := 0
  now : Nat := 0
  trace : List Event := []
  deriving DecidableEq, Repr

/-- What runs on the loop. -/
inductive Job where
  | request (r : Request)
  | pollDeviceFlow (flowId : String)
  /-- One more turn of the loop of `_poll_device_flow`. -/
  | pollAgain (flowId : String) (flow : DeviceFlow) (interval : Nat)
  deriving DecidableEq, Repr

abbrev Handler := Coop Job Raised State Reply

/-! ## Dictionaries -/

section

variable {β : Type}

/-- `d[key] = v` -/
def setItem (key : String) (v : β) (d : List (String × β)) : List (String × β) :=
  if d.any (·.1 = key) then d.map fun m => if m.1 = key then (key, v) else m else d ++ [(key, v)]

/-- `d.pop(key, None)`, without what it returns. -/
def remove (key : String) (d : List (String × β)) : List (String × β) := d.filter (·.1 ≠ key)

theorem mem_setItem {key : String} {v : β} {d : List (String × β)} {m : String × β}
    (h : m ∈ setItem key v d) : m = (key, v) ∨ m ∈ d ∧ m.1 ≠ key := by
  unfold setItem at h
  split at h
  · obtain ⟨m', hm', heq⟩ := List.mem_map.mp h
    split at heq
    · exact Or.inl heq.symm
    · rename_i hne
      obtain rfl := heq
      exact Or.inr ⟨hm', hne⟩
  · rename_i hnot
    rcases List.mem_append.mp h with hm | hm
    · refine Or.inr ⟨hm, ?_⟩
      intro hkey
      exact hnot (List.any_eq_true.mpr ⟨m, hm, decide_eq_true hkey⟩)
    · exact Or.inl (List.mem_singleton.mp hm)

theorem mem_remove {key : String} {d : List (String × β)} {m : String × β} :
    m ∈ remove key d ↔ m ∈ d ∧ m.1 ≠ key := by
  simp [remove]

theorem mem_of_lookup {key : String} {v : β} {d : List (String × β)} (h : d.lookup key = some v) :
    (key, v) ∈ d := by
  induction d with
  | nil => cases h
  | cons m d ih =>
    obtain ⟨key', v'⟩ := m
    rw [List.lookup_cons] at h
    split at h
    · rename_i heq
      obtain rfl := Option.some.inj h
      obtain rfl := eq_of_beq heq
      exact List.mem_cons_self
    · exact List.mem_cons_of_mem _ (ih h)

end

/-! ## Steps -/

/-- What has happened is written down. -/
def log (e : Event) : Handler Unit := Coop.modify fun s => { s with trace := s.trace ++ [e] }

/-- Ask, and wait for the answer. -/
def ask (c : Call) : Handler Reply := do
  log (.called c)
  Coop.answer

/-- The next random token. -/
def tokenUrlsafe (secret : Nat → String) : Handler String := do
  let drawn ← Coop.reads State.drawn
  Coop.modify fun s => { s with drawn := s.drawn + 1 }
  pure (secret drawn)

/-- A value, or the exception in its place. -/
def orRaise {α : Type} : Except Raised α → Handler α
  | .ok a => pure a
  | .error e => Coop.raise e

/-- `PROVIDERS[provider_name]` -/
def providerOf (providerName : String) : Handler Provider := do
  let providers ← Coop.reads State.providers
  orRaise ((providers.lookup providerName).elim (.error .keyError) .ok)

/-- `provider[key]` -/
def member {α : Type} (v : Option α) : Handler α := orRaise (v.elim (.error .keyError) .ok)

/-- `except CredentialsNotAvailable as e`, with the message of the exception. -/
def catchCredentials {α : Type} (p : Handler α) : Handler (Except String α) :=
  Coop.tryExcept (p >>= fun a => pure (.ok a)) fun
    | .credentialsNotAvailable _ message => pure (.error message)
    | e => Coop.raise e

end OpenHost.OAuth
