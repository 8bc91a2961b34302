import Mathlib.Data.List.Nodup
import OpenHost.Library.Leases
import OpenHost.Library.Runs
import OpenHost.Web.Auth

/-!
# The life of a credential

Sessions begin with a login and end with a logout or after four weeks; API tokens are created and
deleted by the owner; an app has the token that it was last started with.  Only the hashes are kept.
The tables say what the history says: a credential is accepted exactly while it has been issued, has
not been taken back, and has not expired.
-/

namespace OpenHost.Web

open Domains (DomainRecord)
open Text (lower stripBlank truthy?)

/-! ## The tables -/

/-- A row of `sessions`. -/
structure StoredSession where
  tokenHash : String
  userId : Nat
  expiresAt : Nat
  deriving DecidableEq, Repr

/-- A row of `api_tokens`; the empty text for no date is `none`. -/
structure StoredApiToken where
  id : Nat
  name : String
  tokenHash : String
  expiresAt : Option Nat
  deriving DecidableEq, Repr

/-- What has happened to a credential. -/
inductive CredentialEvent where
  | sessionCreated (token : String) (userId createdAt : Nat)
  | sessionRevoked (token : String)
  | apiTokenCreated (token : String) (id : Nat) (name : String) (expiresAt : Option Nat)
  | apiTokenDeleted (id : Nat)
  | appTokenSet (token appId : String)
  | appRemoved (appId : String)
  deriving DecidableEq, Repr

/-- The tables, the clock in microseconds, and how many random tokens have been drawn. -/
structure CredentialStore where
  domains : List DomainRecord := []
  users : List AuthenticatedUser := []
  apps : List App := []
  sessions : List StoredSession := []
  apiTokens : List StoredApiToken := []
  nextApiTokenId : Nat := 1
  appTokens : List AppTokenRow := []
  now : Nat := 0
  drawn : Nat := 0
  trace : List CredentialEvent := []

/-- How `expiry_hours` is read: `float` and `timedelta` of the standard library. -/
inductive ExpiryHours where
  /-- `float` raises a `ValueError`. -/
  | notANumber
  | notPositive
  /-- `timedelta` or the sum raises. -/
  | outOfRange
  | lasts (microseconds : Nat)
  deriving DecidableEq, Repr

/-- What the tokens rest on: `secrets.token_urlsafe` does not repeat itself, and no two texts have one
hash. -/
structure TokenSource where
  secret : Nat → String
  hash : String → String
  fresh : Function.Injective secret
  hash_injective : Function.Injective hash
  readHours : String → ExpiryHours

/-- The database as a request finds it. -/
def CredentialStore.db (K : TokenSource) (s : CredentialStore) : Db where
  domains := s.domains
  apps := s.apps
  sessions := s.sessions.filterMap fun r =>
    (s.users.find? (·.userId = r.userId)).map fun u => ⟨r.tokenHash, u, r.expiresAt⟩
  apiTokens := s.apiTokens.map fun r => ⟨r.tokenHash, r.expiresAt⟩
  appTokens := s.appTokens
  now := s.now
  hash := K.hash

/-! ## The operations -/

/-- A second, in the unit of the clock. -/
def clockSecond : Nat := 1000000

/-- `SESSION_TTL_SECONDS` -/
def sessionTtlSeconds : Nat := 28 * 24 * 60 * 60

/-- `DEFAULT_TOKEN_EXPIRY_HOURS` -/
def defaultTokenExpiryHours : Nat := 8

section

variable (K : TokenSource)

/-- `now + timedelta(seconds=SESSION_TTL_SECONDS)` -/
def sessionEnd (createdAt : Nat) : Nat := createdAt + sessionTtlSeconds * clockSecond

/-- `create_session`, which sweeps the rows whose second has passed. -/
def createSession (userId : Nat) (s : CredentialStore) : CredentialStore :=
  let token := K.secret s.drawn
  { s with
    sessions := s.sessions.filter (fun r => ¬ r.expiresAt / clockSecond < s.now / clockSecond) ++
      [⟨K.hash token, userId, sessionEnd s.now⟩]
    drawn := s.drawn + 1
    trace := s.trace ++ [.sessionCreated token userId s.now] }

/-- `revoke_session` -/
def revokeSession (token : String) (s : CredentialStore) : CredentialStore :=
  { s with
    sessions := s.sessions.filter (·.tokenHash ≠ K.hash token)
    trace := s.trace ++ [.sessionRevoked token] }

/-- When a token that is created now expires: `none` outside is a refusal. -/
def tokenExpiry (now : Nat) (expiryHours : Option String) : Option (Option Nat) :=
  let raw := stripBlank ((truthy? expiryHours).getD "")
  if raw = "" || lower raw = "never" then some none
  else
    match K.readHours raw with
    | .notANumber => some (some (now + defaultTokenExpiryHours * 3600 * clockSecond))
    | .notPositive | .outOfRange => none
    | .lasts microseconds => some (some (now + microseconds))

/-- `api_tokens_create` -/
def apiTokensCreate (name : String) (expiryHours : Option String) (s : CredentialStore) :
    Option CredentialStore :=
  (tokenExpiry K s.now expiryHours).map fun expiresAt =>
    let token := K.secret s.drawn
    let name := (truthy? (some (stripBlank name))).getD "Untitled"
    { s with
      apiTokens := s.apiTokens ++ [⟨s.nextApiTokenId, name, K.hash token, expiresAt⟩]
      nextApiTokenId := s.nextApiTokenId + 1
      drawn := s.drawn + 1
      trace := s.trace ++ [.apiTokenCreated token s.nextApiTokenId name expiresAt] }

/-- `api_tokens_delete` -/
def apiTokensDelete (id : Nat) (s : CredentialStore) : CredentialStore :=
  { s with
    apiTokens := s.apiTokens.filter (·.id ≠ id)
    trace := s.trace ++ [.apiTokenDeleted id] }

/-- `INSERT OR REPLACE INTO app_tokens`: both columns are unique. -/
def putAppToken (token appId : String) (s : CredentialStore) : CredentialStore :=
  { s with
    appTokens := s.appTokens.filter (fun r => r.appId ≠ appId && r.tokenHash ≠ K.hash token) ++
      [⟨K.hash token, appId⟩]
    trace := s.trace ++ [.appTokenSet token appId] }

/-- A random token for an app: `make_data_dirs_and_env_vars`. -/
def putFreshAppToken (appId : String) (s : CredentialStore) : CredentialStore :=
  putAppToken K (K.secret s.drawn) appId { s with drawn := s.drawn + 1 }

/-- The statements of `insert_and_deploy` on the app and its token. -/
def insertApp (a : App) (s : CredentialStore) : Option CredentialStore :=
  if s.apps.any (·.appId = a.appId) then none
  else some (putFreshAppToken K a.appId { s with apps := s.apps ++ [a] })

/-- `DELETE FROM apps WHERE app_id = ?`, which cascades. -/
def removeAppRow (appId : String) (s : CredentialStore) : CredentialStore :=
  { s with
    apps := s.apps.filter (·.appId ≠ appId)
    appTokens := s.appTokens.filter (·.appId ≠ appId)
    trace := s.trace ++ [.appRemoved appId] }

/-- `INSERT INTO users`, and the first session: the end of `setup_post`. -/
def setupOwner (username : String) (s : CredentialStore) : Option CredentialStore :=
  if s.users.any (·.username = username) then none
  else
    let user : AuthenticatedUser := ⟨s.users.length + 1, username⟩
    some (createSession K user.userId { s with users := s.users ++ [user] })

/-- `update_owner_username` -/
def updateOwnerUsername (username : String) (s : CredentialStore) : Option CredentialStore :=
  match s.users with
  | [] => none
  | owner :: rest =>
      if rest.any (·.username = username) then none
      else some { s with users := { owner with username } :: rest }

/-- What is done with credentials. -/
inductive CredentialAction where
  | setup (username : String)
  /-- A login, for the user whose password was given. -/
  | login (userId : Nat)
  | logout (token : String)
  | updateUsername (username : String)
  | createApiToken (name : String) (expiryHours : Option String)
  | deleteApiToken (id : Nat)
  | insertApp (a : App)
  /-- `run_app_image`: with a new environment, or with the one that the app was deployed with. -/
  | runAppImage (appId : String) (deployed : Option String)
  | removeApp (appId : String)
  | tick (elapsed : Nat)

/-- What an action makes of the tables; a refusal leaves them as they are, and is no step. -/
def credentialStep (s : CredentialStore) : CredentialAction → Option CredentialStore
  | .setup username => setupOwner K username s
  | .login userId =>
      if s.users.any (·.userId = userId) then some (createSession K userId s) else none
  | .logout token => some (revokeSession K token s)
  | .updateUsername username => updateOwnerUsername username s
  | .createApiToken name expiryHours => apiTokensCreate K name expiryHours s
  | .deleteApiToken id => some (apiTokensDelete id s)
  | .insertApp a => insertApp K a s
  | .runAppImage appId none => some (putFreshAppToken K appId s)
  | .runAppImage appId (some token) =>
      if .appTokenSet token appId ∈ s.trace then some (putAppToken K token appId s) else none
  | .removeApp appId => some (removeAppRow appId s)
  | .tick elapsed => some { s with now := s.now + elapsed }

/-- The runs from empty tables. -/
abbrev CredentialRuns (s s' : CredentialStore) : Prop :=
  Reach (fun s a s' => credentialStep K s a = some s') (fun _ _ => True) s s'

end

/-! ## What an event issues and takes back -/

section

variable (K : TokenSource)

def IssuesSession : CredentialEvent → StoredSession → Prop
  | .sessionCreated token userId createdAt, r => r = ⟨K.hash token, userId, sessionEnd createdAt⟩
  | _, _ => False

def RevokesSession : CredentialEvent → StoredSession → Prop
  | .sessionRevoked token, r => r.tokenHash = K.hash token
  | _, _ => False

/-- Not even in the second of its end. -/
def SessionExpired (now : Nat) (r : StoredSession) : Prop := r.expiresAt < now

def IssuesApiToken : CredentialEvent → StoredApiToken → Prop
  | .apiTokenCreated token id name expiresAt, r => r = ⟨id, name, K.hash token, expiresAt⟩
  | _, _ => False

def RevokesApiToken : CredentialEvent → StoredApiToken → Prop
  | .apiTokenDeleted id, r => r.id = id
  | _, _ => False

def IssuesAppToken : CredentialEvent → AppTokenRow → Prop
  | .appTokenSet token appId, r => r = ⟨K.hash token, appId⟩
  | _, _ => False

/-- An app that is started again, or removed, loses its token; so does one whose token another gets. -/
def RevokesAppToken : CredentialEvent → AppTokenRow → Prop
  | .appTokenSet token appId, r => r.appId = appId ∨ r.tokenHash = K.hash token
  | .appRemoved appId, r => r.appId = appId
  | _, _ => False

/-- The random token that an event brings into the world, if it does. -/
def CredentialEvent.token? : CredentialEvent → Option String
  | .sessionCreated token _ _ | .apiTokenCreated token _ _ _ => some token
  | _ => none

/-- The tables hold what the history says, and no token was issued twice. -/
structure CredentialInv (s : CredentialStore) : Prop where
  sessions : Tracks (IssuesSession K) (RevokesSession K) SessionExpired s.trace s.now s.sessions
  apiTokens : Tracks (IssuesApiToken K) RevokesApiToken (fun _ _ => False) s.trace s.now s.apiTokens
  appTokens : Tracks (IssuesAppToken K) (RevokesAppToken K) (fun _ _ => False) s.trace s.now
    s.appTokens
  drawn : ∀ e ∈ s.trace, ∀ token, e.token? = some token → ∃ n < s.drawn, token = K.secret n
  once : ∀ e ∈ s.trace, ∀ e' ∈ s.trace, ∀ token, e.token? = some token → e'.token? = some token → e = e'
  apiIds : ∀ r ∈ s.apiTokens, r.id < s.nextApiTokenId
  appHashes : (s.appTokens.map AppTokenRow.tokenHash).Nodup
  users : s.users.map AuthenticatedUser.userId = (List.range s.users.length).map (· + 1)
  owners : ∀ r ∈ s.sessions, r.userId ∈ s.users.map AuthenticatedUser.userId

end

/-! ## What an operation keeps -/

section

variable {K : TokenSource} {s s' : CredentialStore}

theorem credentialInv_start (domains : List DomainRecord) : CredentialInv K { domains } where
  sessions := .start
  apiTokens := .start
  appTokens := .start
  drawn _ he := absurd he List.not_mem_nil
  once _ he := absurd he List.not_mem_nil
  apiIds _ hr := absurd hr List.not_mem_nil
  appHashes := List.nodup_nil
  users := rfl
  owners _ hr := absurd hr List.not_mem_nil

/-- A token that is drawn now has not been issued. -/
theorem not_issued (h : CredentialInv K s) {e : CredentialEvent} (he : e ∈ s.trace) :
    e.token? ≠ some (K.secret s.drawn) := by
  intro htoken
  obtain ⟨n, hn, heq⟩ := h.drawn e he _ htoken
  exact absurd (K.fresh heq) (Nat.ne_of_gt hn)

/-- What is known of the tokens, after an event that issues none or the one that is drawn now. -/
theorem once_concat (h : CredentialInv K s) {e : CredentialEvent}
    (htoken : ∀ token, e.token? = some token → token = K.secret s.drawn) :
    (∀ e' ∈ s.trace ++ [e], ∀ token, e'.token? = some token → ∃ n < s.drawn + 1, token = K.secret n) ∧
    ∀ e₁ ∈ s.trace ++ [e], ∀ e₂ ∈ s.trace ++ [e], ∀ token, e₁.token? = some token →
      e₂.token? = some token → e₁ = e₂ := by
  constructor
  · intro e' he' token ht
    rcases List.mem_append.mp he' with he' | he'
    · obtain ⟨n, hn, heq⟩ := h.drawn e' he' token ht
      exact ⟨n, Nat.lt_succ_of_lt hn, heq⟩
    · obtain rfl := List.mem_singleton.mp he'
      exact ⟨s.drawn, Nat.lt_succ_self _, htoken token ht⟩
  · intro e₁ he₁ e₂ he₂ token ht₁ ht₂
    rcases List.mem_append.mp he₁ with hold₁ | hlast₁ <;>
      rcases List.mem_append.mp he₂ with hold₂ | hlast₂
    · exact h.once e₁ hold₁ e₂ hold₂ token ht₁ ht₂
    · obtain rfl := List.mem_singleton.mp hlast₂
      exact absurd (htoken token ht₂ ▸ ht₁) (not_issued h hold₁)
    · obtain rfl := List.mem_singleton.mp hlast₁
      exact absurd (htoken token ht₁ ▸ ht₂) (not_issued h hold₂)
    · rw [List.mem_singleton.mp hlast₁, List.mem_singleton.mp hlast₂]

/-- The same where nothing is drawn. -/
theorem once_concat_none (h : CredentialInv K s) {e : CredentialEvent} (htoken : e.token? = none) :
    (∀ e' ∈ s.trace ++ [e], ∀ token, e'.token? = some token → ∃ n < s.drawn, token = K.secret n) ∧
    ∀ e₁ ∈ s.trace ++ [e], ∀ e₂ ∈ s.trace ++ [e], ∀ token, e₁.token? = some token →
      e₂.token? = some token → e₁ = e₂ := by
  have hold : ∀ e' ∈ s.trace ++ [e], ∀ token, e'.token? = some token → e' ∈ s.trace := by
    intro e' he' token ht
    rcases List.mem_append.mp he' with he' | he'
    · exact he'
    · rw [List.mem_singleton.mp he', htoken] at ht
      cases ht
  exact ⟨fun e' he' token ht => h.drawn e' (hold e' he' token ht) token ht,
    fun e₁ he₁ e₂ he₂ token ht₁ ht₂ =>
      h.once e₁ (hold e₁ he₁ token ht₁) e₂ (hold e₂ he₂ token ht₂) token ht₁ ht₂⟩

theorem credentialInv_createSession (h : CredentialInv K s) {userId : Nat}
    (huser : userId ∈ s.users.map AuthenticatedUser.userId) :
    CredentialInv K (createSession K userId s) := by
  have honce := once_concat h (e := .sessionCreated (K.secret s.drawn) userId s.now)
    fun token ht => (Option.some.inj ht).symm
  refine ⟨?_, h.apiTokens.skip (fun _ hr => hr) fun _ hr => hr, h.appTokens.skip (fun _ hr => hr)
    fun _ hr => hr, honce.1, honce.2, h.apiIds, h.appHashes, h.users, ?_⟩
  · apply h.sessions.step
    · intro r hr
      rcases List.mem_append.mp hr with hr | hr
      · exact Or.inr ⟨List.mem_of_mem_filter hr, fun hrevokes => hrevokes⟩
      · exact Or.inl (List.mem_singleton.mp hr)
    · rintro r rfl
      exact List.mem_append_right _ (List.mem_singleton_self _)
    · intro r hr _
      by_cases hswept : r.expiresAt / clockSecond < s.now / clockSecond
      · right
        -- a row is swept once the second of its end is over
        by_contra hnot
        exact absurd (Nat.div_le_div_right (Nat.le_of_not_lt hnot)) (Nat.not_le_of_lt hswept)
      · exact Or.inl (List.mem_append_left _ (List.mem_filter.mpr ⟨hr, by simpa using hswept⟩))
  · intro r hr
    rcases List.mem_append.mp hr with hr | hr
    · exact h.owners r (List.mem_of_mem_filter hr)
    · rw [List.mem_singleton.mp hr]
      exact huser

theorem credentialInv_revokeSession (h : CredentialInv K s) (token : String) :
    CredentialInv K (revokeSession K token s) := by
  have honce := once_concat_none h (e := .sessionRevoked token) rfl
  refine ⟨?_, h.apiTokens.skip (fun _ hr => hr) fun _ hr => hr, h.appTokens.skip (fun _ hr => hr)
    fun _ hr => hr, honce.1, honce.2, h.apiIds, h.appHashes, h.users,
    fun r hr => h.owners r (List.mem_of_mem_filter hr)⟩
  apply h.sessions.step
  · intro r hr
    obtain ⟨hr, hne⟩ := List.mem_filter.mp hr
    have hkept : r.tokenHash ≠ K.hash token := of_decide_eq_true hne
    exact Or.inr ⟨hr, hkept⟩
  · exact fun r hr => hr.elim
  · intro r hr (hnot : r.tokenHash ≠ K.hash token)
    exact Or.inl (List.mem_filter.mpr ⟨hr, decide_eq_true hnot⟩)

theorem credentialInv_apiTokensCreate {name : String} {expiryHours : Option String}
    (h : CredentialInv K s) (hs' : apiTokensCreate K name expiryHours s = some s') :
    CredentialInv K s' := by
  obtain ⟨expiresAt, -, rfl⟩ := Option.map_eq_some_iff.mp hs'
  have honce := once_concat h (e := .apiTokenCreated (K.secret s.drawn) s.nextApiTokenId
    ((truthy? (some (stripBlank name))).getD "Untitled") expiresAt)
    fun token ht => (Option.some.inj ht).symm
  refine ⟨h.sessions.skip (fun _ hr => hr) fun _ hr => hr, ?_, h.appTokens.skip (fun _ hr => hr)
    fun _ hr => hr, honce.1, honce.2, ?_, h.appHashes, h.users, h.owners⟩
  · apply h.apiTokens.step
    · intro r hr
      rcases List.mem_append.mp hr with hr | hr
      · exact Or.inr ⟨hr, fun hrevokes => hrevokes⟩
      · exact Or.inl (List.mem_singleton.mp hr)
    · rintro r rfl
      exact List.mem_append_right _ (List.mem_singleton_self _)
    · exact fun r hr _ => Or.inl (List.mem_append_left _ hr)
  · intro r hr
    rcases List.mem_append.mp hr with hr | hr
    · exact Nat.lt_succ_of_lt (h.apiIds r hr)
    · rw [List.mem_singleton.mp hr]
      exact Nat.lt_succ_self _

theorem credentialInv_apiTokensDelete (h : CredentialInv K s) (id : Nat) :
    CredentialInv K (apiTokensDelete id s) := by
  have honce := once_concat_none h (e := .apiTokenDeleted id) rfl
  refine ⟨h.sessions.skip (fun _ hr => hr) fun _ hr => hr, ?_, h.appTokens.skip (fun _ hr => hr)
    fun _ hr => hr, honce.1, honce.2, ?_, h.appHashes, h.users, h.owners⟩
  · apply h.apiTokens.step
    · intro r hr
      obtain ⟨hr, hne⟩ := List.mem_filter.mp hr
      have hkept : r.id ≠ id := of_decide_eq_true hne
      exact Or.inr ⟨hr, hkept⟩
    · exact fun r hr => hr.elim
    · intro r hr (hnot : r.id ≠ id)
      exact Or.inl (List.mem_filter.mpr ⟨hr, decide_eq_true hnot⟩)
  · exact fun r hr => h.apiIds r (List.mem_of_mem_filter hr)

theorem credentialInv_putAppToken (h : CredentialInv K s) (token appId : String) :
    CredentialInv K (putAppToken K token appId s) := by
  have honce := once_concat_none h (e := .appTokenSet token appId) rfl
  refine ⟨h.sessions.skip (fun _ hr => hr) fun _ hr => hr, h.apiTokens.skip (fun _ hr => hr)
    fun _ hr => hr, ?_, honce.1, honce.2, h.apiIds, ?_, h.users, h.owners⟩
  · apply h.appTokens.step
    · intro r hr
      rcases List.mem_append.mp hr with hr | hr
      · obtain ⟨hr, hne⟩ := List.mem_filter.mp hr
        obtain ⟨hid, hhash⟩ : r.appId ≠ appId ∧ r.tokenHash ≠ K.hash token := by simpa using hne
        exact Or.inr ⟨hr, fun hrevokes => hrevokes.elim hid hhash⟩
      · exact Or.inl (List.mem_singleton.mp hr)
    · rintro r rfl
      exact List.mem_append_right _ (List.mem_singleton_self _)
    · intro r hr hnot
      obtain ⟨hid, hhash⟩ := not_or.mp hnot
      exact Or.inl (List.mem_append_left _ (List.mem_filter.mpr ⟨hr, by simp [hid, hhash]⟩))
  · show (List.map AppTokenRow.tokenHash (_ ++ [_])).Nodup
    rw [List.map_append, List.nodup_append]
    refine ⟨(h.appHashes.sublist (List.filter_sublist.map _)), by simp, ?_⟩
    intro a ha b hb hab
    obtain ⟨r, hr, rfl⟩ := List.mem_map.mp ha
    obtain ⟨-, hne⟩ := List.mem_filter.mp hr
    obtain ⟨-, hhash⟩ : r.appId ≠ appId ∧ r.tokenHash ≠ K.hash token := by simpa using hne
    exact hhash (hab.trans (List.mem_singleton.mp hb))

theorem credentialInv_removeAppRow (h : CredentialInv K s) (appId : String) :
    CredentialInv K (removeAppRow appId s) := by
  have honce := once_concat_none h (e := .appRemoved appId) rfl
  refine ⟨h.sessions.skip (fun _ hr => hr) fun _ hr => hr, h.apiTokens.skip (fun _ hr => hr)
    fun _ hr => hr, ?_, honce.1, honce.2, h.apiIds, ?_, h.users, h.owners⟩
  · apply h.appTokens.step
    · intro r hr
      obtain ⟨hr, hne⟩ := List.mem_filter.mp hr
      have hkept : r.appId ≠ appId := of_decide_eq_true hne
      exact Or.inr ⟨hr, hkept⟩
    · exact fun r hr => hr.elim
    · intro r hr (hnot : r.appId ≠ appId)
      exact Or.inl (List.mem_filter.mpr ⟨hr, decide_eq_true hnot⟩)
  · exact h.appHashes.sublist (List.filter_sublist.map _)

theorem credentialInv_setupOwner {username : String} (h : CredentialInv K s)
    (hs' : setupOwner K username s = some s') : CredentialInv K s' := by
  unfold setupOwner at hs'
  split at hs'
  · cases hs'
  · obtain rfl := Option.some.inj hs'
    have hids : ∀ u : AuthenticatedUser, (s.users ++ [u]).map AuthenticatedUser.userId =
        s.users.map AuthenticatedUser.userId ++ [u.userId] := fun u => List.map_append
    apply credentialInv_createSession
    · refine ⟨h.sessions, h.apiTokens, h.appTokens, h.drawn, h.once, h.apiIds, h.appHashes, ?_, ?_⟩
      · show (s.users ++ [_]).map AuthenticatedUser.userId = _
        rw [hids, h.users, List.length_append, List.length_singleton, List.range_succ, List.map_append]
        rfl
      · intro r hr
        show r.userId ∈ (s.users ++ [_]).map AuthenticatedUser.userId
        rw [hids]
        exact List.mem_append_left _ (h.owners r hr)
    · show _ ∈ (s.users ++ [_]).map AuthenticatedUser.userId
      rw [hids]
      exact List.mem_append_right _ (List.mem_singleton_self _)

theorem credentialInv_updateOwnerUsername {username : String} (h : CredentialInv K s)
    (hs' : updateOwnerUsername username s = some s') : CredentialInv K s' := by
  unfold updateOwnerUsername at hs'
  split at hs'
  · cases hs'
  · rename_i owner rest husers
    split at hs'
    · cases hs'
    · obtain rfl := Option.some.inj hs'
      have hids := h.users
      have howners := h.owners
      rw [husers] at hids howners
      exact ⟨h.sessions, h.apiTokens, h.appTokens, h.drawn, h.once, h.apiIds, h.appHashes, hids,
        howners⟩

theorem credentialInv_putFreshAppToken (h : CredentialInv K s) (appId : String) :
    CredentialInv K (putFreshAppToken K appId s) := by
  apply credentialInv_putAppToken
  refine ⟨h.sessions, h.apiTokens, h.appTokens, ?_, h.once, h.apiIds, h.appHashes, h.users, h.owners⟩
  intro e he token ht
  obtain ⟨n, hn, heq⟩ := h.drawn e he token ht
  exact ⟨n, Nat.lt_succ_of_lt hn, heq⟩

theorem credentialInv_step {a : CredentialAction} (h : CredentialInv K s)
    (hs' : credentialStep K s a = some s') : CredentialInv K s' := by
  cases a with
  | setup username => exact credentialInv_setupOwner h hs'
  | login userId =>
    rw [credentialStep] at hs'
    split at hs'
    · rename_i huser
      obtain rfl := Option.some.inj hs'
      obtain ⟨u, hu, hid⟩ := List.any_eq_true.mp huser
      exact credentialInv_createSession h (List.mem_map.mpr ⟨u, hu, of_decide_eq_true hid⟩)
    · cases hs'
  | logout token =>
    obtain rfl := Option.some.inj hs'
    exact credentialInv_revokeSession h token
  | updateUsername username => exact credentialInv_updateOwnerUsername h hs'
  | createApiToken name expiryHours => exact credentialInv_apiTokensCreate h hs'
  | deleteApiToken id =>
    obtain rfl := Option.some.inj hs'
    exact credentialInv_apiTokensDelete h id
  | insertApp a =>
    rw [credentialStep, insertApp] at hs'
    split at hs'
    · cases hs'
    · obtain rfl := Option.some.inj hs'
      apply credentialInv_putFreshAppToken
      exact ⟨h.sessions, h.apiTokens, h.appTokens, h.drawn, h.once, h.apiIds, h.appHashes, h.users, h.owners⟩
  | runAppImage appId deployed =>
    cases deployed with
    | none =>
      obtain rfl := Option.some.inj hs'
      exact credentialInv_putFreshAppToken h appId
    | some token =>
      rw [credentialStep] at hs'
      split at hs'
      · obtain rfl := Option.some.inj hs'
        exact credentialInv_putAppToken h token appId
      · cases hs'
  | removeApp appId =>
    obtain rfl := Option.some.inj hs'
    exact credentialInv_removeAppRow h appId
  | tick elapsed =>
    obtain rfl := Option.some.inj hs'
    have hexpired : ∀ r, SessionExpired s.now r → SessionExpired (s.now + elapsed) r :=
      fun r hr => Nat.lt_of_lt_of_le hr (Nat.le_add_right _ _)
    exact ⟨h.sessions.elapse hexpired, h.apiTokens.elapse fun _ hr => hr,
      h.appTokens.elapse fun _ hr => hr, h.drawn, h.once, h.apiIds, h.appHashes, h.users, h.owners⟩

theorem credentialInv_of_runs {domains : List DomainRecord} (h : CredentialRuns K { domains } s) :
    CredentialInv K s := by
  apply h.invariant
  · exact credentialInv_start domains
  · exact fun s a s' hs _ hstep => credentialInv_step hs hstep

end

/-! ## What is accepted -/

/-- The user has logged in with this token, has not logged out since, and the four weeks are not over. -/
def SessionLive (trace : List CredentialEvent) (now : Nat) (token : String) (userId : Nat) : Prop :=
  ∃ before after createdAt, trace = before ++ .sessionCreated token userId createdAt :: after ∧
    .sessionRevoked token ∉ after ∧ now ≤ sessionEnd createdAt

/-- The owner has created this token, has not deleted it since, and it has not expired. -/
def ApiTokenLive (trace : List CredentialEvent) (now : Nat) (token : String) : Prop :=
  ∃ before after id name expiresAt,
    trace = before ++ .apiTokenCreated token id name expiresAt :: after ∧
    .apiTokenDeleted id ∉ after ∧ ∀ moment, expiresAt = some moment → now ≤ moment

/-- The app was last started with this token, and has not been removed since. -/
def AppTokenLive (trace : List CredentialEvent) (token appId : String) : Prop :=
  ∃ before after, trace = before ++ .appTokenSet token appId :: after ∧ .appRemoved appId ∉ after ∧
    ∀ token' appId', .appTokenSet token' appId' ∈ after → appId' ≠ appId ∧ token' ≠ token

/-- The first hit is the only one. -/
theorem find?_eq_some_of_only {α : Type} {l : List α} {p : α → Bool} {a : α} (ha : a ∈ l)
    (hp : p a = true) (honly : ∀ b ∈ l, p b = true → b = a) : l.find? p = some a := by
  cases hfind : l.find? p with
  | none => exact absurd hp (List.find?_eq_none.mp hfind a ha)
  | some b => rw [honly b (List.mem_of_find?_eq_some hfind) (List.find?_some hfind)]

section

variable {K : TokenSource} {s s' : CredentialStore} {token : String}

theorem nodup_userIds (h : CredentialInv K s) : (s.users.map AuthenticatedUser.userId).Nodup := by
  rw [h.users]
  exact List.Nodup.map (fun _ _ heq => Nat.succ.inj heq) List.nodup_range

/-- The user of a row, where there is one. -/
theorem find?_user_iff (h : CredentialInv K s) {userId : Nat} {u : AuthenticatedUser} :
    s.users.find? (·.userId = userId) = some u ↔ u ∈ s.users ∧ u.userId = userId := by
  constructor
  · intro hfind
    have hid := List.find?_some hfind
    exact ⟨List.mem_of_find?_eq_some hfind, of_decide_eq_true hid⟩
  · intro hu
    apply find?_eq_some_of_only hu.1 (decide_eq_true hu.2)
    intro v hv hid
    exact List.inj_on_of_nodup_map (nodup_userIds h) hv hu.1 ((of_decide_eq_true hid).trans hu.2.symm)

theorem held_session_iff {trace : List CredentialEvent} {userId expiresAt : Nat} :
    Held (IssuesSession K) (RevokesSession K) trace ⟨K.hash token, userId, expiresAt⟩ ↔
      ∃ before after createdAt, trace = before ++ .sessionCreated token userId createdAt :: after ∧
        .sessionRevoked token ∉ after ∧ expiresAt = sessionEnd createdAt := by
  constructor
  · intro h
    obtain ⟨before, e, after, rfl, hissues, hafter⟩ := h
    cases e with
    | sessionCreated token' userId' createdAt =>
      obtain ⟨hhash, rfl, rfl⟩ := StoredSession.mk.inj hissues
      obtain rfl := K.hash_injective hhash
      exact ⟨before, after, createdAt, rfl, fun hmem => hafter _ hmem rfl, rfl⟩
    | _ => exact hissues.elim
  · intro h
    obtain ⟨before, after, createdAt, rfl, hafter, rfl⟩ := h
    refine ⟨before, _, after, rfl, rfl, ?_⟩
    intro e he hrevokes
    cases e with
    | sessionRevoked token' =>
      obtain rfl := K.hash_injective hrevokes
      exact hafter he
    | _ => exact hrevokes

/-- No two rows have one hash. -/
theorem session_only (h : CredentialInv K s) {r r' : StoredSession} (hr : r ∈ s.sessions)
    (hr' : r' ∈ s.sessions) (hhash : r.tokenHash = r'.tokenHash) : r = r' := by
  obtain ⟨before, e, after, htrace, hissues, -⟩ := h.sessions.held r hr
  obtain ⟨before', e', after', htrace', hissues', -⟩ := h.sessions.held r' hr'
  cases e with
  | sessionCreated token userId createdAt =>
    cases e' with
    | sessionCreated token' userId' createdAt' =>
      subst hissues hissues'
      obtain rfl := K.hash_injective hhash
      have hsame := h.once (.sessionCreated token userId createdAt) (by rw [htrace]; simp)
        (.sessionCreated token userId' createdAt') (by rw [htrace']; simp) token rfl rfl
      obtain ⟨-, rfl, rfl⟩ := CredentialEvent.sessionCreated.inj hsame
      rfl
    | _ => exact hissues'.elim
  | _ => exact hissues.elim

/-- A session is accepted if it is live, and then for its user as they are now. -/
theorem validateSessionToken_iff (h : CredentialInv K s) {u : AuthenticatedUser} :
    validateSessionToken (s.db K) token = some u ↔
      u ∈ s.users ∧ SessionLive s.trace s.now token u.userId := by
  have hjoined : ∀ {x : SessionRow}, x ∈ (s.db K).sessions ↔
      ∃ r ∈ s.sessions, ∃ v ∈ s.users, v.userId = r.userId ∧ x = ⟨r.tokenHash, v, r.expiresAt⟩ := by
    intro x
    simp only [CredentialStore.db, List.mem_filterMap, Option.map_eq_some_iff, find?_user_iff h]
    constructor
    · intro hx
      obtain ⟨r, hr, v, hv, rfl⟩ := hx
      exact ⟨r, hr, v, hv.1, hv.2, rfl⟩
    · intro hx
      obtain ⟨r, hr, v, hv, hid, rfl⟩ := hx
      exact ⟨r, hr, v, ⟨hv, hid⟩, rfl⟩
  constructor
  · intro hvalid
    unfold validateSessionToken at hvalid
    split at hvalid
    · rename_i x hfind
      have hhash := List.find?_some hfind
      obtain ⟨r, hr, v, hv, hid, rfl⟩ := hjoined.mp (List.mem_of_find?_eq_some hfind)
      have hhash : r.tokenHash = K.hash token := of_decide_eq_true hhash
      split at hvalid
      · rename_i hnow
        obtain rfl := Option.some.inj hvalid
        obtain ⟨rHash, rUser, rEnd⟩ := r
        dsimp only at hhash hid
        obtain rfl := hhash
        obtain rfl := hid
        obtain ⟨before, after, createdAt, htrace, hafter, rfl⟩ :=
          held_session_iff.mp (h.sessions.held _ hr)
        exact ⟨hv, before, after, createdAt, htrace, hafter, hnow⟩
      · cases hvalid
    · cases hvalid
  · intro hlive
    obtain ⟨hu, before, after, createdAt, htrace, hafter, hnow⟩ := hlive
    have hheld : Held (IssuesSession K) (RevokesSession K) s.trace
        ⟨K.hash token, u.userId, sessionEnd createdAt⟩ :=
      held_session_iff.mpr ⟨before, after, createdAt, htrace, hafter, rfl⟩
    have hr := (h.sessions.mem_iff (Nat.not_lt_of_le hnow)).mpr hheld
    have hfind : (s.db K).sessions.find? (fun x => x.tokenHash = (s.db K).hash token) =
        some ⟨K.hash token, u, sessionEnd createdAt⟩ := by
      apply find?_eq_some_of_only (hjoined.mpr ⟨_, hr, u, hu, rfl, rfl⟩) (decide_eq_true rfl)
      intro x hx hhash
      obtain ⟨r, hr', v, hv, hid, rfl⟩ := hjoined.mp hx
      obtain rfl := session_only h hr' hr (of_decide_eq_true hhash)
      rw [List.inj_on_of_nodup_map (nodup_userIds h) hv hu hid]
    rw [validateSessionToken, hfind]
    exact if_pos hnow

theorem held_apiToken_iff {trace : List CredentialEvent} {id : Nat} {name : String}
    {expiresAt : Option Nat} :
    Held (IssuesApiToken K) RevokesApiToken trace ⟨id, name, K.hash token, expiresAt⟩ ↔
      ∃ before after, trace = before ++ .apiTokenCreated token id name expiresAt :: after ∧
        .apiTokenDeleted id ∉ after := by
  constructor
  · intro h
    obtain ⟨before, e, after, rfl, hissues, hafter⟩ := h
    cases e with
    | apiTokenCreated token' id' name' expiresAt' =>
      obtain ⟨rfl, rfl, hhash, rfl⟩ := StoredApiToken.mk.inj hissues
      obtain rfl := K.hash_injective hhash
      exact ⟨before, after, rfl, fun hmem => hafter _ hmem rfl⟩
    | _ => exact hissues.elim
  · intro h
    obtain ⟨before, after, rfl, hafter⟩ := h
    refine ⟨before, _, after, rfl, rfl, ?_⟩
    intro e he hrevokes
    cases e with
    | apiTokenDeleted id' =>
      obtain rfl : id = id' := hrevokes
      exact hafter he
    | _ => exact hrevokes

theorem apiToken_only (h : CredentialInv K s) {r r' : StoredApiToken} (hr : r ∈ s.apiTokens)
    (hr' : r' ∈ s.apiTokens) (hhash : r.tokenHash = r'.tokenHash) : r = r' := by
  obtain ⟨before, e, after, htrace, hissues, -⟩ := h.apiTokens.held r hr
  obtain ⟨before', e', after', htrace', hissues', -⟩ := h.apiTokens.held r' hr'
  cases e with
  | apiTokenCreated token id name expiresAt =>
    cases e' with
    | apiTokenCreated token' id' name' expiresAt' =>
      subst hissues hissues'
      obtain rfl := K.hash_injective hhash
      have hsame := h.once (.apiTokenCreated token id name expiresAt) (by rw [htrace]; simp)
        (.apiTokenCreated token id' name' expiresAt') (by rw [htrace']; simp) token rfl rfl
      obtain ⟨-, rfl, rfl, rfl⟩ := CredentialEvent.apiTokenCreated.inj hsame
      rfl
    | _ => exact hissues'.elim
  | _ => exact hissues.elim

theorem validateApiToken_iff (h : CredentialInv K s) :
    validateApiToken (s.db K) token = true ↔ ApiTokenLive s.trace s.now token := by
  constructor
  · intro hvalid
    unfold validateApiToken at hvalid
    split at hvalid
    · rename_i x hfind
      have hhash := List.find?_some hfind
      obtain ⟨r, hr, rfl⟩ := List.mem_map.mp (List.mem_of_find?_eq_some hfind)
      have hhash : r.tokenHash = K.hash token := of_decide_eq_true hhash
      obtain ⟨id, name, rHash, expiresAt⟩ := r
      dsimp only at hhash hvalid
      obtain rfl := hhash
      obtain ⟨before, after, htrace, hafter⟩ := held_apiToken_iff.mp (h.apiTokens.held _ hr)
      refine ⟨before, after, id, name, expiresAt, htrace, hafter, ?_⟩
      rintro moment rfl
      exact of_decide_eq_true hvalid
    · cases hvalid
  · intro hlive
    obtain ⟨before, after, id, name, expiresAt, htrace, hafter, hnow⟩ := hlive
    have hr := (h.apiTokens.mem_iff not_false).mpr
      (held_apiToken_iff.mpr ⟨before, after, htrace, hafter⟩)
    have hfind : (s.db K).apiTokens.find? (fun x => x.tokenHash = (s.db K).hash token) =
        some ⟨K.hash token, expiresAt⟩ := by
      have hmem : (⟨K.hash token, expiresAt⟩ : ApiTokenRow) ∈ (s.db K).apiTokens :=
        List.mem_map.mpr ⟨_, hr, rfl⟩
      apply find?_eq_some_of_only hmem (decide_eq_true rfl)
      intro x hx hhash
      obtain ⟨r, hr', rfl⟩ := List.mem_map.mp hx
      rw [apiToken_only h hr' hr (of_decide_eq_true hhash)]
    rw [validateApiToken, hfind]
    cases expiresAt with
    | none => rfl
    | some moment => exact decide_eq_true (hnow moment rfl)

theorem held_appToken_iff {trace : List CredentialEvent} {appId : String} :
    Held (IssuesAppToken K) (RevokesAppToken K) trace ⟨K.hash token, appId⟩ ↔
      AppTokenLive trace token appId := by
  constructor
  · intro h
    obtain ⟨before, e, after, rfl, hissues, hafter⟩ := h
    cases e with
    | appTokenSet token' appId' =>
      obtain ⟨hhash, rfl⟩ := AppTokenRow.mk.inj hissues
      obtain rfl := K.hash_injective hhash
      refine ⟨before, after, rfl, fun hmem => hafter _ hmem rfl, ?_⟩
      intro token' appId' hmem
      have hnot := not_or.mp (hafter _ hmem)
      refine ⟨fun heq => hnot.1 heq.symm, ?_⟩
      rintro rfl
      exact hnot.2 rfl
    | _ => exact hissues.elim
  · intro h
    obtain ⟨before, after, rfl, hremoved, hset⟩ := h
    refine ⟨before, _, after, rfl, rfl, ?_⟩
    intro e he hrevokes
    cases e with
    | appTokenSet token' appId' =>
      obtain ⟨hid, htoken⟩ := hset token' appId' he
      rcases hrevokes with heq | heq
      · exact hid heq.symm
      · exact htoken (K.hash_injective heq).symm
    | appRemoved appId' =>
      obtain rfl : appId = appId' := hrevokes
      exact hremoved he
    | _ => exact hrevokes

theorem validateAppToken_iff (h : CredentialInv K s) {appId : String} :
    validateAppToken (s.db K) token = some appId ↔
      (∃ a ∈ s.apps, a.appId = appId) ∧ AppTokenLive s.trace token appId := by
  have hjoined : ∀ {r : AppTokenRow}, r ∈ ((s.db K).appTokens.filter fun t =>
      (s.db K).apps.any (·.appId = t.appId)) ↔
        r ∈ s.appTokens ∧ ∃ a ∈ s.apps, a.appId = r.appId := by
    intro r
    rw [List.mem_filter, List.any_eq_true]
    simp [CredentialStore.db]
  constructor
  · intro hvalid
    obtain ⟨r, hfind, rfl⟩ := Option.map_eq_some_iff.mp hvalid
    have hhash := List.find?_some hfind
    obtain ⟨hr, happ⟩ := hjoined.mp (List.mem_of_find?_eq_some hfind)
    have hhash : r.tokenHash = K.hash token := of_decide_eq_true hhash
    obtain ⟨rHash, appId⟩ := r
    dsimp only at hhash
    obtain rfl := hhash
    exact ⟨happ, held_appToken_iff.mp (h.appTokens.held _ hr)⟩
  · intro hlive
    obtain ⟨happ, hlive⟩ := hlive
    have hr := (h.appTokens.mem_iff not_false).mpr (held_appToken_iff.mpr hlive)
    have hfind := find?_eq_some_of_only
      (p := fun t : AppTokenRow => decide (t.tokenHash = (s.db K).hash token))
      (hjoined.mpr ⟨hr, happ⟩) (decide_eq_true rfl) ?_
    · rw [validateAppToken, hfind]
      rfl
    · intro r hr' hhash
      exact List.inj_on_of_nodup_map h.appHashes (hjoined.mp hr').1 hr (of_decide_eq_true hhash)

end

/-- The tokens are `""`, `"a"`, `"aa"` and so on. -/
def exampleTokens : TokenSource where
  secret n := String.ofList (List.replicate n 'a')
  hash := id
  fresh _ _ h := List.replicate_left_injective 'a' (String.ofList_injective h)
  hash_injective := Function.injective_id
  readHours _ := .notANumber

/-- The owner sets up the router, creates an API token and installs an app. -/
def exampleStore : Option CredentialStore :=
  runAll (credentialStep exampleTokens) (fun _ _ => True) {}
    [.setup "owner", .createApiToken "ci" (some "never"), .insertApp ⟨"blog", "blog", 9001, .scalar⟩,
      .tick 5]

theorem exists_exampleStore : ∃ s, CredentialRuns exampleTokens {} s ∧ exampleStore = some s := by
  have hsome : exampleStore.isSome = true := by decide +kernel
  obtain ⟨s, hs⟩ := Option.isSome_iff_exists.mp hsome
  exact ⟨s, reach_of_run hs, hs⟩

/-- However logins, logouts, API tokens, installs, starts and removals of apps follow each other: the
router accepts a session exactly until its user logs out or four weeks are over, for the user under
their present name; an API token exactly until it is deleted or expires; and the token of an app exactly
while the app is installed and has not been started with another one. -/
theorem accepted_iff_of_runs (K : TokenSource) (domains : List DomainRecord) :
    ∀ s, CredentialRuns K { domains } s → ∀ token,
      (∀ u, validateSessionToken (s.db K) token = some u ↔
        u ∈ s.users ∧ SessionLive s.trace s.now token u.userId) ∧
      (validateApiToken (s.db K) token = true ↔ ApiTokenLive s.trace s.now token) ∧
      ∀ appId, validateAppToken (s.db K) token = some appId ↔
        (∃ a ∈ s.apps, a.appId = appId) ∧ AppTokenLive s.trace token appId := by
  intro s hs token
  have hinv := credentialInv_of_runs hs
  exact ⟨fun u => validateSessionToken_iff hinv, validateApiToken_iff hinv,
    fun appId => validateAppToken_iff hinv⟩

theorem accepted_of_example : ∃ s, CredentialRuns exampleTokens {} s ∧
    SessionLive s.trace s.now "" 1 ∧ ApiTokenLive s.trace s.now "a" ∧
    AppTokenLive s.trace "aa" "blog" := by
  obtain ⟨s, hs, hrun⟩ := exists_exampleStore
  have haccepted : exampleStore.map (fun s => (validateSessionToken (s.db exampleTokens) "",
      validateApiToken (s.db exampleTokens) "a", validateAppToken (s.db exampleTokens) "aa")) =
      some (some ⟨1, "owner"⟩, true, some "blog") := by decide +kernel
  rw [hrun, Option.map_some, Option.some.injEq, Prod.mk.injEq, Prod.mk.injEq] at haccepted
  refine ⟨s, hs, ?_, ?_, ?_⟩
  · exact (((accepted_iff_of_runs exampleTokens [] s hs "").1 ⟨1, "owner"⟩).mp haccepted.1).2
  · exact (accepted_iff_of_runs exampleTokens [] s hs "a").2.1.mp haccepted.2.1
  · exact ((accepted_iff_of_runs exampleTokens [] s hs "aa").2.2 "blog").mp haccepted.2.2 |>.2

/-! ## What is not accepted any more -/

section

variable {K : TokenSource} {s s' : CredentialStore} {a : CredentialAction}

/-- No row but one with a new token is added, and the clock does not go back. -/
structure Later (K : TokenSource) (s s' : CredentialStore) : Prop where
  now : s.now ≤ s'.now
  drawn : s.drawn ≤ s'.drawn
  sessions : ∀ r ∈ s'.sessions, r ∈ s.sessions ∨ ∃ n ≥ s.drawn, r.tokenHash = K.hash (K.secret n)
  apiTokens : ∀ r ∈ s'.apiTokens, r ∈ s.apiTokens ∨ ∃ n ≥ s.drawn, r.tokenHash = K.hash (K.secret n)

theorem Later.refl (s : CredentialStore) : Later K s s :=
  ⟨Nat.le_refl _, Nat.le_refl _, fun _ hr => Or.inl hr, fun _ hr => Or.inl hr⟩

theorem Later.trans {s'' : CredentialStore} (h : Later K s s') (h' : Later K s' s'') :
    Later K s s'' := by
  refine ⟨h.now.trans h'.now, h.drawn.trans h'.drawn, ?_, ?_⟩
  · intro r hr
    rcases h'.sessions r hr with hr | ⟨n, hn, hhash⟩
    · exact h.sessions r hr
    · exact Or.inr ⟨n, h.drawn.trans hn, hhash⟩
  · intro r hr
    rcases h'.apiTokens r hr with hr | ⟨n, hn, hhash⟩
    · exact h.apiTokens r hr
    · exact Or.inr ⟨n, h.drawn.trans hn, hhash⟩

theorem later_createSession (userId : Nat) : Later K s (createSession K userId s) := by
  refine ⟨Nat.le_refl _, Nat.le_succ _, ?_, fun _ hr => Or.inl hr⟩
  intro r hr
  rcases List.mem_append.mp hr with hr | hr
  · exact Or.inl (List.mem_of_mem_filter hr)
  · rw [List.mem_singleton.mp hr]
    exact Or.inr ⟨s.drawn, Nat.le_refl _, rfl⟩

theorem later_apiTokensCreate {name : String} {expiryHours : Option String}
    (h : apiTokensCreate K name expiryHours s = some s') : Later K s s' := by
  obtain ⟨expiresAt, -, rfl⟩ := Option.map_eq_some_iff.mp h
  refine ⟨Nat.le_refl _, Nat.le_succ _, fun _ hr => Or.inl hr, ?_⟩
  intro r hr
  rcases List.mem_append.mp hr with hr | hr
  · exact Or.inl hr
  · rw [List.mem_singleton.mp hr]
    exact Or.inr ⟨s.drawn, Nat.le_refl _, rfl⟩

theorem later_step (h : credentialStep K s a = some s') : Later K s s' := by
  have hsame : ∀ {t : CredentialStore}, s.now ≤ t.now → s.drawn ≤ t.drawn → t.sessions = s.sessions →
      t.apiTokens = s.apiTokens → Later K s t := fun hnow hdrawn hsessions hapi =>
    ⟨hnow, hdrawn, fun r hr => Or.inl (hsessions ▸ hr), fun r hr => Or.inl (hapi ▸ hr)⟩
  cases a with
  | setup username =>
    rw [credentialStep, setupOwner] at h
    split at h
    · cases h
    · obtain rfl := Option.some.inj h
      have husers : Later K s { s with users := s.users ++ [⟨s.users.length + 1, username⟩] } :=
        hsame (Nat.le_refl _) (Nat.le_refl _) rfl rfl
      exact husers.trans (later_createSession _)
  | login userId =>
    rw [credentialStep] at h
    split at h
    · obtain rfl := Option.some.inj h
      exact later_createSession userId
    · cases h
  | logout token =>
    obtain rfl := Option.some.inj h
    exact ⟨Nat.le_refl _, Nat.le_refl _, fun r hr => Or.inl (List.mem_of_mem_filter hr),
      fun _ hr => Or.inl hr⟩
  | updateUsername username =>
    rw [credentialStep, updateOwnerUsername] at h
    split at h
    · cases h
    · split at h
      · cases h
      · obtain rfl := Option.some.inj h
        exact hsame (Nat.le_refl _) (Nat.le_refl _) rfl rfl
  | createApiToken name expiryHours => exact later_apiTokensCreate h
  | deleteApiToken id =>
    obtain rfl := Option.some.inj h
    exact ⟨Nat.le_refl _, Nat.le_refl _, fun _ hr => Or.inl hr,
      fun r hr => Or.inl (List.mem_of_mem_filter hr)⟩
  | insertApp app =>
    rw [credentialStep, insertApp] at h
    split at h
    · cases h
    · obtain rfl := Option.some.inj h
      exact hsame (Nat.le_refl _) (Nat.le_succ _) rfl rfl
  | runAppImage appId deployed =>
    cases deployed with
    | none =>
      obtain rfl := Option.some.inj h
      exact hsame (Nat.le_refl _) (Nat.le_succ _) rfl rfl
    | some token =>
      rw [credentialStep] at h
      split at h
      · obtain rfl := Option.some.inj h
        exact hsame (Nat.le_refl _) (Nat.le_refl _) rfl rfl
      · cases h
  | removeApp appId =>
    obtain rfl := Option.some.inj h
    exact hsame (Nat.le_refl _) (Nat.le_refl _) rfl rfl
  | tick elapsed =>
    obtain rfl := Option.some.inj h
    exact hsame (Nat.le_add_right _ _) (Nat.le_refl _) rfl rfl

theorem later_of_runs (h : CredentialRuns K s s') : Later K s s' := by
  apply h.invariant fun t => Later K s t
  · exact .refl s
  · exact fun t a t' ht _ hstep => ht.trans (later_step hstep)

end

/-- A token that was issued and is not accepted, be it as a session or as an API token, is never accepted
again, whatever is done: not after a logout, a deletion or its end. -/
theorem never_again_of_runs (K : TokenSource) (domains : List DomainRecord) :
    ∀ s s', CredentialRuns K { domains } s → CredentialRuns K s s' →
      ∀ e ∈ s.trace, ∀ token, e.token? = some token →
        (validateSessionToken (s.db K) token = none → validateSessionToken (s'.db K) token = none) ∧
        (validateApiToken (s.db K) token = false → validateApiToken (s'.db K) token = false) := by
  intro s s' hs hrun e he token htoken
  have hinv := credentialInv_of_runs hs
  have hinv' := credentialInv_of_runs (hs.trans hrun)
  have hlater := later_of_runs hrun
  obtain ⟨n, hn, rfl⟩ := hinv.drawn e he token htoken
  -- a row with this hash was there before
  have hold : ∀ {m : Nat}, m ≥ s.drawn → K.hash (K.secret n) ≠ K.hash (K.secret m) := by
    intro m hm heq
    obtain rfl := K.fresh (K.hash_injective heq)
    exact absurd hn (Nat.not_lt_of_le hm)
  constructor
  · intro hrefused
    rw [Option.eq_none_iff_forall_ne_some]
    intro u' hu'
    obtain ⟨-, before, after, createdAt, htrace, hafter, hnow⟩ := (validateSessionToken_iff hinv').mp hu'
    have hr := (hinv'.sessions.mem_iff (Nat.not_lt_of_le hnow)).mpr
      (held_session_iff.mpr ⟨before, after, createdAt, htrace, hafter, rfl⟩)
    rcases hlater.sessions _ hr with hr | ⟨m, hm, hhash⟩
    · obtain ⟨u, hu, hid⟩ := List.mem_map.mp (hinv.owners _ hr)
      obtain ⟨before, after, createdAt', htrace, hafter, hend⟩ :=
        held_session_iff.mp (hinv.sessions.held _ hr)
      have hlive : SessionLive s.trace s.now (K.secret n) u.userId := by
        rw [hid]
        exact ⟨before, after, createdAt', htrace, hafter, hend ▸ hlater.now.trans hnow⟩
      rw [(validateSessionToken_iff hinv).mpr ⟨hu, hlive⟩] at hrefused
      cases hrefused
    · exact hold hm hhash
  · intro hrefused
    rw [← Bool.not_eq_true] at hrefused ⊢
    intro haccepted
    apply hrefused
    obtain ⟨before, after, id, name, expiresAt, htrace, hafter, hnow⟩ :=
      (validateApiToken_iff hinv').mp haccepted
    have hr := (hinv'.apiTokens.mem_iff not_false).mpr
      (held_apiToken_iff.mpr ⟨before, after, htrace, hafter⟩)
    rcases hlater.apiTokens _ hr with hr | ⟨m, hm, hhash⟩
    · obtain ⟨before, after, htrace, hafter⟩ := held_apiToken_iff.mp (hinv.apiTokens.held _ hr)
      exact (validateApiToken_iff hinv).mpr ⟨before, after, id, name, expiresAt, htrace, hafter,
        fun moment hmoment => hlater.now.trans (hnow moment hmoment)⟩
    · exact absurd hhash (hold hm)

theorem never_again_of_example : ∃ s s', CredentialRuns exampleTokens {} s ∧
    CredentialRuns exampleTokens s s' ∧ validateSessionToken (s'.db exampleTokens) "" = none := by
  obtain ⟨s, hs, hrun⟩ := exists_exampleStore
  -- the owner logs out, and in again
  have hout : CredentialRuns exampleTokens s (revokeSession exampleTokens "" s) :=
    .step (a := .logout "") .refl trivial rfl
  have huser : exampleStore.map (fun s => s.users.any (·.userId = 1)) = some true := by decide +kernel
  rw [hrun, Option.map_some, Option.some.injEq] at huser
  have hin : CredentialRuns exampleTokens (revokeSession exampleTokens "" s)
      (createSession exampleTokens 1 (revokeSession exampleTokens "" s)) :=
    .step (a := .login 1) .refl trivial (if_pos huser)
  refine ⟨_, _, hs.trans hout, hin, ?_⟩
  have hevent : exampleStore.map (fun s => decide (.sessionCreated "" 1 0 ∈ s.trace)) = some true := by
    decide +kernel
  have hrefused : exampleStore.map (fun s =>
      (validateSessionToken ((revokeSession exampleTokens "" s).db exampleTokens) "").isNone) =
      some true := by decide +kernel
  rw [hrun, Option.map_some, Option.some.injEq] at hevent hrefused
  exact (never_again_of_runs exampleTokens [] _ _ (hs.trans hout) hin (.sessionCreated "" 1 0)
    (List.mem_append_left _ (of_decide_eq_true hevent)) "" rfl).1 (Option.isNone_iff_eq_none.mp hrefused)

end OpenHost.Web
