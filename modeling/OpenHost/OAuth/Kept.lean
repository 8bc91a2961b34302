import OpenHost.OAuth.Justified

/-!
# What each function keeps

One specification for each function of the app: from a state in which the invariant holds, whatever
happens while the function waits, it keeps the invariant, and it returns what the events so far bear
out.  Callers cite the specification and never unfold the function.
-/

namespace OpenHost.OAuth

open Coop (Spec)
open Text (truthy?)

variable {S : Setting} {s : State}

/-! ## Steps -/

theorem rel_of {s' : State} (htrace : s.trace <+: s'.trace) (hid : s.nextId ≤ s'.nextId) :
    (contract S).rel s s' := ⟨htrace, hid⟩

theorem mem_of_rel {s' : State} {e : Event} (h : (contract S).rel s s') (he : e ∈ s.trace) :
    e ∈ s'.trace := h.trace.subset he

theorem spec_log {e : Event} (hplain : e.plain = true) (he : Justified S s.trace e) :
    Spec (contract S) s (log e) fun _ s' => s' = { s with trace := s.trace ++ [e] } := by
  apply Spec.modify
  · exact fun hinv => inv_log hinv hplain he
  · exact ⟨List.prefix_append _ _, Nat.le_refl _⟩

theorem spec_ask {c : Call} (hc : CallJustified s.trace c) :
    Spec (contract S) s (ask c) fun _ s' => Event.called c ∈ s'.trace := by
  refine (spec_log (e := .called c) rfl hc).bind ?_
  intro _ s' _ hs'
  apply Spec.answer
  intro _ s'' hrel _
  apply mem_of_rel hrel
  rw [hs']
  exact List.mem_append_right _ (List.mem_singleton_self _)

theorem spec_start {j : Job} (h : Pre S j s) :
    Spec (contract S) s (Coop.start j : Handler Unit) fun _ s' => s' = s := Spec.start h

theorem spec_orRaise {α : Type} (r : Except Raised α) :
    Spec (contract S) s (orRaise r) fun a s' => r = .ok a ∧ s' = s := by
  cases r with
  | error e => exact Spec.raise
  | ok a => exact Spec.pure ⟨rfl, rfl⟩

theorem spec_member {α : Type} (v : Option α) :
    Spec (contract S) s (member v) fun a s' => v = some a ∧ s' = s := by
  apply (spec_orRaise _).weaken
  intro a s' _ _ h
  cases v with
  | none => cases h.1
  | some b => exact ⟨congrArg some (Except.ok.inj h.1), h.2⟩

theorem spec_providerOf (providerName : String) :
    Spec (contract S) s (providerOf providerName) fun _ s' => s' = s := by
  apply (Spec.reads State.providers).bind
  rintro providers s' - ⟨-, rfl⟩
  exact (spec_orRaise _).weaken fun _ _ _ _ h => h.2

theorem spec_catchCredentials {α : Type} {p : Handler α} {P : α → State → Prop}
    (h : Spec (contract S) s p P) :
    Spec (contract S) s (catchCredentials p) fun r s' => ∀ a, r = .ok a → P a s' := by
  apply Spec.tryExcept
  · apply h.bind
    intro a s' _ ha
    apply Spec.pure
    intro b hb
    obtain rfl := Except.ok.inj hb
    exact ha
  · intro e s' _
    split
    · exact Spec.pure fun a ha => by cases ha
    · exact Spec.raise

/-! ## Credentials -/

theorem spec_fetchSecrets (keys : List String) :
    Spec (contract S) s (fetchSecrets keys) fun _ _ => True := by
  apply (spec_ask (c := .fetchSecrets keys) trivial).bind
  intro reply s' _ _
  split
  · exact Spec.raise
  · split
    · split
      · exact Spec.raise
      · exact Spec.pure trivial
    · exact Spec.raise

theorem spec_getProviderCreds (providerName : String) :
    Spec (contract S) s (getProviderCreds providerName) fun _ _ => True := by
  unfold getProviderCreds
  split
  · apply (spec_fetchSecrets _).bind
    intro secrets s' _ _
    split
    · exact Spec.pure trivial
    · exact Spec.raise
  · apply (spec_providerOf providerName).bind
    intro p s' _ _
    split
    · exact Spec.pure trivial
    · exact Spec.raise

/-! ## The flow with a code -/

section

variable {config : Config} {secret : Nat → String}

theorem spec_tokenUrlsafe :
    Spec (contract S) s (tokenUrlsafe secret) fun a s' =>
      a = secret s.drawn ∧ s' = { s with drawn := s.drawn + 1 } := by
  apply (Spec.reads State.drawn).bind
  rintro drawn s' - ⟨rfl, rfl⟩
  refine (Spec.modify inv_tokenUrlsafe (rel_of (List.prefix_refl _) (Nat.le_refl _))).bind ?_
  rintro _ s'' - rfl
  exact Spec.pure ⟨rfl, rfl⟩

theorem spec_putFlow {key : String} {flow : Flow}
    (hbegins : Justified S s.trace (.began key flow)) (hdrawn : Drawn S s key)
    (huntaken : ∀ flow', Event.taken key flow' ∉ s.trace) :
    Spec (contract S) s (putFlow key flow) fun _ s' =>
      s'.pendingAuthFlows = setItem key flow s.pendingAuthFlows := by
  refine (Spec.modify ?_ ?_).weaken ?_
  · exact fun hinv => inv_putFlow hinv hbegins hdrawn huntaken
  · exact ⟨List.prefix_append _ _, Nat.le_refl _⟩
  · rintro _ _ - - rfl
    rfl

/-- A key that has not been drawn yet names no flow. -/
theorem new_key {key : String} (h : Drawn S s key) :
    key ≠ stateText S.config (S.secret s.drawn) := by
  obtain ⟨n, hn, rfl⟩ := h
  intro heq
  have hsame := S.fresh (stateText_injective S.config heq)
  omega

theorem setItem_of_new {β : Type} {key : String} {v : β} {d : List (String × β)}
    (h : ∀ m ∈ d, m.1 ≠ key) : setItem key v d = d ++ [(key, v)] := by
  have hany : d.any (·.1 = key) = false := by
    rw [List.any_eq_false]
    intro m hm hkey
    exact h m hm (of_decide_eq_true hkey)
  rw [setItem, hany]
  rfl

/-- The flow that has just begun is the last one. -/
theorem spec_buildAuthUrl {providerName : String} {scopes : List String}
    {redirectUri returnTo clientId account : String}
    (hbegins : ∃ r, Event.received r ∈ s.trace ∧ r.Begins ⟨providerName, scopes, account, none⟩) :
    Spec (contract S) s
      (buildAuthUrl S.config S.secret providerName scopes redirectUri returnTo clientId account)
      fun _ s' => ∃ key flow, s'.pendingAuthFlows.getLast? = some (key, flow) ∧
        flow.origin = ⟨providerName, scopes, account, none⟩ := by
  apply Spec.of_inv
  intro hinv
  apply (spec_providerOf providerName).bind
  rintro provider s' - rfl
  apply spec_tokenUrlsafe.bind
  rintro nonce s'' - ⟨rfl, rfl⟩
  have hnew : ∀ m ∈ s'.pendingAuthFlows, m.1 ≠ stateText S.config (S.secret s'.drawn) :=
    fun m hm => new_key (hinv.pending m hm).2
  refine (spec_putFlow ⟨hbegins, Or.inl rfl⟩ ⟨s'.drawn, Nat.lt_succ_self _, rfl⟩ ?_).bind ?_
  · intro flow' htaken
    exact new_key (hinv.taken _ flow' htaken) rfl
  · intro _ s₂ _ hs₂
    apply (spec_member _).bind
    rintro authUrl s₃ - ⟨-, rfl⟩
    apply Spec.pure
    refine ⟨stateText S.config (S.secret s'.drawn),
      { provider := providerName, scopes, redirectUri, returnTo, account }, ?_, rfl⟩
    rw [hs₂, setItem_of_new hnew, List.getLast?_concat]

theorem spec_attachConsumer {key consumer : String} {flow : Flow}
    (hlast : s.pendingAuthFlows.getLast? = some (key, flow))
    (hbegins : ∃ r, Event.received r ∈ s.trace ∧
      r.Begins { flow.origin with consumerApp := some consumer }) :
    Spec (contract S) s (attachConsumer consumer) fun _ _ => True := by
  apply Spec.of_inv
  intro hinv
  apply (Spec.reads State.pendingAuthFlows).bind
  rintro pending s' - ⟨rfl, rfl⟩
  rw [hlast]
  have hpending := hinv.pending _ (List.mem_of_getLast? hlast)
  exact (spec_putFlow ⟨hbegins, Or.inr rfl⟩ hpending.2 hpending.1.untaken).weaken
    fun _ _ _ _ _ => trivial

theorem spec_exchangeCode {providerName code redirectUri clientId clientSecret : String}
    (hflow : ∃ key flow, Event.taken key flow ∈ s.trace ∧ flow.provider = providerName ∧
      flow.redirectUri = redirectUri) :
    Spec (contract S) s (exchangeCode providerName code redirectUri clientId clientSecret)
      fun r s' => ∀ result, r = .ok result → Event.issued providerName result ∈ s'.trace := by
  apply (spec_providerOf providerName).bind
  rintro provider s' - rfl
  apply (spec_member _).bind
  rintro url s' - ⟨-, rfl⟩
  refine (spec_ask (c := .exchangeCode providerName url clientId clientSecret code redirectUri)
    hflow).bind ?_
  intro reply s' _ hcalled
  apply (Spec.reads State.now).bind
  rintro now s'' - ⟨-, rfl⟩
  apply (spec_orRaise _).bind
  rintro result s' - ⟨-, rfl⟩
  split
  · exact Spec.pure fun result hresult => by cases hresult
  · rename_i tokens
    refine (spec_log (e := .issued providerName tokens) rfl
      (Or.inl ⟨_, _, _, _, _, hcalled⟩)).bind ?_
    rintro _ s'' - rfl
    apply Spec.pure
    intro result hresult
    obtain rfl := Except.ok.inj hresult
    exact List.mem_append_right _ (List.mem_singleton_self _)

end

/-! ## The flow on a device -/

theorem spec_startDeviceFlow (providerName : String) (scopes : List String) :
    Spec (contract S) s (startDeviceFlow providerName scopes) fun _ _ => True := by
  apply (spec_providerOf providerName).bind
  rintro provider s' - rfl
  apply (spec_member _).bind
  rintro url s' - ⟨-, rfl⟩
  apply (spec_member _).bind
  rintro clientId s' - ⟨-, rfl⟩
  refine (spec_ask (c := .deviceCode providerName url clientId scopes) trivial).bind ?_
  intro reply s' _ _
  split
  · exact Spec.raise
  · split
    · exact Spec.pure trivial
    · exact (spec_member _).weaken fun _ _ _ _ _ => trivial

theorem spec_createDeviceFlow {providerName : String} {scopes : List String} {flowData : Members}
    {account consumerApp : String} (hbegins : ∃ r, Event.received r ∈ s.trace ∧
      r.Begins ⟨providerName, scopes, account, some consumerApp⟩) :
    Spec (contract S) s
      (createDeviceFlow S.secret providerName scopes flowData account consumerApp)
      fun _ _ => True := by
  apply Spec.of_inv
  intro hinv
  apply spec_tokenUrlsafe.bind
  rintro flowId s' - ⟨rfl, rfl⟩
  -- the id is new
  have hnew : ∀ flow', Event.beganDevice (S.secret s.drawn) flow' ∉ s.trace := by
    intro flow' hmem
    obtain ⟨n, hn, hid⟩ := hinv.deviceIds _ flow' hmem
    have hsame := S.fresh hid
    omega
  apply (spec_member _).bind
  rintro deviceCode s' - ⟨-, rfl⟩
  apply (spec_member _).bind
  rintro userCode s' - ⟨-, rfl⟩
  apply (Spec.reads State.now).bind
  rintro now s' - ⟨-, rfl⟩
  refine (Spec.modify (C := contract S) ?_ ?_).bind ?_
  · exact fun hinv => inv_putDeviceFlow hinv hbegins ⟨s.drawn, Nat.lt_succ_self _, rfl⟩ hnew rfl
  · exact rel_of (List.prefix_append _ _) (Nat.le_refl _)
  · intro _ s' _ _
    refine (spec_start (j := .pollDeviceFlow _) trivial).bind ?_
    rintro _ s'' - rfl
    exact Spec.pure trivial

/-- An entry is changed, but not to a flow that has tokens. -/
theorem spec_updateDeviceFlow {flowId : String} {f : DeviceFlow → DeviceFlow}
    (horigin : ∀ flow, (f flow).origin = flow.origin)
    (hissued : Inv S s → ∀ flow, (flowId, flow) ∈ s.activeDeviceFlows → ∀ result,
      (f flow).status = .completed result →
        Issued s.trace (f flow).provider result.accessToken result.refreshToken) :
    Spec (contract S) s (updateDeviceFlow flowId f) fun _ s' => s'.trace = s.trace := by
  refine (Spec.modify ?_ ?_).weaken ?_
  · exact fun hinv => inv_updateDeviceFlow hinv horigin (hissued hinv)
  · exact rel_of (List.prefix_refl _) (Nat.le_refl _)
  · rintro _ _ - - rfl
    rfl

theorem spec_pollTurn {flowId : String} {flow : DeviceFlow} {interval : Nat}
    (hbegan : ∃ flow₀, Event.beganDevice flowId flow₀ ∈ s.trace ∧ flow₀.origin = flow.origin) :
    Spec (contract S) s (pollTurn flowId flow interval) fun _ _ => True := by
  obtain ⟨flow₀, hmem, horigin⟩ := hbegan
  -- the next turn counts on the same as this one
  have hagain : ∀ {s' : State} {n : Nat}, Event.beganDevice flowId flow₀ ∈ s'.trace →
      Spec (contract S) s' (Coop.start (.pollAgain flowId flow n) : Handler Unit) fun _ _ => True := by
    intro s' n hmem'
    exact (spec_start (j := .pollAgain flowId flow n) ⟨flow₀, hmem', horigin⟩).weaken
      fun _ _ _ _ _ => trivial
  apply (Spec.reads State.now).bind
  rintro now s' - ⟨-, rfl⟩
  split
  · refine (spec_ask (c := .sleep interval) trivial).bind ?_
    intro _ s₁ hrel₁ _
    apply (Spec.reads State.activeDeviceFlows).bind
    rintro active s' - ⟨-, rfl⟩
    split
    · exact Spec.pure trivial
    · apply (spec_providerOf flow.provider).bind
      rintro provider s' - rfl
      split
      · rename_i url clientId _ _
        refine (spec_ask (c := .pollToken flow.provider url clientId flow.deviceCode) trivial).bind ?_
        intro reply s₂ hrel₂ hcalled
        have hmem₂ := mem_of_rel hrel₂ (mem_of_rel hrel₁ hmem)
        split
        · exact hagain hmem₂
        · rename_i result _
          apply (Spec.reads State.now).bind
          rintro now s' - ⟨-, rfl⟩
          apply (spec_orRaise _).bind
          rintro poll s' - ⟨hpoll, rfl⟩
          split
          · exact hagain hmem₂
          · refine (spec_updateDeviceFlow ?_ ?_).bind ?_
            · exact fun _ => rfl
            · exact fun hinv f hf r hr => (hinv.device _ hf).issued r hr
            · intro _ s₃ _ htrace
              exact hagain (htrace ▸ hmem₂)
          · refine (spec_updateDeviceFlow ?_ ?_).weaken ?_
            · exact fun _ => rfl
            · exact fun _ f _ r hr => by cases hr
            · exact fun _ _ _ _ _ => trivial
          · rename_i tokens
            refine (spec_log (e := .issued flow.provider tokens) rfl
              (Or.inr ⟨_, _, _, hcalled⟩)).bind ?_
            rintro _ s₃ - rfl
            refine (spec_updateDeviceFlow ?_ ?_).weaken fun _ _ _ _ _ => trivial
            · exact fun _ => rfl
            · intro hinv f hf r hr
              obtain rfl := DeviceStatus.completed.inj hr
              -- the entry is for the flow that this turn polls
              obtain ⟨f₀, hf₀, hsame⟩ := (hinv.device _ hf).began
              obtain rfl : f₀ = flow₀ := hinv.deviceUnique flowId f₀ flow₀ hf₀
                (List.mem_append_left _ hmem₂)
              have hprovider : flow.provider = f.provider :=
                congrArg Origin.provider (horigin.symm.trans hsame)
              exact ⟨tokens, hprovider ▸ List.mem_append_right _ (List.mem_singleton_self _), rfl, rfl⟩
      · exact hagain (mem_of_rel hrel₁ hmem)
  · refine (spec_updateDeviceFlow ?_ ?_).weaken ?_
    · exact fun _ => rfl
    · exact fun _ f _ r hr => by cases hr
    · exact fun _ _ _ _ _ => trivial

theorem spec_pollDeviceFlow (flowId : String) :
    Spec (contract S) s (pollDeviceFlow flowId) fun _ _ => True := by
  apply Spec.of_inv
  intro hinv
  apply (Spec.reads State.activeDeviceFlows).bind
  rintro active s' - ⟨rfl, rfl⟩
  split
  · exact Spec.pure trivial
  · rename_i flow hflow
    apply (spec_providerOf flow.provider).bind
    rintro _ s'' - rfl
    exact spec_pollTurn (hinv.device _ (mem_of_lookup hflow)).began

/-! ## Identity, refreshing, revoking -/

theorem spec_fetchAccountIdentity {providerName accessToken : String}
    (hissued : ∃ refreshToken, Issued s.trace providerName accessToken refreshToken) :
    Spec (contract S) s (fetchAccountIdentity providerName accessToken) fun r s' =>
      ∀ identity, r = some identity →
        Event.identified providerName accessToken identity ∈ s'.trace := by
  apply (Spec.reads State.userinfoUrls).bind
  rintro urls s' - ⟨-, rfl⟩
  split
  · exact Spec.pure fun _ h => by cases h
  · rename_i url field _
    refine (spec_ask (c := .userinfo providerName url accessToken) hissued).bind ?_
    intro reply s' _ hcalled
    split
    · exact Spec.pure fun _ h => by cases h
    · split
      · split
        · exact Spec.pure fun _ h => by cases h
        · rename_i identity _
          refine (spec_log (e := .identified providerName accessToken identity) rfl
            ⟨_, hcalled⟩).bind ?_
          rintro _ s'' - rfl
          apply Spec.pure
          intro identity' heq
          obtain rfl := Option.some.inj heq
          exact List.mem_append_right _ (List.mem_singleton_self _)
      · exact Spec.pure fun _ h => by cases h

theorem spec_refreshAccessToken {providerName refreshToken clientId clientSecret : String}
    (hrow : ∃ row, Event.stored row ∈ s.trace ∧ row.provider = providerName ∧
      row.refreshToken = some refreshToken) :
    Spec (contract S) s (refreshAccessToken providerName refreshToken clientId clientSecret)
      fun r s' => ∀ m, r = some m → ∃ url clientId clientSecret,
        Event.called (.refresh providerName url clientId clientSecret refreshToken) ∈ s'.trace := by
  apply (spec_providerOf providerName).bind
  rintro provider s' - rfl
  split
  · exact Spec.pure fun _ h => by cases h
  · rename_i url _
    refine (spec_ask (c := .refresh providerName url clientId clientSecret refreshToken)
      hrow).bind ?_
    intro reply s' _ hcalled
    split
    · exact Spec.pure fun _ h => by cases h
    · split
      · exact Spec.pure fun _ h => by cases h
      · exact Spec.pure fun _ _ => ⟨_, _, _, hcalled⟩

theorem spec_revokeToken {providerName token clientId clientSecret : String}
    (hrow : ∃ row, Event.stored row ∈ s.trace ∧ row.provider = providerName ∧
      (row.refreshToken = some token ∨ Current s.trace row token)) :
    Spec (contract S) s (revokeToken providerName token clientId clientSecret) fun _ _ => True := by
  apply (spec_providerOf providerName).bind
  rintro provider s' - rfl
  split
  · exact Spec.pure trivial
  · rename_i url _
    refine (spec_ask (c := .revoke providerName _ _ _ _ token) hrow).bind ?_
    intro reply s' _ _
    split
    · exact Spec.pure trivial
    · exact Spec.pure trivial

/-! ## Tokens -/

theorem spec_storeToken {provider scopesKey account : String} {result : TokenResult}
    (hissued : Issued s.trace provider result.accessToken result.refreshToken)
    (horigin : ∃ o, Recorded s.trace o ∧ o.provider = provider ∧ normalizeScopes o.scopes = scopesKey ∧
      (account = o.account ∨ Event.identified provider result.accessToken account ∈ s.trace)) :
    Spec (contract S) s (storeToken provider scopesKey account result) fun _ s' =>
      ∃ row, Event.stored row ∈ s'.trace ∧ row.provider = provider ∧ row.scopes = scopesKey ∧
        row.account = account := by
  refine (Spec.modify ?_ ?_).weaken ?_
  · exact fun hinv => inv_storeToken hinv rfl ⟨hissued, horigin⟩
  · exact rel_of (List.prefix_append _ _) (Nat.le_succ _)
  · rintro _ _ - - rfl
    exact ⟨_, List.mem_append_right _ (List.mem_singleton_self _), rfl, rfl, rfl⟩

theorem truthy?_some {v : Option String} {t : String} (h : truthy? v = some t) : v = some t := by
  unfold truthy? at h
  split at h
  · split at h
    · cases h
    · exact h
  · cases h

/-- What is true of a row of the table, in terms of what was stored. -/
theorem exists_stored (hinv : Inv S s) {row : StoredToken} (hrow : row ∈ s.tokens) :
    ∃ row₀, Event.stored row₀ ∈ s.trace ∧ row₀.id = row.id ∧ row₀.provider = row.provider ∧
      row₀.scopes = row.scopes ∧ row₀.account = row.account ∧ row₀.refreshToken = row.refreshToken ∧
      Current s.trace row₀ row.accessToken :=
  (hinv.rows row hrow).source

/-- Whichever of its tokens a row is revoked by, it is one of the provider's. -/
theorem tokenToRevoke_of (hinv : Inv S s) {row : StoredToken} (hrow : row ∈ s.tokens) :
    ∃ row₀, Event.stored row₀ ∈ s.trace ∧ row₀.id = row.id ∧ row₀.provider = row.provider ∧
      (row₀.refreshToken = some (tokenToRevoke row) ∨ Current s.trace row₀ (tokenToRevoke row)) := by
  obtain ⟨row₀, hmem, hid, hprovider, -, -, hrefresh, hcurrent⟩ := exists_stored hinv hrow
  refine ⟨row₀, hmem, hid, hprovider, ?_⟩
  unfold tokenToRevoke
  cases htruthy : truthy? row.refreshToken with
  | none => exact Or.inr hcurrent
  | some t =>
    rw [hrefresh, Option.getD_some]
    exact Or.inl (truthy?_some htruthy)

theorem spec_removeTokenById {id : Nat} (hrow : ∃ row, Event.stored row ∈ s.trace ∧ row.id = id) :
    Spec (contract S) s (removeTokenById id) fun _ s' => s'.trace = s.trace ++ [.removed id] := by
  obtain ⟨row, hmem, rfl⟩ := hrow
  refine (Spec.modify ?_ ?_).weaken ?_
  · exact fun hinv => inv_removeToken hinv hmem
  · exact rel_of (List.prefix_append _ _) (Nat.le_refl _)
  · rintro _ _ - - rfl
    rfl

theorem spec_findAndRemoveToken {provider scopesKey account : String} :
    Spec (contract S) s (findAndRemoveToken provider scopesKey account) fun r s' =>
      ∀ row, r = some row → ∃ row₀, Event.stored row₀ ∈ s'.trace ∧ row₀.provider = provider ∧
        (row₀.refreshToken = some (tokenToRevoke row) ∨ Current s'.trace row₀ (tokenToRevoke row)) := by
  apply Spec.of_inv
  intro hinv
  apply (Spec.reads State.tokens).bind
  rintro tokens s' - ⟨rfl, rfl⟩
  split
  · exact Spec.pure fun _ h => by cases h
  · rename_i row hfind
    have hpick := List.find?_some hfind
    simp only [Bool.and_eq_true, decide_eq_true_eq] at hpick
    obtain ⟨row₀, hmem, hid, hprovider, htoken⟩ := tokenToRevoke_of hinv (List.mem_of_find?_eq_some hfind)
    refine (spec_removeTokenById ⟨row₀, hmem, hid⟩).bind ?_
    intro _ s'' hrel _
    apply Spec.pure
    intro row' heq
    obtain rfl := Option.some.inj heq
    refine ⟨row₀, mem_of_rel hrel hmem, hprovider.trans hpick.1.1, ?_⟩
    exact htoken.imp id fun h => h.mono hrel.trace

/-- The rows that are selected have the provider, the scopes and, unless any will do, the account. -/
theorem mem_selectTokens {provider scopesKey account : String} {tokens : List StoredToken}
    {row : StoredToken} (h : row ∈ selectTokens provider scopesKey
      (if account ≠ "default" then some account else none) tokens) :
    row ∈ tokens ∧ row.provider = provider ∧ row.scopes = scopesKey ∧ Matches account row := by
  unfold selectTokens at h
  split at h
  · rename_i account' haccount
    have hsome := truthy?_some haccount
    obtain ⟨hrow, hpick⟩ := List.mem_filter.mp h
    simp only [Bool.and_eq_true, decide_eq_true_eq] at hpick
    refine ⟨hrow, hpick.1.1, hpick.1.2, ?_⟩
    intro hdefault _
    rw [if_pos hdefault] at hsome
    rw [Option.some.inj hsome]
    exact hpick.2
  · rename_i hnone
    obtain ⟨hrow, hpick⟩ := List.mem_filter.mp h
    simp only [Bool.and_eq_true, decide_eq_true_eq] at hpick
    refine ⟨hrow, hpick.1, hpick.2, ?_⟩
    intro hdefault hempty
    rw [if_pos hdefault, Text.truthy?_some_of_ne hempty] at hnone
    cases hnone

/-- A token that is handed out is one of a row that was stored for the provider, the scopes and the
account, or one that the row's refresh token gave. -/
theorem spec_getValidToken {providerName account : String} {scopes : List String} :
    Spec (contract S) s (getValidToken providerName scopes account) fun r s' =>
      ∀ accessToken expires, r = some (accessToken, expires) →
        ∃ row, Event.stored row ∈ s'.trace ∧ row.provider = providerName ∧
          row.scopes = normalizeScopes scopes ∧ Matches account row ∧
          Current s'.trace row accessToken := by
  apply Spec.of_inv
  intro hinv
  apply (Spec.reads State.tokens).bind
  rintro tokens s' - ⟨rfl, rfl⟩
  apply (Spec.reads State.now).bind
  rintro now s' - ⟨-, rfl⟩
  split
  · exact Spec.pure fun _ _ h => by cases h
  · rename_i token rest hselect
    obtain ⟨hrow, hprovider, hscopes, haccount⟩ := mem_selectTokens (hselect ▸ List.mem_cons_self)
    obtain ⟨row₀, hmem, hid, hprovider₀, hscopes₀, haccount₀, hrefresh₀, hcurrent⟩ :=
      exists_stored hinv hrow
    have hmatches : Matches account row₀ := by
      intro hdefault hempty
      rw [haccount₀]
      exact haccount hdefault hempty
    -- the token of the row itself
    have hown : ∀ e, Spec (contract S) s'
        (pure (some (token.accessToken, e)) : Handler (Option (String × Option Nat)))
        fun r s' => ∀ accessToken expires, r = some (accessToken, expires) →
          ∃ row, Event.stored row ∈ s'.trace ∧ row.provider = providerName ∧
            row.scopes = normalizeScopes scopes ∧ Matches account row ∧
            Current s'.trace row accessToken := by
      intro e
      apply Spec.pure
      intro accessToken expires heq
      obtain rfl := (Prod.mk.inj (Option.some.inj heq)).1
      exact ⟨row₀, hmem, hprovider₀.trans hprovider, hscopes₀.trans hscopes, hmatches, hcurrent⟩
    split
    · exact hown none
    · rename_i exp _
      split
      · exact hown (some exp)
      · split
        · exact Spec.pure fun _ _ h => by cases h
        · rename_i refreshToken htruthy
          have hrefresh : row₀.refreshToken = some refreshToken :=
            hrefresh₀.trans (truthy?_some htruthy)
          apply (spec_getProviderCreds providerName).bind
          intro creds s₁ hrel₁ _
          have hrow : ∃ row, Event.stored row ∈ s₁.trace ∧ row.provider = providerName ∧
              row.refreshToken = some refreshToken :=
            ⟨row₀, mem_of_rel hrel₁ hmem, hprovider₀.trans hprovider, hrefresh⟩
          refine (spec_refreshAccessToken hrow).bind ?_
          intro refreshed s₂ hrel₂ hcalled
          have hmem₂ := mem_of_rel hrel₂ (mem_of_rel hrel₁ hmem)
          split
          · exact Spec.pure fun _ _ h => by cases h
          · rename_i m
            split
            · exact Spec.pure fun _ _ h => by cases h
            · rename_i accessToken _
              apply (Spec.reads State.now).bind
              rintro now s₃ - ⟨-, rfl⟩
              refine (spec_log (e := .refreshed providerName refreshToken accessToken) rfl
                (hcalled m rfl)).bind ?_
              rintro _ s₄ - rfl
              have hprovider' : row₀.provider = providerName := hprovider₀.trans hprovider
              have hnow : Event.refreshed row₀.provider refreshToken accessToken ∈
                  s₃.trace ++ [.refreshed providerName refreshToken accessToken] := by
                rw [hprovider']
                exact List.mem_append_right _ (List.mem_singleton_self _)
              refine (Spec.modify (C := contract S) ?_ ?_).bind ?_
              · intro hinv'
                rw [← hid]
                exact inv_updateToken hinv' (List.mem_append_left _ hmem₂) hrefresh hnow
              · exact rel_of (List.prefix_refl _) (Nat.le_refl _)
              · rintro _ s₅ - rfl
                apply Spec.pure
                intro accessToken' expires heq
                obtain rfl := (Prod.mk.inj (Option.some.inj heq)).1
                exact ⟨row₀, List.mem_append_left _ hmem₂, hprovider', hscopes₀.trans hscopes,
                  hmatches, Or.inr ⟨refreshToken, hrefresh, hnow⟩⟩

end OpenHost.OAuth
