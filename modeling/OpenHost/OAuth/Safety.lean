import OpenHost.OAuth.Kept

/-!
# What the app hands out and asks for

The handlers keep the invariant, so in every run each event rests on what came before it: a token is
handed out only to a caller whose grants cover what it is for, and only one that a flow for the same
provider and scopes has brought; each grant that the app asks for belongs to such a flow, begun for the
consumer that is granted; and no flow is taken twice.
-/

namespace OpenHost.OAuth

open Coop (Spec)
open Text (truthy?)

variable {S : Setting} {s : State}

/-! ## Handlers -/

/-- The response gives no token and names no account. -/
def Response.plain : Response → Bool
  | .token _ _ | .accounts _ => false
  | _ => true

theorem answerJustified_of_plain {before : List Event} {r : Request} {response : Response}
    (h : response.plain = true) : AnswerJustified S before r response := by
  cases response with
  | token accessToken expiresAt => cases h
  | accounts l => cases h
  | _ => trivial

theorem covered_of_check {caller : Caller} {provider : String} {scopes : List String}
    {account : Option String} {missing : List String}
    (h : checkOauthV2Permission S.lim caller.permissions provider scopes account = .ok missing)
    (hmissing : ¬ missing ≠ []) : Covered S.lim caller.permissions provider scopes account := by
  obtain ⟨grants, hgrants, hmem⟩ := checkOauthV2Permission_ok h
  refine ⟨grants, hgrants, ?_⟩
  intro x hx
  by_contra hnone
  have hin := (hmem x).mpr ⟨hx, hnone⟩
  rw [not_not.mp hmissing] at hin
  exact absurd hin List.not_mem_nil

theorem spec_validated {provider : String} {ok : Bool} {p : Handler Response}
    {P : Response → State → Prop} (h : ok = true → Spec (contract S) s p P)
    (hrefused : ∀ s', P .validationError s') :
    Spec (contract S) s (validated provider ok p) P := by
  apply (Spec.reads State.providers).bind
  rintro providers s' - ⟨-, rfl⟩
  split
  · rename_i hvalid
    exact h ((Bool.and_eq_true _ _).mp hvalid).2
  · exact Spec.pure (hrefused _)

theorem spec_authorizeResponse {providerName : String} {scopes : List String}
    {returnTo account consumerApp : String} {r : Request} (hr : Event.received r ∈ s.trace)
    (hbegins : r.Begins ⟨providerName, scopes, account, none⟩)
    (hconsumer : consumerApp ≠ "" → r.Begins ⟨providerName, scopes, account, some consumerApp⟩) :
    Spec (contract S) s
      (authorizeResponse S.config S.secret providerName scopes returnTo account consumerApp)
      fun response _ => response.plain = true := by
  apply (spec_providerOf providerName).bind
  rintro provider s' - rfl
  split
  · split
    · exact Spec.pure rfl
    · exact Spec.pure rfl
  · apply (spec_catchCredentials (spec_getProviderCreds providerName)).bind
    intro creds s₁ hrel₁ _
    split
    · exact Spec.pure rfl
    · apply (Spec.reads State.redirectUri).bind
      rintro redirectUri s₂ - ⟨-, rfl⟩
      have hr₂ := mem_of_rel hrel₁ hr
      apply (spec_buildAuthUrl ⟨r, hr₂, hbegins⟩).bind
      intro url s₃ hrel₃ hlast
      obtain ⟨key, flow, hlast, horigin⟩ := hlast
      split
      · rename_i hne
        refine (spec_attachConsumer hlast ⟨r, mem_of_rel hrel₃ hr₂, ?_⟩).bind ?_
        · rw [horigin]
          exact hconsumer hne
        · exact fun _ _ _ _ => Spec.pure rfl
      · exact Spec.pure rfl

theorem spec_getTokenRequest {caller : Caller} {data : TokenRequest}
    (hr : Event.received (.token caller data) ∈ s.trace) (hscopes : data.scopes ≠ []) :
    Spec (contract S) s (getTokenRequest S.lim S.config S.secret caller data)
      fun response s' => AnswerJustified S s'.trace (.token caller data) response := by
  unfold getTokenRequest
  split
  · rename_i hnew
    refine (spec_authorizeResponse hr ⟨rfl, rfl, hnew.symm, Or.inl rfl⟩ ?_).weaken ?_
    · exact fun _ => ⟨rfl, rfl, hnew.symm, Or.inr ⟨hnew, rfl⟩⟩
    · exact fun _ _ _ _ h => answerJustified_of_plain h
  · apply (spec_orRaise _).bind
    rintro missing s' - ⟨hcheck, rfl⟩
    split
    · exact Spec.pure (answerJustified_of_plain rfl)
    · rename_i hmissing
      have hcovered := covered_of_check hcheck hmissing
      apply (spec_catchCredentials spec_getValidToken).bind
      intro result s₁ hrel₁ hresult
      split
      · exact Spec.pure (answerJustified_of_plain rfl)
      · exact Spec.pure ⟨caller, data, rfl, hscopes, hcovered, hresult _ rfl _ _ rfl⟩
      · refine (spec_authorizeResponse (mem_of_rel hrel₁ hr) ⟨rfl, rfl, rfl, Or.inl rfl⟩ ?_).weaken ?_
        · exact fun hne => absurd rfl hne
        · exact fun _ _ _ _ h => answerJustified_of_plain h

theorem spec_svcAccounts {caller : Caller} {data : AccountsRequest} (hne : data.scopes ≠ []) :
    Spec (contract S) s (svcAccounts S.lim S.config caller data)
      fun response s' => AnswerJustified S s'.trace (.accounts caller data) response := by
  apply Spec.of_inv
  intro hinv
  apply (spec_orRaise _).bind
  rintro missing s' - ⟨hcheck, rfl⟩
  split
  · exact Spec.pure (answerJustified_of_plain rfl)
  · rename_i hmissing
    apply (Spec.reads State.tokens).bind
    rintro tokens s'' - ⟨rfl, rfl⟩
    apply Spec.pure
    refine ⟨caller, data, rfl, hne, covered_of_check hcheck hmissing, ?_⟩
    intro a ha
    obtain ⟨row, hrow, rfl⟩ := List.mem_map.mp ((List.mem_insertionSort _).mp ha)
    obtain ⟨hrow, hpick⟩ := List.mem_filter.mp hrow
    simp only [Bool.and_eq_true, decide_eq_true_eq] at hpick
    have hstands := hinv.rows row hrow
    obtain ⟨row₀, hmem, hid, hprovider, hscopes, haccount, -, -⟩ := hstands.source
    exact ⟨row₀, hmem, hprovider.trans hpick.1, hscopes.trans hpick.2, haccount, hid ▸ hstands.kept⟩

theorem spec_svcRevoke {caller : Caller} {data : RevokeRequest} :
    Spec (contract S) s (svcRevoke S.lim S.config caller data)
      fun response _ => response.plain = true := by
  apply (spec_orRaise _).bind
  rintro missing s' - ⟨-, rfl⟩
  split
  · exact Spec.pure rfl
  · apply spec_findAndRemoveToken.bind
    intro found s₁ _ hfound
    split
    · exact Spec.pure rfl
    · rename_i row
      obtain ⟨row₀, hmem, hprovider, htoken⟩ := hfound row rfl
      refine (spec_catchCredentials (P := fun _ _ => True) ?_).bind ?_
      · apply (spec_getProviderCreds _).bind
        intro creds s₂ hrel₂ _
        exact spec_revokeToken ⟨row₀, mem_of_rel hrel₂ hmem, hprovider,
          htoken.imp id fun h => h.mono hrel₂.trace⟩
      · exact fun _ _ _ _ => Spec.pure rfl

theorem spec_oauthGrant {provider scopes consumer returnTo : String}
    (hr : Event.received (.grant provider scopes consumer returnTo) ∈ s.trace) :
    Spec (contract S) s (oauthGrant S.config S.secret provider scopes consumer returnTo)
      fun response _ => response.plain = true := by
  apply (Spec.reads State.providers).bind
  rintro providers s' - ⟨-, rfl⟩
  split
  · exact Spec.pure rfl
  · split
    · exact Spec.pure rfl
    · split
      · exact Spec.pure rfl
      · split
        · exact Spec.pure rfl
        · apply (spec_catchCredentials (spec_getProviderCreds provider)).bind
          intro creds s₁ hrel₁ _
          split
          · exact Spec.pure rfl
          · apply (Spec.reads State.redirectUri).bind
            rintro redirectUri s₂ - ⟨-, rfl⟩
            have hr₂ := mem_of_rel hrel₁ hr
            refine (spec_buildAuthUrl ⟨_, hr₂, rfl, rfl, rfl, Or.inl rfl⟩).bind ?_
            intro url s₃ hrel₃ hlast
            obtain ⟨key, flow, hlast, horigin⟩ := hlast
            refine (spec_attachConsumer hlast ⟨_, mem_of_rel hrel₃ hr₂, ?_⟩).bind ?_
            · rw [horigin]
              exact ⟨rfl, rfl, rfl, Or.inr rfl⟩
            · exact fun _ _ _ _ => Spec.pure rfl

theorem spec_takeFlow (key : String) :
    Spec (contract S) s (takeFlow key) fun r s' =>
      ∀ flow, r = some flow → Event.taken key flow ∈ s'.trace := by
  apply (Spec.reads State.pendingAuthFlows).bind
  rintro pending s' - ⟨rfl, rfl⟩
  split
  · exact Spec.pure fun _ h => by cases h
  · rename_i flow hlookup
    refine (Spec.modify (C := contract S) ?_ ?_).bind ?_
    · exact fun hinv => inv_takeFlow hinv (mem_of_lookup hlookup)
    · exact rel_of (List.prefix_append _ _) (Nat.le_refl _)
    · rintro _ s'' - rfl
      apply Spec.pure
      intro flow' heq
      obtain rfl := Option.some.inj heq
      exact List.mem_append_right _ (List.mem_singleton_self _)

/-- The tokens of a flow are stored for what the flow was for, and its consumer is granted just that. -/
theorem spec_finishFlow {o : Origin} {serviceUrl : Option String} {result : TokenResult}
    (ho : Recorded s.trace o) (hissued : Issued s.trace o.provider result.accessToken result.refreshToken)
    (hurl : o.consumerApp = none ∨ serviceUrl = some oauthServiceUrl) :
    Spec (contract S) s (finishFlow o.provider o.scopes o.account o.consumerApp serviceUrl result)
      fun _ _ => True := by
  refine (spec_fetchAccountIdentity ⟨_, hissued⟩).bind ?_
  intro identity s₁ hrel₁ hidentity
  have ho₁ := ho.mono hrel₁.trace
  refine (spec_storeToken (hissued.mono hrel₁.trace) ⟨o, ho₁, rfl, rfl, ?_⟩).bind ?_
  · cases htruthy : truthy? identity with
    | none => exact Or.inl rfl
    | some account => exact Or.inr (hidentity account (truthy?_some htruthy))
  · intro _ s₂ hrel₂ hstored
    split
    · exact Spec.pure trivial
    · rename_i consumerApp htruthy
      have hconsumer := truthy?_some htruthy
      have hne : consumerApp ≠ "" := by
        intro hempty
        rw [hconsumer, hempty] at htruthy
        cases htruthy
      apply (spec_member _).bind
      rintro url s₃ - ⟨hsome, rfl⟩
      have hservice : url = oauthServiceUrl := by
        rcases hurl with hnone | hurl
        · rw [hconsumer] at hnone
          cases hnone
        · exact (Option.some.inj (hurl.symm.trans hsome)).symm
      refine (spec_ask (c := .grantAppScoped consumerApp url _) ⟨hservice, hne, ?_, ?_⟩).bind ?_
      · exact ⟨o, ho₁.mono hrel₂.trace, hconsumer, rfl, rfl⟩
      · exact hstored
      · intro reply s₄ _ _
        split
        · exact Spec.raise
        · exact Spec.pure trivial

/-- An event of the trace, with what came before it. -/
theorem justified_of_mem (hinv : Inv S s) {e : Event} (he : e ∈ s.trace) :
    ∃ before after, s.trace = before ++ e :: after ∧ Justified S before e := by
  obtain ⟨before, after, htrace⟩ := List.append_of_mem he
  exact ⟨before, after, htrace, hinv.trace before e after htrace⟩

/-- A consumer is granted the OAuth service and no other. -/
theorem serviceUrl_of_taken (hinv : Inv S s) {key : String} {flow : Flow}
    (h : Event.taken key flow ∈ s.trace) :
    flow.consumerApp = none ∨ flow.serviceUrl = some oauthServiceUrl := by
  obtain ⟨before, after, htrace, hbegan, -⟩ := justified_of_mem hinv h
  have hmem : Event.began key flow ∈ s.trace := by
    rw [htrace]
    exact List.mem_append_left _ hbegan
  obtain ⟨_, _, _, -, hurl⟩ := justified_of_mem hinv hmem
  exact hurl

theorem spec_oauthCallback {code oauthState error scope : String} :
    Spec (contract S) s (oauthCallback S.config code oauthState error scope)
      fun response _ => response.plain = true := by
  unfold oauthCallback
  split
  · exact Spec.pure rfl
  · split
    · exact Spec.pure rfl
    · apply (spec_takeFlow oauthState).bind
      intro flow s₁ _ htaken
      split
      · exact Spec.pure rfl
      · rename_i flow
        have hmem := htaken flow rfl
        dsimp only
        split
        · exact Spec.pure rfl
        · apply (spec_catchCredentials (spec_getProviderCreds flow.provider)).bind
          intro creds s₂ hrel₂ _
          have hmem₂ := mem_of_rel hrel₂ hmem
          split
          · exact Spec.pure rfl
          · apply (spec_exchangeCode ⟨_, flow, hmem₂, rfl, rfl⟩).bind
            intro result s₃ hrel₃ hresult
            split
            · exact Spec.pure rfl
            · rename_i tokens
              have hmem₃ := mem_of_rel hrel₃ hmem₂
              apply Spec.bind
              · apply Spec.of_inv
                intro hinv
                exact spec_finishFlow (o := flow.origin) (Or.inl ⟨_, flow, hmem₃, rfl⟩)
                  ⟨tokens, hresult tokens rfl, rfl, rfl⟩ (serviceUrl_of_taken hinv hmem₃)
              · exact fun _ _ _ _ => Spec.pure rfl

theorem spec_devicePage {provider scopes returnTo account consumer : String}
    (hr : Event.received (.device provider scopes returnTo account consumer) ∈ s.trace) :
    Spec (contract S) s (devicePage S.secret provider scopes returnTo account consumer)
      fun response _ => response.plain = true := by
  apply (Spec.reads State.providers).bind
  rintro providers s' - ⟨-, rfl⟩
  split
  · exact Spec.pure rfl
  · split
    · exact Spec.pure rfl
    · apply (spec_startDeviceFlow provider _).bind
      intro flowData s₁ hrel₁ _
      split
      · exact Spec.pure rfl
      · refine (spec_createDeviceFlow ⟨_, mem_of_rel hrel₁ hr, rfl, rfl, rfl, rfl⟩).bind ?_
        intro flowId s₂ _ _
        apply (Spec.reads State.activeDeviceFlows).bind
        rintro active s₃ - ⟨-, rfl⟩
        apply (spec_member _).bind
        exact fun _ _ _ _ => Spec.pure rfl

theorem spec_dropDeviceFlow (flowId : String) :
    Spec (contract S) s (dropDeviceFlow flowId) fun _ _ => True := by
  refine (Spec.modify ?_ ?_).weaken fun _ _ _ _ _ => trivial
  · exact inv_dropDeviceFlow
  · exact rel_of (List.prefix_refl _) (Nat.le_refl _)

theorem spec_devicePoll (flowId : String) :
    Spec (contract S) s (devicePoll flowId) fun response _ => response.plain = true := by
  apply Spec.of_inv
  intro hinv
  apply (Spec.reads State.activeDeviceFlows).bind
  rintro active s' - ⟨rfl, rfl⟩
  split
  · exact Spec.pure rfl
  · rename_i flow hlookup
    have hruns := hinv.device _ (mem_of_lookup hlookup)
    obtain ⟨flow₀, hmem, horigin⟩ := hruns.began
    split
    · rename_i result hstatus
      refine (spec_finishFlow (o := flow.origin) (Or.inr ⟨flowId, flow₀, hmem, horigin⟩)
        (hruns.issued result hstatus) (Or.inr rfl)).bind ?_
      intro _ s₁ _ _
      apply (spec_dropDeviceFlow flowId).bind
      exact fun _ _ _ _ => Spec.pure rfl
    · apply (spec_dropDeviceFlow flowId).bind
      exact fun _ _ _ _ => Spec.pure rfl
    · exact Spec.pure rfl

theorem spec_apiDeleteToken (id : Nat) :
    Spec (contract S) s (apiDeleteToken id) fun response _ => response.plain = true := by
  apply Spec.of_inv
  intro hinv
  apply (Spec.reads State.tokens).bind
  rintro tokens s' - ⟨rfl, rfl⟩
  split
  · exact Spec.pure rfl
  · rename_i row hfind
    have hpick := List.find?_some hfind
    have hid : row.id = id := of_decide_eq_true hpick
    obtain ⟨row₀, hmem, hid₀, hprovider, htoken⟩ :=
      tokenToRevoke_of hinv (List.mem_of_find?_eq_some hfind)
    apply (spec_catchCredentials (spec_getProviderCreds row.provider)).bind
    intro creds s₁ hrel₁ _
    split
    · exact Spec.pure rfl
    · refine (spec_removeTokenById ⟨row₀, mem_of_rel hrel₁ hmem, hid₀.trans hid⟩).bind ?_
      intro _ s₂ hrel₂ _
      refine (spec_revokeToken ⟨row₀, mem_of_rel hrel₂ (mem_of_rel hrel₁ hmem), hprovider, ?_⟩).bind ?_
      · exact htoken.imp (fun h => h) fun h => h.mono (hrel₁.trace.trans hrel₂.trace)
      · exact fun _ _ _ _ => Spec.pure rfl

theorem spec_setMockProviderUrl (data : MockProviderUrlData) :
    Spec (contract S) s (setMockProviderUrl data) fun response _ => response.plain = true := by
  unfold setMockProviderUrl
  split
  · exact Spec.raise
  · refine (Spec.modify (C := contract S) ?_ ?_).bind ?_
    · exact fun h => ⟨h.trace, h.rows, h.ids, h.unique, h.pending, h.taken, h.device, h.deviceIds,
        h.deviceUnique⟩
    · exact rel_of (List.prefix_refl _) (Nat.le_refl _)
    · exact fun _ _ _ _ => Spec.pure rfl

/-! ## Requests -/

theorem spec_handler {r : Request} (hr : Event.received r ∈ s.trace) :
    Spec (contract S) s (handler S.lim S.config S.secret r)
      fun response s' => AnswerJustified S s'.trace r response := by
  have hplain : ∀ {p : Handler Response},
      Spec (contract S) s p (fun response _ => response.plain = true) →
      Spec (contract S) s p fun response s' => AnswerJustified S s'.trace r response := fun h =>
    h.weaken fun _ _ _ _ hresponse => answerJustified_of_plain hresponse
  cases r with
  | token caller data =>
    refine spec_validated (fun hok => ?_) fun _ => trivial
    exact spec_getTokenRequest hr (of_decide_eq_true hok)
  | accounts caller data =>
    refine spec_validated (fun hok => ?_) fun _ => trivial
    exact spec_svcAccounts (of_decide_eq_true hok)
  | revoke caller data => exact spec_validated (fun _ => hplain spec_svcRevoke) fun _ => trivial
  | grant provider scopes consumer returnTo => exact hplain (spec_oauthGrant hr)
  | callback code oauthState error scope => exact hplain spec_oauthCallback
  | device provider scopes returnTo account consumer => exact hplain (spec_devicePage hr)
  | devicePoll flowId => exact hplain (spec_devicePoll flowId)
  | listTokens =>
    apply (Spec.reads State.tokens).bind
    exact fun _ _ _ _ => Spec.pure trivial
  | deleteToken id => exact hplain (spec_apiDeleteToken id)
  | setMockProviderUrl data => exact hplain (spec_setMockProviderUrl data)

theorem spec_serve {r : Request} (hr : S.Vouched r s.trace) :
    Spec (contract S) s (serve S.lim S.config S.secret r) fun _ _ => True := by
  refine (spec_log (e := .received r) rfl hr).bind ?_
  intro _ s₁ _ hs₁
  have hmem : Event.received r ∈ s₁.trace := by
    rw [hs₁]
    exact List.mem_append_right _ (List.mem_singleton_self _)
  apply Spec.bind
    (P := fun response s' => Event.received r ∈ s'.trace ∧ AnswerJustified S s'.trace r response)
  · apply Spec.tryExcept
    · exact (spec_handler hmem).weaken fun _ _ hrel _ h => ⟨mem_of_rel hrel hmem, h⟩
    · exact fun _ _ hrel => Spec.pure ⟨mem_of_rel hrel hmem, trivial⟩
  · intro response s₂ _ hresponse
    exact (spec_log (e := .answered r response) rfl hresponse).weaken fun _ _ _ _ _ => trivial

/-- Every job of the loop keeps the contract. -/
theorem kept (S : Setting) : (contract S).Kept (body S.lim S.config S.secret) := by
  intro job s hinv hpre
  cases job with
  | request r => exact (spec_serve hpre).keeps hinv
  | pollDeviceFlow flowId => exact (spec_pollDeviceFlow flowId).keeps hinv
  | pollAgain flowId flow interval => exact (spec_pollTurn hpre).keeps hinv

end OpenHost.OAuth
