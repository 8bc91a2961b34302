import OpenHost.Web.Origin

/-!
# The CORS preflight of service calls

A browser asks before it lets the page of one app call a service.  The preflight looks the raw
`Origin` header up as a host name; the call itself parses the header first.
-/

namespace OpenHost.Web

open Text (lower before)
open Domains (Domain)

/-! ## The handler -/

/-- A response of the preflight: its status and headers. -/
structure PreflightResponse where
  statusCode : Nat
  headers : List (String × String)
  deriving DecidableEq, Repr

/-- `_cors_headers` -/
def corsHeaders (origin : String) : List (String × String) :=
  [("Access-Control-Allow-Origin", origin),
   ("Access-Control-Allow-Credentials", "true"),
   ("Access-Control-Allow-Methods", "GET, POST, PUT, DELETE, PATCH, OPTIONS"),
   ("Access-Control-Allow-Headers", "Content-Type, Authorization")]

/-- `service_call_cors`: `none` is a `PermissionDeniedException`. -/
def serviceCallCors (headers : List (String × String)) (db : Db) : Option PreflightResponse :=
  match getHeader headers "origin" with
  | none => none
  | some origin =>
      if (getAppFromHostname origin db).isNone then none
      else some ⟨204, corsHeaders origin⟩

/-- The preflight accepts this request. -/
def PreflightAccepts (headers : List (String × String)) (db : Db) : Prop :=
  (serviceCallCors headers db).isSome = true

/-- The call is attributed to an installed app. -/
def AttributedToApp (fw : Framework) (c : Connection) (db : Db) : Prop :=
  ∃ app ∈ db.apps, verifyAppAuth fw c db = .accepted app.appId

/-- Preflight and call agree on the origin, and the preflight echoes what was sent. -/
structure PreflightAgrees (fw : Framework) (preflight : List (String × String)) (call : Connection)
    (db : Db) (sent : String) : Prop where
  agree : PreflightAccepts preflight db ↔ AttributedToApp fw call db
  echoes : ∀ r, serviceCallCors preflight db = some r →
    r.headers.lookup "Access-Control-Allow-Origin" = some sent

/-! ## What the two lookups see -/

section Lookups

variable {fw : Framework}

/-- The formatted origin is looked up under the host it was made of. -/
theorem hostNoPort_shown (host : String) (port : Option Nat) :
    Domain.hostNoPort (lower host ++ BrowserOrigin.shownPort port) = lower (before ':' host) := by
  have hkeep : before ':' (lower host ++ BrowserOrigin.shownPort port) = before ':' (lower host) := by
    by_cases h : ':' ∈ (lower host).toList
    · -- the first colon is one of the host
      obtain ⟨l, r, hsplit, hl⟩ := List.eq_append_cons_of_mem h
      rw [← String.toList_inj, Text.toList_before, Text.toList_before, String.toList_append, hsplit]
      have hp : ∀ c ∈ l, decide (c ≠ ':') = true := by
        intro c hc
        simp only [decide_eq_true_eq]
        rintro rfl
        exact hl hc
      rw [List.append_assoc, List.takeWhile_append_of_pos hp, List.takeWhile_append_of_pos hp]
      simp
    · rw [before_of_no_colon h]
      cases port with
      | none => simpa [BrowserOrigin.shownPort] using before_of_no_colon h
      | some n =>
        cases n with
        | zero => simpa [BrowserOrigin.shownPort] using before_of_no_colon h
        | succ n =>
          rw [BrowserOrigin.shownPort, ← String.append_assoc]
          exact before_append_colon h _
  rw [Domain.hostNoPort, hkeep, Text.before_lower, Text.lower_lower]

/-- The preflight looks the scheme up. -/
theorem preflightAccepts_iff {o : BrowserOrigin fw} {headers : List (String × String)} {db : Db}
    (h : getHeader headers "origin" = some o.raw) :
    PreflightAccepts headers db ↔ ∃ app, o.SchemeNames db app := by
  have hlookup : PreflightAccepts headers db ↔ ∃ app, NamesApp db o.raw app := by
    rw [PreflightAccepts, serviceCallCors]
    simp only [h]
    cases hget : getAppFromHostname o.raw db with
    | none =>
      simp only [Option.isNone_none, if_true, Option.isSome_none, Bool.false_eq_true, false_iff]
      rintro ⟨app, happ⟩
      rw [getAppFromHostname_eq_some_iff.mpr happ] at hget
      cases hget
    | some app =>
      simp only [Option.isNone_some, Bool.false_eq_true, if_false, Option.isSome_some, true_iff]
      exact ⟨app, getAppFromHostname_eq_some_iff.mp hget⟩
  rw [hlookup]
  cases o with
  | null =>
    have hdot : '.' ∉ (Domain.hostNoPort "null").toList := by decide
    simp only [BrowserOrigin.raw, BrowserOrigin.SchemeNames, exists_false, iff_false]
    rintro ⟨app, happ⟩
    exact not_namesApp_of_no_dot hdot happ
  | tuple scheme host port alpha chars small =>
    -- the first colon of the header is the one after the scheme
    have hcolon : ':' ∉ scheme.toList := fun hmem =>
      (visible_of_isSchemeChar (List.all_eq_true.mp chars _ hmem)).2 rfl
    have hraw : BrowserOrigin.raw (.tuple scheme host port alpha chars small) =
        scheme ++ ":" ++ ("//" ++ BrowserOrigin.hostText host ++ BrowserOrigin.portText port) := by
      have hsep : "://" = ":" ++ "//" := rfl
      simp only [BrowserOrigin.raw, hsep, String.append_assoc]
    have hhost : Domain.hostNoPort
        (BrowserOrigin.raw (.tuple scheme host port alpha chars small)) =
          Domain.hostNoPort scheme := by
      rw [hraw, Domain.hostNoPort, before_append_colon hcolon, Domain.hostNoPort,
        before_of_no_colon hcolon]
    simp only [BrowserOrigin.SchemeNames, namesApp_congr hhost]

theorem formatOrigin_null : formatOrigin fw "null" = some "null" := by
  have hnet : splitNetloc (dropScheme (cleanUrl "null".toList)) = [] := by decide
  have htext : Text.orElse (some (lower (Text.stripBlank "null"))) "null" = "null" := by decide
  have hok : netlocOk fw [] = true := by simp [netlocOk]
  have hhost : hostAndPort [] = ([], []) := rfl
  have hport : portOf [] = some none := rfl
  rw [formatOrigin, hnet]
  simp only [hok, hhost, hport, htext, if_true]

/-- What `get_connection_origin` makes of an origin is looked up under the host of the origin. -/
theorem formatOrigin_raw (o : BrowserOrigin fw) :
    ∃ origin, formatOrigin fw o.raw = some origin ∧
      ∀ db app, NamesApp db origin app ↔ o.HostNames db app := by
  cases o with
  | null =>
    refine ⟨"null", formatOrigin_null, ?_⟩
    intro db app
    exact iff_of_false (not_namesApp_of_no_dot (by decide)) (fun h => h)
  | tuple scheme host port alpha chars small =>
    cases host with
    | name host nonempty hchars =>
      have htame := fun c hc => tame_of_isHostChar (List.all_eq_true.mp hchars c hc)
      have hcolon : ':' ∉ host.toList := fun hmem => (htame _ hmem).2.1 rfl
      refine ⟨lower host ++ BrowserOrigin.shownPort port, ?_, ?_⟩
      · exact BrowserOrigin.formatOrigin_of_hostAndPort alpha chars small nonempty
          (fun c hc => (htame c hc).1.notPercent)
          (BrowserOrigin.hostAndPort_name host nonempty hchars port)
      · intro db app
        apply namesApp_congr
        rw [hostNoPort_shown, Domain.hostNoPort]
    | ipv6 address hchars group valid =>
      have htame := fun c hc => tame_of_isIPv6Char (List.all_eq_true.mp hchars c hc)
      have hne : address ≠ "" := by
        rintro rfl
        simp at group
      refine ⟨lower address ++ BrowserOrigin.shownPort port, ?_, ?_⟩
      · exact BrowserOrigin.formatOrigin_of_hostAndPort alpha chars small hne
          (fun c hc => (htame c hc).1.notPercent)
          (BrowserOrigin.hostAndPort_ipv6 address hchars group valid port)
      · intro db app
        -- up to its first colon an address has no dot
        apply iff_of_false
        · apply not_namesApp_of_no_dot
          rw [hostNoPort_shown]
          exact dot_not_mem_lower group.2
        · exact fun h => h

/-- A call with the owner's session is attributed by the host of the origin. -/
theorem attributedToApp_iff {o : BrowserOrigin fw} {call : Connection} {db : Db}
    {u : AuthenticatedUser} (horigin : getHeader call.headers "origin" = some o.raw)
    (huser : authenticate fw call db = some (.user u)) :
    AttributedToApp fw call db ↔ ∃ app, o.HostNames db app := by
  obtain ⟨origin, hformat, hnames⟩ := formatOrigin_raw o
  have horigin' : getConnectionOrigin fw call = some (some origin) := by
    simp [getConnectionOrigin, horigin, hformat]
  constructor
  · rintro ⟨app, -, heq⟩
    cases hget : getAppFromHostname origin db with
    | none => simp [verifyAppAuth, horigin', huser, hget] at heq
    | some found => exact ⟨found, (hnames db found).mp (getAppFromHostname_eq_some_iff.mp hget)⟩
  · rintro ⟨app, happ⟩
    have happ' := (hnames db app).mpr happ
    refine ⟨app, happ'.mem, ?_⟩
    simp [verifyAppAuth, horigin', huser, getAppFromHostname_eq_some_iff.mpr happ']

end Lookups

/-! ## When the two agree -/

/-- For an owner's call and the preflight before it: the two agree on an origin exactly when its
scheme names an installed app as its host does.  No installed app has a host without a dot, so of
the origins that pages of installed apps have under `http` or `https` none is accepted. -/
theorem preflightAgrees_iff {fw : Framework} {o : BrowserOrigin fw} {db : Db}
    {preflight : List (String × String)} {call : Connection} {u : AuthenticatedUser}
    (hpreflight : getHeader preflight "origin" = some o.raw)
    (hcall : getHeader call.headers "origin" = some o.raw)
    (huser : authenticate fw call db = some (.user u)) :
    PreflightAgrees fw preflight call db o.raw ↔
      ((∃ app, o.SchemeNames db app) ↔ ∃ app, o.HostNames db app) := by
  have hechoes : ∀ r, serviceCallCors preflight db = some r →
      r.headers.lookup "Access-Control-Allow-Origin" = some o.raw := by
    intro r hr
    simp only [serviceCallCors, hpreflight] at hr
    split at hr
    · cases hr
    · rw [← Option.some.inj hr]
      rfl
  constructor
  · intro h
    rw [← preflightAccepts_iff hpreflight, ← attributedToApp_iff hcall huser]
    exact h.agree
  · intro h
    refine ⟨?_, hechoes⟩
    rw [preflightAccepts_iff hpreflight, attributedToApp_iff hcall huser]
    exact h

/-- The app `notes` on the domain `example.com`, and the session of its owner. -/
def notesDb : Db where
  domains := [{ name := "example.com", tls := true, mdns := false, isPrimary := true }]
  apps := [⟨"a1", "notes", 9000, .array []⟩]
  sessions := [⟨"secret", ⟨1, "owner"⟩, 10⟩]
  apiTokens := []
  appTokens := []
  now := 0
  hash := id

/-- A call by the owner's browser with this origin. -/
def callFrom (origin : String) : Connection where
  type := .http
  method := "POST"
  rawPath := []
  queryString := []
  headers := [("host", "example.com"), ("origin", origin), ("cookie", "session_token=secret")]
  client := some "127.0.0.1"
  body := []
  cut := by decide

/-- The page of an installed app. -/
def notesOrigin : BrowserOrigin plainFramework :=
  .tuple "https" (.name "notes.example.com" (by decide) (by decide)) none (by decide) (by decide)
    (by simp)

theorem notesOrigin_hostNames : notesOrigin.HostNames notesDb ⟨"a1", "notes", 9000, .array []⟩ := by
  have hdomains : ∀ d ∈ Domains.effectiveDomains notesDb.domains,
      d = ⟨"example.com", true, false⟩ := by
    intro d hd
    obtain ⟨r, hr, rfl⟩ := Domains.mem_effectiveDomains.mp hd
    rw [List.mem_singleton.mp hr]
    decide
  have hmem : (⟨"example.com", true, false⟩ : Domain) ∈
      Domains.effectiveDomains notesDb.domains :=
    Domains.mem_effectiveDomains.mpr ⟨_, List.mem_singleton.mpr rfl, by decide⟩
  refine ⟨⟨"example.com", true, false⟩, ⟨hmem, by decide, ?_⟩, by decide, by decide, by decide⟩
  intro e he _
  rw [hdomains e he]

/-- The browser asks whether the page of an installed app may call, and is refused, although the
call would be attributed to the app. -/
theorem notesOrigin_not_preflightAgrees :
    ¬ PreflightAgrees plainFramework [("origin", "https://notes.example.com")]
      (callFrom "https://notes.example.com") notesDb "https://notes.example.com" := by
  intro h
  have hattributed : AttributedToApp plainFramework (callFrom "https://notes.example.com") notesDb :=
    (attributedToApp_iff (o := notesOrigin) (u := ⟨1, "owner"⟩) (by decide) (by decide)).mpr
      ⟨_, notesOrigin_hostNames⟩
  obtain ⟨app, happ⟩ := (preflightAccepts_iff (o := notesOrigin) (by decide)).mp
    (h.agree.mpr hattributed)
  exact not_namesApp_of_no_dot (by decide) happ

/-- Of a sandboxed page both answer the same. -/
theorem nullOrigin_preflightAgrees :
    PreflightAgrees plainFramework [("origin", "null")] (callFrom "null") notesDb "null" :=
  (preflightAgrees_iff (o := (.null : BrowserOrigin plainFramework)) (u := ⟨1, "owner"⟩)
    (by decide) (by decide) (by decide)).mpr
    (iff_of_false (fun ⟨_, h⟩ => h) (fun ⟨_, h⟩ => h))

end OpenHost.Web
