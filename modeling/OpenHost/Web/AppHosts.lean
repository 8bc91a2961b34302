import OpenHost.Domains.Operations
import OpenHost.Install.DefaultApps
import OpenHost.Library.Fields
import OpenHost.Web.Hosts

/-!
# The hosts of the apps

Adding and removing domains, installing, renaming and removing apps, as far as they decide which names
there are, and the hosts under which an app is then found.
-/

namespace OpenHost.Web

open Text (lower before stripBlank stripSuffix?)
open Apps (isValidAppName isNameChar)
open Domains (DomainRecord Domain matchDomain MostSpecific effectiveDomains getRecord seedRows replaceFields)
open Install (reservedPaths)

/-! ## The names that are accepted -/

/-- `_LABEL` -/
def isLabel (cs : List Char) : Bool :=
  cs.head?.any isNameChar && cs.getLast?.any isNameChar && cs.all fun c => isNameChar c || c = '-'

/-- `_DOMAIN_RE`; like every `$`, that of the pattern lets a final line break pass. -/
def isDomainName (s : String) : Bool :=
  let labels := ((stripSuffix? "\n" s).getD s).toList.splitOn '.'
  2 ≤ labels.length && labels.all isLabel

/-- `_validate_new_domain` -/
def validateNewDomain (name : String) (tls mdns : Bool) (rows : List DomainRecord) : Option String :=
  if name = "" then some "domain name is required"
  else if !isDomainName name then some "invalid domain name"
  else if mdns && tls then some "Local domains are served over HTTP; set tls=false"
  else if (effectiveDomains rows).any (·.nameNoPort = name) then some "domain is already configured"
  else none

/-- `validate_manifest`, of which only the name matters. -/
def nameRefused (name : String) (apps : List App) : Bool :=
  !isValidAppName name || "/" ++ name ∈ reservedPaths || apps.any (·.name = name)

/-! ## The operations -/

/-- The operations that change the domains or the names of apps. -/
inductive NameOp where
  | seedDomains (primary : Domain) (extras : List DomainRecord)
  | addDomain (name : String) (tls mdns : Bool)
  | removeDomain (name : String)
  /-- The current primary domain gives way to one that is ready. -/
  | makePrimary (name : String)
  | setRecordStatus (name : String) (status : Domains.DomainCertStatus) (error : Option String)
  /-- An app is installed with this row. -/
  | install (app : App)
  | rename (appId name : String)
  | remove (appId : String)

/-- `upsert_record`, of a record whose name is in lower case. -/
def upsertRow (record : DomainRecord) (rows : List DomainRecord) : List DomainRecord :=
  if rows.any (·.name = record.name) then
    rows.map fun r => if r.name = record.name then replaceFields record r else r
  else rows ++ [record]

/-- The rows after a domain was added. -/
def addedRows (name : String) (tls mdns : Bool) (rows : List DomainRecord) : List DomainRecord :=
  upsertRow { name := name, tls := tls, mdns := mdns,
              certStatus := if tls then .acquiring else .active } rows

/-- The app with the id gets the name. -/
def App.setName (appId name : String) (app : App) : App :=
  if app.appId = appId then { app with name := name } else app

/-- The database after an operation; `none` where it is refused. -/
def Db.next (db : Db) : NameOp → Option Db
  | .seedDomains primary extras =>
      if db.domains = [] then some { db with domains := seedRows primary extras } else none
  | .addDomain name tls mdns =>
      let name := lower (stripBlank name)
      match validateNewDomain name tls mdns db.domains with
      | some _ => none
      | none => some { db with domains := addedRows name tls mdns db.domains }
  | .removeDomain name =>
      (getRecord db.domains (lower (stripBlank name))).map fun removed =>
        { db with domains := db.domains.filter fun r => !(r.name = lower removed.name && !r.isPrimary) }
  | .makePrimary name =>
      (getRecord db.domains (lower (stripBlank name))).map fun target =>
        { db with domains := db.domains.map fun r => { r with isPrimary := r.name = target.name } }
  | .setRecordStatus name status error =>
      some { db with domains := db.domains.map fun r =>
        if r.name = lower name then { r with certStatus := status, errorMessage := error } else r }
  | .install app =>
      if nameRefused app.name db.apps || db.apps.any (·.appId = app.appId) then none
      else some { db with apps := db.apps ++ [app] }
  | .rename appId name =>
      let name := stripBlank name
      if !isValidAppName name || "/" ++ name ∈ reservedPaths then none
      else
        match db.apps.find? (·.appId = appId) with
        | none => none
        | some app =>
          if app.name = name then some db
          else if db.apps.any (·.name = name) then none
          else some { db with apps := db.apps.map (App.setName appId name) }
  | .remove appId => some { db with apps := db.apps.filter (·.appId ≠ appId) }

/-- An operation that goes through. -/
def nameStep (db : Db) (a : NameOp) (db' : Db) : Prop := db.next a = some db'

/-! ## What is to hold of the hosts -/

/-- Every app is found under every domain, with any port and in any case; an app is found only under
its name before a domain, and under no host that is a domain itself. -/
structure Routes (db : Db) : Prop where
  reached : ∀ app ∈ db.apps, ∀ d ∈ effectiveDomains db.domains, ∀ host,
    Domain.hostNoPort host = Domain.hostNoPort (app.name ++ "." ++ d.name) →
      getAppFromHostname host db = some app
  only : ∀ host app, getAppFromHostname host db = some app →
    app ∈ db.apps ∧ ∃ d ∈ effectiveDomains db.domains,
      Domain.hostNoPort host = app.name ++ "." ++ d.nameNoPort
  disjoint : ∀ host app, getAppFromHostname host db = some app →
    ∀ e ∈ effectiveDomains db.domains, Domain.hostNoPort host ≠ e.nameNoPort

/-- The name of an app before the name of a domain is no domain. -/
def ClearName (name : String) (ds : List Domain) : Prop :=
  ∀ d ∈ ds, d.nameNoPort ≠ "" ∧ ∀ e ∈ ds, e.nameNoPort ≠ name ++ "." ++ d.nameNoPort

/-- No app and domain together make the name of a domain. -/
def Clear (db : Db) : Prop := ∀ app ∈ db.apps, ClearName app.name (effectiveDomains db.domains)

/-- A domain that is added is no app under a domain, and makes no domain with an app. -/
def NameOp.Spares (db : Db) : NameOp → Prop
  | .seedDomains primary extras =>
      ∀ app ∈ db.apps, ClearName app.name (effectiveDomains (seedRows primary extras))
  | .addDomain name _ _ => ∀ app ∈ db.apps, ∀ d ∈ effectiveDomains db.domains,
      lower (stripBlank name) ≠ app.name ++ "." ++ d.nameNoPort ∧
        d.nameNoPort ≠ app.name ++ "." ++ lower (stripBlank name)
  | .install app => ClearName app.name (effectiveDomains db.domains)
  | .rename _ name => ClearName (stripBlank name) (effectiveDomains db.domains)
  | _ => True

/-- Names and ids of apps as the operations keep them. -/
structure Valid (db : Db) : Prop where
  names : ∀ app ∈ db.apps, isValidAppName app.name = true
  nodup : (db.apps.map App.name).Nodup
  ids : (db.apps.map App.appId).Nodup

/-! ## Names -/

/-- The characters of a name are letters in lower case, digits, hyphens, and a final line break. -/
theorem char_of_isValidAppName {name : String} (h : isValidAppName name = true) {c : Char}
    (hc : c ∈ name.toList) : isNameChar c = true ∨ c = '-' ∨ c = '\n' := by
  have hall : ∀ c ∈ ((stripSuffix? "\n" name).getD name).toList, isNameChar c = true ∨ c = '-' := by
    intro c hc
    have hchars := (Bool.and_eq_true_iff.mp h).2
    have := List.all_eq_true.mp hchars c hc
    simpa using this
  cases hstrip : stripSuffix? "\n" name with
  | none =>
    rw [hstrip] at hall
    exact (hall c hc).imp_right Or.inl
  | some stripped =>
    rw [hstrip] at hall
    rw [Text.stripSuffix?_eq_some_iff.mp hstrip, String.toList_append, List.mem_append] at hc
    rcases hc with hc | hc
    · exact (hall c hc).imp_right Or.inl
    · exact Or.inr (Or.inr (List.mem_singleton.mp hc))

theorem ne_of_nameChar {c : Char} (h : isNameChar c = true ∨ c = '-' ∨ c = '\n') :
    c ≠ '.' ∧ c ≠ ':' ∧ Text.lowerChar c = c := by
  rcases h with h | rfl | rfl
  · have hrange : ∀ n : Fin 256, isNameChar (Char.ofNat n) = true →
        Char.ofNat n ≠ '.' ∧ Char.ofNat n ≠ ':' ∧ Text.lowerChar (Char.ofNat n) = Char.ofNat n := by
      decide +kernel
    refine Text.forall_char (P := fun c => isNameChar c = true →
      c ≠ '.' ∧ c ≠ ':' ∧ Text.lowerChar c = c) hrange (fun c hlower hchar => ?_) c h
    refine ⟨?_, ?_, hlower⟩
    · rintro rfl
      cases hchar
    · rintro rfl
      cases hchar
  · decide
  · decide

section Names

variable {name : String}

theorem dot_not_mem_of_isValidAppName (h : isValidAppName name = true) : '.' ∉ name.toList :=
  fun hc => (ne_of_nameChar (char_of_isValidAppName h hc)).1 rfl

/-- The host of an app under a domain, without the port. -/
theorem hostNoPort_append (h : isValidAppName name = true) (r : DomainRecord) :
    Domain.hostNoPort (name ++ "." ++ r.toDomain.name) = name ++ "." ++ r.toDomain.nameNoPort := by
  have hdot : Text.lowerChar '.' = '.' := by decide
  have hname : name.toList.map Text.lowerChar = name.toList := by
    refine (List.map_congr_left fun c hc => ?_).trans (List.map_id _)
    exact (ne_of_nameChar (char_of_isValidAppName h hc)).2.2
  have hcolon : ∀ c ∈ name.toList ++ ['.'], decide (c ≠ ':') = true := by
    intro c hc
    rw [decide_eq_true_eq]
    rcases List.mem_append.mp hc with hc | hc
    · exact (ne_of_nameChar (char_of_isValidAppName h hc)).2.1
    · rw [List.mem_singleton.mp hc]
      decide
  have hlower : lower (before ':' r.toDomain.name) = before ':' r.toDomain.name := by
    rw [← Text.before_lower]
    exact congrArg (before ':') (Text.lower_lower r.name)
  rw [Domain.hostNoPort, Domain.nameNoPort, ← hlower, ← String.toList_inj]
  have hsplit : (name ++ "." ++ r.toDomain.name).toList =
      (name.toList ++ ['.']) ++ r.toDomain.name.toList := by
    simp [String.toList_append]
  rw [Text.toList_lower, Text.toList_before, hsplit, List.takeWhile_append_of_pos hcolon]
  simp only [List.map_append, hname, List.map_cons, List.map_nil, hdot, String.toList_append,
    Text.toList_lower, Text.toList_before]
  rfl

end Names

/-! ## The most specific domain -/

/-- Behind a name without a dot no longer name ends the host than the domain's. -/
theorem length_le_of_append_dot {a w r z : List Char} (ha : '.' ∉ a)
    (h : a ++ '.' :: w = r ++ '.' :: z) : z.length ≤ w.length := by
  rcases List.append_eq_append_iff.mp h with ⟨s, -, hs⟩ | ⟨s, hs, hw⟩
  · cases s with
    | nil =>
      rw [List.nil_append, List.cons.injEq] at hs
      rw [hs.2]
    | cons c s =>
      rw [List.cons_append, List.cons.injEq] at hs
      rw [hs.2, List.length_append, List.length_cons]
      omega
  · cases s with
    | nil =>
      rw [List.nil_append, List.cons.injEq] at hw
      rw [hw.2]
    | cons c s =>
      rw [List.cons_append, List.cons.injEq] at hw
      rw [hs, ← hw.1] at ha
      exact absurd (List.mem_append_right _ List.mem_cons_self) ha

theorem toList_append_dot (a z : String) : (a ++ "." ++ z).toList = a.toList ++ '.' :: z.toList := by
  simp [String.toList_append]

section Routes

variable {db : Db} {app : App}

/-- Where the hosts of an app are no domains, it is found. -/
theorem namesApp_of_clear (hvalid : Valid db) (happ : app ∈ db.apps)
    (hclear : ClearName app.name (effectiveDomains db.domains)) {d : Domain}
    (hd : d ∈ effectiveDomains db.domains) {host : String}
    (hhost : Domain.hostNoPort host = app.name ++ "." ++ d.nameNoPort) : NamesApp db host app := by
  have hdot := dot_not_mem_of_isValidAppName (hvalid.names app happ)
  obtain ⟨hne, hfree⟩ := hclear d hd
  refine ⟨d, ⟨hd, owns_iff.mpr ⟨hne, Or.inr ⟨app.name, hhost⟩⟩, fun e he howns => ?_⟩, hhost, hdot, ?_⟩
  · obtain ⟨-, hends⟩ := owns_iff.mp howns
    rw [hhost] at hends
    rcases hends with heq | ⟨r, heq⟩
    · exact absurd heq.symm (hfree e he)
    · have hlist := congrArg String.toList heq
      rw [toList_append_dot, toList_append_dot] at hlist
      have hle := length_le_of_append_dot hdot hlist
      rwa [String.length_toList, String.length_toList] at hle
  · have hfind : (db.apps.find? fun a => a.name = app.name).isSome = true :=
      List.find?_isSome.mpr ⟨app, happ, decide_eq_true rfl⟩
    obtain ⟨found, hfound⟩ := Option.isSome_iff_exists.mp hfind
    have hname : found.name = app.name := by simpa using List.find?_some hfound
    have hsame : found = app :=
      List.inj_on_of_nodup_map hvalid.nodup (List.mem_of_find?_eq_some hfound) happ hname
    rw [findAppByName, hfound, hsame]

/-- The hosts are as they should be exactly when no app and domain make the name of a domain. -/
theorem routes_iff_clear (hvalid : Valid db) : Routes db ↔ Clear db := by
  constructor
  · intro hroutes app happ d hd
    obtain ⟨r, -, rfl⟩ := Domains.mem_effectiveDomains.mp hd
    have hhost := hostNoPort_append (hvalid.names app happ) r
    obtain ⟨m, hm, hnamed, -, -⟩ := getAppFromHostname_eq_some_iff.mp
      (hroutes.reached app happ r.toDomain hd _ rfl)
    rw [hhost] at hnamed
    have hsame : r.toDomain.nameNoPort = m.nameNoPort := by
      have hlist := congrArg String.toList hnamed
      rw [toList_append_dot, toList_append_dot, List.append_cancel_left_eq, List.cons.injEq] at hlist
      exact String.toList_inj.mp hlist.2
    have hne : m.nameNoPort ≠ "" := (owns_iff.mp hm.owns).1
    refine ⟨by rw [hsame]; exact hne, fun e he heq => ?_⟩
    -- the domain of that name is more specific
    have howns : e.owns (app.name ++ "." ++ r.toDomain.name) = true := by
      refine owns_iff.mpr ⟨?_, Or.inl (hhost.trans heq.symm)⟩
      rw [heq]
      intro hempty
      have := congrArg String.toList hempty
      rw [toList_append_dot] at this
      exact List.append_ne_nil_of_right_ne_nil _ (List.cons_ne_nil _ _) this
    have hle := hm.longest e he howns
    rw [heq, hsame, String.length_append, String.length_append] at hle
    have hdot : ".".length = 1 := rfl
    omega
  · intro hclear
    refine ⟨fun app happ d hd host hhost => ?_, fun host app h => ?_, fun host app h e he heq => ?_⟩
    · obtain ⟨r, -, rfl⟩ := Domains.mem_effectiveDomains.mp hd
      rw [hostNoPort_append (hvalid.names app happ)] at hhost
      exact getAppFromHostname_eq_some_iff.mpr
        (namesApp_of_clear hvalid happ (hclear app happ) hd hhost)
    · have hnames := getAppFromHostname_eq_some_iff.mp h
      obtain ⟨d, hd, hhost, -, -⟩ := hnames
      exact ⟨NamesApp.mem (getAppFromHostname_eq_some_iff.mp h), d, hd.mem, hhost⟩
    · obtain ⟨d, hd, hhost, -, -⟩ := getAppFromHostname_eq_some_iff.mp h
      have happ := NamesApp.mem (getAppFromHostname_eq_some_iff.mp h)
      exact (hclear app happ d hd.mem).2 e he (heq.symm.trans hhost)

end Routes

/-! ## What the operations keep -/

section Steps

variable {db db' : Db}

theorem valid_of_install {app : App} (hvalid : Valid db)
    (hname : nameRefused app.name db.apps = false) (hid : db.apps.any (·.appId = app.appId) = false) :
    Valid { db with apps := db.apps ++ [app] } := by
  simp only [nameRefused, Bool.or_eq_false_iff, Bool.not_eq_false'] at hname
  obtain ⟨⟨happname, -⟩, hfree⟩ := hname
  refine ⟨fun a ha => ?_, ?_, ?_⟩
  · rcases List.mem_append.mp ha with ha | ha
    · exact hvalid.names a ha
    · rw [List.mem_singleton.mp ha]
      exact happname
  · rw [List.map_append, List.map_singleton]
    refine List.nodup_append.mpr ⟨hvalid.nodup, List.nodup_singleton _, ?_⟩
    intro x hx y hy
    obtain ⟨a, ha, rfl⟩ := List.mem_map.mp hx
    rw [List.mem_singleton.mp hy]
    simpa using List.any_eq_false.mp hfree a ha
  · rw [List.map_append, List.map_singleton]
    refine List.nodup_append.mpr ⟨hvalid.ids, List.nodup_singleton _, ?_⟩
    intro x hx y hy
    obtain ⟨a, ha, rfl⟩ := List.mem_map.mp hx
    rw [List.mem_singleton.mp hy]
    simpa using List.any_eq_false.mp hid a ha

theorem valid_of_rename {appId name : String} (hvalid : Valid db) (hname : isValidAppName name = true)
    (hfree : db.apps.any (·.name = name) = false) :
    Valid { db with apps := db.apps.map (App.setName appId name) } := by
  have hids : (App.appId ∘ App.setName appId name) = App.appId := by
    funext a
    rw [Function.comp_apply, App.setName]
    split <;> rfl
  refine ⟨fun a' ha' => ?_, ?_, ?_⟩
  · obtain ⟨a, ha, rfl⟩ := List.mem_map.mp ha'
    rw [App.setName]
    split
    · exact hname
    · exact hvalid.names a ha
  · rw [List.Nodup, List.map_map, List.pairwise_map]
    have hboth := (List.pairwise_map.mp hvalid.nodup).and (List.pairwise_map.mp hvalid.ids)
    refine hboth.imp_of_mem fun {a b} ha hb hne => ?_
    have hother : ∀ c ∈ db.apps, c.name ≠ name := by
      intro c hc
      simpa using List.any_eq_false.mp hfree c hc
    rw [Function.comp_apply, Function.comp_apply, App.setName, App.setName]
    split <;> split
    · rename_i hai hbi
      exact absurd (hai.trans hbi.symm) hne.2
    · exact (hother b hb).symm
    · exact hother a ha
    · exact hne.1
  · rw [List.map_map, hids]
    exact hvalid.ids

theorem valid_of_nameStep {a : NameOp} (hvalid : Valid db) (h : nameStep db a db') : Valid db' := by
  obtain ⟨hnames, hnodup, hids⟩ := id hvalid
  unfold nameStep Db.next at h
  cases a with
  | seedDomains primary extras =>
    dsimp only at h
    split at h
    · cases h
      exact ⟨hnames, hnodup, hids⟩
    · cases h
  | addDomain name tls mdns =>
    dsimp only at h
    split at h
    · cases h
    · cases h
      exact ⟨hnames, hnodup, hids⟩
  | removeDomain name =>
    obtain ⟨_, -, rfl⟩ := Option.map_eq_some_iff.mp h
    exact ⟨hnames, hnodup, hids⟩
  | makePrimary name =>
    obtain ⟨_, -, rfl⟩ := Option.map_eq_some_iff.mp h
    exact ⟨hnames, hnodup, hids⟩
  | setRecordStatus name status error =>
    cases h
    exact ⟨hnames, hnodup, hids⟩
  | install app =>
    dsimp only at h
    split at h
    · cases h
    · rename_i hok
      cases h
      rw [Bool.or_eq_true, not_or, Bool.not_eq_true, Bool.not_eq_true] at hok
      exact valid_of_install hvalid hok.1 hok.2
  | rename appId name =>
    dsimp only at h
    split at h
    · cases h
    · rename_i hok
      simp only [Bool.or_eq_true, not_or, Bool.not_eq_true, Bool.not_eq_false'] at hok
      split at h
      · cases h
      · split at h
        · cases h
          exact hvalid
        · split at h
          · cases h
          · rename_i hfree
            cases h
            exact valid_of_rename hvalid hok.1 (Bool.not_eq_true _ ▸ hfree)
  | remove appId =>
    cases h
    exact ⟨fun a ha => hnames a (List.mem_of_mem_filter ha),
      hnodup.sublist (List.filter_sublist.map _), hids.sublist (List.filter_sublist.map _)⟩

/-- The names of the domains are among those before. -/
theorem ClearName.mono {name : String} {ds ds' : List Domain} (h : ClearName name ds)
    (hnames : ∀ d' ∈ ds', ∃ d ∈ ds, d.nameNoPort = d'.nameNoPort) : ClearName name ds' := by
  intro d' hd'
  obtain ⟨d, hd, hdname⟩ := hnames d' hd'
  obtain ⟨hne, hfree⟩ := h d hd
  refine ⟨hdname ▸ hne, fun e' he' => ?_⟩
  obtain ⟨e, he, hename⟩ := hnames e' he'
  rw [← hename, ← hdname]
  exact hfree e he

/-- Rows that keep their names. -/
theorem names_of_map {rows : List DomainRecord} {f : DomainRecord → DomainRecord}
    (hf : ∀ r, (f r).name = r.name) : ∀ d' ∈ effectiveDomains (rows.map f),
      ∃ d ∈ effectiveDomains rows, d.nameNoPort = d'.nameNoPort := by
  intro d' hd'
  obtain ⟨r', hr', rfl⟩ := Domains.mem_effectiveDomains.mp hd'
  obtain ⟨r, hr, rfl⟩ := List.mem_map.mp hr'
  refine ⟨r.toDomain, Domains.mem_effectiveDomains.mpr ⟨r, hr, rfl⟩, ?_⟩
  rw [DomainRecord.toDomain, DomainRecord.toDomain, hf]
  rfl

/-- A name that is accepted for a domain has no port. -/
theorem nameNoPort_of_isDomainName {name : String} (h : isDomainName name = true) :
    before ':' name = name := by
  apply before_of_no_colon
  intro hc
  have hcolon : ':' ∈ ((stripSuffix? "\n" name).getD name).toList := by
    cases hstrip : stripSuffix? "\n" name with
    | none => exact hc
    | some stripped =>
      rw [Text.stripSuffix?_eq_some_iff.mp hstrip, String.toList_append, List.mem_append] at hc
      rcases hc with hc | hc
      · exact hc
      · cases List.mem_singleton.mp hc
  obtain ⟨label, hlabel, hmem⟩ := Text.exists_mem_splitOn (c := '.') hcolon (by decide)
  have hchars := (Bool.and_eq_true_iff.mp
    (List.all_eq_true.mp (Bool.and_eq_true_iff.mp h).2 label hlabel)).2
  cases List.all_eq_true.mp hchars ':' hmem

theorem names_of_upsertRow (record : DomainRecord) (rows : List DomainRecord) :
    ∀ d' ∈ effectiveDomains (upsertRow record rows), d' = record.toDomain ∨
      ∃ d ∈ effectiveDomains rows, d.nameNoPort = d'.nameNoPort := by
  unfold upsertRow
  split
  · refine fun d' hd' => Or.inr (names_of_map (fun r => ?_) d' hd')
    split <;> rfl
  · intro d' hd'
    obtain ⟨r, hr, rfl⟩ := Domains.mem_effectiveDomains.mp hd'
    rcases List.mem_append.mp hr with hr | hr
    · exact Or.inr ⟨r.toDomain, Domains.mem_effectiveDomains.mpr ⟨r, hr, rfl⟩, rfl⟩
    · exact Or.inl (by rw [List.mem_singleton.mp hr])

theorem names_of_addedRows {name : String} (tls mdns : Bool) (rows : List DomainRecord)
    (hname : isDomainName (lower name) = true) :
    ∀ d' ∈ effectiveDomains (addedRows (lower name) tls mdns rows), d'.nameNoPort = lower name ∨
      ∃ d ∈ effectiveDomains rows, d.nameNoPort = d'.nameNoPort := by
  intro d' hd'
  refine (names_of_upsertRow _ rows d' hd').imp_left ?_
  rintro rfl
  rw [DomainRecord.toDomain, Domain.ofName, Domain.nameNoPort, Text.lower_lower]
  exact nameNoPort_of_isDomainName hname

theorem clearName_of_addDomain {app name : String} {tls mdns : Bool} {rows : List DomainRecord}
    (hclear : ClearName app (effectiveDomains rows)) (hname : isDomainName (lower name) = true)
    (hne : lower name ≠ "") (hspares : ∀ d ∈ effectiveDomains rows,
      lower name ≠ app ++ "." ++ d.nameNoPort ∧ d.nameNoPort ≠ app ++ "." ++ lower name) :
    ClearName app (effectiveDomains (addedRows (lower name) tls mdns rows)) := by
  have hcases := names_of_addedRows tls mdns rows hname
  intro d hd
  rcases hcases d hd with hdnew | ⟨d₀, hd₀, hdold⟩
  · refine ⟨hdnew ▸ hne, fun e he => ?_⟩
    rw [hdnew]
    rcases hcases e he with henew | ⟨e₀, he₀, heold⟩
    · rw [henew]
      exact (ne_append_dot app (lower name)).symm
    · rw [← heold]
      exact (hspares e₀ he₀).2
  · rw [← hdold]
    refine ⟨(hclear d₀ hd₀).1, fun e he => ?_⟩
    rcases hcases e he with henew | ⟨e₀, he₀, heold⟩
    · rw [henew]
      exact (hspares d₀ hd₀).1
    · rw [← heold]
      exact (hclear d₀ hd₀).2 e₀ he₀

theorem clear_of_nameStep {a : NameOp} (hclear : Clear db) (hspares : a.Spares db)
    (h : nameStep db a db') : Clear db' := by
  unfold nameStep Db.next at h
  cases a with
  | seedDomains primary extras =>
    dsimp only at h
    split at h
    · cases h
      exact hspares
    · cases h
  | addDomain name tls mdns =>
    dsimp only at h
    split at h
    · cases h
    · rename_i hvalid
      cases h
      have hok : lower (stripBlank name) ≠ "" ∧ isDomainName (lower (stripBlank name)) = true := by
        simp only [validateNewDomain] at hvalid
        split_ifs at hvalid with hempty hname
        · exact ⟨hempty, by simpa using hname⟩
      exact fun app happ => clearName_of_addDomain (hclear app happ) hok.2 hok.1 (hspares app happ)
  | removeDomain name =>
    obtain ⟨removed, -, rfl⟩ := Option.map_eq_some_iff.mp h
    refine fun app happ => (hclear app happ).mono fun d' hd' => ?_
    obtain ⟨r, hr, rfl⟩ := Domains.mem_effectiveDomains.mp hd'
    exact ⟨r.toDomain, Domains.mem_effectiveDomains.mpr ⟨r, List.mem_of_mem_filter hr, rfl⟩, rfl⟩
  | makePrimary name =>
    obtain ⟨_, -, rfl⟩ := Option.map_eq_some_iff.mp h
    exact fun app happ => (hclear app happ).mono (names_of_map fun _ => rfl)
  | setRecordStatus name status error =>
    cases h
    refine fun app happ => (hclear app happ).mono (names_of_map fun r => ?_)
    split <;> rfl
  | install app =>
    dsimp only at h
    split at h
    · cases h
    · cases h
      intro a ha
      rcases List.mem_append.mp ha with ha | ha
      · exact hclear a ha
      · rw [List.mem_singleton.mp ha]
        exact hspares
  | rename appId name =>
    dsimp only at h
    split at h
    · cases h
    · split at h
      · cases h
      · split at h
        · cases h
          exact hclear
        · split at h
          · cases h
          · cases h
            intro a' ha'
            obtain ⟨a, ha, rfl⟩ := List.mem_map.mp ha'
            rw [App.setName]
            split
            · exact hspares
            · exact hclear a ha
  | remove appId =>
    cases h
    exact fun app happ => hclear app (List.mem_of_mem_filter happ)

end Steps

/-! ## Every configuration that is reached -/

/-- In every configuration that is reached the hosts are as they should be exactly when no app and
domain make the name of a domain, and so they are if no operation brings such a pair about. -/
theorem routes_of_reaches {start db : Db} (hvalid : Valid start) :
    (Reach nameStep (fun _ _ => True) start db → (Routes db ↔ Clear db)) ∧
      (Clear start → Reach nameStep (fun db a => a.Spares db) start db → Routes db) := by
  have hreached : ∀ {ok : Db → NameOp → Prop}, Reach nameStep ok start db → Valid db :=
    fun h => h.invariant Valid hvalid fun _ _ _ ht _ hs => valid_of_nameStep ht hs
  refine ⟨fun h => routes_iff_clear (hreached h), fun hclear h => ?_⟩
  refine (routes_iff_clear (hreached h)).mpr (h.invariant Clear hclear ?_)
  exact fun _ _ _ ht hspares hs => clear_of_nameStep ht hspares hs

/-- An instance that has no domain and no app yet. -/
def freshDb : Db where
  domains := []
  apps := []
  sessions := []
  apiTokens := []
  appTokens := []
  now := 0
  hash := id

def exampleDomain : Domain := ⟨"example.com", true, false⟩

def mailApp : App := ⟨"3mailmailmai", "mail", 19100, .array []⟩

/-- The instance with its first domain, and then with an app. -/
def seededDb : Db := { freshDb with domains := seedRows exampleDomain [] }

def mailDb : Db := { seededDb with apps := [mailApp] }

theorem valid_freshDb : Valid freshDb :=
  ⟨fun _ h => (List.not_mem_nil h).elim, List.nodup_nil, List.nodup_nil⟩

theorem nameStep_mailDb : nameStep seededDb (.install mailApp) mailDb := by
  have hok : (nameRefused mailApp.name seededDb.apps ||
      seededDb.apps.any (·.appId = mailApp.appId)) = false := by decide
  unfold nameStep Db.next
  dsimp only
  rw [hok]
  rfl

theorem effectiveDomains_seedRows : effectiveDomains (seedRows exampleDomain []) = [exampleDomain] := by
  rw [effectiveDomains, Domains.loadRecords, seedRows, List.foldl_nil, List.mergeSort_singleton]
  rfl

theorem routes_of_reaches_mailDb : Routes mailDb := by
  refine (routes_of_reaches valid_freshDb).2 (fun _ h => (List.not_mem_nil h).elim)
    (.step (.step .refl (fun _ h => (List.not_mem_nil h).elim) (a := .seedDomains exampleDomain [])
      rfl) ?_ nameStep_mailDb)
  have hone : ∀ d ∈ effectiveDomains seededDb.domains, d = exampleDomain := by
    intro d hd
    rwa [seededDb, effectiveDomains_seedRows, List.mem_singleton] at hd
  intro d hd
  rw [hone d hd]
  refine ⟨by decide, fun e he => ?_⟩
  rw [hone e he]
  decide

/-- The same with a domain that has the name of the app under the first one. -/
def nestedDb : Db :=
  { mailDb with domains := addedRows "mail.example.com" true false mailDb.domains }

/-- The domain can be added, and then the app is not found under the first one. -/
theorem nested_domain_hides :
    Reach nameStep (fun _ _ => True) freshDb nestedDb ∧
      mailApp ∈ nestedDb.apps ∧ exampleDomain ∈ effectiveDomains nestedDb.domains ∧
      getAppFromHostname (mailApp.name ++ "." ++ exampleDomain.name) nestedDb ≠ some mailApp := by
  have hone : effectiveDomains mailDb.domains = [exampleDomain] := effectiveDomains_seedRows
  have hadded : validateNewDomain "mail.example.com" true false mailDb.domains = none := by
    unfold validateNewDomain
    rw [hone]
    decide
  have hstep : nameStep mailDb (.addDomain "mail.example.com" true false) nestedDb := by
    have hname : lower (stripBlank "mail.example.com") = "mail.example.com" := by decide
    unfold nameStep Db.next
    dsimp only
    rw [hname, hadded]
    rfl
  have hexample : exampleDomain ∈ effectiveDomains nestedDb.domains :=
    Domains.mem_effectiveDomains.mpr
      ⟨{ name := "example.com", tls := true, mdns := false, isPrimary := true }, by decide, by decide⟩
  have hnested : Domain.ofName "mail.example.com" true false ∈ effectiveDomains nestedDb.domains :=
    Domains.mem_effectiveDomains.mpr
      ⟨{ name := "mail.example.com", tls := true, mdns := false, certStatus := .acquiring },
        by decide, by decide⟩
  refine ⟨.step (.step (.step .refl trivial (a := .seedDomains exampleDomain []) rfl) trivial
    nameStep_mailDb) trivial hstep, by decide, hexample, fun hfound => ?_⟩
  obtain ⟨d, hd, hhost, -, -⟩ := getAppFromHostname_eq_some_iff.mp hfound
  -- the host is the second domain itself
  have hle := hd.longest _ hnested (by decide)
  have hlength := congrArg String.length hhost
  rw [String.length_append, String.length_append] at hlength
  have hhostLength : (Domain.hostNoPort (mailApp.name ++ "." ++ exampleDomain.name)).length =
      (Domain.ofName "mail.example.com" true false).nameNoPort.length := by decide
  have hdot : ".".length = 1 := rfl
  omega

end OpenHost.Web
