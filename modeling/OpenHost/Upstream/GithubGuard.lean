import OpenHost.Upstream.GithubToken

/-!
# Where a GitHub token goes: proofs

The URL with a token leads where the host of the URL says, which is the host that was looked at before.
Each command that a clone or a pull runs has a URL of the one or the other kind.
-/

namespace OpenHost.Upstream

open Text (truthy? stripBlank)
open Web (Framework ParseResult urlparse endsNetloc)
open Whatwg (IsUnder isHostName)

/-! ## The URL with the token -/

variable {M : Type} {fw : Framework} {low : StrLower} {w : GitWorld M}

theorem toList_hostPort (host : String) (port : Option Nat) : ∃ digits,
    (hostPort host port).toList = host.toList ++ digits ∧ (digits = [] ∨ digits.head? = some ':') ∧
      ∀ c ∈ digits, endsNetloc c = false ∧ c ≠ '@' := by
  match port with
  | none => exact ⟨[], by simp [hostPort], .inl rfl, by simp⟩
  | some 0 => exact ⟨[], by simp [hostPort], .inl rfl, by simp⟩
  | some (n + 1) =>
    refine ⟨':' :: (toString (n + 1)).toList, by simp [hostPort], .inr rfl, fun c hc => ?_⟩
    rcases List.mem_cons.mp hc with rfl | hc
    · exact ⟨rfl, by decide⟩
    · have hdigit := Web.isDigit_of_mem_toString hc
      constructor
      · by_contra hends
        simp only [endsNetloc, Bool.not_eq_false, Bool.or_eq_true, decide_eq_true_eq] at hends
        rcases hends with (rfl | rfl) | rfl <;> cases hdigit
      · rintro rfl
        cases hdigit

/-- A host on GitHub has no colon in it that git could take for the beginning of a port. -/
theorem port_of_host {host digits : List Char} {name : String}
    (hname : name.toList = host ++ ':' :: digits) (hdigits : digits.all Char.isDigit = true) :
    ¬ IsUnder "github.com" (low.lower name) := by
  intro hunder
  have hm := getLast?_of_isUnder hunder
  cases hlast : digits.getLast? with
  | none =>
    have hcolon : name.toList.getLast? = some ':' := by
      rw [hname, List.getLast?_eq_none_iff.mp hlast, List.getLast?_append]
      rfl
    rw [low.lastKept name ':' hcolon (.inr (.inr rfl))] at hm
    cases hm
  | some d =>
    have hd : d.isDigit = true := List.all_eq_true.mp hdigits d (List.mem_of_getLast? hlast)
    have hname' : name.toList.getLast? = some d := by
      rw [hname, List.getLast?_append, List.getLast?_cons, hlast]
      rfl
    rw [low.lastKept name d hname' (.inr (.inl hd))] at hm
    rw [Option.some.inj hm] at hd
    cases hd

/-- The URL with the token leads where the host of the URL says. -/
theorem contact_injected (g : Git low) {url authed token host : String} {p : ParseResult}
    {place : Place} (hp : urlparse fw url = some p) (hscheme : p.scheme = "http" ∨ p.scheme = "https")
    (hhost : hostname low p = some host) (hunder : IsUnder "github.com" (low.lower host))
    (htoken : ∀ c ∈ token.toList, isDelimiter c = false)
    (hauthed : injectGithubTokenInUrl fw low url token = some authed)
    (hplace : g.contact authed = some place) : place.OnGithub ∧ place.scheme = p.scheme := by
  have hclone : p.scheme ∈ cloneSchemes := by
    rcases hscheme with h | h <;> rw [h] <;> decide
  obtain ⟨hne, -⟩ := cloneScheme_facts hclone
  have hchars := netloc_chars hp hne
  -- the text of the URL
  obtain ⟨port, hwritten⟩ : ∃ port, authed =
      ({ p with netloc := (token ++ "@" ++ hostPort host port).toList } : ParseResult).geturl := by
    unfold injectGithubTokenInUrl at hauthed
    rw [hp, Option.bind_some, if_pos (by simpa using hscheme), hhost] at hauthed
    obtain ⟨port, -, heq⟩ := Option.map_eq_some_iff.mp hauthed
    exact ⟨port, heq.symm⟩
  obtain ⟨digits, hdigits, hcolon, hportChars⟩ := toList_hostPort host port
  obtain ⟨rest, htext, hrest⟩ := @exists_toList_geturl
    { p with netloc := (token ++ "@" ++ hostPort host port).toList } hclone (by simp)
  rw [← hwritten] at htext
  dsimp only at htext
  have hnot : ∀ d ∈ ['/', '?', '#', '@'], d ∉ host.toList := fun d hd =>
    not_mem_hostname hhost (fun c hc => (hchars c hc).1) hd
  have hcut := Web.eq_cut ':' host.toList
  have hcolonFree : ':' ∉ host.toList.takeWhile (· ≠ ':') := Web.not_mem_takeWhile_ne ':' host.toList
  have hafter := Web.dropWhile_ne_cases ':' host.toList
  generalize host.toList.takeWhile (· ≠ ':') = before at hcut hcolonFree
  generalize host.toList.dropWhile (· ≠ ':') = after at hcut hafter
  rw [← hcut] at hnot hdigits
  -- git reads the host up to the first colon
  obtain ⟨hplaceScheme, hdecimal, hnames⟩ := g.reads authed place p.scheme token.toList before
    (after ++ digits) rest hplace hscheme (by rw [htext]; simp [hdigits])
    (by
      intro c hc
      rcases List.mem_append.mp hc with hc | hc
      · exact htoken c hc
      · by_contra hdelim
        simp only [isDelimiter, Bool.not_eq_false, decide_eq_true_eq, List.mem_cons,
          List.not_mem_nil, or_false] at hdelim
        rcases hdelim with rfl | rfl | rfl | rfl | rfl
        · exact hnot '/' (by simp) (List.mem_append_left _ hc)
        · exact hnot '?' (by simp) (List.mem_append_left _ hc)
        · exact hnot '#' (by simp) (List.mem_append_left _ hc)
        · exact hnot '@' (by simp) (List.mem_append_left _ hc)
        · exact hcolonFree hc)
    (by
      rcases hafter with rfl | ⟨b, rfl⟩
      · simpa using hcolon
      · exact .inr rfl)
    (by
      intro c hc
      rcases List.mem_append.mp hc with hc | hc
      · constructor
        · by_contra hends
          simp only [endsNetloc, Bool.not_eq_false, Bool.or_eq_true, decide_eq_true_eq] at hends
          rcases hends with (rfl | rfl) | rfl
          · exact hnot '/' (by simp) (List.mem_append_right _ hc)
          · exact hnot '?' (by simp) (List.mem_append_right _ hc)
          · exact hnot '#' (by simp) (List.mem_append_right _ hc)
        · rintro rfl
          exact hnot '@' (by simp) (List.mem_append_right _ hc)
      · exact hportChars c hc)
    hrest
  refine ⟨?_, hplaceScheme⟩
  rcases hafter with rfl | ⟨b, rfl⟩
  · -- the host has no colon in it
    rw [List.append_nil] at hcut
    rw [hcut, String.ofList_toList] at hnames
    exact hnames "github.com" (by decide +kernel) hunder
  · have hb : b.all Char.isDigit = true := by
      rw [List.cons_append, List.tail_cons, List.all_append, Bool.and_eq_true] at hdecimal
      exact hdecimal.1
    exact absurd hunder (port_of_host hcut.symm hb)

theorem eq_some_of_truthy? {s : Option String} {t : String} (h : truthy? s = some t) : s = some t := by
  cases s with
  | none => cases h
  | some u =>
    by_cases hu : u = ""
    · rw [hu] at h
      cases h
    · rwa [Text.truthy?_some_of_ne hu] at h

/-- The configuration for the submodules leads to GitHub, whatever comes behind. -/
theorem contact_configured (g : Git low) {token : Option String}
    (htoken : ∀ t, token = some t → ∀ c ∈ t.toList, isDelimiter c = false) {entry : InsteadOf}
    (h : entry ∈ githubTokenGitConfig token) {rest : String} {place : Place}
    (hplace : g.contact (entry.url ++ rest) = some place) :
    place.OnGithub ∧ place.scheme = "https" := by
  unfold githubTokenGitConfig at h
  split at h
  · cases h
  · next t ht =>
    have hsome := eq_some_of_truthy? ht
    rw [List.mem_singleton.mp h] at hplace
    obtain ⟨hscheme, -, hnames⟩ := g.reads _ place "https" t.toList "github.com".toList []
      ('/' :: rest.toList) hplace (.inr rfl) (by simp)
      (by
        intro c hc
        rcases List.mem_append.mp hc with hc | hc
        · exact htoken t hsome c hc
        · have hall : "github.com".toList.all (!isDelimiter ·) = true := by decide
          simpa using List.all_eq_true.mp hall c hc)
      (.inl rfl) (by simp) (.inr ⟨'/', _, rfl, rfl⟩)
    refine ⟨hnames "github.com" (by decide +kernel) (.inl ?_), hscheme⟩
    rw [String.ofList_toList]
    exact low.kept _ (by decide +kernel)

/-! ## When a token is used -/

/-- A repository that is taken to be on GitHub has a host there. -/
theorem host_of_isGithub {repoUrl : String} (h : isGithubRepoUrl fw low repoUrl = some true) :
    ∃ p host, readUrl fw repoUrl = some p ∧ hostname low p = some host ∧
      IsUnder "github.com" (low.lower host) := by
  unfold isGithubRepoUrl at h
  rw [repoUrlHostname_eq, Option.map_map, Option.map_eq_some_iff] at h
  obtain ⟨p, hp, hhost⟩ := h
  have hunder : IsUnder "github.com" (low.lower ((hostname low p).getD "")) := by
    simp only [Function.comp_apply, Bool.or_eq_true, decide_eq_true_eq, Text.endsWith_iff] at hhost
    rcases hhost with heq | ⟨r, heq⟩
    · exact .inl heq
    · exact .inr ⟨r, by rw [heq, String.append_assoc]; rfl⟩
  cases hname : hostname low p with
  | some host => exact ⟨p, host, hp, hname, by simpa [hname] using hunder⟩
  | none =>
    rw [hname, Option.getD_none, low.kept "" rfl] at hunder
    have hm := getLast?_of_isUnder hunder
    cases hm

/-- The token went into a URL that has a host, and one of the two schemes. -/
theorem scheme_of_injected {url token authed : String}
    (hauthed : injectGithubTokenInUrl fw low url token = some authed) (hne : authed ≠ url) :
    ∃ q, urlparse fw url = some q ∧ (q.scheme = "http" ∨ q.scheme = "https") := by
  unfold injectGithubTokenInUrl at hauthed
  obtain ⟨q, hq, hauthed⟩ := Option.bind_eq_some_iff.mp hauthed
  refine ⟨q, hq, ?_⟩
  by_contra hscheme
  rw [if_neg (by simpa using hscheme)] at hauthed
  exact hne (Option.some.inj hauthed).symm

theorem not_isGithub_empty : ¬ isGithubRepoUrl fw low "" = some true := by
  intro h
  obtain ⟨p, host, hp, hhost, -⟩ := host_of_isGithub h
  refine netloc_ne_nil hhost ?_
  unfold readUrl at hp
  obtain ⟨parsed, hparsed, hp⟩ := Option.bind_eq_some_iff.mp hp
  split at hp
  · rw [← Option.some.inj hp, (Web.parts_of_urlparse hparsed).2]
    decide
  · rw [(Web.parts_of_urlparse hp).2]
    decide

/-- A base URL with the token leads to GitHub. -/
theorem leads_of_base (g : Git low) {repoUrl base authed token : String} {ref : Option String}
    (hgithub : isGithubRepoUrl fw low repoUrl = some true)
    (hbase : parseRepoUrl fw repoUrl = some (base, ref)) {origin : String}
    (horigin : origin = base ∨ origin = stripBlank base)
    (htoken : ∀ c ∈ token.toList, isDelimiter c = false)
    (hauthed : injectGithubTokenInUrl fw low origin token = some authed) (hne : authed ≠ origin) :
    LeadsToGithub fw g repoUrl authed := by
  obtain ⟨p, host, hp, hhost, hunder⟩ := host_of_isGithub hgithub
  obtain ⟨q, hq, hscheme⟩ := scheme_of_injected hauthed hne
  obtain ⟨r, hr, hrscheme, hrhost⟩ := base_alike hbase hp hhost
  -- what was looked at, and what gets the token
  obtain ⟨hsame, hqhost⟩ : q.scheme = p.scheme ∧ hostname low q = some host := by
    rcases horigin with rfl | rfl
    · rw [Option.some.inj (hq.symm.trans hr)]
      exact ⟨hrscheme, hrhost⟩
    · have hknown := (scheme_of_readUrl hp).1
      have hsome : r.scheme ≠ "" := by
        rw [hrscheme]
        rintro hempty
        rw [hempty] at hknown
        revert hknown
        decide
      obtain ⟨hqscheme, hqhost⟩ := trimmed_alike hr hsome hrhost hunder hq
      exact ⟨hqscheme.trans hrscheme, hqhost⟩
  intro place hplace
  obtain ⟨hplaceHost, hplaceScheme⟩ :=
    contact_injected g hq hscheme hqhost hunder htoken hauthed hplace
  refine ⟨hplaceHost, ?_⟩
  rcases hscheme with h | h
  · exact .inr ⟨hplaceScheme.trans h, p, hp, hsame ▸ h⟩
  · exact .inl (hplaceScheme.trans h)

/-! ## The commands that are run -/

/-- A token may be used: the repository is on GitHub. -/
def Usable (fw : Framework) (low : StrLower) (repoUrl : String) (token : Option String) : Prop :=
  ∀ t, token = some t →
    isGithubRepoUrl fw low repoUrl = some true ∧ ∀ c ∈ t.toList, isDelimiter c = false

/-- A procedure that runs only commands that are as they should be. -/
def Careful {α : Type} (fw : Framework) (g : Git low) (repoUrl : String) (x : GitProc α) : Prop :=
  Proc.Within (Proc.Keeps fun commands => ∀ command ∈ commands, Guarded fw g repoUrl command) x

section Runs

variable {α β : Type} {g : Git low} {repoUrl base : String} {ref token original : Option String}
  {command : GitCommand}

theorem careful_pure (a : α) : Careful fw g repoUrl (pure a) := Proc.within_pure a

theorem careful_bind {x : GitProc α} {f : α → GitProc β} (hx : Careful fw g repoUrl x)
    (hf : ∀ a, Careful fw g repoUrl (f a)) : Careful fw g repoUrl (x >>= f) :=
  Proc.within_bind hx hf

theorem guarded_append {commands : List GitCommand} (hall : ∀ c ∈ commands, Guarded fw g repoUrl c)
    (h : Guarded fw g repoUrl command) : ∀ c ∈ commands ++ [command], Guarded fw g repoUrl c := by
  intro c hc
  rcases List.mem_append.mp hc with hbefore | hlast
  · exact hall c hbefore
  · rw [List.mem_singleton.mp hlast]
    exact h

theorem careful_git (h : Guarded fw g repoUrl command) : Careful fw g repoUrl (git w command) := by
  intro commands hall
  have hstate : (git w command commands).2 = commands ++ [command] := by
    unfold git
    split <;> rfl
  rw [hstate]
  exact guarded_append hall h

/-- A command without a URL and without a token. -/
theorem guarded_plain (hurl : command.url? = none) (hconfig : command.config = []) :
    Guarded fw g repoUrl command where
  url url h := by
    rw [hurl] at h
    cases h
  config entry h := by
    rw [hconfig] at h
    cases h

theorem guarded_setUrl {url : String} (h : Handed fw g repoUrl url) :
    Guarded fw g repoUrl (.setUrl url) where
  url _ heq := Option.some.inj heq ▸ h
  config _ hentry := nomatch hentry

theorem config_leads (ht : Usable fw low repoUrl token) {entry : InsteadOf}
    (h : entry ∈ githubTokenGitConfig token) (rest : String) (place : Place)
    (hplace : g.contact (entry.url ++ rest) = some place) :
    place.OnGithub ∧ place.scheme = "https" :=
  contact_configured g (fun t heq => (ht t heq).2) h hplace

/-- The URL that a clone uses. -/
theorem careful_authedUrl_bind {f : String → GitProc β}
    (hbase : parseRepoUrl fw repoUrl = some (base, ref)) (ht : Usable fw low repoUrl token)
    (hf : ∀ url, Handed fw g repoUrl url → Careful fw g repoUrl (f url)) :
    Careful fw g repoUrl (authedUrl fw low w base token >>= f) := by
  have hown : Handed fw g repoUrl base := .inl ⟨base, ref, hbase, .inl rfl⟩
  unfold authedUrl
  split
  · exact hf base hown
  · next t htruthy =>
    obtain ⟨hgithub, hplain⟩ := ht t (eq_some_of_truthy? htruthy)
    split
    · next authed hauthed =>
      by_cases hne : authed = base
      · exact hf authed (hne ▸ hown)
      · exact hf authed (.inr (leads_of_base g hgithub hbase (.inl rfl) hplain hauthed hne))
    · exact Proc.within_raise _

theorem careful_ifSubmodules (h : Guarded fw g repoUrl command) :
    Careful fw g repoUrl (ifSubmodules w command) := by
  apply careful_bind (Proc.within_reads _)
  intro submodules
  exact Proc.within_ite (fun _ => careful_bind (careful_git h) fun _ => careful_pure ()) fun _ =>
    careful_pure ()

theorem guarded_submoduleUpdate (ht : Usable fw low repoUrl token) :
    Guarded fw g repoUrl (.submoduleUpdate (githubTokenGitConfig token)) where
  url _ h := nomatch h
  config _ hentry := config_leads ht hentry

theorem careful_cloneRepo (hbase : parseRepoUrl fw repoUrl = some (base, ref))
    (ht : Usable fw low repoUrl token) :
    Careful fw g repoUrl (cloneRepo fw low w base ref token) := by
  unfold cloneRepo
  apply careful_authedUrl_bind hbase ht
  intro url hurl
  have hown : Handed fw g repoUrl base := .inl ⟨base, ref, hbase, .inl rfl⟩
  have hconfig := @config_leads fw low g repoUrl token ht
  -- the probe of the remote
  apply careful_bind
  · cases ref with
    | none => exact careful_pure false
    | some ref =>
      exact careful_bind (careful_git ⟨fun _ h => Option.some.inj h ▸ hurl, fun _ => hconfig⟩)
        fun _ => careful_pure _
  intro isCommit
  -- the clone
  apply careful_bind
  · exact careful_git ⟨fun _ h => Option.some.inj h ▸ hurl, fun _ => hconfig⟩
  intro result
  apply Proc.within_ite
  · intro _
    exact Proc.within_raise _
  intro _
  -- the remote without the token, and the checkout
  apply careful_bind
  · refine Proc.within_ite (fun _ => ?_) fun _ => careful_pure ()
    exact careful_bind (careful_git (guarded_setUrl hown)) fun _ =>
      careful_ifSubmodules (guarded_plain rfl rfl)
  intro _
  refine Proc.within_ite (fun _ => ?_) fun _ => careful_pure ()
  apply careful_bind (careful_git (guarded_plain rfl rfl))
  intro checkout
  exact Proc.within_ite (fun _ => Proc.within_raise _) fun _ =>
    careful_ifSubmodules (guarded_submoduleUpdate ht)

theorem careful_cloneAndReadManifest (ht : Usable fw low repoUrl token) :
    Careful fw g repoUrl (cloneAndReadManifest fw low w repoUrl token) := by
  unfold cloneAndReadManifest
  split
  · exact careful_pure _
  · next base ref hbase =>
    refine Proc.within_tryExcept ?_ fun _ => careful_pure _
    apply careful_bind
    · split
      · exact careful_cloneRepo hbase ht
      · exact Proc.within_ofExcept _
    intro _
    apply careful_bind (Proc.within_reads _)
    intro commands
    exact careful_bind (Proc.within_ofExcept _) fun _ => careful_pure _

theorem usable_none : Usable fw low repoUrl none := fun _ h => nomatch h

theorem careful_cloneWithGithubFallback (hplain : w.oauth.Plain) :
    Careful fw g repoUrl (cloneWithGithubFallback fw low w repoUrl) := by
  apply careful_bind (careful_cloneAndReadManifest usable_none)
  intro first
  match first with
  | .ok manifest => exact careful_pure _
  | .error cloneError =>
    refine Proc.within_ite (fun _ => careful_pure _) fun _ => ?_
    split
    · next hgithub _ =>
      split
      · exact careful_pure _
      · exact careful_pure _
      · next token htoken =>
        have ht : Usable fw low repoUrl (some token) := fun t h =>
          Option.some.inj h ▸ ⟨hgithub, hplain token htoken⟩
        apply careful_bind (careful_cloneAndReadManifest ht)
        intro second
        match second with
        | .ok manifest => exact careful_pure _
        | .error error => exact careful_pure _
    · exact careful_pure _
    · exact careful_pure _
    · exact Proc.within_raise _

/-! ### Pulling -/

theorem careful_runGit (h : Guarded fw g repoUrl command) :
    Careful fw g repoUrl (runGit w token command) := by
  apply careful_bind (careful_git h)
  intro result
  exact Proc.within_ite (fun _ => careful_pure _) fun _ => careful_pure _

theorem careful_remoteDefaultBranch : Careful fw g repoUrl (remoteDefaultBranch w) := by
  apply careful_bind (careful_git (guarded_plain rfl rfl))
  intro setHead
  refine Proc.within_ite (fun _ => careful_pure _) fun _ => ?_
  apply careful_bind (careful_git (guarded_plain rfl rfl))
  intro sym
  exact Proc.within_ite (fun _ => careful_pure _) fun _ => careful_pure _

/-- `origin` as it was before it got the token may be written again. -/
def Restorable (fw : Framework) (g : Git low) (repoUrl : String) (original : Option String) : Prop :=
  ∀ url, truthy? original = some url → Handed fw g repoUrl url

theorem careful_restoreOrigin (ho : Restorable fw g repoUrl original) :
    Careful fw g repoUrl (restoreOrigin w token original) := by
  unfold restoreOrigin
  split
  · next horiginal =>
    exact careful_bind (careful_git (guarded_setUrl (ho _ horiginal))) fun _ => careful_pure ()
  · exact careful_pure ()

theorem careful_updateSubmodules (ht : Usable fw low repoUrl token)
    (ho : Restorable fw g repoUrl original) :
    Careful fw g repoUrl (updateSubmodules w token original) := by
  apply careful_bind (Proc.within_reads _)
  intro submodules
  refine Proc.within_ite (fun _ => ?_) fun _ => careful_pure _
  apply careful_bind (careful_restoreOrigin ho)
  intro _
  apply careful_bind (careful_runGit (guarded_plain rfl rfl))
  intro synced
  match synced with
  | .error error => exact careful_pure _
  | .ok () => exact careful_runGit (guarded_submoduleUpdate ht)

theorem careful_checkoutRef (ht : Usable fw low repoUrl token)
    (ho : Restorable fw g repoUrl original) :
    Careful fw g repoUrl (checkoutRef w ref token original) := by
  unfold checkoutRef
  split
  · apply careful_bind (careful_runGit (guarded_plain rfl rfl))
    intro pulled
    match pulled with
    | .error error => exact careful_pure _
    | .ok () => exact careful_updateSubmodules ht ho
  · next ref _ =>
    apply careful_bind (careful_runGit (guarded_plain rfl rfl))
    intro fetched
    match fetched with
    | .error error => exact careful_pure _
    | .ok () =>
      apply careful_bind (careful_git (guarded_plain rfl rfl))
      intro isBranch
      apply careful_bind
      · split
        · exact careful_runGit (guarded_plain rfl rfl)
        · exact careful_runGit (guarded_plain rfl rfl)
      intro checkedOut
      match checkedOut with
      | .error error => exact careful_pure _
      | .ok () => exact careful_updateSubmodules ht ho

theorem careful_updateCheckout (ht : Usable fw low repoUrl token)
    (ho : Restorable fw g repoUrl original) :
    Careful fw g repoUrl (updateCheckout w ref token original) := by
  unfold updateCheckout
  split
  · exact careful_checkoutRef ht ho
  · apply careful_bind careful_remoteDefaultBranch
    intro default
    match default with
    | .error error => exact careful_pure _
    | .ok ref => exact careful_checkoutRef ht ho

theorem attempt_git (commands : List GitCommand) : attempt (git w command) commands =
    (.ok (w.reply (commands ++ [command])), commands ++ [command]) := by
  unfold attempt Proc.tryExcept
  cases hreply : w.reply (commands ++ [command]) with
  | ok completed =>
    have hgit : git w command commands = (.ok completed, commands ++ [command]) := by
      unfold git
      rw [hreply]
    rw [Proc.bind_of_ok hgit]
    rfl
  | error e =>
    have hgit : git w command commands = (.raised e, commands ++ [command]) := by
      unfold git
      rw [hreply]
    rw [Proc.bind_of_raised hgit]
    rfl

theorem restorable_none : Restorable fw g repoUrl none := fun _ h => nomatch h

/-- `origin` gets the token where it is the base URL, as a pull has just set it. -/
theorem authOrigin_guarded {commands : List GitCommand}
    (hbase : parseRepoUrl fw repoUrl = some (base, ref)) (ht : Usable fw low repoUrl token)
    (horigin : ∀ completed, w.reply (commands ++ [.getUrl]) = .ok completed →
      stripBlank completed.stdout = stripBlank base ∨ stripBlank completed.stdout = "")
    (hall : ∀ c ∈ commands, Guarded fw g repoUrl c) :
    ∃ original commands', authOrigin fw low w token commands = (.ok original, commands') ∧
      Restorable fw g repoUrl original ∧ ∀ c ∈ commands', Guarded fw g repoUrl c := by
  unfold authOrigin
  cases htruthy : truthy? token with
  | none => exact ⟨none, commands, rfl, restorable_none, hall⟩
  | some t =>
    dsimp only
    obtain ⟨hgithub, hplain⟩ := ht t (eq_some_of_truthy? htruthy)
    have hread : ∀ c ∈ commands ++ [.getUrl], Guarded fw g repoUrl c :=
      guarded_append hall (guarded_plain rfl rfl)
    rw [Proc.bind_of_ok (attempt_git commands)]
    cases hreply : w.reply (commands ++ [.getUrl]) with
    | error e => exact ⟨none, _, rfl, restorable_none, hread⟩
    | ok completed =>
      dsimp only
      -- what `origin` is, if it is anything
      have horiginal : Restorable fw g repoUrl (some (stripBlank completed.stdout)) := by
        intro url hurl
        have heq := eq_some_of_truthy? hurl
        rcases horigin completed hreply with h | h
        · exact .inl ⟨base, ref, hbase, .inr ((Option.some.inj heq).symm.trans h)⟩
        · rw [h] at hurl
          cases hurl
      cases hauthed : injectGithubTokenInUrl fw low (stripBlank completed.stdout) t with
      | none => exact ⟨_, _, rfl, horiginal, hread⟩
      | some authed =>
        dsimp only
        by_cases hne : authed = stripBlank completed.stdout
        · rw [if_neg (not_not.mpr hne)]
          exact ⟨_, _, rfl, horiginal, hread⟩
        · rw [if_pos hne, Proc.bind_of_ok (attempt_git _)]
          refine ⟨_, _, rfl, horiginal, guarded_append hread (guarded_setUrl (.inr ?_))⟩
          rcases horigin completed hreply with h | h
          · exact leads_of_base g hgithub hbase (.inr h) hplain hauthed hne
          · -- nothing goes into an empty text
            obtain ⟨q, hq, hscheme⟩ := scheme_of_injected hauthed hne
            rw [h] at hq
            rw [(Web.parts_of_urlparse hq).1] at hscheme
            exact absurd hscheme (by decide)

/-- `git_pull` on a checkout whose `origin` is as it may be. -/
theorem pullOrigin_guarded {commands : List GitCommand}
    (hstart : ∃ original commands', authOrigin fw low w token commands = (.ok original, commands') ∧
      Restorable fw g repoUrl original ∧ ∀ c ∈ commands', Guarded fw g repoUrl c)
    (ht : Usable fw low repoUrl token) :
    ∀ c ∈ (pullOrigin fw low w ref token commands).2, Guarded fw g repoUrl c := by
  obtain ⟨original, commands', hauth, ho, hall⟩ := hstart
  unfold pullOrigin
  rw [Proc.bind_of_ok hauth]
  have hrest : Careful fw g repoUrl (Proc.tryExcept (updateCheckout w ref token original)
      (fun _ => true) fun e => pure (.error e.message)) :=
    Proc.within_tryExcept (careful_updateCheckout ht ho) fun _ => careful_pure _
  exact careful_bind hrest
    (fun _ => careful_bind (careful_restoreOrigin ho) fun _ => careful_pure _) commands' hall

theorem careful_gitPull (hset : w.SetsUrl) (hworks : w.Settable fw repoUrl) (ht : Usable fw low repoUrl token) :
    Careful fw g repoUrl (gitPull fw low w repoUrl token) := by
  intro commands hall
  unfold gitPull
  by_cases hempty : repoUrl = ""
  · -- there is no token then
    have htruthy : truthy? token = none := by
      cases h : truthy? token with
      | none => rfl
      | some t => exact absurd (hempty ▸ (ht t (eq_some_of_truthy? h)).1) not_isGithub_empty
    rw [if_pos hempty]
    refine pullOrigin_guarded ⟨none, commands, ?_, restorable_none, hall⟩ ht
    unfold authOrigin
    rw [htruthy]
    rfl
  · rw [if_neg hempty]
    cases hbase : parseRepoUrl fw repoUrl with
    | none => exact hall
    | some parsed =>
      obtain ⟨base, ref⟩ := parsed
      dsimp only
      rw [Proc.bind_of_ok (attempt_git commands)]
      have hwritten : ∀ c ∈ commands ++ [.setUrl base], Guarded fw g repoUrl c :=
        guarded_append hall (guarded_setUrl (.inl ⟨base, ref, hbase, .inl rfl⟩))
      cases hreply : w.reply (commands ++ [.setUrl base]) with
      | error e => exact hwritten
      | ok written =>
        refine pullOrigin_guarded (authOrigin_guarded hbase ht (fun printed => ?_) hwritten) ht
        exact hset commands base written printed hreply (hworks base ref commands written hbase hreply)

theorem careful_pullWithGithubFallback {continueOauth : Bool} (hplain : w.oauth.Plain)
    (hset : w.SetsUrl) (hworks : w.Settable fw repoUrl) :
    Careful fw g repoUrl (pullWithGithubFallback fw low w repoUrl continueOauth) := by
  apply careful_bind
  · refine Proc.within_ite (fun _ => careful_pure _) fun _ => ?_
    exact careful_bind (careful_gitPull hset hworks usable_none) fun _ => careful_pure _
  intro first
  match first with
  | .ok () => exact careful_pure _
  | .error pullError =>
    dsimp only
    split
    · exact Proc.within_raise _
    · exact careful_pure _
    · next hgithub =>
      split
      · exact careful_pure _
      · exact careful_pure _
      · next token htoken =>
        have ht : Usable fw low repoUrl (some token) := fun t h =>
          Option.some.inj h ▸ ⟨hgithub, hplain token htoken⟩
        apply careful_bind (careful_gitPull hset hworks ht)
        intro second
        match second with
        | .ok () => exact careful_pure _
        | .error error => exact careful_pure _

end Runs

/-- Whatever URL git is handed, by a clone or by a pull, is the repository's own one or leads to GitHub. -/
theorem commandsOf_guarded (g : Git low) (repoUrl : String) (flow : Flow) (hplain : w.oauth.Plain)
    (hset : w.SetsUrl) (hworks : ∀ continueOauth, flow = .pull continueOauth → w.Settable fw repoUrl) :
    ∀ command ∈ commandsOf fw low w repoUrl flow, Guarded fw g repoUrl command := by
  have hnone : ∀ command ∈ ([] : List GitCommand), Guarded fw g repoUrl command := fun _ h => nomatch h
  cases flow with
  | clone => exact careful_cloneWithGithubFallback hplain [] hnone
  | pull continueOauth =>
    exact careful_pullWithGithubFallback hplain hset (hworks continueOauth rfl) [] hnone

/-! ## A git that reads URLs as they are written -/

/-- `str.lower` where all letters are Latin ones. -/
def StrLower.latin : StrLower where
  lower := Text.lower
  kept s h := by
    rw [← String.toList_inj, Text.toList_lower]
    exact (List.map_congr_left fun c hc =>
      Whatwg.lowerChar_of_isHostNameChar c (List.all_eq_true.mp h c hc)).trans (List.map_id _)
  noDelimiter s d hd hnot := by
    have hsame (c : Char) : isDelimiter (Text.lowerChar c) = true → Text.lowerChar c = c := by
      apply Text.forall_char
        (P := fun c => isDelimiter (Text.lowerChar c) = true → Text.lowerChar c = c)
      · decide +kernel
      · intro c h _
        exact h
    rw [Text.toList_lower]
    intro hmem
    obtain ⟨c, hc, rfl⟩ := List.mem_map.mp hmem
    rw [hsame c (by simpa [isDelimiter] using hd)] at hnot
    exact hnot hc
  lastKept s c hlast hc := by
    have hsame : Text.isBlank c = true ∨ c.isDigit = true ∨ c = ':' → Text.lowerChar c = c := by
      apply Text.forall_char
        (P := fun c => Text.isBlank c = true ∨ c.isDigit = true ∨ c = ':' → Text.lowerChar c = c)
      · decide +kernel
      · intro c h _
        exact h
    rw [Text.toList_lower, List.getLast?_map, hlast, Option.map_some, hsame hc]

/-- The place of a URL that has a scheme and a network location. -/
def readPlace (url : String) : Option Place :=
  let after := url.toList.dropWhile (· ≠ ':')
  let location := Web.hostInfo ((after.drop 3).takeWhile (!endsNetloc ·))
  if after.take 3 = [':', '/', '/'] ∧ (location.dropWhile (· ≠ ':')).tail.all Char.isDigit = true then
    some ⟨String.ofList (url.toList.takeWhile (· ≠ ':')),
      String.ofList (location.takeWhile (· ≠ ':'))⟩
  else none

theorem hostInfo_append {user location : List Char} (h : '@' ∉ location) :
    Web.hostInfo (user ++ '@' :: location) = location := by
  unfold Web.hostInfo
  rw [List.reverse_append, List.reverse_cons, List.append_assoc, List.singleton_append,
    Web.takeWhile_ne_append (by simpa using h), List.reverse_reverse]

/-- A git that takes every URL of that form. -/
def Git.plain : Git StrLower.latin where
  contact := readPlace
  reads url place scheme user host port rest hplace hscheme htext hchars hport hportChars hrest := by
    have hcolon : ':' ∉ scheme.toList := by
      rcases hscheme with rfl | rfl
      · decide
      · decide
    have hnot (d : Char) (hd : isDelimiter d = true) : d ∉ user ++ host := fun hmem => by
      rw [hchars d hmem] at hd
      cases hd
    have hends : ∀ c ∈ user ++ '@' :: (host ++ port), endsNetloc c = false := by
      intro c hc
      by_contra h
      have hdelim : isDelimiter c = true := by
        simp only [endsNetloc, Bool.not_eq_false, Bool.or_eq_true, decide_eq_true_eq] at h
        rcases h with (rfl | rfl) | rfl
        · rfl
        · rfl
        · rfl
      rcases List.mem_append.mp hc with hc | hc
      · exact hnot c hdelim (List.mem_append_left _ hc)
      rcases List.mem_cons.mp hc with rfl | hc
      · exact h rfl
      rcases List.mem_append.mp hc with hc | hc
      · exact hnot c hdelim (List.mem_append_right _ hc)
      · exact h (hportChars c hc).1
    -- the pieces of the text
    have hlocation : Web.hostInfo ((user ++ '@' :: (host ++ (port ++ rest))).takeWhile
        (!endsNetloc ·)) = host ++ port := by
      have hsplit := splitNetloc_append hends hrest
      rw [List.append_assoc, List.cons_append, List.append_assoc] at hsplit
      change (user ++ '@' :: (host ++ (port ++ rest))).takeWhile (!endsNetloc ·) = _ at hsplit
      rw [hsplit]
      apply hostInfo_append
      rw [List.mem_append, not_or]
      exact ⟨fun hmem => hnot '@' rfl (List.mem_append_right _ hmem), fun hmem => (hportChars _ hmem).2 rfl⟩
    have hhost : ':' ∉ host := fun hmem => hnot ':' rfl (List.mem_append_right _ hmem)
    have hcut : (host ++ port).takeWhile (· ≠ ':') = host ∧
        (host ++ port).dropWhile (· ≠ ':') = port := by
      rcases hport with rfl | hport
      · rw [List.append_nil]
        exact ⟨takeWhile_ne_of_not_mem hhost, dropWhile_ne_of_not_mem hhost⟩
      · obtain ⟨digits, rfl⟩ : ∃ digits, port = ':' :: digits := by
          cases port with
          | nil => cases hport
          | cons c digits => exact ⟨digits, by rw [Option.some.inj hport]⟩
        exact ⟨Web.takeWhile_ne_append hhost, Web.dropWhile_ne_append hhost⟩
    unfold readPlace at hplace
    rw [htext, Web.dropWhile_ne_append hcolon, Web.takeWhile_ne_append hcolon] at hplace
    simp only [List.drop_succ_cons, List.drop_zero, hlocation, hcut.1, hcut.2] at hplace
    split at hplace
    · next hread =>
      obtain ⟨-, hdigits⟩ := hread
      rw [← Option.some.inj hplace]
      exact ⟨String.ofList_toList, hdigits, fun name _ h => h⟩
    · cases hplace

/-! ## A private repository -/

theorem stripBlank_line (s : String) : stripBlank (s ++ "\n") = stripBlank s := by
  have hnewline : "\n".toList = ['\n'] := rfl
  have hblank : ['\n'].dropWhile Text.isBlank = [] := rfl
  unfold stripBlank
  rw [String.toList_append, hnewline, Text.lstripChars, List.dropWhile_append, hblank]
  split
  · next hempty =>
    rw [Text.lstripChars, List.isEmpty_iff.mp hempty]
  · rw [Text.rstripChars, List.reverse_append]
    rfl

/-- A private repository: the default branch is not told until `origin` has the token. -/
def privateWorld : GitWorld Unit where
  cloneDir := "/tmp/openhost-clone/repo"
  reply commands := match commands.reverse with
    | .getUrl :: .setUrl url :: _ => .ok ⟨0, url ++ "\n", ""⟩
    | .setHead :: .setUrl _ :: .getUrl :: _ => .ok ⟨0, "", ""⟩
    | .setHead :: _ => .ok ⟨128, "", "fatal: Authentication failed\n"⟩
    | .symbolicRef :: _ => .ok ⟨0, "origin/main\n", ""⟩
    | .clone [] _ _ _ :: _ => .ok ⟨128, "", "fatal: Authentication failed\n"⟩
    | _ => .ok ⟨0, "", ""⟩
  hasSubmodules _ := false
  plainDir _ := none
  manifest _ := .ok ()
  oauth := .token "gho_1"
  urlError _ := "Not a repository URL"

theorem privateWorld_setsUrl : privateWorld.SetsUrl := by
  intro commands url written printed _ _ hprinted
  have hreply : privateWorld.reply (commands ++ [.setUrl url] ++ [.getUrl]) =
      .ok ⟨0, url ++ "\n", ""⟩ := by
    unfold privateWorld
    simp
  rw [hreply] at hprinted
  rw [← Except.ok.inj hprinted]
  exact .inl (stripBlank_line url)

theorem privateWorld_plain : privateWorld.oauth.Plain := by
  intro token htoken
  have hchars : "gho_1".toList.all (!isDelimiter ·) = true := by decide
  rw [← OauthReply.token.inj htoken]
  exact fun c hc => by simpa using List.all_eq_true.mp hchars c hc

theorem privateWorld_settable (repoUrl : String) :
    privateWorld.Settable Web.plainFramework repoUrl := by
  intro base ref commands written _ hwritten
  have hreply : privateWorld.reply (commands ++ [.setUrl base]) = .ok ⟨0, "", ""⟩ := by
    unfold privateWorld
    simp
  rw [hreply] at hwritten
  rw [← Except.ok.inj hwritten]

/-- The pull of a private repository puts the token into `origin`. -/
theorem private_guarded :
    .setUrl "https://gho_1@github.com/u/r.git" ∈ commandsOf Web.plainFramework .latin privateWorld
        "https://github.com/u/r.git" (.pull false) ∧
      ∀ command ∈ commandsOf Web.plainFramework .latin privateWorld "https://github.com/u/r.git"
        (.pull false), Guarded Web.plainFramework Git.plain "https://github.com/u/r.git" command :=
  ⟨by decide +kernel, commandsOf_guarded Git.plain _ _ privateWorld_plain privateWorld_setsUrl
    fun _ _ => privateWorld_settable _⟩

/-- A checkout that has another `origin`, which cannot be changed. -/
def lockedWorld : GitWorld Unit :=
  { privateWorld with
    reply := fun commands => match commands.reverse with
      | .setUrl _ :: _ => .ok ⟨4, "", "error: could not lock config file .git/config\n"⟩
      | .getUrl :: _ => .ok ⟨0, "https://example.org/u/r.git\n", ""⟩
      | _ => .ok ⟨128, "", "fatal: Authentication failed\n"⟩ }

/-- The token goes over HTTP where the repository's URL does, and to another host where `origin` stays. -/
theorem token_astray :
    (¬ ∀ command ∈ commandsOf Web.plainFramework .latin privateWorld "http://github.com/u/r.git" .clone,
        ∀ url, command.url? = some url →
          HandedOverHttps Web.plainFramework Git.plain "http://github.com/u/r.git" url) ∧
      ¬ ∀ command ∈ commandsOf Web.plainFramework .latin lockedWorld "https://github.com/u/r.git"
          (.pull false), ∀ url, command.url? = some url →
          HandedOverHttps Web.plainFramework Git.plain "https://github.com/u/r.git" url := by
  constructor
  · intro h
    have hurl := h (.clone (githubTokenGitConfig (some "gho_1")) none "http://gho_1@github.com/u/r.git"
      "/tmp/openhost-clone/repo") (by decide +kernel) _ rfl
    have hparsed : parseRepoUrl Web.plainFramework "http://github.com/u/r.git" =
        some ("http://github.com/u/r.git", none) := by decide +kernel
    rcases hurl with ⟨base, ref, hbase, hown⟩ | hleads
    · rw [hparsed] at hbase
      obtain ⟨rfl, -⟩ := Prod.mk.inj (Option.some.inj hbase)
      exact absurd hown (by decide +kernel)
    · have hscheme := (hleads ⟨"http", "github.com"⟩ (by decide +kernel)).2
      exact absurd hscheme (by decide)
  · intro h
    have hurl := h (.setUrl "https://gho_1@example.org/u/r.git") (by decide +kernel) _ rfl
    have hparsed : parseRepoUrl Web.plainFramework "https://github.com/u/r.git" =
        some ("https://github.com/u/r.git", none) := by decide +kernel
    rcases hurl with ⟨base, ref, hbase, hown⟩ | hleads
    · rw [hparsed] at hbase
      obtain ⟨rfl, -⟩ := Prod.mk.inj (Option.some.inj hbase)
      exact absurd hown (by decide +kernel)
    · have hhost := getLast?_of_isUnder (hleads ⟨"https", "example.org"⟩ (by decide +kernel)).1
      exact absurd hhost (by decide +kernel)

end OpenHost.Upstream
