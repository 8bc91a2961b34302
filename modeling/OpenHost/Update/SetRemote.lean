import OpenHost.Library.Proc
import OpenHost.Update.Repo
import OpenHost.Web.UrlSplit

/-!
# Changing the remote

`set_remote_url` writes the URL of `origin`, fetches and resolves the ref that is to be pinned, and
writes the pin, one after the other.  Nothing is taken back when a later step raises.
-/

namespace OpenHost.Update

open Text (truthy?)
open Web (Framework ParseResult urlparse)
open Proc (call raise reads)

/-! ## The URL -/

/-- `_KNOWN_SCHEMES` -/
def knownSchemes : List String := ["http", "https", "ssh", "git", "file"]

/-- `path.rsplit("@", 1)` -/
def rsplitAt (path : List Char) : List Char × List Char :=
  let ref := (path.reverse.takeWhile (· ≠ '@')).reverse
  (path.take (path.length - ref.length - 1), ref)

/-- What `set_remote_url` reads out of its argument: the URL of the remote, and the ref behind an "@"
of its path.  `none` is a `ValueError`. -/
def parseRemote (fw : Framework) (url : String) : Option (String × Option String) :=
  (urlparse fw url).bind fun parsed =>
    let known := knownSchemes.contains parsed.scheme
    let url := if known then url else "https://" ++ url
    (if known then some parsed else urlparse fw url).map fun parsed =>
      if '@' ∈ parsed.path then
        let split := rsplitAt parsed.path
        ({ parsed with path := split.1 }.geturl, some (String.ofList split.2))
      else (url, none)

/-- `_strip_credentials`; `none` is a `ValueError`. -/
def stripCredentials (fw : Framework) (url : String) : Option String :=
  (urlparse fw url).bind fun parsed =>
    if parsed.hasCredentials then
      let host := (parsed.hostname.getD "").toList
      match parsed.port with
      | none => none
      | some (some (n + 1)) =>
          some { parsed with netloc := host ++ ':' :: (toString (n + 1)).toList }.geturl
      | some _ => some { parsed with netloc := host }.geturl
    else some url

/-! ## The repository and what git answers -/

/-- The repository with the part of its configuration that is at stake. -/
structure RemoteState (C : Type) [DecidableEq C] where
  repo : Repo C
  head : C
  /-- The URL of `origin`, if there is such a remote. -/
  origin : Option String
  /-- The values of `openhost.target-ref`. -/
  pins : List String

inductive RemoteError where
  | valueError
  /-- A git step that fails. -/
  | git
  /-- The text of the `RuntimeError` names the ref. -/
  | unresolved (ref : String)
  deriving DecidableEq, Repr

/-- How a git step ends; one that raises may have taken effect all the same. -/
inductive GitReply where
  | ok
  | raises (applied : Bool)
  deriving DecidableEq, Repr

def GitReply.toReply : GitReply → Proc.Reply RemoteError
  | ok => .ok
  | raises applied => .raises .git applied

/-- The outside world during a call: how each step ends, and the repository after the fetch. -/
structure RemoteWorld (C : Type) [DecidableEq C] where
  openRepo : GitReply
  writeUrl : GitReply
  fetch : GitReply
  fetched : Repo C
  resolve : GitReply
  writePin : GitReply
  unsetPin : GitReply
  listTags : GitReply

/-- `RemoteInfo` -/
structure RemoteInfo where
  url : String
  ref : String
  pinned : Bool
  deriving DecidableEq, Repr

variable {C : Type} [DecidableEq C]

/-! ## The operation -/

/-- The part of `set_remote_url` that makes sure of the ref. -/
def checkRef (w : RemoteWorld C) (ref : String) : Proc RemoteError (RemoteState C) Unit := do
  call w.fetch.toReply fun s => { s with repo := w.fetched }
  call w.resolve.toReply id
  let found ← reads fun s => (s.repo.resolveRefSha ref).isSome
  if found then pure () else raise (.unresolved ref)

/-- `_set_target_ref` -/
def setTargetRef (w : RemoteWorld C) (ref : Option String) :
    Proc RemoteError (RemoteState C) Unit :=
  match truthy? ref with
  | some ref => do
      -- `git config` does not overwrite several values by one
      let several ← reads fun s => decide (1 < s.pins.length)
      if several then raise .git else call w.writePin.toReply fun s => { s with pins := [ref] }
  | none =>
      -- the handler takes every failure for "already unset"
      Proc.tryExcept (call w.unsetPin.toReply fun s => { s with pins := [] }) (fun _ => true)
        fun _ => pure ()

/-- `ref or (tags[-1] if (tags := _get_sorted_tags(repo)) else "HEAD")` -/
def shownRef (w : RemoteWorld C) (ref : Option String) : Proc RemoteError (RemoteState C) String :=
  match truthy? ref with
  | some ref => pure ref
  | none => do
      call w.listTags.toReply id
      let tags ← reads fun s => s.repo.getSortedTags
      pure (tags.getLast?.getD "HEAD")

/-- What `set_remote_url` does once the URL is written. -/
def pinAndReport (fw : Framework) (w : RemoteWorld C) (url : String) (ref : Option String) :
    Proc RemoteError (RemoteState C) RemoteInfo := do
  match truthy? ref with
  | some ref => checkRef w ref
  | none => pure ()
  setTargetRef w ref
  match stripCredentials fw url with
  | none => raise .valueError
  | some shown => do
      let shownRef ← shownRef w ref
      pure ⟨shown, shownRef, ref.isSome⟩

/-- `set_remote_url` -/
def setRemoteUrl (fw : Framework) (w : RemoteWorld C) (url : String) :
    Proc RemoteError (RemoteState C) RemoteInfo :=
  match parseRemote fw url with
  | none => raise .valueError
  | some (url, ref) => do
      call w.openRepo.toReply id
      call w.writeUrl.toReply fun s => { s with origin := some url }
      pinAndReport fw w url ref

/-! ## What is to be kept -/

/-- URL, pin and HEAD are those from before. -/
structure SameRemote (s s' : RemoteState C) : Prop where
  origin : s'.origin = s.origin
  pins : s'.pins = s.pins
  head : s'.head = s.head

/-- When the call raises, nothing has changed. -/
def KeptOnRaise (fw : Framework) (w : RemoteWorld C) (url : String) (s : RemoteState C) : Prop :=
  ∀ e s', setRemoteUrl fw w url s = (.raised e, s') → SameRemote s s'

/-- The ref is refused before the pin is written. -/
def RefRefused (w : RemoteWorld C) (s : RemoteState C) (ref : String) : Prop :=
  w.fetch ≠ .ok ∨ w.resolve ≠ .ok ∨ w.fetched.resolveRefSha ref = none ∨ 1 < s.pins.length ∨
    w.writePin = .raises false

/-- Whatever raises from the write of the URL on finds written what was there before. -/
structure Harmless (fw : Framework) (w : RemoteWorld C) (s : RemoteState C) (url : String)
    (ref : Option String) : Prop where
  writeUrl : w.writeUrl = .raises true → s.origin = some url
  refused : w.writeUrl = .ok → ∀ r, truthy? ref = some r → RefRefused w s r → s.origin = some url
  pinned : w.writeUrl = .ok → ∀ r, truthy? ref = some r → ¬ RefRefused w s r →
    w.writePin = .raises true ∨ stripCredentials fw url = none →
      s.origin = some url ∧ s.pins = [r]
  unpinned : w.writeUrl = .ok → truthy? ref = none →
    stripCredentials fw url = none ∨ w.listTags ≠ .ok →
      s.origin = some url ∧ (w.unsetPin = .raises false ∨ s.pins = [])

/-! ## The steps -/

variable {fw : Framework} {w : RemoteWorld C} {url : String} {s : RemoteState C}

theorem GitReply.ne_ok {r : GitReply} (h : r ≠ .ok) : ∃ applied, r = .raises applied := by
  cases r with
  | ok => exact absurd rfl h
  | raises applied => exact ⟨applied, rfl⟩

theorem call_raises {r : GitReply} {applied : Bool} (h : r = .raises applied)
    (eff : RemoteState C → RemoteState C) (s : RemoteState C) :
    call r.toReply eff s = (.raised .git, if applied then eff s else s) := by
  rw [h]
  rfl

theorem call_ok {r : GitReply} (h : r = .ok) (eff : RemoteState C → RemoteState C)
    (s : RemoteState C) : call r.toReply eff s = (.ok (), eff s) := by
  rw [h]
  rfl

theorem SameRemote.refl (s : RemoteState C) : SameRemote s s := ⟨rfl, rfl, rfl⟩

theorem checkRef_found {ref : String} (hfetch : w.fetch = .ok) (hresolve : w.resolve = .ok)
    (hfound : w.fetched.resolveRefSha ref ≠ none) :
    checkRef w ref s = (.ok (), { s with repo := w.fetched }) := by
  unfold checkRef
  rw [Proc.bind_of_ok (call_ok hfetch _ s), Proc.bind_of_ok (call_ok hresolve _ _),
    Proc.bind_of_ok (Proc.reads_apply _ _),
    if_pos (by simpa [Option.isSome_iff_ne_none] using hfound)]
  rfl

/-- What goes wrong with the ref leaves the configuration alone. -/
theorem checkRef_refused {ref : String} (h : w.fetch ≠ .ok ∨ w.resolve ≠ .ok ∨
    w.fetched.resolveRefSha ref = none) :
    ∃ e s', checkRef w ref s = (.raised e, s') ∧ SameRemote s s' := by
  unfold checkRef
  by_cases hfetch : w.fetch = .ok
  · rw [Proc.bind_of_ok (call_ok hfetch _ s)]
    by_cases hresolve : w.resolve = .ok
    · have hnone := (h.resolve_left (not_not_intro hfetch)).resolve_left (not_not_intro hresolve)
      rw [Proc.bind_of_ok (call_ok hresolve _ _), Proc.bind_of_ok (Proc.reads_apply _ _),
        if_neg (by simp [hnone])]
      exact ⟨_, _, rfl, rfl, rfl, rfl⟩
    · obtain ⟨applied, hraises⟩ := GitReply.ne_ok hresolve
      refine ⟨_, _, Proc.bind_of_raised (call_raises hraises _ _), ?_⟩
      cases applied
      · exact ⟨rfl, rfl, rfl⟩
      · exact ⟨rfl, rfl, rfl⟩
  · obtain ⟨applied, hraises⟩ := GitReply.ne_ok hfetch
    refine ⟨_, _, Proc.bind_of_raised (call_raises hraises _ _), ?_⟩
    cases applied
    · exact ⟨rfl, rfl, rfl⟩
    · exact ⟨rfl, rfl, rfl⟩

theorem setTargetRef_refused {ref : Option String} {r : String} (href : truthy? ref = some r)
    (h : 1 < s.pins.length ∨ w.writePin = .raises false) :
    setTargetRef w ref s = (.raised .git, s) := by
  unfold setTargetRef
  rw [href]
  dsimp only
  rw [Proc.bind_of_ok (Proc.reads_apply _ _)]
  by_cases hseveral : 1 < s.pins.length
  · rw [if_pos (by simpa using hseveral)]
    rfl
  · rw [if_neg (by simpa using hseveral), call_raises (h.resolve_left hseveral)]
    rfl

theorem setTargetRef_written {ref : Option String} {r : String} (href : truthy? ref = some r)
    (hone : ¬ 1 < s.pins.length) (hwrite : w.writePin ≠ .raises false) :
    setTargetRef w ref s =
      (if w.writePin = .ok then .ok () else .raised .git, { s with pins := [r] }) := by
  unfold setTargetRef
  rw [href]
  dsimp only
  rw [Proc.bind_of_ok (Proc.reads_apply _ _), if_neg (by simpa using hone)]
  cases hreply : w.writePin with
  | ok => rfl
  | raises applied =>
    cases applied with
    | true => rfl
    | false => exact absurd hreply hwrite

theorem setTargetRef_unset {ref : Option String} (href : truthy? ref = none) :
    setTargetRef w ref s =
      (.ok (), if w.unsetPin = .raises false then s else { s with pins := [] }) := by
  unfold setTargetRef
  rw [href]
  cases hreply : w.unsetPin with
  | ok => rfl
  | raises applied =>
    cases applied with
    | true => rfl
    | false => rfl

theorem shownRef_pinned {ref : Option String} {r : String} (href : truthy? ref = some r) :
    shownRef w ref s = (.ok r, s) := by
  unfold shownRef
  rw [href]
  rfl

theorem shownRef_unpinned {ref : Option String} (href : truthy? ref = none)
    (htags : w.listTags = .ok) :
    shownRef w ref s = (.ok (s.repo.getSortedTags.getLast?.getD "HEAD"), s) := by
  unfold shownRef
  rw [href]
  dsimp only
  rw [Proc.bind_of_ok (call_ok htags _ s)]
  rfl

theorem shownRef_raises {ref : Option String} (href : truthy? ref = none)
    (htags : w.listTags ≠ .ok) :
    shownRef w ref s = (.raised .git, s) := by
  obtain ⟨applied, hraises⟩ := GitReply.ne_ok htags
  unfold shownRef
  rw [href]
  dsimp only
  rw [Proc.bind_of_raised (call_raises hraises _ s)]
  cases applied
  · rfl
  · rfl

/-! ## What comes after the URL -/

section

variable {ref : Option String} {r : String}

theorem pinAndReport_refused (href : truthy? ref = some r) (h : RefRefused w s r) :
    ∃ e s', pinAndReport fw w url ref s = (.raised e, s') ∧ SameRemote s s' := by
  unfold pinAndReport
  rw [href]
  dsimp only
  by_cases hcheck : w.fetch ≠ .ok ∨ w.resolve ≠ .ok ∨ w.fetched.resolveRefSha r = none
  · obtain ⟨e, s', hraised, hsame⟩ := checkRef_refused (s := s) hcheck
    exact ⟨e, s', Proc.bind_of_raised hraised, hsame⟩
  · -- the ref is there, but its pin cannot be written
    simp only [not_or, not_not] at hcheck
    have hpin : 1 < s.pins.length ∨ w.writePin = .raises false := by
      simpa [RefRefused, hcheck] using h
    rw [Proc.bind_of_ok (checkRef_found hcheck.1 hcheck.2.1 hcheck.2.2)]
    refine ⟨_, _, Proc.bind_of_raised (setTargetRef_refused href hpin), rfl, rfl, rfl⟩

theorem not_refused (h : ¬ RefRefused w s r) : w.fetch = .ok ∧ w.resolve = .ok ∧
    w.fetched.resolveRefSha r ≠ none ∧ ¬ 1 < s.pins.length ∧ w.writePin ≠ .raises false := by
  simp only [RefRefused, not_or, not_not] at h
  exact h

/-- A raise behind the write of the pin. -/
theorem pinAndReport_late (href : truthy? ref = some r) (h : ¬ RefRefused w s r)
    (hlate : w.writePin = .raises true ∨ stripCredentials fw url = none) :
    ∃ e s', pinAndReport fw w url ref s = (.raised e, s') ∧
      SameRemote { s with pins := [r] } s' := by
  obtain ⟨hfetch, hresolve, hfound, hone, hwrite⟩ := not_refused h
  unfold pinAndReport
  rw [href]
  dsimp only
  rw [Proc.bind_of_ok (checkRef_found hfetch hresolve hfound)]
  have hset := setTargetRef_written (w := w) (s := { s with repo := w.fetched }) href hone hwrite
  by_cases hok : w.writePin = .ok
  · rw [if_pos hok] at hset
    have hstrip : stripCredentials fw url = none := hlate.resolve_left (by simp [hok])
    rw [Proc.bind_of_ok hset, hstrip]
    exact ⟨_, _, rfl, rfl, rfl, rfl⟩
  · rw [if_neg hok] at hset
    exact ⟨_, _, Proc.bind_of_raised hset, rfl, rfl, rfl⟩

theorem pinAndReport_pinned (href : truthy? ref = some r) (h : ¬ RefRefused w s r)
    (hlate : ¬ (w.writePin = .raises true ∨ stripCredentials fw url = none)) :
    ∃ info s', pinAndReport fw w url ref s = (.ok info, s') := by
  obtain ⟨hfetch, hresolve, hfound, hone, hwrite⟩ := not_refused h
  obtain ⟨happlied, hstrip⟩ := not_or.mp hlate
  obtain ⟨shown, hshown⟩ := Option.ne_none_iff_exists'.mp hstrip
  have hok : w.writePin = .ok := by
    cases hreply : w.writePin with
    | ok => rfl
    | raises applied => cases applied <;> simp_all
  have hset := setTargetRef_written (w := w) (s := { s with repo := w.fetched }) href hone hwrite
  rw [if_pos hok] at hset
  unfold pinAndReport
  rw [href]
  dsimp only
  rw [Proc.bind_of_ok (checkRef_found hfetch hresolve hfound), Proc.bind_of_ok hset, hshown]
  dsimp only
  rw [Proc.bind_of_ok (shownRef_pinned href)]
  exact ⟨_, _, rfl⟩

/-- The configuration once a pin has been taken out. -/
def unpin (w : RemoteWorld C) (s : RemoteState C) : RemoteState C :=
  if w.unsetPin = .raises false then s else { s with pins := [] }

theorem pinAndReport_unpinned_raises (href : truthy? ref = none)
    (h : stripCredentials fw url = none ∨ w.listTags ≠ .ok) :
    ∃ e, pinAndReport fw w url ref s = (.raised e, unpin w s) := by
  unfold pinAndReport
  rw [href]
  dsimp only
  rw [Proc.bind_of_ok (setTargetRef_unset href)]
  cases hstrip : stripCredentials fw url with
  | none => exact ⟨_, rfl⟩
  | some shown =>
    have htags := h.resolve_left (by simp [hstrip])
    exact ⟨_, Proc.bind_of_raised (shownRef_raises href htags)⟩

theorem pinAndReport_unpinned (href : truthy? ref = none)
    (h : ¬ (stripCredentials fw url = none ∨ w.listTags ≠ .ok)) :
    ∃ info s', pinAndReport fw w url ref s = (.ok info, s') := by
  obtain ⟨hstrip, htags⟩ := not_or.mp h
  obtain ⟨shown, hshown⟩ := Option.ne_none_iff_exists'.mp hstrip
  unfold pinAndReport
  rw [href]
  dsimp only
  rw [Proc.bind_of_ok (setTargetRef_unset href), hshown]
  dsimp only
  rw [Proc.bind_of_ok (shownRef_unpinned href (not_not.mp htags))]
  exact ⟨_, _, rfl⟩

end

/-! ## Where nothing is changed -/

theorem kept_of_raised {e : RemoteError} {s' t : RemoteState C}
    (h : setRemoteUrl fw w url s = (.raised e, s')) (hsame : SameRemote t s') :
    KeptOnRaise fw w url s ↔ SameRemote s t := by
  constructor
  · intro hkept
    have hs := hkept e s' h
    exact ⟨hsame.origin.symm.trans hs.origin, hsame.pins.symm.trans hs.pins,
      hsame.head.symm.trans hs.head⟩
  · intro hs e' s'' hraised
    rw [h] at hraised
    cases hraised
    exact ⟨hsame.origin.trans hs.origin, hsame.pins.trans hs.pins, hsame.head.trans hs.head⟩

theorem kept_of_ok {info : RemoteInfo} {s' : RemoteState C}
    (h : setRemoteUrl fw w url s = (.ok info, s')) : KeptOnRaise fw w url s := by
  intro e s'' hraised
  rw [h] at hraised
  cases hraised

theorem setRemoteUrl_written {newUrl : String} {ref : Option String}
    (hparse : parseRemote fw url = some (newUrl, ref)) (hopen : w.openRepo = .ok)
    (hwrite : w.writeUrl = .ok) :
    setRemoteUrl fw w url s = pinAndReport fw w newUrl ref { s with origin := some newUrl } := by
  unfold setRemoteUrl
  rw [hparse]
  dsimp only
  rw [Proc.bind_of_ok (call_ok hopen _ s), Proc.bind_of_ok (call_ok hwrite _ _)]
  rfl

theorem sameRemote_written {newUrl : String} :
    SameRemote s { s with origin := some newUrl } ↔ s.origin = some newUrl := by
  constructor
  · exact fun h => h.origin.symm
  · exact fun h => ⟨h.symm, rfl, rfl⟩

theorem sameRemote_pinned {newUrl : String} {pins : List String} :
    SameRemote s { s with origin := some newUrl, pins := pins } ↔
      s.origin = some newUrl ∧ s.pins = pins := by
  constructor
  · exact fun h => ⟨h.origin.symm, h.pins.symm⟩
  · exact fun h => ⟨h.1.symm, h.2.symm, rfl⟩

theorem sameRemote_unpinned {newUrl : String} :
    SameRemote s (unpin w { s with origin := some newUrl }) ↔
      s.origin = some newUrl ∧ (w.unsetPin = .raises false ∨ s.pins = []) := by
  unfold unpin
  by_cases hunset : w.unsetPin = .raises false
  · rw [if_pos hunset, sameRemote_written]
    simp [hunset]
  · rw [if_neg hunset]
    simpa [hunset] using sameRemote_pinned

section

variable {newUrl : String} {ref : Option String} {r : String}

theorem harmless_iff_of_refused (hwrite : w.writeUrl = .ok) (href : truthy? ref = some r)
    (hrefused : RefRefused w s r) : Harmless fw w s newUrl ref ↔ s.origin = some newUrl := by
  refine ⟨fun h => h.refused hwrite r href hrefused,
    fun h => ⟨fun _ => h, fun _ _ _ _ => h, ?_, ?_⟩⟩
  · intro _ r' href' hnot
    obtain rfl : r = r' := Option.some.inj (href.symm.trans href')
    exact absurd hrefused hnot
  · intro _ hnone
    cases href.symm.trans hnone

theorem harmless_iff_of_pinned (hwrite : w.writeUrl = .ok) (href : truthy? ref = some r)
    (hrefused : ¬ RefRefused w s r) : Harmless fw w s newUrl ref ↔
      (w.writePin = .raises true ∨ stripCredentials fw newUrl = none →
        s.origin = some newUrl ∧ s.pins = [r]) := by
  refine ⟨fun h => h.pinned hwrite r href hrefused, fun h => ⟨?_, ?_, ?_, ?_⟩⟩
  · rw [hwrite]
    simp
  · intro _ r' href' hyes
    obtain rfl : r = r' := Option.some.inj (href.symm.trans href')
    exact absurd hyes hrefused
  · intro _ r' href' _
    obtain rfl : r = r' := Option.some.inj (href.symm.trans href')
    exact h
  · intro _ hnone
    cases href.symm.trans hnone

theorem harmless_iff_of_unpinned (hwrite : w.writeUrl = .ok) (href : truthy? ref = none) :
    Harmless fw w s newUrl ref ↔ (stripCredentials fw newUrl = none ∨ w.listTags ≠ .ok →
      s.origin = some newUrl ∧ (w.unsetPin = .raises false ∨ s.pins = [])) := by
  refine ⟨fun h => h.unpinned hwrite href, fun h => ⟨?_, ?_, ?_, fun _ _ => h⟩⟩
  · rw [hwrite]
    simp
  · intro _ r' href'
    cases href.symm.trans href'
  · intro _ r' href'
    cases href.symm.trans href'

theorem harmless_iff_of_not_written {applied : Bool} (hwrite : w.writeUrl = .raises applied) :
    Harmless fw w s newUrl ref ↔ (applied = true → s.origin = some newUrl) := by
  constructor
  · intro h happlied
    exact h.writeUrl (by rw [hwrite, happlied])
  · intro h
    refine ⟨fun hraises => h ?_, ?_, ?_, ?_⟩
    · rw [hwrite] at hraises
      injection hraises
    · intro hok
      cases hwrite.symm.trans hok
    · intro hok
      cases hwrite.symm.trans hok
    · intro hok
      cases hwrite.symm.trans hok

/-- The call comes to its second half. -/
theorem kept_iff_of_written (hparse : parseRemote fw url = some (newUrl, ref))
    (hopen : w.openRepo = .ok) (hwrite : w.writeUrl = .ok) :
    KeptOnRaise fw w url s ↔ Harmless fw w s newUrl ref := by
  have hrun := setRemoteUrl_written (s := s) hparse hopen hwrite
  cases href : truthy? ref with
  | some r =>
    by_cases hrefused : RefRefused w s r
    · obtain ⟨e, s', hraised, hsame⟩ := pinAndReport_refused
        (s := { s with origin := some newUrl }) href hrefused
      rw [kept_of_raised (hrun.trans hraised) hsame, sameRemote_written,
        harmless_iff_of_refused hwrite href hrefused]
    · rw [harmless_iff_of_pinned hwrite href hrefused]
      by_cases hlate : w.writePin = .raises true ∨ stripCredentials fw newUrl = none
      · obtain ⟨e, s', hraised, hsame⟩ := pinAndReport_late
          (s := { s with origin := some newUrl }) href hrefused hlate
        rw [kept_of_raised (hrun.trans hraised) hsame, sameRemote_pinned]
        exact ⟨fun h _ => h, fun h => h hlate⟩
      · obtain ⟨info, s', hok⟩ := pinAndReport_pinned
          (s := { s with origin := some newUrl }) href hrefused hlate
        exact ⟨fun _ h => absurd h hlate, fun _ => kept_of_ok (hrun.trans hok)⟩
  | none =>
    rw [harmless_iff_of_unpinned hwrite href]
    by_cases hlate : stripCredentials fw newUrl = none ∨ w.listTags ≠ .ok
    · obtain ⟨e, hraised⟩ := pinAndReport_unpinned_raises
        (s := { s with origin := some newUrl }) href hlate
      rw [kept_of_raised (hrun.trans hraised) (.refl _), sameRemote_unpinned]
      exact ⟨fun h _ => h, fun h => h hlate⟩
    · obtain ⟨info, s', hok⟩ := pinAndReport_unpinned
        (s := { s with origin := some newUrl }) href hlate
      exact ⟨fun _ h => absurd h hlate, fun _ => kept_of_ok (hrun.trans hok)⟩

/-- The call raises at the write of the URL. -/
theorem kept_iff_of_not_written {applied : Bool} (hparse : parseRemote fw url = some (newUrl, ref))
    (hopen : w.openRepo = .ok) (hwrite : w.writeUrl = .raises applied) :
    KeptOnRaise fw w url s ↔ Harmless fw w s newUrl ref := by
  have hraised : setRemoteUrl fw w url s =
      (.raised .git, if applied then { s with origin := some newUrl } else s) := by
    unfold setRemoteUrl
    rw [hparse]
    dsimp only
    rw [Proc.bind_of_ok (call_ok hopen _ s), Proc.bind_of_raised (call_raises hwrite _ _)]
    rfl
  rw [kept_of_raised hraised (.refl _), harmless_iff_of_not_written hwrite]
  cases applied with
  | true =>
    rw [if_pos rfl, sameRemote_written]
    simp
  | false => simp [SameRemote.refl]

end

/-- The call keeps what it has to when it raises exactly if whatever raises from the write of the
URL on finds written what was there before. -/
theorem remoteKept_iff_harmless (fw : Framework) (w : RemoteWorld C) (url : String) (s : RemoteState C) :
    KeptOnRaise fw w url s ↔ ∀ newUrl ref, parseRemote fw url = some (newUrl, ref) →
      w.openRepo = .ok → Harmless fw w s newUrl ref := by
  cases hparse : parseRemote fw url with
  | none =>
    have hraised : setRemoteUrl fw w url s = (.raised .valueError, s) := by
      unfold setRemoteUrl
      rw [hparse]
      rfl
    rw [kept_of_raised hraised (.refl s)]
    simp [SameRemote.refl]
  | some parsed =>
    obtain ⟨newUrl, ref⟩ := parsed
    by_cases hopen : w.openRepo = .ok
    · have hkept : KeptOnRaise fw w url s ↔ Harmless fw w s newUrl ref := by
        cases hwrite : w.writeUrl with
        | ok => exact kept_iff_of_written hparse hopen hwrite
        | raises applied => exact kept_iff_of_not_written hparse hopen hwrite
      rw [hkept]
      constructor
      · intro h newUrl' ref' heq _
        obtain ⟨rfl, rfl⟩ := Prod.mk.inj (Option.some.inj heq)
        exact h
      · exact fun h => h newUrl ref rfl hopen
    · -- nothing has been written yet
      obtain ⟨applied, hraises⟩ := GitReply.ne_ok hopen
      have hraised : setRemoteUrl fw w url s = (.raised .git, s) := by
        unfold setRemoteUrl
        rw [hparse]
        dsimp only
        rw [Proc.bind_of_raised (call_raises hraises _ s)]
        cases applied
        · rfl
        · rfl
      rw [kept_of_raised hraised (.refl s)]
      exact ⟨fun _ _ _ _ hok => absurd hok hopen, fun _ => .refl s⟩

/-! ### A branch with a typo -/

/-- A repository with no tags, in which `rev-parse` knows one remote branch. -/
def bareRepo : Repo Unit where
  parents _ := []
  depth _ := 0
  parents_depth := by simp
  objects := []
  tags := []
  refs := [("origin/main", ())]
  describeExact _ := none
  describeNearest _ := none
  tags_nodup := by simp
  describeExact_tag := by simp
  describeExact_none := by simp
  describeNearest_tag := by simp
  describeNearest_none := by simp

/-- Every step goes well. -/
def quietWorld : RemoteWorld Unit := ⟨.ok, .ok, .ok, bareRepo, .ok, .ok, .ok, .ok⟩

/-- The host follows the branch `main` of its remote. -/
def pinnedHost : RemoteState Unit := ⟨bareRepo, (), some "https://git.example.com/old", ["main"]⟩

/-- A typo in the name of the branch, and the remote is another one. -/
theorem typo_changes_url : ¬ ∀ (fw : Framework) (w : RemoteWorld Unit) (url : String)
    (s : RemoteState Unit), KeptOnRaise fw w url s := by
  intro h
  have hparse : parseRemote Web.plainFramework "https://git.example.com/new@mian" =
      some ("https://git.example.com/new", some "mian") := by decide +kernel
  have hnone : bareRepo.resolveRefSha "mian" = none := by decide +kernel
  have hrefused : RefRefused quietWorld { pinnedHost with
      origin := some "https://git.example.com/new" } "mian" := Or.inr (Or.inr (Or.inl hnone))
  have hrun := setRemoteUrl_written (w := quietWorld) (s := pinnedHost) hparse rfl rfl
  obtain ⟨e, s', hraised, hsame⟩ : ∃ e s', pinAndReport Web.plainFramework quietWorld
      "https://git.example.com/new" (some "mian") { pinnedHost with
        origin := some "https://git.example.com/new" } = (.raised e, s') ∧
      SameRemote { pinnedHost with origin := some "https://git.example.com/new" } s' :=
    pinAndReport_refused (Text.truthy?_some_of_ne (by simp)) hrefused
  have horigin := (h _ _ _ _ _ _ (hrun.trans hraised)).origin
  rw [hsame.origin] at horigin
  simp [pinnedHost] at horigin

end OpenHost.Update
