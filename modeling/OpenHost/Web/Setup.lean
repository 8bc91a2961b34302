import OpenHost.Library.Bcrypt
import OpenHost.Library.Fields
import OpenHost.Library.Runs

/-!
# Setup

The setup app that a fresh space serves until it has an owner, and the submissions of its form.  A
request waits for its form; from then on `setup_post` does not suspend, so it runs at once on what
the tables hold.  Other submissions may come before and after, until the process starts again.

The claim token is deleted with the first owner, so where it is required nobody comes after them.
Where it is not, nothing looks whether there is an owner.

What does not bear on the owner is left out: the session, the apps that are installed by default, and
the page and the cookie of the response.
-/

namespace OpenHost.Web

variable {Salt Hash : Type}

/-! ## The tables and the form -/

/-- A row of `users`; the ids are given out from 1 on. -/
structure User (Hash : Type) where
  userId : Nat
  username : String
  passwordHash : Hash
  userId_pos : 0 < userId
  deriving DecidableEq

/-- The table `users` with the last id given out, and the claim token of the table `settings`. -/
structure Space (Hash : Type) where
  users : List (User Hash)
  lastUserId : Nat
  claimToken : Option String
  deriving DecidableEq

/-- The fields of the form, empty where they are missing, and the salt that `gensalt` will draw. -/
structure Submission (Salt : Type) where
  claim : String
  password : String
  confirmPassword : String
  username : String
  salt : Salt
  deriving DecidableEq

structure SetupConfig where
  claimTokenRequired : Bool
  deriving DecidableEq

inductive SetupRefusal where
  /-- The form again, with an error. -/
  | form (error : String)
  /-- An exception of a library. -/
  | failed
  deriving DecidableEq, Repr

inductive SetupResponse where
  /-- `PermissionDeniedException` -/
  | unauthorized (detail : String)
  | refused (refusal : SetupRefusal)
  | completed (userId : Nat)
  deriving DecidableEq, Repr

/-! ## The checks -/

/-- `_OWNER_USERNAME_RE`, on the characters before the end. -/
def matchesOwnerUsername : List Char → Bool
  | [] => false
  | c :: cs =>
      (c.isLower || c.isDigit) && cs.length ≤ 29 &&
        cs.all fun c => c.isLower || c.isDigit || c = '.' || c = '_' || c = '-'

/-- `OWNER_USERNAME_MAX_LEN` -/
def ownerUsernameMaxLen : Nat := 30

/-- `DEFAULT_OWNER_USERNAME` -/
def defaultOwnerUsername : String := "owner"

/-- `validate_owner_username` -/
def validateOwnerUsername (value : String) : Option String :=
  let cs := value.toList
  if value = "" then some "Username is required."
  else if ownerUsernameMaxLen < cs.length then some "Username must be at most 30 characters."
  -- `$` also matches before a newline at the end
  else if matchesOwnerUsername cs || (cs.getLast? = some '\n' && matchesOwnerUsername cs.dropLast) then
    none
  else some ("Username must start with a lowercase letter or digit and contain only" ++
    " lowercase letters, digits, `.`, `_` or `-`.")

/-- `_verify_claim_token`; `compare_digest` raises on text outside ASCII. -/
def verifyClaimToken (stored : Option String) (claim : String) : Option Bool :=
  if claim = "" then some false
  else match stored with
    | none => some false
    | some token =>
        if token = "" then some false
        else if claim.toList.all (·.val < 128) && token.toList.all (·.val < 128) then
          some (claim = token)
        else none

/-- The submission passes the claim. -/
def claimVerdict (config : SetupConfig) (stored : Option String) (claim : String) : Option Bool :=
  if config.claimTokenRequired then verifyClaimToken stored claim else some true

/-- The name of the owner: a blank one falls back to `DEFAULT_OWNER_USERNAME`. -/
def setupUsername (usernameRaw : String) : Except SetupRefusal String :=
  if usernameRaw ≠ "" then
    match validateOwnerUsername usernameRaw with
    | some usernameError => .error (.form usernameError)
    | none => .ok usernameRaw
  else .ok defaultOwnerUsername

/-- The part of `setup_post` from the password to the hash: the account that the form asks for. -/
def setupAccount (B : Bcrypt Salt Hash) (sub : Submission Salt) :
    Except SetupRefusal (String × Hash) := do
  let usernameRaw := Text.stripBlank sub.username
  if sub.password = "" then throw (.form "Password is required")
  if sub.password ≠ sub.confirmPassword then throw (.form "Passwords do not match")
  let username ← setupUsername usernameRaw
  match B.hashpw (Utf8.encode sub.password) sub.salt with
  | none => throw .failed
  | some passwordHash => pure (username, passwordHash)

/-- `INSERT INTO users (username, password_hash) VALUES (?, ?)`; the name is unique. -/
def Space.insertUser (space : Space Hash) (username : String) (passwordHash : Hash) :
    Option (Space Hash) :=
  if username ∈ space.users.map User.username then none
  else some { space with
    users := space.users ++ [⟨space.lastUserId + 1, username, passwordHash, Nat.succ_pos _⟩]
    lastUserId := space.lastUserId + 1 }

/-- `setup_post`, once the form has been read. -/
def setupPost (B : Bcrypt Salt Hash) (config : SetupConfig) (space : Space Hash)
    (sub : Submission Salt) : SetupResponse × Space Hash :=
  match claimVerdict config space.claimToken sub.claim with
  | none => (.refused .failed, space)
  | some false => (.unauthorized "Invalid or missing claim token.", space)
  | some true =>
      match setupAccount B sub with
      | .error refusal => (.refused refusal, space)
      | .ok (username, passwordHash) =>
          match space.insertUser username passwordHash with
          | none => (.refused .failed, space)
          | some inserted =>
              -- the claim token has done its job
              (.completed inserted.lastUserId, { inserted with claimToken := none })

/-! ## Submissions -/

/-- A submission that has been processed, and whether it satisfied the claim when it was. -/
structure Attempt (Salt : Type) where
  submission : Submission Salt
  satisfied : Bool
  deriving DecidableEq

structure SetupRun (Salt Hash : Type) where
  space : Space Hash
  /-- The setup app takes requests. -/
  serving : Bool
  /-- The requests whose form is being read. -/
  waiting : List (Submission Salt)
  /-- The requests that have been processed, in order. -/
  attempts : List (Attempt Salt)

inductive SetupAction (Salt : Type) where
  | arrive (sub : Submission Salt)
  /-- The form of the `i`-th request that waits has been read. -/
  | read (i : Nat)
  /-- `trigger_restart` -/
  | close
  /-- The process starts again; `found` is the claim token of `first_boot.toml` or of the file. -/
  | start (found : Option String)

/-- The attempt that a submission makes on the space as it is. -/
def Space.attempt (config : SetupConfig) (space : Space Hash) (sub : Submission Salt) : Attempt Salt :=
  ⟨sub, claimVerdict config space.claimToken sub.claim = some true⟩

/-- What processing the `i`-th request that waits makes of the run. -/
def SetupRun.process (B : Bcrypt Salt Hash) (config : SetupConfig) (s : SetupRun Salt Hash)
    (sub : Submission Salt) (i : Nat) : SetupRun Salt Hash :=
  { s with
    space := (setupPost B config s.space sub).2
    waiting := s.waiting.eraseIdx i
    attempts := s.attempts ++ [s.space.attempt config sub] }

/-- `seed_first_boot`, as far as the claim token is concerned. -/
def Space.seed (space : Space Hash) (found : Option String) : Space Hash :=
  if space.users = [] ∧ space.claimToken = none then { space with claimToken := found } else space

/-- `owner_exists` -/
def Space.ownerExists (space : Space Hash) : Bool := !space.users.isEmpty

def SetupRun.next (B : Bcrypt Salt Hash) (config : SetupConfig) (s : SetupRun Salt Hash) :
    SetupAction Salt → Option (SetupRun Salt Hash)
  | .arrive sub => if s.serving then some { s with waiting := s.waiting ++ [sub] } else none
  | .read i => s.waiting[i]?.map fun sub => s.process B config sub i
  | .close => some { s with serving := false }
  | .start found =>
      some { s with space := s.space.seed found, serving := !s.space.ownerExists, waiting := [] }

/-! ## The owner -/

/-- The account that a submission which satisfied the claim asks for. -/
def Attempt.account? (B : Bcrypt Salt Hash) (a : Attempt Salt) : Option (String × Hash) :=
  if a.satisfied then (setupAccount B a.submission).toOption else none

def User.account (u : User Hash) : String × Hash := (u.username, u.passwordHash)

/-- The accounts that exist are the one of the first submission that satisfied the claim and passed
the checks of the form. -/
def SetupRun.OneOwner (B : Bcrypt Salt Hash) (s : SetupRun Salt Hash) : Prop :=
  s.space.users.map User.account = (s.attempts.findSome? (Attempt.account? B)).toList

/-- Nothing has been submitted to the space yet. -/
def SetupRun.Fresh (s : SetupRun Salt Hash) : Prop :=
  s.space.users = [] ∧ s.waiting = [] ∧ s.attempts = []

/-- A submission is processed where the claim token is required, or while there is no owner; or it
asks for no account, or for one whose name is taken. -/
def Guarded (B : Bcrypt Salt Hash) (config : SetupConfig) (s : SetupRun Salt Hash) :
    SetupAction Salt → Prop
  | .read i => config.claimTokenRequired = true ∨ s.space.users = [] ∨
      ∀ sub username passwordHash, s.waiting[i]? = some sub →
        setupAccount B sub = .ok (username, passwordHash) →
          username ∈ s.space.users.map User.username
  | _ => True

def setupStep (B : Bcrypt Salt Hash) (config : SetupConfig) (s : SetupRun Salt Hash)
    (a : SetupAction Salt) (s' : SetupRun Salt Hash) : Prop := s.next B config a = some s'

section

variable {B : Bcrypt Salt Hash} {config : SetupConfig} {space : Space Hash} {s s' : SetupRun Salt Hash}

/-- At most one owner account exists. -/
theorem SetupRun.OneOwner.length_le (h : s.OneOwner B) : s.space.users.length ≤ 1 := by
  have hlen := congrArg List.length h
  rw [List.length_map] at hlen
  rw [hlen]
  cases s.attempts.findSome? (Attempt.account? B) with
  | none => exact Nat.zero_le 1
  | some account => exact Nat.le_refl 1

/-! ### What processing one submission does -/

/-- A check that throws is passed by not failing it. -/
theorem check_eq_ok {ε α : Type} {p : Prop} [Decidable p] {e : ε} {skipped : PUnit → Except ε α}
    {rest : Except ε α} {a : α} :
    (if p then throw e >>= skipped else rest) = .ok a ↔ ¬ p ∧ rest = .ok a := by
  by_cases hp : p
  · rw [if_pos hp]
    exact iff_of_false (fun h => by cases h) fun h => h.1 hp
  · rw [if_neg hp]
    exact (and_iff_right hp).symm

/-- The hash is that of the password, as it was given. -/
theorem hashpw_of_setupAccount {sub : Submission Salt} {username : String} {passwordHash : Hash}
    (h : setupAccount B sub = .ok (username, passwordHash)) :
    sub.password ≠ "" ∧ B.hashpw (Utf8.encode sub.password) sub.salt = some passwordHash := by
  unfold setupAccount at h
  dsimp only at h
  rw [check_eq_ok, check_eq_ok] at h
  obtain ⟨hne, -, h⟩ := h
  refine ⟨hne, ?_⟩
  cases husername : setupUsername (Text.stripBlank sub.username) with
  | error refusal =>
    rw [husername] at h
    cases h
  | ok name =>
    rw [husername] at h
    cases hhash : B.hashpw (Utf8.encode sub.password) sub.salt with
    | none =>
      rw [hhash] at h
      cases h
    | some passwordHash' =>
      rw [hhash] at h
      obtain ⟨-, rfl⟩ := Prod.mk.inj (Except.ok.inj h)
      rfl

/-- A submission that completes has inserted its account at the end of the table. -/
theorem users_of_completed {sub : Submission Salt} {userId : Nat} {space' : Space Hash}
    (h : setupPost B config space sub = (.completed userId, space')) :
    ∃ username passwordHash, setupAccount B sub = .ok (username, passwordHash) ∧
      space'.users =
        space.users ++ [⟨space.lastUserId + 1, username, passwordHash, Nat.succ_pos _⟩] := by
  unfold setupPost Space.insertUser at h
  cases hclaim : claimVerdict config space.claimToken sub.claim with
  | none =>
    rw [hclaim] at h
    cases h
  | some verdict =>
    rw [hclaim] at h
    cases verdict with
    | false => cases h
    | true =>
      cases haccount : setupAccount B sub with
      | error refusal =>
        rw [haccount] at h
        cases h
      | ok account =>
        rw [haccount] at h
        dsimp only at h
        split at h
        · cases h
        · rename_i hinserted
          cases h
          split at hinserted
          · cases hinserted
          · cases hinserted
            exact ⟨account.1, account.2, rfl, rfl⟩

/-- A submission gets its account if it satisfies the claim and passes the checks of the form. -/
theorem account?_attempt {sub : Submission Salt} {account : String × Hash} :
    (space.attempt config sub).account? B = some account ↔
      claimVerdict config space.claimToken sub.claim = some true ∧
        setupAccount B sub = .ok account := by
  unfold Attempt.account? Space.attempt
  dsimp only
  by_cases hclaim : claimVerdict config space.claimToken sub.claim = some true
  · rw [if_pos (decide_eq_true hclaim)]
    cases setupAccount B sub with
    | error refusal => simp [Except.toOption]
    | ok account' => simp [Except.toOption, hclaim]
  · rw [if_neg (by simp [hclaim])]
    simp [hclaim]

/-- A submission that is not satisfied, or asks for no account, changes nothing. -/
theorem setupPost_of_refused {sub : Submission Salt}
    (h : (space.attempt config sub).account? B =
      none) : (setupPost B config space sub).2 = space := by
  unfold setupPost
  cases hclaim : claimVerdict config space.claimToken sub.claim with
  | none => rfl
  | some verdict =>
    cases verdict with
    | false => rfl
    | true =>
      cases haccount : setupAccount B sub with
      | error refusal => rfl
      | ok account =>
        have hsome := account?_attempt.mpr ⟨hclaim, haccount⟩
        rw [h] at hsome
        cases hsome

/-- One that is accepted is inserted where the name is free, and the claim token is deleted. -/
theorem setupPost_of_account {sub : Submission Salt} {username : String} {passwordHash : Hash}
    (h : (space.attempt config sub).account? B =
      some (username, passwordHash)) :
    (setupPost B config space sub).2 =
      if username ∈ space.users.map User.username then space
      else ⟨space.users ++ [⟨space.lastUserId + 1, username, passwordHash, Nat.succ_pos _⟩], space.lastUserId + 1,
        none⟩ := by
  obtain ⟨hclaim, haccount⟩ := account?_attempt.mp h
  unfold setupPost Space.insertUser
  rw [hclaim, haccount]
  dsimp only
  by_cases hname : username ∈ space.users.map User.username
  · rw [if_pos hname, if_pos hname]
  · rw [if_neg hname, if_neg hname]

/-- Without a stored token nothing satisfies a claim that is required. -/
theorem claimVerdict_of_none (hrequired : config.claimTokenRequired = true) (claim : String) :
    claimVerdict config none claim = some false := by
  rw [claimVerdict, if_pos hrequired, verifyClaimToken]
  split <;> rfl

/-! ### What every step preserves -/

/-- Where the claim token is required, there is none once there is an owner. -/
def SetupRun.TokenSpent (config : SetupConfig) (s : SetupRun Salt Hash) : Prop :=
  config.claimTokenRequired = true → s.space.users ≠ [] → s.space.claimToken = none

theorem claimToken_setupPost (sub : Submission Salt) (h : space.claimToken = none) :
    (setupPost B config space sub).2.claimToken = none := by
  cases haccount : (space.attempt config sub).account? B with
  | none =>
    rw [setupPost_of_refused haccount]
    exact h
  | some account =>
    rw [setupPost_of_account haccount]
    split
    · exact h
    · rfl

theorem tokenSpent_process (sub : Submission Salt) (i : Nat) (h : s.TokenSpent config) :
    (s.process B config sub i).TokenSpent config := by
  intro hrequired howner
  by_cases hbefore : s.space.users = []
  · -- the submission has created the owner, and deleted the token
    cases haccount : (s.space.attempt config sub).account? B with
    | none =>
      rw [SetupRun.process, setupPost_of_refused haccount] at howner
      exact absurd hbefore howner
    | some account =>
      rw [SetupRun.process, setupPost_of_account haccount, hbefore]
      simp
  · exact claimToken_setupPost sub (h hrequired hbefore)

theorem findSome?_process (sub : Submission Salt) (i : Nat) :
    (s.process B config sub i).attempts.findSome? (Attempt.account? B) =
      (s.attempts.findSome? (Attempt.account? B)).or
        ((s.space.attempt config sub).account? B) := by
  rw [SetupRun.process, List.findSome?_append, List.findSome?_singleton]

/-- The owner of a space without one is the account of the next submission that is accepted. -/
theorem oneOwner_process_of_fresh (sub : Submission Salt) (i : Nat) (h : s.OneOwner B)
    (hfresh : s.space.users = []) : (s.process B config sub i).OneOwner B := by
  have hnone : s.attempts.findSome? (Attempt.account? B) = none := by
    rw [SetupRun.OneOwner, hfresh, List.map_nil] at h
    exact Option.toList_eq_nil_iff.mp h.symm
  rw [SetupRun.OneOwner, findSome?_process, hnone, Option.none_or]
  cases haccount : (s.space.attempt config sub).account? B with
  | none =>
    rw [SetupRun.process, setupPost_of_refused haccount, hfresh]
    rfl
  | some account =>
    rw [SetupRun.process, setupPost_of_account haccount, hfresh]
    simp [User.account]

/-- Once there is an owner, they are the only one as long as the users stay as they are. -/
theorem oneOwner_process_of_kept (sub : Submission Salt) (i : Nat) (h : s.OneOwner B)
    (howner : s.space.users ≠ [])
    (hkept : (setupPost B config s.space sub).2.users = s.space.users) :
    (s.process B config sub i).OneOwner B := by
  cases hfirst : s.attempts.findSome? (Attempt.account? B) with
  | none =>
    rw [SetupRun.OneOwner, hfirst] at h
    exact absurd (List.map_eq_nil_iff.mp h) howner
  | some account =>
    rw [SetupRun.OneOwner, findSome?_process, hfirst, Option.some_or]
    rw [SetupRun.OneOwner, hfirst] at h
    rw [SetupRun.process, hkept]
    exact h

/-- A submission that is processed leaves one owner exactly if it is guarded. -/
theorem oneOwner_process_iff {sub : Submission Salt} {i : Nat} (hi : s.waiting[i]? = some sub)
    (h : s.OneOwner B) (hspent : s.TokenSpent config) :
    (s.process B config sub i).OneOwner B ↔ Guarded B config s (.read i) := by
  by_cases hfresh : s.space.users = []
  · exact iff_of_true (oneOwner_process_of_fresh sub i h hfresh) (Or.inr (Or.inl hfresh))
  cases haccount : (s.space.attempt config sub).account? B with
  | none =>
    have hkept := congrArg Space.users (setupPost_of_refused haccount)
    refine iff_of_true (oneOwner_process_of_kept sub i h hfresh hkept) ?_
    by_cases hrequired : config.claimTokenRequired = true
    · exact Or.inl hrequired
    · -- no claim is required, so it is the form that was refused
      refine Or.inr (Or.inr ?_)
      intro sub' username passwordHash hi' hok
      obtain rfl : sub' = sub := Option.some.inj (hi'.symm.trans hi)
      have hclaim : claimVerdict config s.space.claimToken sub'.claim = some true := by
        rw [claimVerdict, if_neg hrequired]
      have hsome := account?_attempt.mpr ⟨hclaim, hok⟩
      rw [haccount] at hsome
      cases hsome
  | some account =>
    obtain ⟨username, passwordHash⟩ := account
    obtain ⟨hclaim, hok⟩ := account?_attempt.mp haccount
    by_cases hname : username ∈ s.space.users.map User.username
    · have hkept := setupPost_of_account haccount
      rw [if_pos hname] at hkept
      refine iff_of_true (oneOwner_process_of_kept sub i h hfresh (congrArg Space.users hkept)) ?_
      refine Or.inr (Or.inr ?_)
      intro sub' username' passwordHash' hi' hok'
      obtain rfl : sub' = sub := Option.some.inj (hi'.symm.trans hi)
      obtain ⟨rfl, -⟩ := Prod.mk.inj (Except.ok.inj (hok.symm.trans hok'))
      exact hname
    · refine iff_of_false ?_ ?_
      · intro howner
        have hlen := howner.length_le
        rw [SetupRun.process, setupPost_of_account haccount, if_neg hname] at hlen
        simp only [List.length_append, List.length_singleton] at hlen
        have hpos := List.length_pos_iff.mpr hfresh
        omega
      · rintro (hrequired | hnone | htaken)
        · rw [hspent hrequired hfresh, claimVerdict_of_none hrequired] at hclaim
          simp at hclaim
        · exact hfresh hnone
        · exact hname (htaken sub username passwordHash hi hok)

theorem tokenSpent_seed (found : Option String) (h : s.TokenSpent config) :
    config.claimTokenRequired = true → (s.space.seed found).users ≠ [] →
      (s.space.seed found).claimToken = none := by
  intro hrequired howner
  unfold Space.seed at howner ⊢
  split at howner
  · rename_i hseeds
    exact absurd hseeds.1 howner
  · rename_i hseeds
    rw [if_neg hseeds]
    exact h hrequired howner

theorem users_seed (found : Option String) : (space.seed found).users = space.users := by
  unfold Space.seed
  split <;> rfl

/-- What a step that is guarded preserves. -/
theorem kept_of_next {a : SetupAction Salt} (h : s.OneOwner B) (hspent : s.TokenSpent config)
    (hguarded : Guarded B config s a) (hnext : s.next B config a = some s') :
    s'.OneOwner B ∧ s'.TokenSpent config := by
  cases a with
  | arrive sub =>
    rw [SetupRun.next] at hnext
    split at hnext
    · cases hnext
      exact ⟨h, hspent⟩
    · cases hnext
  | read i =>
    obtain ⟨sub, hi, rfl⟩ := Option.map_eq_some_iff.mp hnext
    exact ⟨(oneOwner_process_iff hi h hspent).mpr hguarded, tokenSpent_process sub i hspent⟩
  | close =>
    cases hnext
    exact ⟨h, hspent⟩
  | start found =>
    cases hnext
    refine ⟨?_, tokenSpent_seed found hspent⟩
    rw [SetupRun.OneOwner, users_seed]
    exact h

theorem kept_of_reaches {s₀ : SetupRun Salt Hash} (hfresh : s₀.Fresh)
    (h : Reach (setupStep B config) (Guarded B config) s₀ s) :
    s.OneOwner B ∧ s.TokenSpent config := by
  obtain ⟨husers, -, hattempts⟩ := hfresh
  apply h.invariant fun s => s.OneOwner B ∧ s.TokenSpent config
  · refine ⟨?_, fun _ howner => absurd husers howner⟩
    rw [SetupRun.OneOwner, husers, hattempts]
    rfl
  · intro t a u hkept hguarded hstep
    exact kept_of_next hkept.1 hkept.2 hguarded hstep

end

/-- In every run of submissions that are guarded, at most one owner account exists, and it is the one
of the first submission that satisfied the claim.  A submission that is not guarded ends that. -/
theorem one_owner_of_reaches (B : Bcrypt Salt Hash) (config : SetupConfig) (s₀ : SetupRun Salt Hash)
    (hfresh : s₀.Fresh) (s : SetupRun Salt Hash)
    (h : Reach (setupStep B config) (Guarded B config) s₀ s) :
    s.space.users.length ≤ 1 ∧ s.OneOwner B ∧
      ∀ i s', s.next B config (.read i) = some s' → (s'.OneOwner B ↔ Guarded B config s (.read i)) := by
  obtain ⟨howner, hspent⟩ := kept_of_reaches hfresh h
  refine ⟨howner.length_le, howner, ?_⟩
  intro i s' hnext
  obtain ⟨sub, hi, rfl⟩ := Option.map_eq_some_iff.mp hnext
  exact oneOwner_process_iff hi howner hspent

/-! ### Two submissions -/

/-- A form with the given user name. -/
def secretForm (username : String) : Submission Unit := ⟨"", "secret", "secret", username, ()⟩

/-- A space on which nothing has happened yet. -/
def freshRun : SetupRun Unit Utf8.Bytes := ⟨⟨[], 0, some "token"⟩, true, [], []⟩

theorem fresh_freshRun : freshRun.Fresh := ⟨rfl, rfl, rfl⟩

theorem setupAccount_secretForm (username : String)
    (hname : validateOwnerUsername (Text.stripBlank username) = none)
    (hblank : Text.stripBlank username ≠ "") :
    setupAccount .plain (secretForm username) =
      .ok (Text.stripBlank username, Bcrypt.key (Utf8.encode "secret")) := by
  have hlen : (Utf8.encode "secret").length ≤ 72 := by decide
  simp [setupAccount, setupUsername, secretForm, hname, hblank, Bcrypt.plain, hlen]

/-- The submission of `alice` has arrived, and that of `bob` too. -/
def aliceWaits : SetupRun Unit Utf8.Bytes := { freshRun with waiting := [secretForm "alice"] }

def bothWait : SetupRun Unit Utf8.Bytes :=
  { freshRun with waiting := [secretForm "alice", secretForm "bob"] }

theorem account_alice : setupAccount .plain (secretForm "alice") =
    .ok ("alice", Bcrypt.key (Utf8.encode "secret")) := by
  have hstrip : Text.stripBlank "alice" = "alice" := by decide +kernel
  have h := setupAccount_secretForm "alice" (by rw [hstrip]; decide +kernel) (by rw [hstrip]; decide)
  rwa [hstrip] at h

theorem account_bob : setupAccount .plain (secretForm "bob") =
    .ok ("bob", Bcrypt.key (Utf8.encode "secret")) := by
  have hstrip : Text.stripBlank "bob" = "bob" := by decide +kernel
  have h := setupAccount_secretForm "bob" (by rw [hstrip]; decide +kernel) (by rw [hstrip]; decide)
  rwa [hstrip] at h

/-- Without a claim the space is given to `alice`, who comes first. -/
theorem one_owner_of_reaches_first :
    (aliceWaits.process .plain ⟨false⟩ (secretForm "alice") 0).space.users.length ≤ 1 ∧
      (aliceWaits.process .plain ⟨false⟩ (secretForm "alice") 0).OneOwner .plain := by
  have hreach : Reach (setupStep .plain ⟨false⟩) (Guarded .plain ⟨false⟩) freshRun
      (aliceWaits.process .plain ⟨false⟩ (secretForm "alice") 0) :=
    .step (a := .read 0) (.step (a := .arrive (secretForm "alice")) .refl trivial rfl)
      (Or.inr (Or.inl rfl)) rfl
  have h := one_owner_of_reaches .plain ⟨false⟩ freshRun fresh_freshRun _ hreach
  exact ⟨h.1, h.2.1⟩

/-- Both are submitted before the space starts again, and both create an owner. -/
theorem second_owner_created :
    ¬ ∀ s, Reach (setupStep .plain ⟨false⟩) (fun _ _ => True) freshRun s → s.space.users.length ≤ 1 := by
  intro h
  have hreach : Reach (setupStep .plain ⟨false⟩) (fun _ _ => True) freshRun
      ((bothWait.process .plain ⟨false⟩ (secretForm "alice") 0).process .plain ⟨false⟩
        (secretForm "bob") 0) :=
    .step (a := .read 0)
      (.step (a := .read 0)
        (.step (a := .arrive (secretForm "bob"))
          (.step (a := .arrive (secretForm "alice")) .refl trivial rfl) trivial rfl)
        trivial rfl)
      trivial rfl
  have halice : (bothWait.process .plain ⟨false⟩ (secretForm "alice") 0).space =
      ⟨[⟨1, "alice", Bcrypt.key (Utf8.encode "secret"), Nat.one_pos⟩], 1, none⟩ :=
    (setupPost_of_account (account?_attempt.mpr ⟨rfl, account_alice⟩)).trans
      (if_neg List.not_mem_nil)
  -- nothing looks whether there is an owner already
  have hbob : (setupPost .plain ⟨false⟩
      (bothWait.process .plain ⟨false⟩ (secretForm "alice") 0).space (secretForm "bob")).2 = _ :=
    setupPost_of_account (account?_attempt.mpr ⟨rfl, account_bob⟩)
  rw [halice, if_neg (by simp)] at hbob
  have hlen := h _ hreach
  rw [SetupRun.process, halice, hbob] at hlen
  simp at hlen

end OpenHost.Web
