import OpenHost.Web.Setup

/-!
# The password

The three places that take the owner's password: the setup form, the login form and
`change_password`.  The first two take it as it is; `change_password` strips white space from the
current one and from the new one.

A password that ends in white space is therefore the password that the setup form was given, and is
not the one that `change_password` looks for.
-/

namespace OpenHost.Web

open Utf8 (encode)
open Text (stripBlank)

variable {Salt Hash : Type}

/-! ## Logging in -/

/-- `validate_password`: the id of the first user, if the password is theirs; `none` where an exception
is raised. -/
def validatePassword (B : Bcrypt Salt Hash) (users : List (User Hash)) (password : String) :
    Option (Option Nat) :=
  users.head?.bind fun row =>
    (B.checkpw (encode password) row.passwordHash).map fun matched =>
      if matched then some row.userId else none

inductive LoginResponse where
  /-- The form again, with an error. -/
  | form (error : String)
  | failed
  | session (userId : Nat)
  deriving DecidableEq, Repr

/-- `login_post`, up to the session it creates. -/
def loginPost (B : Bcrypt Salt Hash) (users : List (User Hash)) (password : Option String) :
    LoginResponse :=
  match password with
  | none => .form "Invalid password"
  | some password =>
      match validatePassword B users password with
      | none => .failed
      | some none => .form "Invalid password"
      -- an id of 0 would count as no id
      | some (some userId) => if userId = 0 then .form "Invalid password" else .session userId

/-! ## Changing the password -/

structure ChangePasswordRequest where
  currentPassword : String
  newPassword : String
  confirmPassword : String
  deriving DecidableEq, Repr

inductive ChangePasswordError where
  | validation (detail code : String)
  | notFound (detail code : String)
  | permissionDenied (detail code : String)
  /-- An exception of a library. -/
  | failed
  deriving DecidableEq, Repr

/-- `UPDATE users SET password_hash = ? WHERE user_id = ?` -/
def updateHash (users : List (User Hash)) (userId : Nat) (newHash : Hash) : List (User Hash) :=
  users.map fun u => if u.userId = userId then { u with passwordHash := newHash } else u

/-- `change_password`; the salt is the one that `gensalt` draws. -/
def changePassword (B : Bcrypt Salt Hash) (users : List (User Hash)) (data : ChangePasswordRequest)
    (salt : Salt) : Except ChangePasswordError (List (User Hash)) := do
  let current := stripBlank data.currentPassword
  let newPw := stripBlank data.newPassword
  let confirm := stripBlank data.confirmPassword
  if current = "" ∨ newPw = "" then throw (.validation "All fields required" "missing_fields")
  if newPw ≠ confirm then throw (.validation "Passwords do not match" "password_mismatch")
  if newPw.length < 8 then
    throw (.validation "Password must be at least 8 characters" "password_too_short")
  match users.head? with
  | none => throw (.notFound "No owner found" "owner_not_found")
  | some row =>
      match B.checkpw (encode current) row.passwordHash with
      | none => throw .failed
      | some false => throw (.permissionDenied "Current password is incorrect" "wrong_password")
      | some true =>
          match B.hashpw (encode newPw) salt with
          | none => throw .failed
          | some newHash => pure (updateHash users row.userId newHash)

/-! ## What the forms accept -/

/-- The login form takes the password. -/
def LogsIn (B : Bcrypt Salt Hash) (users : List (User Hash)) (password : String) : Prop :=
  ∃ userId, loginPost B users (some password) = .session userId

/-- A new password that `change_password` takes. -/
def AcceptableNew (B : Bcrypt Salt Hash) (newPassword : String) (salt : Salt) : Prop :=
  8 ≤ (stripBlank newPassword).length ∧
    (B.hashpw (encode (stripBlank newPassword)) salt).isSome = true

/-- `change_password` takes the password as the current one, whatever acceptable one is to replace
it. -/
def AcceptedAsCurrent (B : Bcrypt Salt Hash) (users : List (User Hash)) (password : String) : Prop :=
  ∀ newPassword salt, AcceptableNew B newPassword salt →
    ∃ users', changePassword B users ⟨password, newPassword, newPassword⟩ salt = .ok users'

/-- The password is that of the first user. -/
def FirstPassword (B : Bcrypt Salt Hash) (users : List (User Hash)) (password : Utf8.Bytes) : Prop :=
  ∃ u salt, users.head? = some u ∧ B.hashpw password salt = some u.passwordHash

/-- Every hash has been made by `hashpw`. -/
def Hashed (B : Bcrypt Salt Hash) (users : List (User Hash)) : Prop :=
  ∀ u ∈ users, ∃ password salt, B.hashpw password salt = some u.passwordHash

section

variable {B : Bcrypt Salt Hash} {users users' : List (User Hash)} {data : ChangePasswordRequest}
  {salt : Salt} {password : String}

/-! ## The functions by their outcome -/

theorem logsIn_iff : LogsIn B users password ↔
    ∃ u, users.head? = some u ∧ B.checkpw (encode password) u.passwordHash = some true := by
  unfold LogsIn loginPost validatePassword
  cases users.head? with
  | none => simp
  | some u =>
    cases hcheck : B.checkpw (encode password) u.passwordHash with
    | none => simp [hcheck]
    | some matched =>
      cases matched with
      | false => simp [hcheck]
      | true => simp [hcheck, u.userId_pos.ne']

theorem changePassword_eq_ok_iff : changePassword B users data salt = .ok users' ↔
    stripBlank data.currentPassword ≠ "" ∧ stripBlank data.newPassword ≠ "" ∧
      stripBlank data.newPassword = stripBlank data.confirmPassword ∧
      8 ≤ (stripBlank data.newPassword).length ∧
      ∃ row newHash, users.head? = some row ∧
        B.checkpw (encode (stripBlank data.currentPassword)) row.passwordHash = some true ∧
        B.hashpw (encode (stripBlank data.newPassword)) salt = some newHash ∧
        users' = updateHash users row.userId newHash := by
  simp only [changePassword, check_eq_ok, not_or, not_not, Nat.not_lt, and_assoc]
  refine and_congr_right fun _ => and_congr_right fun _ => and_congr_right fun _ =>
    and_congr_right fun _ => ?_
  cases users.head? with
  | none => simp
  | some row =>
    cases hcheck : B.checkpw (encode (stripBlank data.currentPassword)) row.passwordHash with
    | none => simp [hcheck]
    | some matched =>
      cases matched with
      | false => simp [hcheck]
      | true =>
        cases hhash : B.hashpw (encode (stripBlank data.newPassword)) salt with
        | none => simp [hcheck]
        | some newHash =>
          simp only [hcheck]
          constructor
          · intro h
            exact ⟨row, newHash, rfl, hcheck, rfl, (Except.ok.inj h).symm⟩
          · rintro ⟨row', newHash', hrow, -, hnewHash, husers⟩
            rw [husers, ← Option.some.inj hrow, ← Option.some.inj hnewHash]
            rfl

/-- `change_password` takes the password if what is left of it is that of the first user. -/
theorem acceptedAsCurrent_iff (hB : B.Documented) (salt : Salt) : AcceptedAsCurrent B users password ↔
    stripBlank password ≠ "" ∧ ∃ u, users.head? = some u ∧
      B.checkpw (encode (stripBlank password)) u.passwordHash = some true := by
  constructor
  · intro h
    -- any acceptable new password will do
    have hstrip : stripBlank "new password" = "new password" := by decide +kernel
    have hnew : AcceptableNew B "new password" salt := by
      unfold AcceptableNew
      rw [hstrip]
      exact ⟨by decide, hB.hashpw_of_length salt (by decide) (by decide)⟩
    obtain ⟨users', husers'⟩ := h "new password" salt hnew
    obtain ⟨hcurrent, -, -, -, row, -, hrow, hcheck, -⟩ := changePassword_eq_ok_iff.mp husers'
    exact ⟨hcurrent, row, hrow, hcheck⟩
  · rintro ⟨hcurrent, row, hrow, hcheck⟩ newPassword salt' ⟨hlen, hhash⟩
    obtain ⟨newHash, hnewHash⟩ := Option.isSome_iff_exists.mp hhash
    have hnew : stripBlank newPassword ≠ "" := by
      intro hempty
      rw [hempty] at hlen
      exact absurd hlen (by decide)
    exact ⟨_, changePassword_eq_ok_iff.mpr
      ⟨hcurrent, hnew, rfl, hlen, row, newHash, hrow, hcheck, hnewHash, rfl⟩⟩

/-! ## Stripping and the key -/

/-- What is left of a text has fewer bytes, or it is the text. -/
theorem length_encode_stripBlank (s : String) :
    (encode (stripBlank s)).length < (encode s).length ∨ stripBlank s = s := by
  obtain ⟨before, after, hsplit⟩ := Text.strip_within s.toList
  have hencode : encode s = before.flatMap String.utf8EncodeChar ++ encode (stripBlank s) ++
      after.flatMap String.utf8EncodeChar := by
    rw [encode, encode, Text.toList_stripBlank, ← List.flatMap_append, ← List.flatMap_append, hsplit]
  have hlen := congrArg List.length hencode
  rw [List.length_append, List.length_append] at hlen
  by_cases hlt : (encode (stripBlank s)).length < (encode s).length
  · exact Or.inl hlt
  · have hbefore : before.flatMap String.utf8EncodeChar = [] := List.length_eq_zero_iff.mp (by omega)
    have hafter : after.flatMap String.utf8EncodeChar = [] := List.length_eq_zero_iff.mp (by omega)
    rw [hbefore, hafter, List.nil_append, List.append_nil] at hencode
    exact Or.inr (Utf8.encode_inj hencode).symm

/-- A password that bcrypt takes is not the same one without its white space. -/
theorem stripBlank_of_key_eq {s : String} (h : Bcrypt.key (encode (stripBlank s)) = Bcrypt.key (encode s))
    (hle : (encode s).length ≤ 72) : stripBlank s = s := by
  rcases length_encode_stripBlank s with hlt | heq
  · exfalso
    -- otherwise the password goes on with a NUL, which is not white space
    obtain ⟨bs, hbs⟩ := Bcrypt.starts_of_key_eq h hlt hle
    have hnul : encode (stripBlank s) ++ [0] = encode (stripBlank s ++ "\x00") := by
      rw [Utf8.encode_append]
      rfl
    have hdecoded := congrArg Utf8.decode hbs
    rw [hnul, Utf8.decode_encode_append, Utf8.decode_encode] at hdecoded
    have hchars := congrArg String.toList hdecoded
    rw [String.toList_append, String.toList_append, Text.toList_stripBlank, List.append_assoc] at hchars
    exact Text.not_strip_append_cons (c := '\x00') rfl s.toList _ hchars.symm
  · exact heq

/-- `checkpw` on a hash that `hashpw` has made. -/
theorem checkpw_eq_true_iff (hB : B.Documented) {p q : Utf8.Bytes} {h : Hash}
    (hp : B.hashpw p salt = some h) :
    B.checkpw q h = some true ↔ (B.hashpw q salt).isSome = true ∧ Bcrypt.key q = Bcrypt.key p := by
  rw [hB.checkpw_of_hashpw hp]
  by_cases hq : (B.hashpw q salt).isSome = true
  · rw [if_pos hq]
    simp [hq]
  · rw [if_neg hq]
    simp [hq]

/-- The first user's password opens both forms exactly if it is free of white space at its ends. -/
theorem logsIn_and_acceptedAsCurrent_iff (hB : B.Documented) {u : User Hash} {q : Utf8.Bytes}
    (hhead : users.head? = some u) (hq : B.hashpw q salt = some u.passwordHash) :
    LogsIn B users password ∧ AcceptedAsCurrent B users password ↔
      password ≠ "" ∧ (B.hashpw (encode password) salt).isSome = true ∧
        stripBlank password = password ∧ Bcrypt.key q = Bcrypt.key (encode password) := by
  have hcheck : ∀ p, (∃ u, users.head? = some u ∧ B.checkpw (encode p) u.passwordHash = some true) ↔
      (B.hashpw (encode p) salt).isSome = true ∧ Bcrypt.key (encode p) = Bcrypt.key q := by
    intro p
    rw [hhead, ← checkpw_eq_true_iff hB hq]
    exact ⟨fun ⟨u', hu', h⟩ => Option.some.inj hu' ▸ h, fun h => ⟨u, rfl, h⟩⟩
  rw [logsIn_iff, acceptedAsCurrent_iff hB salt, hcheck, hcheck]
  constructor
  · rintro ⟨⟨hhash, hkey⟩, hne, hstripped, hkeyStripped⟩
    obtain ⟨h, hh⟩ := Option.isSome_iff_exists.mp hhash
    have hstrip := stripBlank_of_key_eq (hkeyStripped.trans hkey.symm) (hB.length_of_hashpw hh)
    rw [hstrip] at hne
    exact ⟨hne, hhash, hstrip, hkey.symm⟩
  · rintro ⟨hne, hhash, hstrip, hkey⟩
    rw [hstrip]
    exact ⟨⟨hhash, hkey.symm⟩, hne, hhash, hkey.symm⟩

theorem head?_updateHash {row : User Hash} (newHash : Hash) (hrow : users.head? = some row) :
    ∃ u, (updateHash users row.userId newHash).head? = some u ∧ u.passwordHash = newHash := by
  refine ⟨{ row with passwordHash := newHash }, ?_, rfl⟩
  rw [updateHash, List.head?_map, hrow, Option.map_some, if_pos rfl]

end

/-! ## What is accepted opens the forms -/

/-- A password that the setup form has accepted logs in and is accepted as the current one exactly if
it has no white space at its ends and is the first owner's; one that `change_password` has accepted
does so exactly if it has no white space at its ends. -/
theorem accepted_password_iff (B : Bcrypt Salt Hash) (hB : B.Documented) :
    (∀ config (space space' : Space Hash) sub userId, Hashed B space.users →
      setupPost B config space sub = (.completed userId, space') →
      (LogsIn B space'.users sub.password ∧ AcceptedAsCurrent B space'.users sub.password ↔
        stripBlank sub.password = sub.password ∧
          ∀ q, FirstPassword B space.users q → Bcrypt.key q = Bcrypt.key (encode sub.password))) ∧
    ∀ users data salt users', changePassword B users data salt = .ok users' →
      (LogsIn B users' data.newPassword ∧ AcceptedAsCurrent B users' data.newPassword ↔
        stripBlank data.newPassword = data.newPassword) := by
  constructor
  · intro config space space' sub userId hhashed hsetup
    obtain ⟨username, passwordHash, haccount, husers⟩ := users_of_completed hsetup
    obtain ⟨hne, hhash⟩ := hashpw_of_setupAccount haccount
    cases hbefore : space.users with
    | nil =>
      -- the new user is the first one
      have hhead : space'.users.head? = some ⟨space.lastUserId + 1, username, passwordHash,
          Nat.succ_pos _⟩ := by
        rw [husers, hbefore]
        rfl
      rw [logsIn_and_acceptedAsCurrent_iff hB hhead hhash]
      constructor
      · rintro ⟨-, -, hstrip, -⟩
        refine ⟨hstrip, ?_⟩
        rintro q ⟨u, salt, hu, -⟩
        cases hu
      · rintro ⟨hstrip, -⟩
        exact ⟨hne, Option.isSome_iff_exists.mpr ⟨_, hhash⟩, hstrip, rfl⟩
    | cons u rest =>
      obtain ⟨q, salt, hq⟩ := hhashed u (by rw [hbefore]; exact List.mem_cons_self)
      have hhead : space'.users.head? = some u := by
        rw [husers, hbefore]
        rfl
      rw [logsIn_and_acceptedAsCurrent_iff hB hhead hq]
      have hsome : (B.hashpw (encode sub.password) salt).isSome = true := by
        rw [hB.isSome_hashpw _ salt sub.salt, hhash]
        rfl
      constructor
      · rintro ⟨-, -, hstrip, hkey⟩
        refine ⟨hstrip, ?_⟩
        rintro q' ⟨u', salt', hu', hq'⟩
        obtain rfl : u = u' := Option.some.inj hu'
        -- two passwords with the same hash have the same key
        have hcheck := (checkpw_eq_true_iff hB hq).mpr ⟨hsome, hkey.symm⟩
        exact ((checkpw_eq_true_iff hB hq').mp hcheck).2.symm
      · rintro ⟨hstrip, hfirst⟩
        exact ⟨hne, hsome, hstrip, hfirst q ⟨u, salt, rfl, hq⟩⟩
  · intro users data salt users' hchange
    obtain ⟨-, hnew, -, -, row, newHash, hrow, -, hhash, rfl⟩ := changePassword_eq_ok_iff.mp hchange
    obtain ⟨u, hhead, rfl⟩ := head?_updateHash newHash hrow
    rw [logsIn_and_acceptedAsCurrent_iff hB hhead hhash]
    constructor
    · exact fun h => h.2.2.1
    · intro hstrip
      rw [hstrip] at hnew hhash ⊢
      exact ⟨hnew, Option.isSome_iff_exists.mpr ⟨_, hhash⟩, rfl, rfl⟩

/-! ### A blank at the end -/

/-- The owner `alice` with the given password. -/
def aliceForm (password : String) : Submission Unit := ⟨"", password, password, "alice", ()⟩

def aliceSpace (password : String) : Space Utf8.Bytes :=
  ⟨[⟨1, "alice", Bcrypt.key (encode password), Nat.one_pos⟩], 1, none⟩

theorem setupPost_aliceForm {p : String} (hne : p ≠ "") (hlen : (encode p).length ≤ 72) :
    setupPost .plain ⟨false⟩ ⟨[], 0, none⟩ (aliceForm p) = (.completed 1, aliceSpace p) := by
  have hname : setupUsername (stripBlank "alice") = .ok "alice" := by decide +kernel
  have haccount : setupAccount .plain (aliceForm p) = .ok ("alice", Bcrypt.key (encode p)) := by
    simp [setupAccount, aliceForm, hname, hne, Bcrypt.plain, hlen]
  unfold setupPost Space.insertUser
  rw [haccount]
  rfl

theorem hashed_nil : Hashed Bcrypt.plain ([] : List (User Utf8.Bytes)) :=
  fun _ hu => absurd hu List.not_mem_nil

/-- A password without white space at its ends opens both forms. -/
theorem accepted_password_opens :
    LogsIn .plain (aliceSpace "secret").users "secret" ∧
      AcceptedAsCurrent .plain (aliceSpace "secret").users "secret" := by
  have hsetup := setupPost_aliceForm (p := "secret") (by decide) (by decide)
  refine ((accepted_password_iff .plain Bcrypt.documented_plain).1 _ _ _ _ _ hashed_nil hsetup).mpr ?_
  refine ⟨by decide +kernel, ?_⟩
  rintro q ⟨u, salt, hu, -⟩
  cases hu

/-- The setup form takes a password that ends in a blank; `change_password` looks for another one. -/
theorem blank_password_refused :
    ¬ ∀ (space space' : Space Utf8.Bytes) sub userId, space.users = [] →
      setupPost .plain ⟨false⟩ space sub = (.completed userId, space') →
      LogsIn .plain space'.users sub.password ∧
        AcceptedAsCurrent .plain space'.users sub.password := by
  intro h
  have hlen : (encode "secret ").length ≤ 72 := by decide
  have hsetup := setupPost_aliceForm (p := "secret ") (by decide) hlen
  have hopens := h ⟨[], 0, none⟩ _ _ _ rfl hsetup
  have hhash : Bcrypt.plain.hashpw (encode "secret ") () = some (Bcrypt.key (encode "secret ")) := by
    simp [Bcrypt.plain, hlen]
  have hstrip := ((logsIn_and_acceptedAsCurrent_iff Bcrypt.documented_plain rfl hhash).mp hopens).2.2.1
  exact absurd hstrip (by decide +kernel)

end OpenHost.Web
