import OpenHost.Web.DomainRequests

/-!
# Caddy and its handle

`CaddyProcess` as the calls of it interleave.  `reload_caddy_for_domains` writes the Caddyfile at
once and then lines up for the lock; under the lock a call asks the running Caddy to load the file,
or ends it and starts another one.  Caddy and the `caddy reload` client are processes of their own:
they read the file when they get to it, also while it is being written.

Calls are cancelled only when the router shuts down, which is where a run ends.
-/

namespace OpenHost.Web

open Domains (DomainRecord Domain DomainCertStatus effectiveDomains)

/-! ## The handle -/

/-- A child that runs Caddy and has not been reaped, with the Caddyfile it has loaded. -/
structure CaddyChild (F : Type) where
  pid : Nat
  serves : Option F
  deriving DecidableEq, Repr

/-- A call that waits for the lock. -/
inductive CaddyCall where
  | reload
  | restart
  | stop
  deriving DecidableEq, Repr

/-- How far the `caddy reload` client has got. -/
inductive ReloadClient (F : Type) where
  | running
  | read (text : F)
  /-- Caddy has loaded what it read. -/
  | loaded
  deriving DecidableEq, Repr

def ReloadClient.hasLoaded {F : Type} : ReloadClient F → Bool
  | loaded => true
  | _ => false

/-- Where the call that holds the lock awaits something. -/
inductive CaddyStage (F : Type) where
  /-- `_run_caddy_reload` -/
  | reloading (client : ReloadClient F)
  /-- `_stop_locked`, of a cold restart or not. -/
  | stopping (respawn : Bool)
  /-- `_spawn_caddy_once` -/
  | spawning
  /-- The sleep after it. -/
  | settling (pid : Nat)
  deriving DecidableEq, Repr

structure CaddyProcess (F : Type) where
  adminAddr : Option String
  /-- The text at `caddyfile_path`. -/
  caddyfile : F
  /-- It is being written, and who reads it may find anything. -/
  writing : Bool := false
  children : List (CaddyChild F) := []
  spawned : Nat := 0
  /-- `self.proc` -/
  proc : Nat := 0
  holder : Option (CaddyStage F) := none
  waiting : List CaddyCall := []
  deriving DecidableEq, Repr

inductive CaddyEvent (F : Type) where
  /-- `reload_caddy_for_domains` begins. -/
  | write (text : F)
  /-- It has written the file and goes on to `reload`. -/
  | written
  /-- Another call begins. -/
  | call (c : CaddyCall)
  /-- The first of the calls that wait gets the lock. -/
  | acquire
  /-- The client could not be started. -/
  | clientMissing
  /-- The client has returned 0, or something else. -/
  | clientDone (ok : Bool)
  | clientTimeout
  | stopped
  | spawned
  | spawnFailed
  /-- The sleep is over; `retry` is what the log and the clock say of a Caddy that has ended. -/
  | settled (retry : Bool)
  | childReads (pid : Nat) (text : F)
  | childExits (pid : Nat)
  | clientReads (text : F)
  /-- The child at the admin address loads what the client has read. -/
  | clientLoads (pid : Nat)
  deriving DecidableEq, Repr

/-- While the file is being written nothing else happens on the event loop. -/
def CaddyEvent.allowed {F : Type} (writing : Bool) : CaddyEvent F → Bool
  | written => writing
  | childReads _ _ | childExits _ | clientReads _ | clientLoads _ => true
  | _ => !writing

namespace CaddyProcess

variable {F : Type} (s : CaddyProcess F)

/-- `start_caddy`, up to its first `await`; the handle is there once that Caddy has settled. -/
def startCaddy (adminAddr : Option String) (text : F) : CaddyProcess F where
  adminAddr := adminAddr
  caddyfile := text
  holder := some .spawning

/-- `self.proc.returncode is None` -/
def up : Bool := s.children.any (·.pid = s.proc)

/-- What a call does first when it has got the lock. -/
def begins : CaddyCall → CaddyStage F
  | .reload =>
      if s.adminAddr.isNone || !s.up then .stopping true else .reloading .running
  | .restart => .stopping true
  | .stop => .stopping false

/-- The child loads a configuration. -/
def loads (pid : Nat) (text : F) : CaddyProcess F :=
  { s with
    children := s.children.map fun c => if c.pid = pid then { c with serves := some text } else c }

def withHolder (holder : Option (CaddyStage F)) : CaddyProcess F := { s with holder := holder }

variable [DecidableEq F]

/-- The text is one that a process may find in the file. -/
def readable (text : F) : Bool := s.writing || text = s.caddyfile

def next (s : CaddyProcess F) : CaddyEvent F → Option (CaddyProcess F)
  | .write text => some { s with caddyfile := text, writing := true }
  | .written => some { s with writing := false, waiting := s.waiting ++ [.reload] }
  | .call c => some { s with waiting := s.waiting ++ [c] }
  | .acquire =>
      match s.holder, s.waiting with
      | none, c :: rest => some { s with holder := some (s.begins c), waiting := rest }
      | _, _ => none
  | .clientMissing =>
      match s.holder with
      -- the exception leaves the `async with`
      | some (.reloading .running) => some (s.withHolder none)
      | _ => none
  | .clientDone ok =>
      match s.holder with
      | some (.reloading client) =>
          if !ok then some (s.withHolder (some (.stopping true)))
          -- the client returns 0 when Caddy has loaded the configuration
          else if client.hasLoaded then some (s.withHolder none) else none
      | _ => none
  | .clientTimeout =>
      match s.holder with
      -- the client is killed before Caddy is ended
      | some (.reloading _) => some (s.withHolder (some (.stopping true)))
      | _ => none
  | .stopped =>
      match s.holder with
      | some (.stopping respawn) =>
          -- `terminate`, and after three seconds `kill`, until the child has been reaped
          if s.up then none else some (s.withHolder (if respawn then some .spawning else none))
      | _ => none
  | .spawned =>
      match s.holder with
      | some .spawning =>
          some { s with
            children := s.children ++ [⟨s.spawned, none⟩]
            spawned := s.spawned + 1
            holder := some (.settling s.spawned) }
      | _ => none
  | .spawnFailed =>
      match s.holder with
      -- `self.proc` is still the child that has ended
      | some .spawning => some (s.withHolder none)
      | _ => none
  | .settled retry =>
      match s.holder with
      | some (.settling pid) =>
          -- only a Caddy that has ended is followed by another one
          if retry && !s.children.any (·.pid = pid) then some (s.withHolder (some .spawning))
          else some { s with proc := pid, holder := none }
      | _ => none
  | .childReads pid text =>
      if s.readable text && s.children.any (fun c => c.pid = pid && c.serves.isNone) then
        some (s.loads pid text)
      else none
  | .childExits pid => some { s with children := s.children.filter (·.pid ≠ pid) }
  | .clientReads text =>
      match s.holder with
      | some (.reloading .running) =>
          if s.readable text then some (s.withHolder (some (.reloading (.read text)))) else none
      | _ => none
  | .clientLoads pid =>
      match s.holder with
      | some (.reloading (.read text)) =>
          -- Caddy listens at its admin address once it has loaded a configuration
          if s.children.any (fun c => c.pid = pid && c.serves.isSome) then
            some ((s.loads pid text).withHolder (some (.reloading .loaded)))
          else none
      | _ => none

/-- A step of the handle, or of one of its processes. -/
def step (s : CaddyProcess F) (e : CaddyEvent F) : Option (CaddyProcess F) :=
  if e.allowed s.writing then s.next e else none

end CaddyProcess

/-- The runs from `start_caddy` on all of whose events meet the condition. -/
abbrev CaddyRuns {F : Type} [DecidableEq F] (ok : CaddyProcess F → CaddyEvent F → Prop)
    (s s' : CaddyProcess F) : Prop :=
  Reach (fun s e s' => s.step e = some s') ok s s'

/-! ## One Caddy -/

namespace CaddyProcess

section

variable {F : Type} {s s' : CaddyProcess F} {e : CaddyEvent F}

/-- The child that may be running. -/
def current (s : CaddyProcess F) : Nat :=
  match s.holder with
  | some (.settling pid) => pid
  | _ => s.proc

/-- There is one child at most, and none while another one is being started. -/
structure One (s : CaddyProcess F) : Prop where
  length : s.children.length ≤ 1
  pid : ∀ c ∈ s.children, c.pid = s.current
  spawning : s.holder = some .spawning → s.children = []

theorem one_startCaddy (adminAddr : Option String) (text : F) :
    (startCaddy adminAddr text).One :=
  ⟨Nat.zero_le _, fun _ hc => absurd hc List.not_mem_nil, fun _ => rfl⟩

/-- Where `self.proc` is the child that counts, and it has ended, there is none. -/
theorem One.children_eq_nil (h : s.One) (hproc : s.current = s.proc) (hup : s.up = false) :
    s.children = [] := by
  rw [List.eq_nil_iff_forall_not_mem]
  intro c hc
  have hno := List.any_eq_false.mp hup c hc
  exact hno (decide_eq_true ((h.pid c hc).trans hproc))

/-- A call goes on, with the same child. -/
theorem One.withHolder (h : s.One) {holder : Option (CaddyStage F)}
    (hcurrent : (s.withHolder holder).current = s.current) (hspawning : holder ≠ some .spawning) :
    (s.withHolder holder).One :=
  ⟨h.length, fun c hc => (h.pid c hc).trans hcurrent.symm, fun hs => absurd hs hspawning⟩

/-- The call that holds the lock is done with the client. -/
theorem One.of_reloading (h : s.One) {client : ReloadClient F} {holder : Option (CaddyStage F)}
    (hholder : s.holder = some (.reloading client))
    (hcurrent : (s.withHolder holder).current = s.proc) (hspawning : holder ≠ some .spawning) :
    (s.withHolder holder).One :=
  h.withHolder (by rw [hcurrent, current, hholder]) hspawning

/-- A call goes on where there is no child. -/
theorem One.of_nil {t : CaddyProcess F} (hnil : t.children = []) : t.One := by
  refine ⟨?_, ?_, fun _ => hnil⟩
  · rw [hnil]
    exact Nat.zero_le _
  · rw [hnil]
    exact fun _ hc => absurd hc List.not_mem_nil

/-- Loading a configuration changes no child's pid. -/
theorem One.loads (h : s.One) (pid : Nat) (text : F) : (s.loads pid text).One := by
  refine ⟨?_, ?_, ?_⟩
  · rw [CaddyProcess.loads, List.length_map]
    exact h.length
  · intro c hc
    obtain ⟨c, hc', rfl⟩ := List.mem_map.mp hc
    have hpid := h.pid c hc'
    split <;> exact hpid
  · intro hs
    have hnil := h.spawning hs
    rw [CaddyProcess.loads, hnil, List.map_nil]

theorem begins_cases (s : CaddyProcess F) (c : CaddyCall) :
    s.begins c = .reloading .running ∨ ∃ respawn, s.begins c = .stopping respawn := by
  cases c with
  | reload =>
    rw [begins]
    by_cases hcold : (s.adminAddr.isNone || !s.up) = true
    · exact Or.inr ⟨true, if_pos hcold⟩
    · exact Or.inl (if_neg hcold)
  | restart => exact Or.inr ⟨true, rfl⟩
  | stop => exact Or.inr ⟨false, rfl⟩

end

section

variable {F : Type} [DecidableEq F] {s s' : CaddyProcess F} {e : CaddyEvent F}

theorem one_next (h : s.One) (hnext : s.next e = some s') : s'.One := by
  cases e with
  | write text =>
    obtain rfl := Option.some.inj hnext
    exact ⟨h.length, h.pid, h.spawning⟩
  | written =>
    obtain rfl := Option.some.inj hnext
    exact ⟨h.length, h.pid, h.spawning⟩
  | call c =>
    obtain rfl := Option.some.inj hnext
    exact ⟨h.length, h.pid, h.spawning⟩
  | acquire =>
    simp only [next] at hnext
    split at hnext
    · rename_i c rest hholder hwaiting
      obtain rfl := Option.some.inj hnext
      -- no stage in which a call begins starts a child
      have hproc : s.current = s.proc := by rw [current, hholder]
      have hpid : ∀ child ∈ s.children, child.pid = s.proc := fun child hchild =>
        (h.pid child hchild).trans hproc
      rcases begins_cases s c with hbegins | ⟨respawn, hbegins⟩
      · rw [hbegins]
        exact ⟨h.length, hpid, fun hs => by cases hs⟩
      · rw [hbegins]
        exact ⟨h.length, hpid, fun hs => by cases hs⟩
    · cases hnext
  | clientMissing =>
    simp only [next] at hnext
    split at hnext
    · rename_i hholder
      obtain rfl := Option.some.inj hnext
      exact h.of_reloading hholder rfl (by simp)
    · cases hnext
  | clientDone ok =>
    simp only [next] at hnext
    split at hnext
    · rename_i client hholder
      split at hnext
      · obtain rfl := Option.some.inj hnext
        exact h.of_reloading hholder rfl (by simp)
      · split at hnext
        · obtain rfl := Option.some.inj hnext
          exact h.of_reloading hholder rfl (by simp)
        · cases hnext
    · cases hnext
  | clientTimeout =>
    simp only [next] at hnext
    split at hnext
    · rename_i client hholder
      obtain rfl := Option.some.inj hnext
      exact h.withHolder (by rw [current, current, hholder]; rfl) (by simp)
    · cases hnext
  | stopped =>
    simp only [next] at hnext
    split at hnext
    · rename_i respawn hholder
      split at hnext
      · cases hnext
      · rename_i hup
        obtain rfl := Option.some.inj hnext
        have hproc : s.current = s.proc := by rw [current, hholder]
        -- the lock is kept until the old child has been reaped
        exact .of_nil (h.children_eq_nil hproc (Bool.not_eq_true _ ▸ hup))
    · cases hnext
  | spawned =>
    simp only [next] at hnext
    split at hnext
    · rename_i hholder
      obtain rfl := Option.some.inj hnext
      -- the new child is the only one, and it is the one that settles
      have hnil := h.spawning hholder
      refine ⟨?_, ?_, fun hs => by simp at hs⟩
      · simp [hnil]
      · intro c hc
        rw [hnil] at hc
        rw [List.mem_singleton.mp hc]
        rfl
    · cases hnext
  | spawnFailed =>
    simp only [next] at hnext
    split at hnext
    · rename_i hholder
      obtain rfl := Option.some.inj hnext
      exact .of_nil (h.spawning hholder)
    · cases hnext
  | settled retry =>
    simp only [next] at hnext
    split at hnext
    · rename_i pid hholder
      have hpid : s.current = pid := by rw [current, hholder]
      split at hnext
      · rename_i hretry
        obtain rfl := Option.some.inj hnext
        -- the child that was started has ended
        apply One.of_nil
        rw [Bool.and_eq_true, Bool.not_eq_true'] at hretry
        rw [withHolder, List.eq_nil_iff_forall_not_mem]
        intro c hc
        exact List.any_eq_false.mp hretry.2 c hc (decide_eq_true ((h.pid c hc).trans hpid))
      · obtain rfl := Option.some.inj hnext
        exact ⟨h.length, fun c hc => (h.pid c hc).trans hpid, fun hs => by cases hs⟩
    · cases hnext
  | childReads pid text =>
    simp only [next] at hnext
    split at hnext
    · obtain rfl := Option.some.inj hnext
      exact h.loads pid text
    · cases hnext
  | childExits pid =>
    obtain rfl := Option.some.inj hnext
    refine ⟨(List.length_filter_le _ _).trans h.length, ?_, ?_⟩
    · exact fun c hc => h.pid c (List.mem_of_mem_filter hc)
    · intro hs
      have hnil := h.spawning hs
      simp [hnil]
  | clientReads text =>
    simp only [next] at hnext
    split at hnext
    · rename_i hholder
      split at hnext
      · obtain rfl := Option.some.inj hnext
        exact h.of_reloading hholder rfl (by simp)
      · cases hnext
    · cases hnext
  | clientLoads pid =>
    simp only [next] at hnext
    split at hnext
    · rename_i text hholder
      split at hnext
      · obtain rfl := Option.some.inj hnext
        have hloads : (s.loads pid text).holder = s.holder := rfl
        exact (h.loads pid text).of_reloading (hloads.trans hholder) rfl (by simp)
      · cases hnext
    · cases hnext

theorem one_step (h : s.One) (hstep : s.step e = some s') : s'.One := by
  rw [step] at hstep
  split at hstep
  · exact one_next h hstep
  · cases hstep

end

end CaddyProcess

/-- However calls of the handle interleave and whatever becomes of their processes, there is never
more than one Caddy. -/
theorem one_of_runs {F : Type} [DecidableEq F] (adminAddr : Option String) (text : F)
    (s : CaddyProcess F)
    (h : CaddyRuns (fun _ _ => True) (CaddyProcess.startCaddy adminAddr text) s) :
    s.children.length ≤ 1 := by
  have hone : s.One := by
    apply h.invariant CaddyProcess.One
    · exact CaddyProcess.one_startCaddy adminAddr text
    · exact fun _ _ _ hs _ hstep => CaddyProcess.one_step hs hstep
  exact hone.length

/-- Two reloads at once, and a Caddy that refuses the first of them. -/
theorem one_of_exampleRun : ∃ s : CaddyProcess String,
    CaddyRuns (fun _ _ => True) (CaddyProcess.startCaddy (some "unix//run/caddy") "a") s ∧
      s.proc = 1 ∧ s.children.length ≤ 1 := by
  have hrun : ((runAll CaddyProcess.step (fun _ _ => True)
      (CaddyProcess.startCaddy (some "unix//run/caddy") "a")
      [.spawned, .childReads 0 "a", .settled false, .write "b", .written, .acquire, .write "c",
        .clientReads "", .written, .clientDone false, .childExits 0, .stopped, .spawned,
        .childReads 1 "c", .settled false, .acquire, .clientReads "c", .clientLoads 1,
        .clientDone true]).map CaddyProcess.proc) = some 1 := by
    decide +kernel
  obtain ⟨s, hs, hproc⟩ := Option.map_eq_some_iff.mp hrun
  exact ⟨s, reach_of_run hs, hproc, one_of_runs _ _ s (reach_of_run hs)⟩

/-! ## What Caddy serves -/

namespace CaddyProcess

section

variable {F : Type} {s s' : CaddyProcess F} {e : CaddyEvent F}

/-- A call is to get the lock after which Caddy serves what the file says. -/
def Pending (s : CaddyProcess F) : Prop :=
  s.writing = true ∨ .reload ∈ s.waiting ∨ .restart ∈ s.waiting

/-- The call that holds the lock is to change or to end what runs. -/
def Renewing (s : CaddyProcess F) : Prop :=
  match s.holder with
  | some (.reloading .running) | some (.stopping _) => True
  | some (.reloading (.read text)) => text = s.caddyfile
  | _ => False

/-- Caddy serves the file as it is, or a call sees to it. -/
structure Fresh (s : CaddyProcess F) : Prop where
  one : s.One
  child : ∀ c ∈ s.children, ∀ text, c.serves = some text →
    text = s.caddyfile ∨ s.Pending ∨ s.Renewing
  client : ∀ text, s.holder = some (.reloading (.read text)) → text = s.caddyfile ∨ s.Pending

theorem fresh_startCaddy (adminAddr : Option String) (text : F) :
    (startCaddy adminAddr text).Fresh :=
  ⟨one_startCaddy adminAddr text, fun _ hc => absurd hc List.not_mem_nil, fun _ hs => by cases hs⟩

/-- Where a call is to get the lock, nothing more is asked. -/
theorem Fresh.of_pending (hone : s.One) (hpending : s.Pending) : s.Fresh :=
  ⟨hone, fun _ _ _ _ => Or.inr (Or.inl hpending), fun _ _ => Or.inr hpending⟩

/-- Where there is no child, only the client counts. -/
theorem Fresh.of_nil (hnil : s.children = [])
    (hclient : ∀ text, s.holder ≠ some (.reloading (.read text))) : s.Fresh := by
  refine ⟨.of_nil hnil, ?_, fun text hs => absurd hs (hclient text)⟩
  rw [hnil]
  exact fun _ hc => absurd hc List.not_mem_nil

/-- A call goes on to what renews Caddy. -/
theorem Fresh.of_renewing (hone : s.One) (hrenewing : s.Renewing)
    (hclient : ∀ text, s.holder ≠ some (.reloading (.read text))) : s.Fresh :=
  ⟨hone, fun _ _ _ _ => Or.inr (Or.inr hrenewing), fun text hs => absurd hs (hclient text)⟩

/-- A call goes on from where it renewed nothing. -/
theorem Fresh.withHolder (h : s.Fresh) {holder : Option (CaddyStage F)}
    (hone : (s.withHolder holder).One) (hrenewing : ¬ s.Renewing)
    (hclient : ∀ text, holder ≠ some (.reloading (.read text))) : (s.withHolder holder).Fresh := by
  refine ⟨hone, ?_, fun text hs => absurd hs (hclient text)⟩
  intro c hc text hserves
  rcases h.child c hc text hserves with hcurrent | hpending | hr
  · exact Or.inl hcurrent
  · exact Or.inr (Or.inl hpending)
  · exact absurd hr hrenewing

end

section

variable {F : Type} [DecidableEq F] {s s' : CaddyProcess F} {e : CaddyEvent F}

/-- What is read is the file as it is, or the file is being written. -/
theorem readable_cases {text : F} (h : s.readable text = true) :
    text = s.caddyfile ∨ s.Pending := by
  rw [readable, Bool.or_eq_true] at h
  rcases h with hwriting | htext
  · exact Or.inr (Or.inl hwriting)
  · exact Or.inl (of_decide_eq_true htext)

/-- A Caddy that has loaded nothing yet may find the file as it is. -/
theorem step_childReads {c : CaddyChild F} (hc : c ∈ s.children) (hserves : c.serves = none) :
    s.step (.childReads c.pid s.caddyfile) = some (s.loads c.pid s.caddyfile) := by
  have hreadable : s.readable s.caddyfile = true := by simp [readable]
  have hany : s.children.any (fun child => child.pid = c.pid && child.serves.isNone) = true := by
    apply List.any_eq_true.mpr
    exact ⟨c, hc, by simp [hserves]⟩
  simp [step, CaddyEvent.allowed, next, hreadable, hany]

theorem fresh_next (h : s.Fresh) (hmissing : e ≠ .clientMissing) (hnext : s.next e = some s') :
    s'.Fresh := by
  have hone : s'.One := one_next h.one hnext
  cases e with
  | write text =>
    obtain rfl := Option.some.inj hnext
    exact .of_pending hone (Or.inl rfl)
  | written =>
    obtain rfl := Option.some.inj hnext
    -- the reload that lines up makes up for whatever has been read meanwhile
    exact .of_pending hone (Or.inr (Or.inl (List.mem_append_right _ (List.mem_singleton.mpr rfl))))
  | call c =>
    obtain rfl := Option.some.inj hnext
    -- the calls that wait go on waiting
    have hpending : s.Pending → Pending { s with waiting := s.waiting ++ [c] } := fun hp =>
      hp.imp_right fun hp => hp.imp (List.mem_append_left _) (List.mem_append_left _)
    exact ⟨hone, fun child hchild text hserves =>
      (h.child child hchild text hserves).imp_right (Or.imp_left hpending),
      fun text hs => (h.client text hs).imp_right hpending⟩
  | acquire =>
    simp only [next] at hnext
    split at hnext
    · rename_i c rest hholder hwaiting
      obtain rfl := Option.some.inj hnext
      -- the call no longer waits, but its first stage renews Caddy
      rcases begins_cases s c with hbegins | ⟨respawn, hbegins⟩
      · rw [hbegins] at hone ⊢
        exact .of_renewing hone trivial (by simp)
      · rw [hbegins] at hone ⊢
        exact .of_renewing hone trivial (by simp)
    · cases hnext
  | clientMissing => exact absurd rfl hmissing
  | clientDone ok =>
    simp only [next] at hnext
    split at hnext
    · rename_i client hholder
      split at hnext
      · obtain rfl := Option.some.inj hnext
        exact .of_renewing hone trivial (by simp [CaddyProcess.withHolder])
      · split at hnext
        · rename_i hloaded
          obtain rfl := Option.some.inj hnext
          refine h.withHolder hone ?_ (by simp)
          -- a client that returns 0 has nothing left to load
          rw [Renewing, hholder]
          cases client with
          | loaded => exact id
          | running => cases hloaded
          | read text => cases hloaded
        · cases hnext
    · cases hnext
  | clientTimeout =>
    simp only [next] at hnext
    split at hnext
    · obtain rfl := Option.some.inj hnext
      exact .of_renewing hone trivial (by simp [CaddyProcess.withHolder])
    · cases hnext
  | stopped =>
    simp only [next] at hnext
    split at hnext
    · rename_i respawn hholder
      split at hnext
      · cases hnext
      · rename_i hup
        obtain rfl := Option.some.inj hnext
        have hproc : s.current = s.proc := by rw [current, hholder]
        refine .of_nil (h.one.children_eq_nil hproc (Bool.not_eq_true _ ▸ hup)) ?_
        intro text
        cases respawn <;> simp [CaddyProcess.withHolder]
    · cases hnext
  | spawned =>
    simp only [next] at hnext
    split at hnext
    · rename_i hholder
      obtain rfl := Option.some.inj hnext
      refine ⟨hone, ?_, fun text hs => by cases hs⟩
      -- the new child has read nothing
      intro c hc text hserves
      rw [h.one.spawning hholder] at hc
      rw [List.mem_singleton.mp hc] at hserves
      cases hserves
    · cases hnext
  | spawnFailed =>
    simp only [next] at hnext
    split at hnext
    · rename_i hholder
      obtain rfl := Option.some.inj hnext
      exact .of_nil (h.one.spawning hholder) (by simp [CaddyProcess.withHolder])
    · cases hnext
  | settled retry =>
    simp only [next] at hnext
    split at hnext
    · rename_i pid hholder
      -- the new child counts as any other from here on
      have hrenewing : ¬ s.Renewing := by rw [Renewing, hholder]; exact id
      split at hnext
      · obtain rfl := Option.some.inj hnext
        exact h.withHolder hone hrenewing (by simp)
      · obtain rfl := Option.some.inj hnext
        refine ⟨hone, ?_, fun text hs => by cases hs⟩
        intro c hc text hserves
        rcases h.child c hc text hserves with hcurrent | hpending | hr
        · exact Or.inl hcurrent
        · exact Or.inr (Or.inl hpending)
        · exact absurd hr hrenewing
    · cases hnext
  | childReads pid text =>
    simp only [next] at hnext
    split at hnext
    · rename_i hreads
      obtain rfl := Option.some.inj hnext
      rw [Bool.and_eq_true] at hreads
      refine ⟨hone, ?_, h.client⟩
      intro c hc read hserves
      obtain ⟨c, hc', rfl⟩ := List.mem_map.mp hc
      split at hserves
      · obtain rfl := Option.some.inj hserves
        exact (readable_cases hreads.1).imp_right Or.inl
      · exact h.child c hc' read hserves
    · cases hnext
  | childExits pid =>
    obtain rfl := Option.some.inj hnext
    exact ⟨hone, fun c hc => h.child c (List.mem_of_mem_filter hc), h.client⟩
  | clientReads text =>
    simp only [next] at hnext
    split at hnext
    · split at hnext
      · rename_i hreads
        obtain rfl := Option.some.inj hnext
        -- the client keeps what it has read, so the file must not change without a call
        have hread := readable_cases hreads
        refine ⟨hone, ?_, ?_⟩
        · intro c hc read hserves
          exact Or.inr (hread.symm.imp_right id)
        · intro read hs
          cases hs
          exact hread
      · cases hnext
    · cases hnext
  | clientLoads pid =>
    simp only [next] at hnext
    split at hnext
    · rename_i text hholder
      split at hnext
      · rename_i hany
        obtain rfl := Option.some.inj hnext
        refine ⟨hone, ?_, fun read hs => by cases hs⟩
        intro c hc read hserves
        obtain ⟨c, hc', rfl⟩ := List.mem_map.mp hc
        -- the one child there is has loaded it
        obtain ⟨child, hchild, hpid⟩ := List.any_eq_true.mp hany
        rw [Bool.and_eq_true, decide_eq_true_eq] at hpid
        have hsame : c.pid = pid := by
          rw [h.one.pid c hc', ← h.one.pid child hchild, hpid.1]
        rw [if_pos hsame] at hserves
        obtain rfl := Option.some.inj hserves
        exact (h.client text hholder).imp_right Or.inl
      · cases hnext
    · cases hnext

theorem fresh_step (h : s.Fresh) (hmissing : e ≠ .clientMissing) (hstep : s.step e = some s') :
    s'.Fresh := by
  rw [step] at hstep
  split at hstep
  · exact fresh_next h hmissing hstep
  · cases hstep

/-- No call is under way. -/
structure Idle (s : CaddyProcess F) : Prop where
  writing : s.writing = false
  holder : s.holder = none
  waiting : s.waiting = []

omit [DecidableEq F] in
/-- Nothing is left to be done, so that what Caddy serves is the file. -/
theorem Fresh.serves (h : s.Fresh) (hidle : s.Idle) {c : CaddyChild F} (hc : c ∈ s.children)
    {text : F} (hserves : c.serves = some text) : text = s.caddyfile := by
  rcases h.child c hc text hserves with hcurrent | hpending | hr
  · exact hcurrent
  · rw [Pending, hidle.writing, hidle.waiting] at hpending
    simp at hpending
  · rw [Renewing, hidle.holder] at hr
    exact hr.elim

end

end CaddyProcess

/-! ## Every call ends -/

section

variable {F : Type}

/-- The event begins a call. -/
def CaddyEvent.isNew : CaddyEvent F → Bool
  | write _ | call _ => true
  | _ => false

/-- The event is a step of a call that is under way, or of its client. -/
def CaddyEvent.ofCall : CaddyEvent F → Bool
  | write _ | call _ | childReads _ _ | childExits _ => false
  | _ => true

/-- A Caddy could not bind its ports, and another one is to try it, as long as the time for that
(`_CADDY_BIND_RETRY_SECONDS`) is not over. -/
def CaddyEvent.isRetry : CaddyEvent F → Bool
  | settled retry => retry
  | _ => false

/-- The steps that are left to the call, if it has to try once only. -/
def CaddyStage.left : CaddyStage F → Nat
  | settling _ => 1
  | spawning => 2
  | stopping _ => 3
  | reloading .loaded => 4
  | reloading (.read _) => 5
  | reloading .running => 6

end

namespace CaddyProcess

section

variable {F : Type}

/-- The steps that are left to all calls. -/
def left (s : CaddyProcess F) : Nat :=
  s.holder.elim 0 CaddyStage.left + 7 * s.waiting.length + 8 * s.writing.toNat

theorem left_reloading (client : ReloadClient F) : 3 < (CaddyStage.reloading client).left := by
  cases client <;> simp [CaddyStage.left]

theorem left_begins (s : CaddyProcess F) (c : CaddyCall) : (s.begins c).left ≤ 6 := by
  rcases begins_cases s c with hbegins | ⟨respawn, hbegins⟩
  · rw [hbegins]
    exact le_refl _
  · rw [hbegins]
    exact Nat.le_add_right 3 3

/-- The call that holds the lock goes on, and the others stay where they are. -/
theorem left_goesOn {s t : CaddyProcess F} {stage : CaddyStage F} (hholder : s.holder = some stage)
    (hwaiting : t.waiting = s.waiting) (hwriting : t.writing = s.writing) {n m : Nat}
    (hless : t.holder.elim 0 CaddyStage.left + n ≤ stage.left + m) : t.left + n ≤ s.left + m := by
  rw [left, left, hholder, hwaiting, hwriting, Option.elim_some]
  omega

end

section

variable {F : Type} [DecidableEq F] {s s' : CaddyProcess F} {e : CaddyEvent F}

/-- Every step of a call leaves fewer of them, but for the one that tries again. -/
theorem left_step (hnew : e.isNew = false) (hstep : s.step e = some s') :
    s'.left + e.ofCall.toNat ≤ s.left + 2 * e.isRetry.toNat := by
  rw [step] at hstep
  split at hstep
  · rename_i hallowed
    cases e with
    | write text => cases hnew
    | call c => cases hnew
    | written =>
      obtain rfl := Option.some.inj hstep
      -- the reload takes seven steps at most, and the end of the writing is one
      have hwriting : s.writing = true := hallowed
      simp [left, hwriting, CaddyEvent.ofCall]
      omega
    | acquire =>
      simp only [next] at hstep
      split at hstep
      · rename_i c rest hholder hwaiting
        obtain rfl := Option.some.inj hstep
        have hbegins := left_begins s c
        simp [left, hholder, hwaiting, CaddyEvent.ofCall]
        omega
      · cases hstep
    | clientMissing =>
      simp only [next] at hstep
      split at hstep
      · rename_i hholder
        obtain rfl := Option.some.inj hstep
        refine left_goesOn hholder (by rfl) (by rfl) ?_
        simp [withHolder, CaddyStage.left, CaddyEvent.ofCall, CaddyEvent.isRetry]
      · cases hstep
    | clientDone ok =>
      simp only [next] at hstep
      split at hstep
      · rename_i client hholder
        have hclient := left_reloading client
        split at hstep
        · obtain rfl := Option.some.inj hstep
          refine left_goesOn hholder (by rfl) (by rfl) ?_
          exact hclient
        · split at hstep
          · obtain rfl := Option.some.inj hstep
            refine left_goesOn hholder (by rfl) (by rfl) ?_
            exact Nat.zero_lt_of_lt hclient
          · cases hstep
      · cases hstep
    | clientTimeout =>
      simp only [next] at hstep
      split at hstep
      · rename_i client hholder
        obtain rfl := Option.some.inj hstep
        refine left_goesOn hholder (by rfl) (by rfl) ?_
        exact left_reloading client
      · cases hstep
    | stopped =>
      simp only [next] at hstep
      split at hstep
      · rename_i respawn hholder
        split at hstep
        · cases hstep
        · obtain rfl := Option.some.inj hstep
          refine left_goesOn hholder (by rfl) (by rfl) ?_
          cases respawn <;>
            simp [withHolder, CaddyStage.left, CaddyEvent.ofCall, CaddyEvent.isRetry]
      · cases hstep
    | spawned =>
      simp only [next] at hstep
      split at hstep
      · rename_i hholder
        obtain rfl := Option.some.inj hstep
        refine left_goesOn hholder (by rfl) (by rfl) ?_
        simp [CaddyStage.left, CaddyEvent.ofCall]
      · cases hstep
    | spawnFailed =>
      simp only [next] at hstep
      split at hstep
      · rename_i hholder
        obtain rfl := Option.some.inj hstep
        refine left_goesOn hholder (by rfl) (by rfl) ?_
        simp [withHolder, CaddyStage.left, CaddyEvent.ofCall, CaddyEvent.isRetry]
      · cases hstep
    | settled retry =>
      simp only [next] at hstep
      split at hstep
      · rename_i pid hholder
        split at hstep
        · rename_i hretry
          obtain rfl := Option.some.inj hstep
          rw [Bool.and_eq_true] at hretry
          refine left_goesOn hholder (by rfl) (by rfl) ?_
          simp [withHolder, CaddyStage.left, CaddyEvent.ofCall, CaddyEvent.isRetry, hretry.1]
        · obtain rfl := Option.some.inj hstep
          refine left_goesOn hholder (by rfl) (by rfl) ?_
          simp [CaddyStage.left, CaddyEvent.ofCall]
      · cases hstep
    | childReads pid text =>
      simp only [next] at hstep
      split at hstep
      · obtain rfl := Option.some.inj hstep
        exact Nat.le_add_right _ _
      · cases hstep
    | childExits pid =>
      obtain rfl := Option.some.inj hstep
      exact Nat.le_add_right _ _
    | clientReads text =>
      simp only [next] at hstep
      split at hstep
      · rename_i hholder
        split at hstep
        · obtain rfl := Option.some.inj hstep
          refine left_goesOn hholder (by rfl) (by rfl) ?_
          simp [withHolder, CaddyStage.left, CaddyEvent.ofCall]
        · cases hstep
      · cases hstep
    | clientLoads pid =>
      simp only [next] at hstep
      split at hstep
      · rename_i text hholder
        split at hstep
        · obtain rfl := Option.some.inj hstep
          refine left_goesOn hholder (by rfl) (by rfl) ?_
          simp [withHolder, CaddyStage.left, CaddyEvent.ofCall]
        · cases hstep
      · cases hstep
  · cases hstep

/-- A run takes no more steps of calls than were left, and two for each time it tries again. -/
theorem left_runAll {as : List (CaddyEvent F)}
    (h : runAll step (fun _ e => e.isNew = false) s as = some s') :
    s'.left + as.countP CaddyEvent.ofCall ≤ s.left + 2 * as.countP CaddyEvent.isRetry := by
  induction as generalizing s with
  | nil =>
    obtain rfl := Option.some.inj h
    exact le_refl _
  | cons e as ih =>
    -- the first step, and then the run from where it leads
    rw [runAll] at h
    split at h
    · rename_i hnew
      obtain ⟨t, ht, hrest⟩ := Option.bind_eq_some_iff.mp h
      have hfirst := left_step hnew ht
      have hlater := ih hrest
      rw [List.countP_cons, List.countP_cons]
      cases hcall : e.ofCall <;> cases hretry : e.isRetry <;>
        simp [hcall, hretry] at hfirst ⊢ <;> omega
    · cases h

/-- The step can be taken, if need be once the Caddy that the call ends has exited. -/
def Possible (s : CaddyProcess F) (e : CaddyEvent F) : Prop :=
  (s.step e).isSome = true ∨
    s.up = true ∧ ∃ t, s.step (.childExits s.proc) = some t ∧ (t.step e).isSome = true

/-- The Caddy of the handle exits, which is what a call that ends it waits for. -/
theorem step_childExits (s : CaddyProcess F) : ∃ t, s.step (.childExits s.proc) = some t ∧
    t.up = false ∧ t.holder = s.holder ∧ t.writing = s.writing := by
  have hallowed : (CaddyEvent.childExits s.proc : CaddyEvent F).allowed s.writing = true := by
    cases s.writing <;> rfl
  refine ⟨{ s with children := s.children.filter (·.pid ≠ s.proc) }, if_pos hallowed, ?_, rfl, rfl⟩
  simp [up, List.any_filter]

/-- Whatever state a call is in, there is a step that it can take without trying again. -/
theorem exists_possible (hidle : ¬ s.Idle) :
    ∃ e : CaddyEvent F, e.ofCall = true ∧ e.isRetry = false ∧ s.Possible e := by
  cases hwriting : s.writing with
  | true => exact ⟨.written, rfl, rfl, Or.inl (by simp [step, CaddyEvent.allowed, next, hwriting])⟩
  | false =>
    cases hholder : s.holder with
    | none =>
      cases hwaiting : s.waiting with
      | nil => exact absurd ⟨hwriting, hholder, hwaiting⟩ hidle
      | cons c rest =>
        refine ⟨.acquire, rfl, rfl, Or.inl ?_⟩
        simp [step, CaddyEvent.allowed, next, hwriting, hholder, hwaiting]
    | some stage =>
      cases stage with
      | reloading client =>
        -- it is given half a minute
        refine ⟨.clientTimeout, rfl, rfl, Or.inl ?_⟩
        simp [step, CaddyEvent.allowed, next, hwriting, hholder]
      | stopping respawn =>
        refine ⟨.stopped, rfl, rfl, ?_⟩
        cases hup : s.up with
        | false => exact Or.inl (by simp [step, CaddyEvent.allowed, next, hwriting, hholder, hup])
        | true =>
          obtain ⟨t, ht, hdown, hstage, hstill⟩ := step_childExits s
          refine Or.inr ⟨hup, t, ht, ?_⟩
          simp [step, CaddyEvent.allowed, next, hstill, hwriting, hstage, hholder, hdown]
      | spawning =>
        refine ⟨.spawned, rfl, rfl, Or.inl ?_⟩
        simp [step, CaddyEvent.allowed, next, hwriting, hholder]
      | settling pid =>
        refine ⟨.settled false, rfl, rfl, Or.inl ?_⟩
        simp [step, CaddyEvent.allowed, next, hwriting, hholder]

end

end CaddyProcess

/-- No call of the handle waits for ever: a run in which none begins takes a bounded number of steps
of calls, and can go on until no call is under way. -/
theorem calls_end {F : Type} [DecidableEq F] (s s' : CaddyProcess F) (as : List (CaddyEvent F))
    (h : runAll CaddyProcess.step (fun _ e => e.isNew = false) s as = some s') :
    as.countP CaddyEvent.ofCall ≤ s.left + 2 * as.countP CaddyEvent.isRetry ∧
      (s'.Idle ∨ ∃ e : CaddyEvent F, e.ofCall = true ∧ e.isRetry = false ∧ s'.Possible e) := by
  refine ⟨?_, ?_⟩
  · exact (Nat.le_add_left _ _).trans (CaddyProcess.left_runAll h)
  · by_cases hidle : s'.Idle
    · exact Or.inl hidle
    · exact Or.inr (CaddyProcess.exists_possible hidle)

/-- Two calls wait, of which the first has to try twice. -/
theorem calls_end_example : ∃ s' : CaddyProcess String, s'.holder = none ∧ s'.waiting = [.stop] ∧
    (s'.Idle ∨ ∃ e : CaddyEvent String, e.ofCall = true ∧ e.isRetry = false ∧ s'.Possible e) := by
  have hrun : (runAll CaddyProcess.step (fun _ e => e.isNew = false)
      { adminAddr := none, caddyfile := "a", waiting := [.reload, .stop] }
      [.acquire, .stopped, .spawned, .childExits 0, .settled true, .spawned, .settled false]).map
        (fun s => (s.holder, s.waiting)) = some (none, [.stop]) := by
    decide +kernel
  obtain ⟨s', hs', hview⟩ := Option.map_eq_some_iff.mp hrun
  obtain ⟨hholder, hwaiting⟩ := Prod.mk.injEq .. ▸ hview
  exact ⟨s', hholder, hwaiting, (calls_end _ s' _ hs').2⟩

end OpenHost.Web
