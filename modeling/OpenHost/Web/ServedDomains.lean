import OpenHost.Web.CaddyProcess

/-!
# The domains that Caddy serves

Requests for domains and renewals of certificates, together with the Caddy that they reload.  The
request is at `caddy.reload()` while its call of the handle is under way; letting it go on before
the call has ended only adds runs.
-/

namespace OpenHost.Web

open Domains (DomainRecord Domain effectiveDomains)

/-- The file is one that `generate_caddyfile` makes for the domains, in some order and with some
certificates on disk. -/
def Generated (config : CaddyConfig) (file : Caddyfile) (domains : List Domain) : Prop :=
  ∃ hasCert ds, ds.Perm domains ∧ file = generateCaddyfile config hasCert ds

theorem Generated.congr {config : CaddyConfig} {file : Caddyfile} {domains domains' : List Domain}
    (h : Generated config file domains) (hperm : domains.Perm domains') :
    Generated config file domains' := by
  obtain ⟨hasCert, ds, hds, hfile⟩ := h
  exact ⟨hasCert, ds, hds.trans hperm, hfile⟩

/-! ## What a request owes the Caddyfile -/

namespace DomainSpace

/-- The Caddyfile is that of the domains, or a request is still to write it. -/
def Owes (config : CaddyConfig) (s : DomainSpace) : Prop :=
  (∃ task ∈ s.tasks, task.stage.willWrite = true) ∨
    ∀ file, s.caddyfile = some file → Generated config file (effectiveDomains s.table.rows)

/-- The step goes on to `caddy.reload()`. -/
def reloads (s : DomainSpace) : DomainEvent → Bool
  | .resume i _ error =>
      (s.tasks[i]?).any fun task =>
        task.stage = .response || (task.stage = .acquiring && task.certFor.isSome && error.isNone)
  | _ => false

variable {config : CaddyConfig} {s s' : DomainSpace}

theorem willWrite_callZone (dns : Dns.Schedule) (call : Dns.DnsAction) :
    (callZone dns call).2.willWrite = true := by
  unfold callZone
  split
  · rfl
  · dsimp only
    split <;> rfl

/-- A request that has just changed the table. -/
theorem owes_request {table : DomainTable} {dns : Dns.Schedule} {stage : RequestStage}
    (certFor : Option String) (hwill : stage.willWrite = true) :
    Owes config { s with
      table := table
      dns := dns
      tasks := s.tasks ++ [⟨stage, certFor⟩] } :=
  Or.inl ⟨_, List.mem_append_right _ (List.mem_singleton.mpr rfl), hwill⟩

theorem owes_writeCaddyfile (s : DomainSpace) (config : CaddyConfig) (hasCert : String → Bool) :
    ∀ file, (s.writeCaddyfile config hasCert).caddyfile = some file →
      Generated config file (effectiveDomains s.table.rows) := by
  intro file hfile
  obtain ⟨old, -, rfl⟩ := Option.map_eq_some_iff.mp hfile
  exact ⟨hasCert, _, .refl _, rfl⟩

theorem same_moveTask (s : DomainSpace) (i : Nat) (stage : Option RequestStage) :
    (s.moveTask i stage).table = s.table ∧ (s.moveTask i stage).caddyfile = s.caddyfile := by
  cases stage with
  | none => exact ⟨rfl, rfl⟩
  | some stage => exact ⟨rfl, rfl⟩

/-- A task leaves its place, and what it owed is written or still to be written by itself. -/
theorem owes_moveTask (h : s.Owes config) {i : Nat} {current : DomainTask}
    (stage : Option RequestStage) (hi : s.tasks[i]? = some current)
    (hwrite : current.stage.willWrite = true → (∃ next, stage = some next ∧ next.willWrite = true) ∨
      ∀ file, s.caddyfile = some file → Generated config file (effectiveDomains s.table.rows)) :
    (s.moveTask i stage).Owes config := by
  obtain ⟨htable, hcaddyfile⟩ := same_moveTask s i stage
  rw [Owes, hcaddyfile, htable]
  -- another task that is still to write the file goes on to do so
  rcases h with ⟨task, htask, hwill⟩ | hgenerated
  · rcases mem_moveTask stage hi htask with rfl | hmoved
    · refine (hwrite hwill).imp_left fun hnext => ?_
      obtain ⟨next, rfl, hwill⟩ := hnext
      exact ⟨_, moved_mem next hi, hwill⟩
    · exact Or.inl ⟨task, hmoved, hwill⟩
  · exact Or.inr hgenerated

/-- A task that has written the Caddyfile. -/
theorem owes_written {i : Nat} {current : DomainTask} (hasCert : String → Bool)
    (stage : Option RequestStage) (hi : s.tasks[i]? = some current) :
    ((s.writeCaddyfile config hasCert).moveTask i stage).Owes config := by
  have hwritten := owes_writeCaddyfile s config hasCert
  have hi' : (s.writeCaddyfile config hasCert).tasks[i]? = some current := hi
  exact owes_moveTask (Or.inr hwritten) stage hi' fun _ => Or.inr hwritten

theorem owes_setStatus (h : s.Owes config) (name : String) (status : Domains.DomainCertStatus)
    (error : Option String) :
    Owes config { s with table := s.table.setStatus name status error } :=
  h.imp_right fun hgenerated file hfile =>
    (hgenerated file hfile).congr (effectiveDomains_setStatus s.table name status error).symm

theorem owes_resume (h : s.Owes config) {i : Nat} {task : DomainTask} {hasCert : String → Bool}
    {error : Option String} (hi : s.tasks[i]? = some task)
    (hresume : s.resume config i task hasCert error = some s') : s'.Owes config := by
  obtain ⟨stage, certFor⟩ := task
  unfold DomainSpace.resume at hresume
  cases stage with
  | zone ticket =>
    dsimp only at hresume
    split at hresume
    · cases hresume
      exact owes_moveTask h _ hi fun _ => Or.inl ⟨.response, rfl, rfl⟩
    · cases hresume
  | response =>
    obtain rfl := Option.some.inj hresume
    exact owes_written hasCert _ hi
  | reloading =>
    cases certFor with
    | none =>
      cases hresume
      exact owes_moveTask h _ hi fun hwill => by cases hwill
    | some name =>
      cases hresume
      exact owes_moveTask h _ hi fun hwill => by cases hwill
  | acquiring =>
    cases certFor with
    | none => cases hresume
    | some name =>
      cases error with
      | some error =>
        cases hresume
        exact owes_moveTask (owes_setStatus h name .error (some error)) _ hi
          fun hwill => by cases hwill
      | none =>
        obtain rfl := Option.some.inj hresume
        have hi' : { s with table := s.table.setStatus name .active none }.tasks[i]? = some _ := hi
        exact owes_written hasCert _ hi'
  | reloadingCert =>
    cases hresume
    exact owes_moveTask h _ hi fun hwill => by cases hwill

theorem owes_next {e : DomainEvent} (h : s.Owes config) (hnext : s.next config e = some s') :
    s'.Owes config := by
  cases e with
  | addDomain name tls mdns =>
    obtain rfl := Option.some.inj hnext
    unfold DomainSpace.addDomain
    dsimp only
    cases validateNewDomain (requestName name) tls mdns s.table.rows with
    | some message => exact h
    | none =>
      -- the request that changes the table is a task from here on
      cases mdns with
      | true => exact owes_request _ rfl
      | false =>
        rw [if_neg Bool.false_ne_true]
        exact owes_request _ (willWrite_callZone _ _)
  | removeDomain name =>
    obtain rfl := Option.some.inj hnext
    unfold DomainSpace.removeDomain
    dsimp only
    cases Domains.getRecord s.table.rows (requestName name) with
    | none => exact h
    | some removed =>
      dsimp only
      split
      · exact h
      · cases hmdns : removed.mdns with
        | true => exact owes_request _ rfl
        | false =>
          rw [if_neg Bool.false_ne_true]
          exact owes_request _ (willWrite_callZone _ _)
  | dns action =>
    rw [DomainSpace.next] at hnext
    split at hnext
    · cases hnext
    · obtain ⟨dns, -, rfl⟩ := Option.map_eq_some_iff.mp hnext
      exact h
  | resume i hasCert error =>
    obtain ⟨task, hi, hresume⟩ := Option.bind_eq_some_iff.mp hnext
    exact owes_resume h hi hresume

/-- Only what goes on to `caddy.reload()` writes the Caddyfile, if Caddy is there. -/
theorem caddyfile_next {e : DomainEvent} (hnext : s.next config e = some s') :
    s'.caddyfile.isSome = s.caddyfile.isSome ∧
      (s.reloads e = false → s'.caddyfile = s.caddyfile) := by
  cases e with
  | addDomain name tls mdns =>
    obtain rfl := Option.some.inj hnext
    unfold DomainSpace.addDomain
    dsimp only
    split <;> exact ⟨rfl, fun _ => rfl⟩
  | removeDomain name =>
    obtain rfl := Option.some.inj hnext
    unfold DomainSpace.removeDomain
    dsimp only
    split
    · exact ⟨rfl, fun _ => rfl⟩
    · split <;> exact ⟨rfl, fun _ => rfl⟩
  | dns action =>
    rw [DomainSpace.next] at hnext
    split at hnext
    · cases hnext
    · obtain ⟨dns, -, rfl⟩ := Option.map_eq_some_iff.mp hnext
      exact ⟨rfl, fun _ => rfl⟩
  | resume i hasCert error =>
    obtain ⟨⟨stage, certFor⟩, hi, hresume⟩ := Option.bind_eq_some_iff.mp hnext
    rw [reloads, hi]
    unfold DomainSpace.resume at hresume
    cases stage with
    | zone ticket =>
      dsimp only at hresume
      split at hresume
      · cases hresume
        exact ⟨rfl, fun _ => rfl⟩
      · cases hresume
    | response =>
      cases hresume
      exact ⟨by simp [moveTask, writeCaddyfile], fun hno => by simp at hno⟩
    | reloading =>
      cases certFor <;> cases hresume <;> exact ⟨rfl, fun _ => rfl⟩
    | acquiring =>
      cases certFor with
      | none => cases hresume
      | some name =>
        cases error with
        | some error =>
          cases hresume
          exact ⟨rfl, fun _ => rfl⟩
        | none =>
          cases hresume
          exact ⟨by simp [moveTask, writeCaddyfile], fun hno => by simp at hno⟩
    | reloadingCert =>
      cases hresume
      exact ⟨rfl, fun _ => rfl⟩

end DomainSpace

/-! ## Requests, renewals and Caddy -/

/-- The router's domains and its Caddy. -/
structure ServedSpace where
  space : DomainSpace
  caddy : CaddyProcess Caddyfile

inductive ServedEvent where
  | domain (e : DomainEvent)
  /-- `renew_cert_if_needed` has installed certificates; the domains stay as they are. -/
  | renewed (hasCert : String → Bool)
  /-- A step of a call, or of a process. -/
  | caddy (e : CaddyEvent Caddyfile)

/-- The event is the first step of `reload_caddy_for_domains`. -/
def CaddyEvent.isWrite {F : Type} : CaddyEvent F → Bool
  | write _ => true
  | _ => false

/-- The event is not that of a `caddy reload` client that could not be started. -/
def ServedEvent.startable : ServedEvent → Bool
  | caddy .clientMissing => false
  | _ => true

namespace ServedSpace

/-- The state in which `_main` hands over to the web server; the domains are read from the table. -/
def start (config : CaddyConfig) (hasCert : String → Bool) (table : DomainTable)
    (dns : Dns.Schedule) : ServedSpace :=
  let file := generateCaddyfile config hasCert (effectiveDomains table.rows)
  ⟨⟨table, dns, some file, []⟩, CaddyProcess.startCaddy config.adminAddr file⟩

/-- The loop goes on with the domains; where the Caddyfile is rewritten, so does the handle. -/
def follow (s : ServedSpace) (space : DomainSpace) (reloads : Bool) : Option ServedSpace :=
  match space.caddyfile with
  | some text =>
      if reloads then (s.caddy.step (.write text)).map fun caddy => ⟨space, caddy⟩
      else some ⟨space, s.caddy⟩
  | none => some ⟨space, s.caddy⟩

def next (config : CaddyConfig) (s : ServedSpace) : ServedEvent → Option ServedSpace
  | .domain e =>
      if s.caddy.writing then none
      else (s.space.next config e).bind fun space => s.follow space (s.space.reloads e)
  | .renewed hasCert => s.follow (s.space.writeCaddyfile config hasCert) true
  | .caddy e =>
      if e.isWrite then none else (s.caddy.step e).map fun caddy => ⟨s.space, caddy⟩

/-- The `caddy reload` client can be started. -/
abbrev Startable (_ : ServedSpace) (e : ServedEvent) : Prop := e.startable = true

/-- The runs in which that client can be started. -/
abbrev Runs (config : CaddyConfig) (s s' : ServedSpace) : Prop :=
  Reach (fun s e s' => next config s e = some s') Startable s s'

/-! ## What every step preserves -/

/-- The handle knows the Caddyfile, and the requests owe it nothing that they will not give. -/
structure Inv (config : CaddyConfig) (s : ServedSpace) : Prop where
  fresh : s.caddy.Fresh
  file : s.space.caddyfile = some s.caddy.caddyfile
  owes : s.space.Owes config

variable {config : CaddyConfig} {s s' : ServedSpace}

theorem inv_start (config : CaddyConfig) (hasCert : String → Bool) (table : DomainTable)
    (dns : Dns.Schedule) : (start config hasCert table dns).Inv config where
  fresh := CaddyProcess.fresh_startCaddy _ _
  file := rfl
  owes := Or.inr fun _ hfile => ⟨hasCert, _, .refl _, (Option.some.inj hfile).symm⟩

/-- Only what writes the Caddyfile changes it. -/
theorem caddyfile_step {F : Type} [DecidableEq F] {c c' : CaddyProcess F} {e : CaddyEvent F}
    (hwrite : e.isWrite = false) (h : c.step e = some c') : c'.caddyfile = c.caddyfile := by
  rw [CaddyProcess.step] at h
  split at h
  · cases e with
    | write text => cases hwrite
    | written | call _ | childExits _ =>
      obtain rfl := Option.some.inj h
      rfl
    | acquire | clientMissing | clientDone _ | clientTimeout | stopped | spawned | spawnFailed
    | settled _ | childReads _ _ | clientReads _ | clientLoads _ =>
      simp only [CaddyProcess.next] at h
      repeat' split at h
      all_goals cases h
      all_goals rfl
  · cases h

theorem inv_follow (h : s.Inv config) {space : DomainSpace} {reloads : Bool}
    (hsome : space.caddyfile.isSome = s.space.caddyfile.isSome)
    (hsame : reloads = false → space.caddyfile = s.space.caddyfile) (howes : space.Owes config)
    (hfollow : s.follow space reloads = some s') : s'.Inv config := by
  rw [h.file, Option.isSome_some] at hsome
  obtain ⟨text, htext⟩ := Option.isSome_iff_exists.mp hsome
  rw [follow, htext] at hfollow
  cases reloads with
  | true =>
    obtain ⟨caddy, hcaddy, rfl⟩ := Option.map_eq_some_iff.mp hfollow
    -- the handle has the text that the request has written
    refine ⟨CaddyProcess.fresh_step h.fresh (by simp) hcaddy, ?_, howes⟩
    rw [CaddyProcess.step] at hcaddy
    split at hcaddy
    · obtain rfl := Option.some.inj hcaddy
      exact htext
    · cases hcaddy
  | false =>
    obtain rfl := Option.some.inj hfollow
    exact ⟨h.fresh, (hsame rfl).trans h.file, howes⟩

theorem inv_next {e : ServedEvent} (h : s.Inv config) (hstart : s.Startable e)
    (hnext : next config s e = some s') : s'.Inv config := by
  cases e with
  | domain e =>
    rw [next] at hnext
    split at hnext
    · cases hnext
    · obtain ⟨space, hspace, hfollow⟩ := Option.bind_eq_some_iff.mp hnext
      obtain ⟨hsome, hsame⟩ := DomainSpace.caddyfile_next hspace
      exact inv_follow h hsome hsame (DomainSpace.owes_next h.owes hspace) hfollow
  | renewed hasCert =>
    refine inv_follow h ?_ (fun hno => by cases hno) ?_ hnext
    · rw [DomainSpace.writeCaddyfile, Option.isSome_map]
    · exact Or.inr (DomainSpace.owes_writeCaddyfile s.space config hasCert)
  | caddy e =>
    rw [next] at hnext
    split at hnext
    · cases hnext
    · rename_i hwrite
      obtain ⟨caddy, hcaddy, rfl⟩ := Option.map_eq_some_iff.mp hnext
      rw [Bool.not_eq_true] at hwrite
      -- nothing but a write changes the file under the requests
      have hmissing : e ≠ .clientMissing := by
        rintro rfl
        cases hstart
      refine ⟨CaddyProcess.fresh_step h.fresh hmissing hcaddy, ?_, h.owes⟩
      rw [h.file, caddyfile_step hwrite hcaddy]

end ServedSpace

/-- However requests for domains, renewals of certificates, calls of the handle and the processes
interleave, as long as the `caddy reload` client can be started: whenever no request and no call is
under way, the Caddy that runs, once it has loaded its configuration, has the site blocks of exactly
the domains in the table. -/
theorem caddy_serves_table_of_runs (config : CaddyConfig) (hasCert : String → Bool)
    (table : DomainTable) (dns : Dns.Schedule) : ∀ s, ServedSpace.Runs config (.start config hasCert table dns) s →
      s.space.tasks = [] → s.caddy.Idle → ∀ child ∈ s.caddy.children, ∀ file,
        child.serves = some file → Generated config file (effectiveDomains s.space.table.rows) := by
  intro s h htasks hidle child hchild file hserves
  have hinv : s.Inv config := by
    apply h.invariant (ServedSpace.Inv config)
    · exact ServedSpace.inv_start config hasCert table dns
    · exact fun _ _ _ hs hstart hnext => ServedSpace.inv_next hs hstart hnext
  -- what Caddy serves is the file, and no task owes the file anything
  obtain rfl := hinv.fresh.serves hidle hchild hserves
  rcases hinv.owes with ⟨task, htask, -⟩ | hgenerated
  · rw [htasks] at htask
    cases htask
  · exact hgenerated _ hinv.file

def exampleCaddy : CaddyConfig := ⟨8080, some "unix//run/caddy"⟩

def exampleServed : ServedSpace :=
  .start exampleCaddy (fun _ => false) twoDomains ⟨Dns.freshProvider none, [], none, []⟩

/-- What a run leaves, where nothing is under way. -/
structure ServedView where
  rows : Nat
  tasks : List DomainTask
  writing : Bool
  holder : Option (CaddyStage Caddyfile)
  waiting : List CaddyCall
  children : List (CaddyChild Caddyfile)
  deriving DecidableEq

def ServedSpace.view (s : ServedSpace) : ServedView :=
  ⟨s.space.table.rows.length, s.space.tasks, s.caddy.writing, s.caddy.holder, s.caddy.waiting,
    s.caddy.children⟩

/-- A domain is removed while Caddy is down, so that the reload starts another one. -/
theorem caddy_serves_table_of_exampleRun : ∃ s,
    ServedSpace.Runs exampleCaddy exampleServed s ∧ s.space.table.rows.length = 1 ∧
      ∃ child ∈ s.caddy.children, ∃ file, child.serves = some file ∧
        Generated exampleCaddy file (effectiveDomains s.space.table.rows) := by
  have hrun : (runAll (ServedSpace.next exampleCaddy) ServedSpace.Startable exampleServed
      [.caddy .spawned, .caddy (.settled false), .caddy (.childExits 0),
        .domain (.removeDomain "host.example.com"), .domain (.resume 0 (fun _ => false) none),
        .caddy .written, .caddy .acquire, .caddy .stopped, .caddy .spawned, .caddy (.settled false),
        .domain (.resume 0 (fun _ => false) none)]).map
      ServedSpace.view = some ⟨1, [], false, none, [], [⟨1, none⟩]⟩ := by
    decide +kernel
  obtain ⟨s, hs, hview⟩ := Option.map_eq_some_iff.mp hrun
  simp only [ServedSpace.view, ServedView.mk.injEq] at hview
  obtain ⟨hrows, htasks, hwriting, hholder, hwaiting, hchildren⟩ := hview
  have hchild : (⟨1, none⟩ : CaddyChild Caddyfile) ∈ s.caddy.children := by
    rw [hchildren]
    exact List.mem_singleton.mpr rfl
  -- the new Caddy reads what has been written, whatever the text
  have hnext : ServedSpace.next exampleCaddy s (.caddy (.childReads 1 s.caddy.caddyfile)) =
      some ⟨s.space, s.caddy.loads 1 s.caddy.caddyfile⟩ := by
    have hread := CaddyProcess.step_childReads hchild rfl
    simp [ServedSpace.next, CaddyEvent.isWrite, hread]
  have hreach : ServedSpace.Runs exampleCaddy exampleServed
      ⟨s.space, s.caddy.loads 1 s.caddy.caddyfile⟩ := (reach_of_run hs).step rfl hnext
  have hloaded : (⟨1, some s.caddy.caddyfile⟩ : CaddyChild Caddyfile) ∈
      (s.caddy.loads 1 s.caddy.caddyfile).children := by
    simp [CaddyProcess.loads, hchildren]
  exact ⟨_, hreach, hrows, _, hloaded, _, rfl,
    caddy_serves_table_of_runs exampleCaddy _ twoDomains _ _ hreach htasks
      ⟨hwriting, hholder, hwaiting⟩ _ hloaded _ rfl⟩

end OpenHost.Web
