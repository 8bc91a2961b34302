import OpenHost.Domains.Hosts
import OpenHost.Library.Lines
import OpenHost.Library.TomlOmitted

/-!
# The domains move from the configuration to the database

`v0007_seed_domains_and_scrub`: a reader of TOML finds what is captured, and a regular expression
takes lines out of the text.  Where each statement is left as it is or taken out whole, and those
taken out give the captured keys of `[openhost]` their values, the text that remains says the same
but for these keys.
-/

namespace OpenHost.SeedDomains

open Domains (Domain DomainError DomainRecord Tables addExtra seedRows)
open Text (before stripBlank)
open Toml (Chunks Header Statement Table isWs loads replaceReturns statementsOf)

/-! ## The database -/

/-- The router's database, as far as the migration reads or writes it. -/
structure RouterDb where
  tables : Tables
  /-- How many rows `users` has; `none` where there is no such table. -/
  users : Option Nat
  settings : List (String × Option String)

variable (textOf : Toml.Value → String) (lower : String → String)

/-- `str(v)`; `textOf` is what it gives for a value that is not a text. -/
def str : Toml.Value → String
  | .str s => s
  | v => textOf v

/-- `str(table.get(key, "")).strip().lower()` -/
def nameIn (table : Table) (key : String) : String :=
  lower (stripBlank (str textOf (table.getD key (.str ""))))

/-- The domain of the configuration; blank where there is none. -/
def zoneDomain (openhost : Table) : String := nameIn textOf lower openhost "zone_domain"

/-- The entries of `domains`; none where it is not a list. -/
def extras (openhost : Table) : List Toml.Value :=
  ((openhost.getD "domains" (.array [])).array?).getD []

/-- A round of the loop of `_seed_domains`: the hosts seen so far, and the rows. -/
def addEntry (acc : List String × List DomainRecord) : Toml.Value → List String × List DomainRecord
  | .table entry =>
    let name := nameIn textOf lower entry "name"
    let host := before ':' name
    if name = "" || host ∈ acc.1 then acc
    else
      (host :: acc.1,
        acc.2 ++ [{ name := name
                    tls := (Table.getD entry "tls" (.bool false)).truthy
                    mdns := (Table.getD entry "mdns" (.bool false)).truthy }])
  | _ => acc

/-- The rows that `_seed_domains` inserts. -/
def capturedRows (openhost : Table) : List DomainRecord :=
  let zone := zoneDomain textOf lower openhost
  let row : DomainRecord :=
    { name := zone
      tls := (openhost.getD "tls_enabled" (.bool false)).truthy
      mdns := false
      isPrimary := true }
  ((extras openhost).foldl (addEntry textOf lower) ([before ':' zone], [row])).2

/-- `executemany` -/
def insertAll (rows : List DomainRecord) (t : Tables) : Except DomainError Tables :=
  rows.foldlM (fun t r => (t.insert r).map Prod.fst) t

/-- `_seed_domains` -/
def seedDomains (openhost : Table) (t : Tables) : Except DomainError Tables :=
  if t.domains ≠ [] then .ok t
  else if zoneDomain textOf lower openhost = "" then .ok t
  else insertAll (capturedRows textOf lower openhost) t

/-- `_owner_exists` -/
def ownerExists (db : RouterDb) : Bool := db.users.any (· ≠ 0)

/-- The key of the claim token in `settings`. -/
def claimTokenKey : String := "claim_token"

/-- The claim token in the text of its file. -/
def tokenIn (file : List Char) : String :=
  before ':' (stripBlank (String.ofList (Lines.universalNewlines false file)))

/-- `_seed_claim_token`; `none` for a file that cannot be read. -/
def seedClaimToken (file : Option (List Char)) (db : RouterDb) : RouterDb :=
  if ownerExists db then db
  else if (db.settings.lookup claimTokenKey).isSome then db
  else
    match file with
    | none => db
    | some text =>
      if tokenIn text = "" then db
      else { db with settings := db.settings ++ [(claimTokenKey, some (tokenIn text))] }

/-! ## The configuration -/

/-- The keys of `[openhost]` that are captured. -/
def capturedKeys : List String := ["zone_domain", "tls_enabled"]

/-- `_CAPTURED_LINE_RE` matches at the beginning of the line. -/
def isCaptured (line : List Char) : Bool :=
  capturedKeys.any fun key =>
    ((line.dropWhile isWs).dropPrefix? key.toList).any fun rest =>
      (rest.dropWhile isWs).head? = some '='

/-- The lines of a text, with their ends. -/
def lines : List Char → List (List Char)
  | [] => []
  | c :: s =>
    if c = '\n' then ['\n'] :: lines s
    else
      match lines s with
      | [] => [[c]]
      | line :: rest => (c :: line) :: rest

/-- `_CAPTURED_LINE_RE.sub("", original)`: a match goes up to the end of its line. -/
def scrub (original : List Char) : List Char := ((lines original).filter (!isCaptured ·)).flatten

/-- `_scrub_captured_config`, on the text of the file. -/
def scrubCapturedConfig (text : List Char) : List Char :=
  let original := Lines.universalNewlines false text
  if scrub original = original then text else scrub original

/-! ## The migration -/

/-- What the migration finds on a host; `none` for a file that is not there. -/
structure Host where
  db : Option RouterDb
  config : Option (List Char)
  claimToken : Option (List Char)

/-- What `migrate` raises. -/
inductive MigrationError where
  | toml
  | db (e : DomainError)
  deriving DecidableEq, Repr

variable (scalar : List Char → Option Toml.Value) (depth : Nat)

/-- `migrate` -/
def migrate (host : Host) : Except MigrationError Host :=
  match host.db, host.config with
  | some db, some text =>
    match loads scalar depth text with
    | none => .error .toml
    | some config =>
      match config.getD "openhost" (.table []) with
      | .table openhost =>
        match seedDomains textOf lower openhost db.tables with
        | .error e => .error (.db e)
        | .ok tables =>
          .ok { host with
            db := some (seedClaimToken host.claimToken { db with tables := tables })
            config := some (scrubCapturedConfig text) }
      | _ => .ok host
  | _, _ => .ok host

/-! ## The rows -/

section Rows

variable {textOf lower}

/-- The record of an entry, where it has a name. -/
def record? (textOf : Toml.Value → String) (lower : String → String) :
    Toml.Value → Option DomainRecord
  | .table entry =>
    if nameIn textOf lower entry "name" = "" then none
    else
      some
        { name := nameIn textOf lower entry "name"
          tls := (Table.getD entry "tls" (.bool false)).truthy
          mdns := (Table.getD entry "mdns" (.bool false)).truthy }
  | _ => none

theorem addEntry_eq (acc : List String × List DomainRecord) (entry : Toml.Value) :
    addEntry textOf lower acc entry = ((record? textOf lower entry).map (addExtra acc)).getD acc := by
  cases entry with
  | table entry =>
    by_cases h : nameIn textOf lower entry "name" = ""
    · simp [addEntry, record?, h]
    · simp [addEntry, record?, addExtra, h]
  | _ => rfl

theorem foldl_addEntry (entries : List Toml.Value) (acc : List String × List DomainRecord) :
    entries.foldl (addEntry textOf lower) acc =
      (entries.filterMap (record? textOf lower)).foldl addExtra acc := by
  induction entries generalizing acc with
  | nil => rfl
  | cons entry entries ih =>
    rw [List.foldl_cons, ih, addEntry_eq]
    cases hrecord : record? textOf lower entry with
    | none => rw [List.filterMap_cons_none hrecord]; rfl
    | some r => rw [List.filterMap_cons_some hrecord]; rfl

/-- The rows are those that the router itself inserts when it seeds the table. -/
theorem capturedRows_eq_seedRows (openhost : Table) :
    capturedRows textOf lower openhost =
      seedRows ⟨zoneDomain textOf lower openhost,
        (openhost.getD "tls_enabled" (.bool false)).truthy, false⟩
        ((extras openhost).filterMap (record? textOf lower)) := by
  rw [capturedRows, foldl_addEntry]
  rfl

theorem countP_foldl_addExtra (extras : List DomainRecord) (acc : List String × List DomainRecord) :
    (extras.foldl addExtra acc).2.countP (·.isPrimary) = acc.2.countP (·.isPrimary) := by
  induction extras generalizing acc with
  | nil => rfl
  | cons rec extras ih =>
    rw [List.foldl_cons, ih, addExtra]
    split
    · rfl
    · simp

theorem constraints_seedRows (primary : Domain) (extras : List DomainRecord) :
    Domains.Constraints (seedRows primary extras) := by
  constructor
  · -- two rows of one name have one host
    have hhosts := (Domains.seeding_seedRows primary extras).1
    have hmap : ((seedRows primary extras).map DomainRecord.name).map (before ':') =
        (seedRows primary extras).map fun r => before ':' r.name := by simp
    exact List.Nodup.of_map _ (hmap ▸ hhosts)
  · rw [seedRows, countP_foldl_addExtra]
    rfl

theorem insertAll_eq (rows : List DomainRecord) (t : Tables)
    (h : Domains.Constraints (t.domains ++ rows)) :
    insertAll rows t = .ok ⟨t.domains ++ rows, t.apps, h⟩ := by
  induction rows generalizing t with
  | nil =>
    cases t
    simp [insertAll, pure, Except.pure]
  | cons r rows ih =>
    have hrow : Domains.Constraints (t.domains ++ [r]) := by
      rw [List.append_cons] at h
      constructor
      · have hnames := h.names
        rw [List.map_append] at hnames
        exact hnames.of_append_left
      · have hprimary := h.primary
        rw [List.countP_append] at hprimary
        omega
    have hinsert : (t.insert r).map Prod.fst = .ok ⟨t.domains ++ [r], t.apps, hrow⟩ := by
      rw [Tables.insert, Tables.write, dif_pos hrow]
      rfl
    have hrest := ih ⟨t.domains ++ [r], t.apps, hrow⟩ (by simpa using h)
    rw [insertAll, List.foldlM_cons, hinsert]
    refine hrest.trans ?_
    simp

variable (textOf lower) in
/-- No row is refused. -/
theorem seedDomains_eq (openhost : Table) (t : Tables) :
    ∃ t', seedDomains textOf lower openhost t = .ok t' ∧ t'.apps = t.apps ∧
      t'.domains = if t.domains ≠ [] ∨ zoneDomain textOf lower openhost = "" then t.domains
        else capturedRows textOf lower openhost := by
  rw [seedDomains]
  by_cases ht : t.domains ≠ []
  · exact ⟨t, if_pos ht, rfl, (if_pos (.inl ht)).symm⟩
  · rw [if_neg ht]
    by_cases hzone : zoneDomain textOf lower openhost = ""
    · exact ⟨t, if_pos hzone, rfl, (if_pos (.inr hzone)).symm⟩
    · have hempty : t.domains = [] := not_not.mp ht
      have hrows : Domains.Constraints (t.domains ++ capturedRows textOf lower openhost) := by
        rw [hempty, List.nil_append, capturedRows_eq_seedRows]
        exact constraints_seedRows _ _
      rw [if_neg hzone, insertAll_eq _ t hrows, if_neg (not_or.mpr ⟨ht, hzone⟩)]
      refine ⟨_, rfl, rfl, ?_⟩
      show t.domains ++ capturedRows textOf lower openhost = _
      rw [hempty, List.nil_append]

end Rows

/-! ## The lines that are taken out -/

theorem flatten_lines (s : List Char) : (lines s).flatten = s := by
  induction s with
  | nil => rfl
  | cons c s ih =>
    rw [lines]
    split
    · next hc => rw [List.flatten_cons, ih, hc]; rfl
    · split
      · next h => rw [h] at ih; rw [← ih]; rfl
      · next line rest h =>
        rw [h] at ih
        rw [← ih]
        rfl

theorem lines_append_newline (c r : List Char) :
    lines (c ++ '\n' :: r) = lines (c ++ ['\n']) ++ lines r := by
  induction c with
  | nil => rfl
  | cons x c ih =>
    rw [List.cons_append, List.cons_append, lines, lines, ih]
    split
    · rfl
    · cases h : lines (c ++ ['\n']) with
      | nil =>
        have hflat := flatten_lines (c ++ ['\n'])
        rw [h] at hflat
        simp at hflat
      | cons line rest => rfl

theorem scrub_append_newline (c r : List Char) :
    scrub (c ++ '\n' :: r) = scrub (c ++ ['\n']) ++ scrub r := by
  rw [scrub, lines_append_newline, List.filter_append, List.flatten_append]
  rfl

/-- The reader of TOML and `read_text` see the same line ends. -/
theorem universalNewlines_eq (s : List Char) (h : '\r' ∉ replaceReturns s) :
    Lines.universalNewlines false s = replaceReturns s := by
  fun_induction replaceReturns s with
  | case1 s ih =>
    rw [Lines.universalNewlines, if_pos rfl, Lines.universalNewlines, if_neg (by decide),
      if_pos ⟨rfl, rfl⟩, ih fun hin => h (List.mem_cons_of_mem _ hin)]
  | case2 c s hne ih =>
    have hc : c ≠ '\r' := fun hc => h (hc ▸ List.mem_cons_self)
    rw [Lines.universalNewlines, if_neg hc, if_neg (by simp),
      ih fun hin => h (List.mem_cons_of_mem _ hin)]
  | case3 => rfl

/-- What holds of a text without line breaks, and of a line before a text of which it holds. -/
theorem lines_induction {P : List Char → Prop} (hlast : ∀ c, '\n' ∉ c → P c)
    (hline : ∀ c r, '\n' ∉ c → P r → P (c ++ '\n' :: r)) (s : List Char) : P s := by
  -- `c` is what has been read of the line
  suffices h : ∀ c, '\n' ∉ c → P (c ++ s) from h [] (by simp)
  induction s with
  | nil => exact fun c hc => by simpa using hlast c hc
  | cons x s ih =>
    intro c hc
    by_cases hx : x = '\n'
    · rw [hx]
      exact hline c s hc (ih [] (by simp))
    · rw [List.append_cons]
      exact ih (c ++ [x]) (by simp [hc, Ne.symm hx])

theorem lines_of_not_mem {c : List Char} (hc : '\n' ∉ c) : lines c = if c = [] then [] else [c] := by
  induction c with
  | nil => rfl
  | cons x c ih =>
    obtain ⟨hx, hc⟩ := not_or.mp (List.mem_cons.not.mp hc)
    rw [lines, if_neg (Ne.symm hx), ih hc]
    split
    · next h =>
      split at h
      · next hnil => simp [hnil]
      · cases h
    · next line rest h =>
      split at h
      · cases h
      · obtain ⟨rfl, rfl⟩ := List.cons.inj h
        simp

theorem lines_newline {c : List Char} (hc : '\n' ∉ c) : lines (c ++ ['\n']) = [c ++ ['\n']] := by
  induction c with
  | nil => rfl
  | cons x c ih =>
    obtain ⟨hx, hc⟩ := not_or.mp (List.mem_cons.not.mp hc)
    rw [List.cons_append, lines, if_neg (Ne.symm hx), ih hc]

/-- A line is left as it is or taken out. -/
theorem scrub_line {c : List Char} (hc : '\n' ∉ c) :
    scrub (c ++ ['\n']) = if isCaptured (c ++ ['\n']) then [] else c ++ ['\n'] := by
  rw [scrub, lines_newline hc]
  cases h : isCaptured (c ++ ['\n']) <;> simp [h]

theorem scrub_last {c : List Char} (hc : '\n' ∉ c) :
    scrub c = if isCaptured c then [] else c := by
  rw [scrub, lines_of_not_mem hc]
  by_cases hnil : c = []
  · simp [hnil]
  · cases h : isCaptured c <;> simp [hnil, h]

theorem scrub_scrub (s : List Char) : scrub (scrub s) = scrub s := by
  induction s using lines_induction with
  | hlast c hc =>
    rw [scrub_last hc]
    split
    · rfl
    · next h => rw [scrub_last hc, if_neg h]
  | hline c r hc ih =>
    rw [scrub_append_newline, scrub_line hc]
    split
    · exact ih
    · next h => rw [List.append_assoc, List.singleton_append, scrub_append_newline, scrub_line hc,
        if_neg h, ih, List.append_assoc, List.singleton_append]

theorem not_mem_scrub {s : List Char} {c : Char} (h : c ∉ s) : c ∉ scrub s := by
  intro hc
  obtain ⟨line, hline, hin⟩ := List.mem_flatten.mp hc
  rw [← flatten_lines s] at h
  exact h (List.mem_flatten.mpr ⟨line, (List.mem_filter.mp hline).1, hin⟩)

/-! ## Statements that are taken out whole -/

/-- The statement gives a captured key of `[openhost]` its value. -/
def isCapture (header : Header) : Option Statement → Bool
  | some (.keyValue key _) =>
    header = .table ⟨[], "openhost"⟩ && key.parents = [] && key.stem ∈ capturedKeys
  | _ => false

/-- The header after what stands on a line. -/
def headerAfter (header : Header) : Option Statement → Header
  | some s => header.after s
  | none => header

/-- Each statement is left as it is, or it gives a captured key its value and is taken out whole. -/
def cleanCut : Header → List (List Char × Option Statement) → Bool
  | _, [] => true
  | header, (text, statement) :: rest =>
    (scrub text = text || (isCapture header statement && scrub text = [])) &&
      cleanCut (headerAfter header statement) rest

/-- A statement that is left as it is. -/
def isLeft (chunk : List Char × Option Statement) : Bool := scrub chunk.1 = chunk.1

section CleanCut

variable {scalar depth} {s : List Char} {chunks : List (List Char × Option Statement)}
  {header : Header}

theorem scrub_eq_flatMap (hs : Chunks scalar depth s chunks) (h : cleanCut header chunks = true) :
    scrub s = (chunks.filter isLeft).flatMap Prod.fst := by
  induction hs generalizing header with
  | @last c st hc hst =>
    simp only [cleanCut, Bool.and_true, Bool.or_eq_true, Bool.and_eq_true, decide_eq_true_eq] at h
    by_cases hleft : scrub c = c
    · simp [isLeft, hleft]
    · have hout := h.resolve_left hleft
      simp [isLeft, hout.2]
  | @cons c r st rest hc hst hrest ih =>
    simp only [cleanCut, Bool.or_eq_true, Bool.and_eq_true, decide_eq_true_eq] at h
    obtain ⟨hhere, hthere⟩ := h
    rw [scrub_append_newline, ih hthere]
    by_cases hleft : scrub (c ++ ['\n']) = c ++ ['\n']
    · simp [isLeft, hleft]
    · have hout := hhere.resolve_left hleft
      simp [isLeft, hout.2]

theorem dropped_of_cleanCut (h : cleanCut header chunks = true) :
    Toml.Output.Dropped "openhost" capturedKeys header (chunks.filterMap Prod.snd)
      ((chunks.filter isLeft).filterMap Prod.snd) := by
  induction chunks generalizing header with
  | nil => exact .nil
  | cons chunk rest ih =>
    obtain ⟨text, statement⟩ := chunk
    simp only [cleanCut, Bool.or_eq_true, Bool.and_eq_true, decide_eq_true_eq] at h
    obtain ⟨hhere, hrest⟩ := h
    by_cases hleft : scrub text = text
    · rw [List.filter_cons_of_pos (by simpa [isLeft] using hleft)]
      cases statement with
      | none => exact ih hrest
      | some st => exact .keep (ih hrest)
    · rw [List.filter_cons_of_neg (by simpa [isLeft] using hleft)]
      obtain ⟨hcapture, -⟩ := hhere.resolve_left hleft
      match statement with
      | some (.keyValue ⟨parents, stem⟩ v) =>
        simp only [isCapture, Bool.and_eq_true, decide_eq_true_eq] at hcapture
        obtain ⟨⟨rfl, rfl⟩, hstem⟩ := hcapture
        exact .drop hstem (ih hrest)

end CleanCut

/-! ## What the migration leaves -/

section Migration

variable {textOf lower scalar depth} {host host' : Host} {s : List Char} {db : RouterDb}
  {config openhost : Table}

/-- The text of the configuration can be cut statement by statement. -/
def CutsClean (scalar : List Char → Option Toml.Value) (depth : Nat) (s : List Char) : Prop :=
  ∀ chunks, statementsOf scalar depth s = some chunks → cleanCut .root chunks = true

/-- The text that remains says the same but for the captured keys. -/
theorem loads_scrub (hclean : CutsClean scalar depth s) (h : loads scalar depth s = some config)
    (hopenhost : config.getD "openhost" (.table []) = .table openhost) :
    ∃ config', loads scalar depth (scrub (Lines.universalNewlines false s)) = some config' ∧
      Toml.SameBut "openhost" capturedKeys config config' := by
  obtain ⟨chunks, hs, -⟩ := Option.bind_eq_some_iff.mp h
  have hchunks := Toml.chunks_of_statementsOf hs
  have hcut := hclean chunks hs
  have htable : ∀ v, config.lookup "openhost" = some v → ∃ t, v = .table t := by
    intro v hv
    rw [Table.getD, Table.get?, hv] at hopenhost
    exact ⟨openhost, hopenhost⟩
  obtain ⟨ks, hks, hloads⟩ := Toml.loads_dropped isLeft hs h htable (dropped_of_cleanCut hcut)
  refine ⟨_, ?_, Toml.sameBut_foldr hks hopenhost⟩
  rw [universalNewlines_eq s hchunks.not_mem, scrub_eq_flatMap hchunks hcut]
  exact hloads

theorem loads_scrubCapturedConfig (hclean : CutsClean scalar depth s)
    (h : loads scalar depth s = some config)
    (hopenhost : config.getD "openhost" (.table []) = .table openhost) :
    ∃ config', loads scalar depth (scrubCapturedConfig s) = some config' ∧
      Toml.SameBut "openhost" capturedKeys config config' := by
  rw [scrubCapturedConfig]
  split
  · exact ⟨config, h, Toml.sameBut_foldr (List.forall_mem_nil _) hopenhost⟩
  · exact loads_scrub hclean h hopenhost

theorem not_mem_universalNewlines (b : Bool) (s : List Char) :
    '\r' ∉ Lines.universalNewlines b s := by
  induction s generalizing b with
  | nil => simp [Lines.universalNewlines]
  | cons c s ih =>
    rw [Lines.universalNewlines]
    split
    · simp [ih]
    · next hc =>
      split
      · exact ih false
      · simp [ih, Ne.symm hc]

theorem scrubCapturedConfig_twice (s : List Char) :
    scrubCapturedConfig (scrubCapturedConfig s) = scrubCapturedConfig s := by
  by_cases h : scrub (Lines.universalNewlines false s) = Lines.universalNewlines false s
  · simp only [scrubCapturedConfig, if_pos h]
  · have hclean := not_mem_scrub (not_mem_universalNewlines false s)
    have hfirst : scrubCapturedConfig s = scrub (Lines.universalNewlines false s) := if_neg h
    rw [hfirst, scrubCapturedConfig]
    simp only [Lines.universalNewlines_of_not_mem hclean, scrub_scrub, if_true]

/-- What the migration does where it does not return at once. -/
theorem migrate_ok (h : migrate textOf lower scalar depth host = .ok host') :
    host' = host ∨ ∃ db s config openhost tables,
      host.db = some db ∧ host.config = some s ∧ loads scalar depth s = some config ∧
      config.getD "openhost" (.table []) = .table openhost ∧
      seedDomains textOf lower openhost db.tables = .ok tables ∧
      host' = { host with
        db := some (seedClaimToken host.claimToken { db with tables := tables })
        config := some (scrubCapturedConfig s) } := by
  rw [migrate] at h
  split at h
  · next db s hdb hs =>
    split at h
    · cases h
    · next config hconfig =>
      split at h
      · next openhost hopenhost =>
        split at h
        · cases h
        · next tables htables =>
          exact .inr ⟨db, s, config, openhost, tables, hdb, hs, hconfig, hopenhost, htables,
            (Except.ok.inj h).symm⟩
      · exact .inl (Except.ok.inj h).symm
  · exact .inl (Except.ok.inj h).symm

theorem seedClaimToken_tables (file : Option (List Char)) (db : RouterDb) :
    (seedClaimToken file db).tables = db.tables := by
  unfold seedClaimToken
  split
  · rfl
  · split
    · rfl
    · split
      · rfl
      · split <;> rfl

theorem withTables {db : RouterDb} {tables : Tables} (h : db.tables = tables) :
    ({ db with tables := tables } : RouterDb) = db := by
  cases h
  rfl

theorem seedClaimToken_twice (file : Option (List Char)) (db : RouterDb) :
    seedClaimToken file (seedClaimToken file db) = seedClaimToken file db := by
  by_cases howner : ownerExists db = true
  · simp [seedClaimToken, howner]
  · by_cases hset : (db.settings.lookup claimTokenKey).isSome = true
    · simp [seedClaimToken, howner, hset]
    · cases file with
      | none => simp [seedClaimToken, howner, hset]
      | some text =>
        by_cases htoken : tokenIn text = ""
        · simp [seedClaimToken, howner, hset, htoken]
        · have hfirst : seedClaimToken (some text) db =
              { db with settings := db.settings ++ [(claimTokenKey, some (tokenIn text))] } := by
            simp [seedClaimToken, howner, hset, htoken]
          have hthere : ((db.settings ++ [(claimTokenKey, some (tokenIn text))]).lookup
              claimTokenKey).isSome = true := by
            simp [List.lookup_append]
          rw [hfirst]
          unfold seedClaimToken
          rw [if_pos hthere, ite_self]

/-- The domain of the configuration is in the table, unless the table had been seeded before. -/
def HasZone (openhost : Table) (textOf : Toml.Value → String) (lower : String → String)
    (db db' : RouterDb) : Prop :=
  db'.tables.domains ≠ [] ∧
    (db.tables.domains ≠ [] ∨
      ∃ r ∈ db'.tables.domains, r.isPrimary = true ∧ r.name = zoneDomain textOf lower openhost)

theorem hasZone_iff {db db' : RouterDb} {tables : Tables}
    (h : seedDomains textOf lower openhost db.tables = .ok tables) (hdb' : db'.tables = tables) :
    HasZone openhost textOf lower db db' ↔
      db.tables.domains ≠ [] ∨ zoneDomain textOf lower openhost ≠ "" := by
  obtain ⟨tables', htables, -, hdomains⟩ := seedDomains_eq textOf lower
    openhost db.tables
  obtain rfl : tables = tables' := Except.ok.inj (h.symm.trans htables)
  rw [HasZone, hdb', hdomains]
  by_cases hseeded : db.tables.domains ≠ []
  · simp [hseeded]
  · by_cases hzone : zoneDomain textOf lower openhost = ""
    · simp [hzone, not_not.mp hseeded]
    · have hrow : (⟨zoneDomain textOf lower openhost,
          (openhost.getD "tls_enabled" (.bool false)).truthy, false, .none, none, true⟩ :
            DomainRecord) ∈ capturedRows textOf lower openhost := by
        rw [capturedRows_eq_seedRows]
        exact Domains.mem_foldl_addExtra List.mem_cons_self
      have hne : capturedRows textOf lower openhost ≠ [] := List.ne_nil_of_mem hrow
      rw [if_neg (not_or.mpr ⟨hseeded, hzone⟩)]
      exact iff_of_true ⟨hne, .inr ⟨_, hrow, rfl, rfl⟩⟩ (.inr hzone)

/-- When the migration changes the text, what remains of it is still read, and says the same but for
the captured keys.  The domain is then in the database, if there was a domain or the table had been
seeded. -/
theorem scrubbed_of_migrate (hconfig : host.config = some s) (hclean : CutsClean scalar depth s)
    (h : migrate textOf lower scalar depth host = .ok host') (hchanged : host'.config ≠ some s) :
    ∃ db db' config config' openhost s', host.db = some db ∧ host'.db = some db' ∧
      loads scalar depth s = some config ∧ config.getD "openhost" (.table []) = .table openhost ∧
      host'.config = some s' ∧ loads scalar depth s' = some config' ∧
      Toml.SameBut "openhost" capturedKeys config config' ∧
      (HasZone openhost textOf lower db db' ↔
        db.tables.domains ≠ [] ∨ zoneDomain textOf lower openhost ≠ "") := by
  obtain rfl | ⟨db, s₁, config, openhost, tables, hdb, hs, hloads, hopenhost, htables, rfl⟩ :=
    migrate_ok h
  · exact absurd hconfig hchanged
  · obtain rfl : s = s₁ := Option.some.inj (hconfig.symm.trans hs)
    obtain ⟨config', hloads', hsame⟩ := loads_scrubCapturedConfig hclean hloads hopenhost
    exact ⟨db, _, config, config', openhost, _, hdb, rfl, hloads, hopenhost, rfl, hloads', hsame,
      hasZone_iff htables (seedClaimToken_tables _ _)⟩

/-- A configuration with both captured keys and a second domain. -/
def exampleConfig : List Char :=
  ("[openhost]\nzone_domain = \"Host.Example.com\"\nhost = \"127.0.0.1\"\nport = 8080\n" ++
    "tls_enabled = true\n# a hand-added secondary public domain\n[[openhost.domains]]\n" ++
    "name = \"secondary.example.com\"\ntls = true\n").toList

/-- No domains. -/
theorem constraints_nil : Domains.Constraints [] where
  names := List.nodup_nil
  primary := Nat.zero_le 1

/-- A host with that configuration, on which the table is still empty. -/
def exampleHost : Host where
  db := some ⟨⟨[], [], constraints_nil⟩, some 0, []⟩
  config := some exampleConfig
  claimToken := some "old-claim-tok:extra".toList

/-- The one number of the example. -/
def examplePort (text : List Char) : Option Toml.Value :=
  if text = "8080".toList then some (.int 8080) else none

/-- The migration of the example. -/
def exampleMigration : Except MigrationError Host :=
  migrate (fun _ => "") Text.lower examplePort 4 exampleHost

theorem exists_exampleMigration : ∃ host', exampleMigration = .ok host' ∧
    host'.config ≠ some exampleConfig := by
  have hchanged : exampleMigration.toOption.any (fun host' => host'.config ≠ some exampleConfig) =
      true := by decide +kernel
  cases h : exampleMigration with
  | error e =>
    rw [h] at hchanged
    cases hchanged
  | ok host' =>
    rw [h] at hchanged
    exact ⟨host', rfl, of_decide_eq_true hchanged⟩

theorem cutsClean_exampleConfig : CutsClean examplePort 4 exampleConfig := by
  have h : (statementsOf examplePort 4 exampleConfig).all (cleanCut .root) = true := by
    decide +kernel
  intro chunks hchunks
  rw [hchunks] at h
  exact h

theorem scrubbed_exampleHost :
    ∃ host' db db' config config' openhost s', exampleMigration = .ok host' ∧
      exampleHost.db = some db ∧ host'.db = some db' ∧
      loads examplePort 4 exampleConfig = some config ∧
      config.getD "openhost" (.table []) = .table openhost ∧
      host'.config = some s' ∧ loads examplePort 4 s' = some config' ∧
      Toml.SameBut "openhost" capturedKeys config config' ∧
      (HasZone openhost (fun _ => "") Text.lower db db' ↔
        db.tables.domains ≠ [] ∨ zoneDomain (fun _ => "") Text.lower openhost ≠ "") := by
  obtain ⟨host', hmigrate, hchanged⟩ := exists_exampleMigration
  obtain ⟨db, db', config, config', openhost, s', h⟩ :=
    scrubbed_of_migrate rfl cutsClean_exampleConfig hmigrate hchanged
  exact ⟨host', db, db', config, config', openhost, s', hmigrate, h⟩

/-- A second run of the migration changes nothing. -/
theorem migrate_twice (hlower : lower "" = "")
    (hclean : ∀ s, host.config = some s → CutsClean scalar depth s)
    (h : migrate textOf lower scalar depth host = .ok host') :
    migrate textOf lower scalar depth host' = .ok host' := by
  obtain rfl | ⟨db, s, config, openhost, tables, hdb, hs, hloads, hopenhost, htables, rfl⟩ :=
    migrate_ok h
  · exact h
  · obtain ⟨config', hloads', hsame⟩ := loads_scrubCapturedConfig (hclean s hs) hloads hopenhost
    obtain ⟨-, openhost₀, openhost', hopenhost₀, hopenhost', hkeys⟩ := hsame
    obtain rfl : openhost = openhost₀ := by
      rw [hopenhost] at hopenhost₀
      exact Toml.Value.table.inj hopenhost₀
    have hzone : zoneDomain textOf lower openhost' = zoneDomain textOf lower openhost ∨
        zoneDomain textOf lower openhost' = "" := by
      simp only [zoneDomain, nameIn, Table.getD, Table.get?]
      obtain hkey | ⟨-, hkey⟩ := hkeys "zone_domain"
      · rw [hkey]
        exact .inl rfl
      · rw [hkey]
        exact .inr hlower
    have hseeded : seedDomains textOf lower openhost' tables = .ok tables := by
      obtain ⟨tables', htables', -, hdomains⟩ := seedDomains_eq textOf lower
        openhost db.tables
      obtain rfl : tables = tables' := Except.ok.inj (htables.symm.trans htables')
      rw [seedDomains]
      split
      · rfl
      · next hempty =>
        -- nothing was inserted, so there was no domain
        rw [if_pos]
        obtain hzone | hzone := hzone
        · rw [hzone]
          by_contra hne
          rw [not_not] at hempty
          rw [hempty] at hdomains
          split at hdomains
          · next hor => exact hor.elim (fun hd => hd hdomains.symm) hne
          · rw [capturedRows_eq_seedRows] at hdomains
            obtain ⟨p, hp, -⟩ := Domains.exists_primary_mem_seedRows
              ⟨zoneDomain textOf lower openhost,
                (Table.getD openhost "tls_enabled" (.bool false)).truthy, false⟩
              ((extras openhost).filterMap (record? textOf lower))
            rw [← hdomains] at hp
            cases hp
        · exact hzone
    simp only [migrate, hloads', hopenhost', seedClaimToken_tables, hseeded,
      scrubCapturedConfig_twice]
    have htables' : (seedClaimToken host.claimToken { db with tables := tables }).tables = tables :=
      seedClaimToken_tables _ _
    rw [withTables htables', seedClaimToken_twice]

theorem migrate_twice_exampleHost : ∃ host', exampleMigration = .ok host' ∧
    migrate (fun _ => "") Text.lower examplePort 4 host' = .ok host' := by
  obtain ⟨host', hmigrate, -⟩ := exists_exampleMigration
  refine ⟨host', hmigrate, migrate_twice (by decide) (fun s hs => ?_) hmigrate⟩
  obtain rfl : exampleConfig = s := Option.some.inj hs
  exact cutsClean_exampleConfig

end Migration

end OpenHost.SeedDomains
