import OpenHost.Install.Reload

/-!
# How far a failed synchronisation has come

The synchronisation of a reload writes the columns, deletes the mappings that are gone, writes the
others, registers the services and commits.  Where it raises, the connection sees what was written
until then.
-/

namespace OpenHost.Install

/-! ## What is to be as before -/

/-- The rows of the app that come from its manifest are the same. -/
structure Restored (appId : String) (t t' : Rows) : Prop where
  columns : (t'.findApp appId).map AppRow.columns = (t.findApp appId).map AppRow.columns
  portMappings : ∀ m : PortMappingRow, m.appId = appId →
    (m ∈ t'.portMappings ↔ m ∈ t.portMappings)
  providers : ∀ p : ProviderRow, p.appId = appId → (p ∈ t'.providers ↔ p ∈ t.providers)

namespace Restored

variable {appId : String} {t t' u : Rows}

theorem refl (appId : String) (t : Rows) : Restored appId t t :=
  ⟨rfl, fun _ _ => Iff.rfl, fun _ _ => Iff.rfl⟩

theorem symm (h : Restored appId t t') : Restored appId t' t :=
  ⟨h.columns.symm, fun m hm => (h.portMappings m hm).symm, fun p hp => (h.providers p hp).symm⟩

theorem trans (h : Restored appId t t') (h' : Restored appId t' u) : Restored appId t u :=
  ⟨h'.columns.trans h.columns, fun m hm => (h'.portMappings m hm).trans (h.portMappings m hm),
    fun p hp => (h'.providers p hp).trans (h.providers p hp)⟩

/-- A row that differs in other columns only. -/
theorem of_setApp {f : AppRow → AppRow} (hf : Rows.KeepsKeys f)
    (hcolumns : ∀ a, (f a).columns = a.columns) : Restored appId t (t.setApp appId f) where
  columns := by
    rw [Rows.findApp_setApp hf.appId, Option.map_map]
    congr 1
    funext a
    exact hcolumns a
  portMappings _ _ := Iff.rfl
  providers _ _ := Iff.rfl

end Restored

/-! ## What was there already -/

section

variable (range : PortRange) (env : ReloadEnv) (appId : String) (manifest : AppManifest) (t : Rows)

/-- The columns of the app are those of the manifest. -/
def ColumnsSame : Prop :=
  (t.findApp appId).map AppRow.columns = some (manifestColumnValues manifest)

instance : Decidable (ColumnsSame appId manifest t) :=
  inferInstanceAs (Decidable ((t.findApp appId).map AppRow.columns = _))

/-- The labels to be deleted, in the order in which they are. -/
def goneLabels : List String :=
  env.order (removedLabels (t.mappingsOf appId) manifest.portMappings)

/-- What the mappings of the manifest are resolved to. -/
def newMappings : Except PyError (List PortMapping) :=
  resolvePortMappings (manifest.portMappings.map (preserve (t.mappingsOf appId))) t range
    (some appId) fun _ => env.host

/-- Each of these mappings is a row of the app. -/
def MappingsThere (written : List PortMapping) : Prop :=
  ∀ pm ∈ written, mappingRow appId pm ∈ t.portMappings

/-- The declared services are the providers of the app. -/
def ProvidersSame : Prop :=
  ∀ p : ProviderRow, p.appId = appId →
    (p ∈ declaredProviders appId manifest.providesServicesV2 ↔ p ∈ t.providers)

/-- All that the synchronisation writes before it gets to `site` was there already. -/
def Unwritten : Site → Prop
  | .stmt .readMappings => ColumnsSame appId manifest t
  | .stmt (.deletePortMapping label) =>
      ColumnsSame appId manifest t ∧ (goneLabels env appId manifest t).head? = some label
  | .stmt .readPorts | .call .resolvePorts =>
      ColumnsSame appId manifest t ∧ goneLabels env appId manifest t = []
  | .stmt (.writePortMapping label) =>
      ColumnsSame appId manifest t ∧ goneLabels env appId manifest t = [] ∧
        ∀ resolved, newMappings range env appId manifest t = .ok resolved →
          MappingsThere appId t (resolved.takeWhile (·.label ≠ label))
  | .stmt .syncServices =>
      ColumnsSame appId manifest t ∧ goneLabels env appId manifest t = [] ∧
        ∀ resolved, newMappings range env appId manifest t = .ok resolved →
          MappingsThere appId t resolved
  | .stmt .commitSync =>
      ColumnsSame appId manifest t ∧ goneLabels env appId manifest t = [] ∧
        (∀ resolved, newMappings range env appId manifest t = .ok resolved →
          MappingsThere appId t resolved) ∧ ProvidersSame appId manifest t
  -- nothing is written before the UPDATE of the columns
  | _ => True

end

/-! ## What the statements write -/

/-- The mappings of the app with these labels are gone. -/
def Rows.dropLabels (r : Rows) (appId : String) (labels : List String) : Rows :=
  { r with portMappings := r.portMappings.filter fun m => ¬ (m.appId = appId ∧ m.label ∈ labels) }

/-- The rows `u` with these mappings written. -/
structure Written (appId : String) (u : Rows) (pms : List PortMapping) (w : Rows) : Prop where
  apps : w.apps = u.apps
  providers : w.providers = u.providers
  mappings : ∀ m : PortMappingRow, m.appId = appId →
    (m ∈ w.portMappings ↔ (∃ pm ∈ pms, m = mappingRow appId pm) ∨
      (m ∈ u.portMappings ∧ m.label ∉ pms.map PortMapping.label))

theorem Written.nil (appId : String) (u : Rows) : Written appId u [] u :=
  ⟨rfl, rfl, fun m _ => by simp⟩

/-- One mapping is written; the others of the app stay. -/
theorem writeMapping_ok {appId : String} {existing : List PortMappingRow} {pm : PortMapping}
    {t t' : Tables} (h : writeMapping appId existing pm t = .ok t')
    (hthere : existing.any (·.label = pm.label) = true →
      ∃ m ∈ t.portMappings, m.appId = appId ∧ m.label = pm.label) :
    t'.apps = t.apps ∧ t'.providers = t.providers ∧
      mappingRow appId pm ∈ t'.portMappings ∧
      ∀ m : PortMappingRow, m.label ≠ pm.label →
        (m ∈ t'.portMappings ↔ m ∈ t.portMappings) := by
  unfold writeMapping at h
  split at h
  · rename_i hexisting
    rw [Tables.write_ok h]
    refine ⟨rfl, rfl, ?_, fun m hm => ?_⟩
    · obtain ⟨m, hmem, happ, hlabel⟩ := hthere hexisting
      exact List.mem_map.mpr ⟨m, hmem, if_pos ⟨happ, hlabel⟩⟩
    · constructor
      · intro hmem
        obtain ⟨m', hm', rfl⟩ := List.mem_map.mp hmem
        split at hm
        · exact absurd rfl hm
        · rename_i hkey
          rw [if_neg hkey]
          exact hm'
      · intro hmem
        exact List.mem_map.mpr ⟨m, hmem, if_neg fun hkey => hm hkey.2⟩
  · rw [Tables.write_ok h]
    refine ⟨rfl, rfl, by simp, fun m hm => ?_⟩
    rw [List.mem_append, List.mem_singleton, or_iff_left]
    rintro rfl
    exact hm rfl

section

variable {env : ReloadEnv} {appId : String} {c c' : Conn Tables} {u : Unit}

/-- The loop that deletes. -/
theorem deletes_ok {labels : List String}
    (h : Proc.forEach labels (fun label =>
      env.execute (.deletePortMapping label) (Tables.deletePortMapping appId label)) c =
        (.ok u, c')) :
    c'.committed = c.committed ∧ c'.seen.toRows = c.seen.toRows.dropLabels appId labels := by
  refine Proc.forEach_ok_inv (fun pre c' => c'.committed = c.committed ∧
    c'.seen.toRows = c.seen.toRows.dropLabels appId pre) ?_ ?_ h
  · refine ⟨rfl, ?_⟩
    simp [Rows.dropLabels]
  · rintro pre label c₁ c₂ - ⟨hcommitted, hseen⟩ hdelete
    obtain ⟨t, ht, rfl⟩ := Env.execute_ok hdelete
    refine ⟨hcommitted, ?_⟩
    rw [Conn.seen_mk_some, Tables.write_ok ht, hseen]
    simp only [Rows.dropLabels, List.filter_filter]
    congr 1
    apply List.filter_congr
    intro m _
    by_cases happ : m.appId = appId <;> by_cases hlabel : m.label = label <;>
      simp [happ, hlabel]

/-- The loop that writes. -/
theorem writes_ok {existing : List PortMappingRow} {pms : List PortMapping}
    (hnodup : (pms.map PortMapping.label).Nodup)
    (hthere : ∀ pm ∈ pms, existing.any (·.label = pm.label) = true →
      ∃ m ∈ c.seen.portMappings, m.appId = appId ∧ m.label = pm.label)
    (h : Proc.forEach pms (fun pm =>
      env.execute (.writePortMapping pm.label) (writeMapping appId existing pm)) c = (.ok u, c')) :
    c'.committed = c.committed ∧ Written appId c.seen.toRows pms c'.seen.toRows := by
  refine Proc.forEach_ok_inv (fun pre c' => c'.committed = c.committed ∧
    Written appId c.seen.toRows pre c'.seen.toRows) ⟨rfl, Written.nil appId _⟩ ?_ h
  rintro pre pm c₁ c₂ hpre ⟨hcommitted, hwritten⟩ hwrite
  obtain ⟨t, ht, rfl⟩ := Env.execute_ok hwrite
  -- the label is not among those that are done
  have hfresh : pm.label ∉ pre.map PortMapping.label := by
    have hbefore := hnodup.sublist (hpre.sublist.map PortMapping.label)
    rw [List.map_append, List.map_cons, List.map_nil] at hbefore
    intro hmem
    exact (List.nodup_append.mp hbefore).2.2 _ hmem _ (List.mem_singleton_self _) rfl
  have hpm : pm ∈ pms := hpre.subset (by simp)
  obtain ⟨happs, hproviders, hnew, hothers⟩ := writeMapping_ok ht fun hexisting => by
    obtain ⟨m, hm, happ, hlabel⟩ := hthere pm hpm hexisting
    exact ⟨m, (hwritten.mappings m happ).mpr (Or.inr ⟨hm, hlabel ▸ hfresh⟩), happ, hlabel⟩
  refine ⟨hcommitted, ?_⟩
  rw [Conn.seen_mk_some]
  refine ⟨happs.trans hwritten.apps, hproviders.trans hwritten.providers, fun m happ => ?_⟩
  by_cases hlabel : m.label = pm.label
  · constructor
    · intro hm
      have heq : m = mappingRow appId pm := Tables.eq_of_label hm hnew happ hlabel
      exact Or.inl ⟨pm, by simp, heq⟩
    · rintro (⟨pm', hpm', rfl⟩ | ⟨-, hnot⟩)
      · rcases List.mem_append.mp hpm' with hpm' | hpm'
        · exact absurd (hlabel ▸ List.mem_map_of_mem hpm' : pm.label ∈ _) hfresh
        · rw [List.mem_singleton.mp hpm']
          exact hnew
      · exact absurd (by simp [hlabel]) hnot
  · rw [hothers m hlabel, hwritten.mappings m happ]
    constructor
    · rintro (⟨pm', hpm', heq⟩ | ⟨hm, hnot⟩)
      · exact Or.inl ⟨pm', List.mem_append_left _ hpm', heq⟩
      · exact Or.inr ⟨hm, by simpa [hlabel] using hnot⟩
    · rintro (⟨pm', hpm', rfl⟩ | ⟨hm, hnot⟩)
      · rcases List.mem_append.mp hpm' with hpm' | hpm'
        · exact Or.inl ⟨pm', hpm', rfl⟩
        · rw [List.mem_singleton.mp hpm'] at hlabel
          exact absurd rfl hlabel
      · exact Or.inr ⟨hm, by
          rw [List.map_append, List.mem_append, not_or] at hnot
          exact hnot.1⟩

end

/-! ## What the connection sees when the synchronisation raises -/

namespace Rows

theorem dropLabels_nil (r : Rows) (appId : String) : r.dropLabels appId [] = r := by
  simp [dropLabels]

/-- Columns that are the same already. -/
theorem setColumns_eq_self {t : Tables} {appId : String} {columns : ManifestColumns}
    (h : (t.findApp appId).map AppRow.columns = some columns) :
    t.toRows.setApp appId (AppRow.setColumns columns) = t.toRows := by
  obtain ⟨row, hrow, rfl⟩ := Option.map_eq_some_iff.mp h
  have happs : (t.apps.map fun a => if a.appId = appId then a.setColumns row.columns else a) =
      t.apps := by
    nth_rewrite 2 [← List.map_id t.apps]
    apply List.map_congr_left
    intro a ha
    split
    · rename_i hid
      rw [Tables.eq_of_findApp hrow ha hid]
      rfl
    · rfl
  rw [setApp, happs]

end Rows

section

variable {range : PortRange} {env : ReloadEnv} {appId repoPath : String} {manifest : AppManifest}
  {t u w : Tables} {row : AppRow} {labels : List String} {pms : List PortMapping}

/-- What was written was there already exactly when the rows are as before. -/
theorem restored_written_iff (hrow : t.findApp appId = some row)
    (hu : u.toRows = (t.toRows.setApp appId
      (AppRow.setColumns (manifestColumnValues manifest))).dropLabels appId labels)
    (hlabels : ∀ label ∈ labels, ∃ m ∈ t.portMappings, m.appId = appId ∧ m.label = label)
    (hw : Written appId u.toRows pms w.toRows) (hdisjoint : ∀ pm ∈ pms, pm.label ∉ labels) :
    Restored appId t.toRows w.toRows ↔
      ColumnsSame appId manifest t.toRows ∧ labels = [] ∧ MappingsThere appId t.toRows pms := by
  have hcolumns : (w.findApp appId).map AppRow.columns = some (manifestColumnValues manifest) := by
    have hset : w.findApp appId = (t.toRows.setApp appId
        (AppRow.setColumns (manifestColumnValues manifest))).findApp appId := by
      rw [Rows.findApp, hw.apps, hu]
      rfl
    have hid : ∀ a : AppRow, (a.setColumns (manifestColumnValues manifest)).appId = a.appId :=
      fun _ => rfl
    rw [hset, Rows.findApp_setApp hid, hrow]
    rfl
  have hu_mem : ∀ m : PortMappingRow, m.appId = appId →
      (m ∈ u.portMappings ↔ m ∈ t.portMappings ∧ m.label ∉ labels) := by
    intro m happ
    rw [hu]
    simp [Rows.dropLabels, Rows.setApp, happ]
  constructor
  · intro h
    have hsame : ColumnsSame appId manifest t.toRows := by
      rw [ColumnsSame, ← h.columns, hcolumns]
    refine ⟨hsame, ?_, fun pm hpm => ?_⟩
    · -- a label that is gone has lost its row
      rw [List.eq_nil_iff_forall_not_mem]
      intro label hlabel
      obtain ⟨m, hm, happ, rfl⟩ := hlabels label hlabel
      rcases (hw.mappings m happ).mp ((h.portMappings m happ).mpr hm) with
        ⟨pm, hpm, rfl⟩ | ⟨hmem, -⟩
      · exact hdisjoint pm hpm hlabel
      · exact ((hu_mem m happ).mp hmem).2 hlabel
    · exact (h.portMappings _ rfl).mp ((hw.mappings _ rfl).mpr (Or.inl ⟨pm, hpm, rfl⟩))
  · rintro ⟨hsame, rfl, hthere⟩
    refine ⟨hcolumns.trans hsame.symm, fun m happ => ?_, fun p _ => ?_⟩
    · rw [hw.mappings m happ, hu_mem m happ]
      constructor
      · rintro (⟨pm, hpm, rfl⟩ | ⟨⟨hm, -⟩, -⟩)
        · exact hthere pm hpm
        · exact hm
      · intro hm
        by_cases hmem : m.label ∈ pms.map PortMapping.label
        · obtain ⟨pm, hpm, hlabel⟩ := List.mem_map.mp hmem
          exact Or.inl ⟨pm, hpm, Tables.eq_of_label hm (hthere pm hpm) happ hlabel.symm⟩
        · exact Or.inr ⟨⟨hm, by simp⟩, hmem⟩
    · rw [hw.providers, hu]
      rfl

/-- A label that is deleted is one of the app. -/
theorem mem_goneLabels {label : String} (h : label ∈ goneLabels env appId manifest t.toRows) :
    (∃ m ∈ t.portMappings, m.appId = appId ∧ m.label = label) ∧
      label ∉ manifest.portMappings.map PortMapping.label := by
  have hmem := (env.order_perm _).mem_iff.mp h
  obtain ⟨hold, hnew⟩ := List.mem_filter.mp hmem
  obtain ⟨m, hm, rfl⟩ := List.mem_map.mp hold
  obtain ⟨hm, happ⟩ := List.mem_filter.mp hm
  exact ⟨⟨m, hm, by simpa using happ, rfl⟩, by simpa using hnew⟩

theorem nodup_goneLabels (env : ReloadEnv) (appId : String) (manifest : AppManifest) (t : Tables) :
    (goneLabels env appId manifest t.toRows).Nodup := by
  apply (env.order_perm _).nodup_iff.mpr
  apply List.Nodup.filter
  apply (List.nodup_map_iff_inj_on (t.constraints.labels.of_map.filter _)).mpr
  intro m hm m' hm' hlabel
  obtain ⟨hm, happ⟩ := List.mem_filter.mp hm
  obtain ⟨hm', happ'⟩ := List.mem_filter.mp hm'
  have hid : m.appId = appId := by simpa using happ
  have hid' : m'.appId = appId := by simpa using happ'
  exact Tables.eq_of_label hm hm' (hid.trans hid'.symm) hlabel

/-- The labels of the mappings that are to be resolved are those of the manifest. -/
theorem labels_preserve (existing : List PortMappingRow) (pms : List PortMapping) :
    (pms.map (preserve existing)).map PortMapping.label = pms.map PortMapping.label := by
  rw [List.map_map]
  apply List.map_congr_left
  intro pm _
  simp only [Function.comp_apply, preserve]
  split <;> rfl

/-- What a transaction that is rolled back had written does not count. -/
theorem restored_seenAfter_iff {X : Prop} {c : Conn Tables} (site : Site)
    (hcommitted : c.committed = t) (h : Restored appId t.toRows c.seen.toRows ↔ X) :
    Restored appId t.toRows (env.seenAfter site c).toRows ↔ env.rolledBack site = true ∨ X := by
  unfold Env.seenAfter
  split
  · rename_i hback
    rw [hcommitted]
    exact iff_of_true (Restored.refl appId t.toRows) (Or.inl hback)
  · rename_i hback
    rw [h]
    exact (or_iff_right hback).symm

/-- How a synchronisation fails: with no `ValueError`, nothing committed, and the rows of the app as
before exactly when the transaction was rolled back or all that was written was there. -/
structure SyncFails (range : PortRange) (env : ReloadEnv) (appId : String) (manifest : AppManifest)
    (t : Tables) (e : Raised) (c : Conn Tables) : Prop where
  notValueError : e.error.isValueError = false
  committed : c.committed = t
  restored : Restored appId t.toRows c.seen.toRows ↔
    env.rolledBack e.site = true ∨ Unwritten range env appId manifest t.toRows e.site

variable {c c' : Conn Tables} {e : Raised}

/-- A statement that raises on a connection which sees `w`. -/
theorem SyncFails.of_stmt {s : Stmt} (hcommitted : c.committed = t)
    (h : e.site = .stmt s ∧ e.error.isValueError = false ∧ c'.committed = c.committed ∧
      c'.seen = env.seenAfter (.stmt s) c)
    (hiff : Restored appId t.toRows c.seen.toRows ↔
      Unwritten range env appId manifest t.toRows (.stmt s)) :
    SyncFails range env appId manifest t e c' := by
  obtain ⟨hsite, hvalue, hc, hseen⟩ := h
  refine ⟨hvalue, hc.trans hcommitted, ?_⟩
  rw [hsite, hseen]
  exact restored_seenAfter_iff (.stmt s) hcommitted hiff

/-- The tables after the UPDATE of the columns, without these labels. -/
def Dropped (appId : String) (manifest : AppManifest) (t : Tables) (labels : List String)
    (u : Tables) : Prop :=
  u.toRows = (t.toRows.setApp appId
    (AppRow.setColumns (manifestColumnValues manifest))).dropLabels appId labels

/-- As long as nothing is written besides the columns, only they and the deleted labels count. -/
theorem restored_dropped_iff (env : ReloadEnv) (hrow : t.findApp appId = some row)
    (hu : Dropped appId manifest t labels u)
    (hlabels : ∀ label ∈ labels, label ∈ goneLabels env appId manifest t.toRows) :
    Restored appId t.toRows u.toRows ↔ ColumnsSame appId manifest t.toRows ∧ labels = [] := by
  rw [restored_written_iff hrow hu (fun label h => (mem_goneLabels (hlabels label h)).1)
    (Written.nil appId u.toRows) (by simp)]
  simp [MappingsThere]

/-- What the connection sees after the labels that are gone were deleted, and what the mappings were
resolved to. -/
structure Resolved (range : PortRange) (env : ReloadEnv) (appId : String) (manifest : AppManifest)
    (t u : Tables) (resolved : List PortMapping) : Prop where
  dropped : Dropped appId manifest t (goneLabels env appId manifest t.toRows) u
  resolved : resolvePortMappings (manifest.portMappings.map (preserve (t.mappingsOf appId)))
    u.toRows range (some appId) (fun _ => env.host) = .ok resolved

namespace Resolved

variable {resolved : List PortMapping}

theorem perm_labels (h : Resolved range env appId manifest t u resolved) :
    (resolved.map PortMapping.label).Perm (manifest.portMappings.map PortMapping.label) := by
  have hperm := labels_of_resolvePortMappings h.resolved
  rwa [labels_preserve] at hperm

theorem nodup (h : Resolved range env appId manifest t u resolved) :
    (resolved.map PortMapping.label).Nodup :=
  h.perm_labels.nodup_iff.mpr manifest.parsed.labels

theorem disjoint (h : Resolved range env appId manifest t u resolved) :
    ∀ pm ∈ resolved, pm.label ∉ goneLabels env appId manifest t.toRows := by
  intro pm hpm hgone
  exact (mem_goneLabels hgone).2 (h.perm_labels.mem_iff.mp (List.mem_map_of_mem hpm))

/-- A label that the app has is still there when its mapping is written. -/
theorem there (h : Resolved range env appId manifest t u resolved) :
    ∀ pm ∈ resolved, (t.mappingsOf appId).any (·.label = pm.label) = true →
      ∃ m ∈ u.portMappings, m.appId = appId ∧ m.label = pm.label := by
  intro pm hpm hany
  obtain ⟨m, hm, hlabel⟩ := List.any_eq_true.mp hany
  obtain ⟨hm, happ⟩ := List.mem_filter.mp hm
  have happ' : m.appId = appId := by simpa using happ
  have hlabel' : m.label = pm.label := by simpa using hlabel
  refine ⟨m, ?_, happ', hlabel'⟩
  rw [h.dropped]
  simp [Rows.dropLabels, Rows.setApp, hm, happ', hlabel', h.disjoint pm hpm]

/-- Where the columns were the same and no label is gone, nothing had changed. -/
theorem newMappings_eq (h : Resolved range env appId manifest t u resolved)
    (hsame : ColumnsSame appId manifest t.toRows)
    (hgone : goneLabels env appId manifest t.toRows = []) :
    newMappings range env appId manifest t.toRows = .ok resolved := by
  have hrows : u.toRows = t.toRows := by
    rw [h.dropped, hgone, Rows.dropLabels_nil, Rows.setColumns_eq_self hsame]
  rw [newMappings, ← h.resolved, hrows]

/-- After some of the mappings have been written. -/
theorem restored_iff (h : Resolved range env appId manifest t u resolved)
    (hrow : t.findApp appId = some row) (hw : Written appId u.toRows pms w.toRows)
    (hpms : ∀ pm ∈ pms, pm ∈ resolved) :
    Restored appId t.toRows w.toRows ↔
      ColumnsSame appId manifest t.toRows ∧ goneLabels env appId manifest t.toRows = [] ∧
        MappingsThere appId t.toRows pms :=
  restored_written_iff hrow h.dropped (fun _ hlabel => (mem_goneLabels hlabel).1) hw
    fun pm hpm => h.disjoint pm (hpms pm hpm)

/-- The mappings are those that the rows as they were are resolved to. -/
theorem there_iff (h : Resolved range env appId manifest t u resolved) :
    (ColumnsSame appId manifest t.toRows ∧ goneLabels env appId manifest t.toRows = [] ∧
        MappingsThere appId t.toRows resolved) ↔
      ColumnsSame appId manifest t.toRows ∧ goneLabels env appId manifest t.toRows = [] ∧
        ∀ r, newMappings range env appId manifest t.toRows = .ok r →
          MappingsThere appId t.toRows r := by
  refine and_congr_right fun hsame => and_congr_right fun hgone => ?_
  rw [h.newMappings_eq hsame hgone]
  constructor
  · intro hthere r hr
    rw [← Except.ok.inj hr]
    exact hthere
  · intro hall
    exact hall resolved rfl

end Resolved

/-- Registering the services changes nothing but the providers. -/
theorem restored_registerServices_iff {w' : Tables}
    (h : w.registerServices appId manifest.providesServicesV2 = .ok w')
    (hproviders : w.providers = t.providers) :
    Restored appId t.toRows w'.toRows ↔
      Restored appId t.toRows w.toRows ∧ ProvidersSame appId manifest t.toRows := by
  have hrows := Tables.write_ok h
  have happs : w'.findApp appId = w.findApp appId := by rw [hrows]; rfl
  have hmappings : w'.portMappings = w.portMappings := by rw [hrows]
  constructor
  · intro hr
    refine ⟨⟨?_, ?_, ?_⟩, fun p hp => ?_⟩
    · rw [← happs]
      exact hr.columns
    · rw [← hmappings]
      exact hr.portMappings
    · intro p _
      rw [hproviders]
    · rw [← hr.providers p hp, Tables.providers_of_registerServices h p hp]
  · rintro ⟨hr, hsame⟩
    refine ⟨?_, ?_, fun p hp => ?_⟩
    · rw [happs]
      exact hr.columns
    · rw [hmappings]
      exact hr.portMappings
    · rw [Tables.providers_of_registerServices h p hp]
      exact hsame p hp

/-- The mappings have been synchronised. -/
theorem syncPortMappings_ok (hseen : Dropped appId manifest t [] c.seen)
    (h : syncPortMappings range env appId manifest.portMappings c = (.ok (), c')) :
    ∃ u resolved, Resolved range env appId manifest t u resolved ∧ c'.committed = c.committed ∧
      Written appId u.toRows resolved c'.seen.toRows := by
  have hmappings : c.seen.mappingsOf appId = t.mappingsOf appId := by
    rw [Rows.mappingsOf, hseen, Rows.dropLabels_nil]
    rfl
  unfold syncPortMappings at h
  obtain ⟨t₁, c₁, hlook, h⟩ := Proc.bind_ok_iff.mp h
  obtain ⟨rfl, rfl⟩ := Env.look_ok hlook
  rw [hmappings] at h
  obtain ⟨_, c₂, hdelete, h⟩ := Proc.bind_ok_iff.mp h
  obtain ⟨hc₂, hseen₂⟩ := deletes_ok hdelete
  obtain ⟨t₂, c₃, hlook, h⟩ := Proc.bind_ok_iff.mp h
  obtain ⟨rfl, rfl⟩ := Env.look_ok hlook
  obtain ⟨resolved, c₃, hresolve, hwrite⟩ := Proc.bind_ok_iff.mp h
  obtain ⟨hok, rfl⟩ := Proc.ofExcept_ok_iff.mp hresolve
  have hresolved : Resolved range env appId manifest t c₃.seen resolved := by
    refine ⟨?_, mapError_ok_iff.mp hok⟩
    rw [Dropped, hseen₂, hseen, Rows.dropLabels_nil]
    rfl
  obtain ⟨hc', hwritten⟩ := writes_ok hresolved.nodup hresolved.there hwrite
  exact ⟨c₃.seen, resolved, hresolved, hc'.trans hc₂, hwritten⟩

/-- The mappings are synchronised, or it is known how far that came. -/
theorem syncPortMappings_raised (hrow : t.findApp appId = some row) (hcommitted : c.committed = t)
    (hseen : Dropped appId manifest t [] c.seen)
    (h : syncPortMappings range env appId manifest.portMappings c = (.raised e, c')) :
    SyncFails range env appId manifest t e c' := by
  have hmappings : c.seen.mappingsOf appId = t.mappingsOf appId := by
    rw [Rows.mappingsOf, hseen, Rows.dropLabels_nil]
    rfl
  unfold syncPortMappings at h
  rcases Proc.bind_raised_iff.mp h with hlook | ⟨t₁, c₁, hlook, h⟩
  · refine .of_stmt hcommitted (Env.look_raised hlook) ?_
    rw [restored_dropped_iff env hrow hseen (by simp)]
    simp [Unwritten]
  obtain ⟨rfl, rfl⟩ := Env.look_ok hlook
  rw [hmappings] at h
  rcases Proc.bind_raised_iff.mp h with hdelete | ⟨_, c₂, hdelete, h⟩
  · -- the labels before this one are gone
    obtain ⟨pre, label, post, c₂, hsplit, hpre, hraised⟩ := Proc.forEach_raised hdelete
    obtain ⟨hc₂, hseen₂⟩ := deletes_ok hpre
    have hdropped : Dropped appId manifest t pre c₂.seen := by
      rw [Dropped, hseen₂, hseen, Rows.dropLabels_nil]
    refine .of_stmt (hc₂.trans hcommitted) (Env.execute_raised ?_ hraised) ?_
    · intro t e he
      exact Tables.write_error he
    · rw [restored_dropped_iff env hrow hdropped fun l hl => by
        rw [goneLabels, hsplit]
        exact List.mem_append_left _ hl]
      have hnodup := nodup_goneLabels env appId manifest t
      rw [goneLabels, hsplit] at hnodup
      rw [Unwritten, goneLabels, hsplit]
      cases pre with
      | nil => simp
      | cons first pre =>
        have hne : first ≠ label := by
          rintro rfl
          simp at hnodup
        simp [hne]
  obtain ⟨hc₂, hseen₂⟩ := deletes_ok hdelete
  have hdropped : Dropped appId manifest t (goneLabels env appId manifest t.toRows) c₂.seen := by
    rw [Dropped, hseen₂, hseen, Rows.dropLabels_nil]
    rfl
  have hiff := restored_dropped_iff env hrow hdropped fun _ hl => hl
  rcases Proc.bind_raised_iff.mp h with hlook | ⟨t₂, c₃, hlook, h⟩
  · exact .of_stmt (hc₂.trans hcommitted) (Env.look_raised hlook) hiff
  obtain ⟨rfl, rfl⟩ := Env.look_ok hlook
  rcases Proc.bind_raised_iff.mp h with hresolve | ⟨resolved, c₃, hresolve, hwrite⟩
  · obtain ⟨hraised, rfl⟩ := Proc.ofExcept_raised_iff.mp hresolve
    obtain ⟨e', he', rfl⟩ := mapError_error_iff.mp hraised
    refine ⟨resolvePortMappings_error he', hc₂.trans hcommitted, ?_⟩
    rw [hiff]
    simp [Env.rolledBack, Unwritten]
  obtain ⟨hok, rfl⟩ := Proc.ofExcept_ok_iff.mp hresolve
  have hresolved : Resolved range env appId manifest t c₃.seen resolved :=
    ⟨hdropped, mapError_ok_iff.mp hok⟩
  -- the mappings before this one are written
  obtain ⟨pre, pm, post, c₄, hsplit, hpre, hraised⟩ := Proc.forEach_raised hwrite
  have hnodup := hresolved.nodup
  rw [hsplit] at hnodup
  have hbefore : pre <+: resolved := ⟨pm :: post, hsplit.symm⟩
  obtain ⟨hc₄, hwritten⟩ := writes_ok
    (hresolved.nodup.sublist (hbefore.sublist.map _))
    (fun pm hpm => hresolved.there pm (hbefore.subset hpm)) hpre
  refine .of_stmt (hc₄.trans (hc₂.trans hcommitted)) (Env.execute_raised ?_ hraised) ?_
  · intro t e he
    unfold writeMapping at he
    split at he
    · exact Tables.write_error he
    · exact Tables.write_error he
  · rw [hresolved.restored_iff hrow hwritten fun pm hpm => hbefore.subset hpm, Unwritten]
    refine and_congr_right fun hsame => and_congr_right fun hgone => ?_
    have htake : resolved.takeWhile (·.label ≠ pm.label) = pre := by
      rw [hsplit, List.takeWhile_append_of_pos]
      · simp
      · intro x hx
        rw [List.map_append] at hnodup
        have hne := (List.nodup_append.mp hnodup).2.2 _ (List.mem_map_of_mem hx) pm.label (by simp)
        simpa using hne
    rw [hresolved.newMappings_eq hsame hgone]
    constructor
    · intro hthere r hr
      rw [← Except.ok.inj hr, htake]
      exact hthere
    · intro hall
      have hthere := hall resolved rfl
      rwa [htake] at hthere

/-- The synchronisation raises before it has written anything, or it is known how far it came. -/
theorem syncWithManifest_raised (hrow : t.findApp appId = some row)
    (h : syncWithManifest range env appId repoPath (Conn.fresh t) = (.raised e, c')) :
    (c' = Conn.fresh t ∧ (e.site = .call .parseManifest ∨ e.site = .call .columnValues)) ∨
      ∃ manifest, env.manifest repoPath = .ok manifest ∧
        SyncFails range env appId manifest t e c' := by
  unfold syncWithManifest at h
  rcases compute_cases env.toEnv .parseManifest (env.manifest repoPath) (Conn.fresh t) with
    ⟨manifest, hmanifest, hparse⟩ | ⟨e', hparse⟩
  swap
  · rw [Proc.bind_of_raised hparse] at h
    obtain ⟨he, rfl⟩ := Prod.mk.inj h
    rw [← Outcome.raised.inj he]
    exact Or.inl ⟨rfl, Or.inl rfl⟩
  rw [Proc.bind_of_ok hparse] at h
  rcases call_cases env.toEnv .columnValues (Conn.fresh t) with hvalues | ⟨e', -, hvalues⟩
  swap
  · rw [Proc.bind_of_raised hvalues] at h
    obtain ⟨he, rfl⟩ := Prod.mk.inj h
    rw [← Outcome.raised.inj he]
    exact Or.inl ⟨rfl, Or.inr rfl⟩
  rw [Proc.bind_of_ok hvalues] at h
  refine Or.inr ⟨manifest, hmanifest, ?_⟩
  rcases Proc.bind_raised_iff.mp h with hupdate | ⟨_, c₁, hupdate, h⟩
  · refine .of_stmt rfl (Env.execute_raised (fun _ _ he => Tables.write_error he) hupdate) ?_
    exact iff_of_true (Restored.refl appId t.toRows) trivial
  obtain ⟨t₁, ht₁, rfl⟩ := Env.execute_ok hupdate
  have hdropped : Dropped appId manifest t [] t₁ := by
    rw [Dropped, Tables.write_ok ht₁, Rows.dropLabels_nil]
    rfl
  rcases Proc.bind_raised_iff.mp h with hports | ⟨_, c₂, hports, h⟩
  · exact syncPortMappings_raised (c := ⟨t, some t₁⟩) hrow rfl hdropped hports
  obtain ⟨u, resolved, hresolved, hc₂, hwritten⟩ :=
    syncPortMappings_ok (c := ⟨t, some t₁⟩) hdropped hports
  have hiff := (hresolved.restored_iff hrow hwritten fun _ hpm => hpm).trans
    hresolved.there_iff
  rcases Proc.bind_raised_iff.mp h with hservices | ⟨_, c₃, hservices, hcommit⟩
  · exact .of_stmt hc₂ (Env.execute_raised (fun _ _ he => Tables.write_error he) hservices) hiff
  obtain ⟨t₃, ht₃, rfl⟩ := Env.execute_ok hservices
  refine .of_stmt (c := { c₂ with txn := some t₃ }) hc₂ (Env.commit_raised hcommit) ?_
  have hproviders : c₂.seen.providers = t.providers := by
    rw [hwritten.providers, hresolved.dropped]
    rfl
  rw [Conn.seen_mk_some, restored_registerServices_iff ht₃ hproviders, hiff, Unwritten, and_assoc,
    and_assoc]

end

end OpenHost.Install
