import OpenHost.Library.JsonValues

/-!
# The links of an app

`_serialize_links` and `deserialize_links`: the links of a manifest are kept as JSON in a column of the
app's row, and the dashboard reads them from there.
-/

namespace OpenHost.Apps

open Json (CodePoint PyStr Value Limits ofString loads join)

/-! ## The column -/

/-- `AppLink` -/
@[ext]
structure AppLink where
  name : PyStr
  path : PyStr
  deriving DecidableEq, Repr

/-- `{"name": link.name, "path": link.path}` -/
def AppLink.entry (link : AppLink) : Value :=
  .dict [(ofString "name", .str link.name), (ofString "path", .str link.path)]

/-- `_serialize_links` -/
def serializeLinks (links : List AppLink) : List Char := (Value.list (links.map AppLink.entry)).text

/-- What `deserialize_links` raises. -/
inductive LinksError where
  /-- A `ValueError` of `json.loads` that is no `JSONDecodeError`, or its `RecursionError`. -/
  | json (e : Json.Error)
  /-- `TypeError`: the value cannot be iterated over. -/
  | notIterable
  deriving DecidableEq, Repr

/-- `isinstance(entry, dict) and isinstance(entry.get("name"), str) and ..` -/
def entryLink? : Value → Option AppLink
  | .dict members =>
    match Json.get? members "name", Json.get? members "path" with
    | some (.str name), some (.str path) => some ⟨name, path⟩
    | _, _ => none
  | _ => none

/-- `for entry in entries`: a dictionary yields its keys, a text its characters. -/
def iterate? : Value → Option (List Value)
  | .list items => some items
  | .dict members => some (members.map fun m => .str m.1)
  | .str s => some (s.map fun c => .str [c])
  | _ => none

/-- `raw or "[]"` -/
def rawOrEmpty : Option (List Char) → List Char
  | none | some [] => "[]".toList
  | some raw => raw

/-- `deserialize_links` -/
def deserializeLinks (lim : Limits) (raw : Option (List Char)) : Except LinksError (List AppLink) :=
  match loads lim (rawOrEmpty raw) with
  | .error .decode => .ok []
  | .error e => .error (.json e)
  | .ok entries =>
    match iterate? entries with
    | none => .error .notIterable
    | some entries => .ok (entries.filterMap entryLink?)

/-! ## Links that were stored -/

/-- A link as it is read back. -/
def AppLink.joined (link : AppLink) : AppLink := ⟨join link.name, join link.path⟩

theorem text_entry (link : AppLink) : link.joined.entry.text = link.entry.text := by
  simp [AppLink.entry, AppLink.joined, Value.text, Json.membersText, Json.quote_join]

theorem serializeLinks_joined (links : List AppLink) :
    serializeLinks (links.map AppLink.joined) = serializeLinks links := by
  have hitems : ∀ first, Json.itemsText first ((links.map AppLink.joined).map AppLink.entry) =
      Json.itemsText first (links.map AppLink.entry) := by
    induction links with
    | nil => simp
    | cons link links ih =>
      intro first
      simp only [List.map_cons, Json.itemsText, text_entry, ih]
  simp only [serializeLinks, Value.text, hitems]

theorem entryLink?_entry (link : AppLink) : entryLink? link.entry = some link := by
  have hkey : ofString "path" ≠ ofString "name" := by decide
  simp [entryLink?, AppLink.entry, Json.get?, hkey.symm]

theorem joined_ofString_key : Json.Joined (ofString "name") ∧ Json.Joined (ofString "path") :=
  ⟨Json.joined_ofString _, Json.joined_ofString _⟩

/-- A link that has been read back fits into any column. -/
theorem wellFormed_entry (link : AppLink) : link.joined.entry.wellFormed = true := by
  have hkey : ofString "name" ≠ ofString "path" := by decide
  obtain ⟨hname, hpath⟩ := joined_ofString_key
  unfold Json.Joined at hname hpath
  have hlinkName : join (join link.name) = join link.name := Json.joined_join _
  have hlinkPath : join (join link.path) = join link.path := Json.joined_join _
  rw [AppLink.entry, Json.dict_wellFormed_iff]
  simp [hkey, hname, hpath, Value.wellFormed, AppLink.joined, hlinkName, hlinkPath]

variable {lim : Limits}

/-- What was stored is read back, with surrogates joined. -/
theorem deserialize_serialize (hdepth : 2 ≤ lim.depth) (links : List AppLink) :
    deserializeLinks lim (some (serializeLinks links)) = .ok (links.map AppLink.joined) := by
  have hwell : (Value.list ((links.map AppLink.joined).map AppLink.entry)).wellFormed = true := by
    rw [Json.list_wellFormed_iff]
    intro v hv
    simp only [List.map_map, List.mem_map, Function.comp_apply] at hv
    obtain ⟨link, -, rfl⟩ := hv
    exact wellFormed_entry link
  have hfits : (Value.list ((links.map AppLink.joined).map AppLink.entry)).fits lim lim.depth = true := by
    obtain ⟨depth, hlim⟩ : ∃ depth, lim.depth = depth + 2 := ⟨lim.depth - 2, by omega⟩
    rw [hlim, Value.fits, Json.itemsFit_iff]
    intro v hv
    obtain ⟨link, -, rfl⟩ := List.mem_map.mp hv
    simp [AppLink.entry, Value.fits, Json.membersFit]
  have hloads := Json.loads_text hwell hfits
  have hraw : rawOrEmpty (some (serializeLinks links)) =
      (Value.list ((links.map AppLink.joined).map AppLink.entry)).text := by
    rw [← serializeLinks_joined]
    rfl
  have hlinks : ((links.map AppLink.joined).map AppLink.entry).filterMap entryLink? =
      links.map AppLink.joined := by
    rw [List.filterMap_map]
    simp [entryLink?_entry]
  rw [deserializeLinks, hraw, hloads]
  simp only [iterate?, hlinks]

theorem map_joined_iff (links : List AppLink) :
    links.map AppLink.joined = links ↔
      ∀ link ∈ links, Json.Joined link.name ∧ Json.Joined link.path := by
  induction links with
  | nil => simp
  | cons link links ih =>
    rw [List.map_cons, List.cons.injEq, ih, List.forall_mem_cons]
    simp [AppLink.joined, AppLink.ext_iff, Json.Joined]

/-! ## Any column -/

/-- The column can be read: it is no JSON, or a list, a dictionary or a text. -/
def Tolerated (lim : Limits) (raw : Option (List Char)) : Prop :=
  loads lim (rawOrEmpty raw) = .error .decode ∨
  (∃ items, loads lim (rawOrEmpty raw) = .ok (.list items)) ∨
  (∃ members, loads lim (rawOrEmpty raw) = .ok (.dict members)) ∨
  ∃ text, loads lim (rawOrEmpty raw) = .ok (.str text)

theorem returns_iff (raw : Option (List Char)) :
    (∃ links, deserializeLinks lim raw = .ok links) ↔ Tolerated lim raw := by
  unfold deserializeLinks Tolerated
  cases hloads : loads lim (rawOrEmpty raw) with
  | error e => cases e <;> simp
  | ok v => cases v <;> simp [iterate?]

/-- Links that were stored are read back exactly if no two surrogates in them make a pair, and a column
is read exactly if it is no JSON, or a list, a dictionary or a text. -/
theorem deserializeLinks_iff (hdepth : 2 ≤ lim.depth) :
    (∀ links, deserializeLinks lim (some (serializeLinks links)) = .ok links ↔
      ∀ link ∈ links, Json.Joined link.name ∧ Json.Joined link.path) ∧
    ∀ raw, (∃ links, deserializeLinks lim raw = .ok links) ↔ Tolerated lim raw := by
  refine ⟨fun links => ?_, returns_iff⟩
  rw [deserialize_serialize hdepth, ← map_joined_iff, Except.ok.injEq]

theorem deserializeLinks_default :
    (∀ links, deserializeLinks Json.defaultLimits (some (serializeLinks links)) = .ok links ↔
      ∀ link ∈ links, Json.Joined link.name ∧ Json.Joined link.path) ∧
    ∀ raw, (∃ links, deserializeLinks Json.defaultLimits raw = .ok links) ↔
      Tolerated Json.defaultLimits raw :=
  deserializeLinks_iff (by decide)

/-- A number in the column cannot be iterated over. -/
theorem deserializeLinks_number :
    deserializeLinks Json.defaultLimits (some "5".toList) = .error .notIterable := by
  rfl

end OpenHost.Apps
