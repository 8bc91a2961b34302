import Mathlib.Data.Rat.Defs
import OpenHost.Apps.State

/-!
# The sweep of orphaned images

`sweep_orphaned_images`: images are chosen by their tags and removed by their id, whatever other
tags the id has.
-/

namespace OpenHost.Apps

open Text (stripPrefix? stripSuffix?)

/-! ## Names and tags -/

/-- A character of an app name that may stand at either end. -/
def isNameChar (c : Char) : Bool := ('a' ≤ c && c ≤ 'z') || ('0' ≤ c && c ≤ '9')

/-- `is_valid_app_name`; like every `$`, that of the pattern lets a final line break pass. -/
def isValidAppName (s : String) : Bool :=
  let name := ((stripSuffix? "\n" s).getD s).toList
  name.head?.any isNameChar && name.getLast?.any isNameChar &&
    name.all fun c => isNameChar c || c = '-'

/-- The tag that `build_image` gives the image of an app. -/
def imageTag (appName : String) : String := "openhost-" ++ appName ++ ":latest"

/-- The tag is that of the app's image, with or without the registry that podman puts before it. -/
def IsTagOf (appName tag : String) : Prop :=
  tag = imageTag appName ∨ tag = "localhost/" ++ imageTag appName

/-- `parse_openhost_image_app_name` -/
def parseOpenhostImageAppName (tag : String) : Option String :=
  let tag := (stripPrefix? "localhost/" tag).getD tag
  -- `$` also matches before a final line break
  let tag := (stripSuffix? "\n" tag).getD tag
  match (stripPrefix? "openhost-" tag).bind (stripSuffix? ":latest") with
  | none => none
  | some name => if name = "" || '\n' ∈ name.toList then none else some name

/-! ## What podman lists -/

/-- The value of `Names` or of `RepoTags` in a row: nothing that counts as true, a list, of which
only the texts matter, or some other value. -/
inductive NamesField where
  | falsy
  | list (entries : List (Option String))
  | other
  deriving DecidableEq, Repr

/-- One row of `podman images --format json`. -/
structure ImageRow where
  id : Option String
  created : Option Int
  names : NamesField
  repoTags : NamesField
  deriving DecidableEq, Repr

/-- `row.get("Names") or row.get("RepoTags") or []` -/
def ImageRow.tagsField (row : ImageRow) : NamesField :=
  match row.names with
  | .falsy | .list [] => row.repoTags
  | field => field

/-- The tags of a row. -/
def ImageRow.tags (row : ImageRow) : List String :=
  match row.tagsField with
  | .list entries => entries.reduceOption
  | _ => []

/-- `OpenHostImage` -/
structure OpenHostImage where
  imageId : String
  appName : String
  createdEpoch : Int
  deriving DecidableEq, Repr

/-- The entries of `list_openhost_images` for one row: one for each tag of an app. -/
def ImageRow.openhostImages (row : ImageRow) : List OpenHostImage :=
  match row.created, row.id with
  | some created, some imageId =>
      (row.tags.filterMap parseOpenhostImageAppName).map (⟨imageId, ·, created⟩)
  | _, _ => []

/-- `list_openhost_images`; `none` is a podman that is not there or fails. -/
def listOpenhostImages (podmanImages : Option (List ImageRow)) : List OpenHostImage :=
  (podmanImages.getD []).flatMap ImageRow.openhostImages

/-! ## The sweep -/

/-- `orphan_max_age_seconds` -/
def orphanMaxAgeSeconds (imageOrphanMaxAgeSeconds : Int) : Option Int :=
  if imageOrphanMaxAgeSeconds ≤ 0 then none else some imageOrphanMaxAgeSeconds

/-- `sweep_orphaned_images`: `appNames` are the names in the database, `none` where it cannot be
read, and `removeImageById` says which forced removals podman performs. -/
def sweepOrphanedImages (imageOrphanMaxAgeSeconds : Int) (appNames : Option (List String))
    (podmanImages : Option (List ImageRow)) (removeImageById : String → Bool) (nowEpoch : ℚ) :
    List String :=
  match orphanMaxAgeSeconds imageOrphanMaxAgeSeconds, appNames with
  | some maxAge, some appNames =>
      ((listOpenhostImages podmanImages).filter fun image =>
        -- an image younger than this may belong to a deploy that is still going on
        image.appName ∉ appNames && !(nowEpoch - image.createdEpoch < maxAge) &&
          removeImageById image.imageId).map OpenHostImage.imageId
  | _, _ => []

/-! ## What it should leave alone -/

/-- All tags of an image id. -/
def tagsOf (rows : List ImageRow) (imageId : String) : List String :=
  (rows.filter fun row => row.id = some imageId).flatMap ImageRow.tags

/-- No tag of the id is the current one of an app, and one of them was built for this space: podman
takes no tag with a line break in it. -/
structure Removable (rows : List ImageRow) (appNames : List String) (imageId : String) : Prop where
  notCurrent : ∀ tag ∈ tagsOf rows imageId, ∀ appName ∈ appNames, ¬ IsTagOf appName tag
  built : ∃ tag ∈ tagsOf rows imageId, ∃ appName, isValidAppName appName = true ∧
    '\n' ∉ appName.toList ∧ IsTagOf appName tag

/-- The row has a tag that reads as that of an app which does not exist, and is old enough. -/
def ImageRow.looksOrphaned (row : ImageRow) (maxAge : Int) (appNames : List String)
    (nowEpoch : ℚ) : Bool :=
  row.created.any (fun created : Int => !(nowEpoch - created < maxAge)) &&
    row.tags.any fun tag => (parseOpenhostImageAppName tag).any (· ∉ appNames)

/-- The tag reads as that of an app and what it reads as can be the name of one. -/
def isAppTag (tag : String) : Bool :=
  '\n' ∉ tag.toList && (parseOpenhostImageAppName tag).any isValidAppName

/-- No id that looks orphaned by one of its tags is shared: none of its other tags is the current
one of an app, and one of them reads as the tag of an app with a proper name. -/
def OrphansUnshared (rows : List ImageRow) (maxAge : Int) (appNames : List String)
    (nowEpoch : ℚ) : Prop :=
  ∀ row ∈ rows, ∀ imageId, row.id = some imageId →
    row.looksOrphaned maxAge appNames nowEpoch = true →
    (∀ tag ∈ tagsOf rows imageId, ∀ appName ∈ appNames, ¬ IsTagOf appName tag) ∧
      (tagsOf rows imageId).any isAppTag = true

/-! ## Tags and the names in them -/

/-- The tag of an app does not begin like one with a registry. -/
theorem stripRegistry_imageTag (name rest : String) :
    stripPrefix? "localhost/" (imageTag name ++ rest) = none := by
  apply Text.stripPrefix?_eq_none_iff.mpr
  intro r h
  have hhead := congrArg (fun s => s.toList.head?) h
  simp only [imageTag, String.toList_append] at hhead
  have ho : "openhost-".toList = 'o' :: "penhost-".toList := rfl
  have hl : "localhost/".toList = 'l' :: "ocalhost/".toList := rfl
  rw [ho, hl] at hhead
  simp at hhead

/-- The tag of an app does not end in a line break. -/
theorem stripBreak_imageTag (name : String) : stripSuffix? "\n" (imageTag name) = none := by
  cases h : stripSuffix? "\n" (imageTag name) with
  | none => rfl
  | some r =>
    exfalso
    have hlast := congrArg (fun s => s.toList.getLast?)
      (Text.stripSuffix?_eq_some_iff.mp h)
    simp only [imageTag, String.toList_append] at hlast
    have ht : ":latest".toList = ":lates".toList ++ ['t'] := rfl
    have hn : "\n".toList = ['\n'] := rfl
    rw [ht, hn, ← List.append_assoc, List.getLast?_append_of_ne_nil _ (by simp),
      List.getLast?_append_of_ne_nil _ (by simp)] at hlast
    simp at hlast

/-- The last part of `parse_openhost_image_app_name`: a tag without registry and line break. -/
theorem bind_strip_eq_some_iff {tag name : String} :
    (stripPrefix? "openhost-" tag).bind (stripSuffix? ":latest") = some name ↔
      tag = imageTag name := by
  rw [Option.bind_eq_some_iff, imageTag]
  constructor
  · rintro ⟨rest, hrest, hname⟩
    rw [Text.stripPrefix?_eq_some_iff.mp hrest, Text.stripSuffix?_eq_some_iff.mp hname,
      String.append_assoc]
  · rintro rfl
    exact ⟨name ++ ":latest", Text.stripPrefix?_eq_some_iff.mpr (String.append_assoc ..),
      Text.stripSuffix?_eq_some_iff.mpr rfl⟩

/-- The tag without its registry and without a line break at its end. -/
def bareTag (tag : String) : String :=
  let tag := (stripPrefix? "localhost/" tag).getD tag
  (stripSuffix? "\n" tag).getD tag

theorem parse_eq_bind (tag : String) :
    parseOpenhostImageAppName tag =
      ((stripPrefix? "openhost-" (bareTag tag)).bind (stripSuffix? ":latest")).bind fun name =>
        if name = "" || '\n' ∈ name.toList then none else some name := by
  unfold parseOpenhostImageAppName
  dsimp only
  rw [← bareTag]
  generalize (stripPrefix? "openhost-" (bareTag tag)).bind (stripSuffix? ":latest") = o
  cases o with
  | none => rfl
  | some name => rfl

theorem parse_eq_some_iff_bareTag {tag name : String} :
    parseOpenhostImageAppName tag = some name ↔
      name ≠ "" ∧ '\n' ∉ name.toList ∧ bareTag tag = imageTag name := by
  rw [parse_eq_bind, Option.bind_eq_some_iff]
  constructor
  · rintro ⟨n, hn, hname⟩
    have hbare := bind_strip_eq_some_iff.mp hn
    split at hname
    · cases hname
    · rename_i hgood
      rw [Bool.or_eq_true, decide_eq_true_eq, decide_eq_true_eq, not_or] at hgood
      rw [← Option.some.inj hname]
      exact ⟨hgood.1, hgood.2, hbare⟩
  · rintro ⟨h1, h2, hbare⟩
    have hgood : ¬ (decide (name = "") || decide ('\n' ∈ name.toList)) = true := by
      rw [Bool.or_eq_true, decide_eq_true_eq, decide_eq_true_eq, not_or]
      exact ⟨h1, h2⟩
    exact ⟨name, bind_strip_eq_some_iff.mpr hbare, if_neg hgood⟩

/-- The tags that leave this one bare. -/
theorem bareTag_eq_imageTag_iff {tag name : String} :
    bareTag tag = imageTag name ↔
      IsTagOf name tag ∨ ∃ tag', IsTagOf name tag' ∧ tag = tag' ++ "\n" := by
  have hregistry : ∀ t, (stripPrefix? "localhost/" tag).getD tag = t →
      tag = t ∨ tag = "localhost/" ++ t := by
    intro t ht
    cases h : stripPrefix? "localhost/" tag with
    | none =>
      rw [h, Option.getD_none] at ht
      exact Or.inl ht
    | some r =>
      rw [h, Option.getD_some] at ht
      exact Or.inr (ht ▸ Text.stripPrefix?_eq_some_iff.mp h)
  have hplain : ∀ rest, bareTag (imageTag name ++ rest) =
      (stripSuffix? "\n" (imageTag name ++ rest)).getD (imageTag name ++ rest) := by
    intro rest
    rw [bareTag, stripRegistry_imageTag, Option.getD_none]
  have hlocal : ∀ t, bareTag ("localhost/" ++ t) = (stripSuffix? "\n" t).getD t := by
    intro t
    rw [bareTag, Text.stripPrefix?_append, Option.getD_some]
  have hbreak : ∀ t, (stripSuffix? "\n" (t ++ "\n")).getD (t ++ "\n") = t := by
    intro t
    rw [Text.stripSuffix?_eq_some_iff.mpr rfl, Option.getD_some]
  have hend : (stripSuffix? "\n" (imageTag name)).getD (imageTag name) = imageTag name := by
    rw [stripBreak_imageTag, Option.getD_none]
  constructor
  · intro h
    rw [bareTag] at h
    cases hstrip : stripSuffix? "\n" ((stripPrefix? "localhost/" tag).getD tag) with
    | none =>
      rw [hstrip, Option.getD_none] at h
      exact Or.inl (hregistry _ h)
    | some r =>
      rw [hstrip, Option.getD_some] at h
      refine Or.inr ?_
      have hr := Text.stripSuffix?_eq_some_iff.mp hstrip
      rw [h] at hr
      rcases hregistry _ hr with ht | ht
      · exact ⟨_, Or.inl rfl, ht⟩
      · exact ⟨_, Or.inr rfl, by rw [ht, String.append_assoc]⟩
  · rintro ((h | h) | ⟨tag', h | h, htag⟩)
    · rw [h]
      have hnil := hplain ""
      rw [String.append_empty] at hnil
      rw [hnil, hend]
    · rw [h, hlocal, hend]
    · rw [htag, h, hplain, hbreak]
    · rw [htag, h, String.append_assoc, hlocal, hbreak]

/-- What reads as the tag of an app: such a tag, perhaps with a line break at its end. -/
theorem parse_eq_some_iff {tag name : String} :
    parseOpenhostImageAppName tag = some name ↔ name ≠ "" ∧ '\n' ∉ name.toList ∧
      (IsTagOf name tag ∨ ∃ tag', IsTagOf name tag' ∧ tag = tag' ++ "\n") := by
  rw [parse_eq_some_iff_bareTag, bareTag_eq_imageTag_iff]

theorem not_mem_break_of_isTagOf {tag name : String} (hname : '\n' ∉ name.toList)
    (h : IsTagOf name tag) : '\n' ∉ tag.toList := by
  have himage : '\n' ∉ (imageTag name).toList := by
    rw [imageTag, String.toList_append, String.toList_append, List.mem_append, List.mem_append]
    rintro ((h | h) | h)
    · exact absurd h (by decide)
    · exact hname h
    · exact absurd h (by decide)
  rcases h with h | h
  · rw [h]
    exact himage
  · rw [h, String.toList_append, List.mem_append]
    rintro (h | h)
    · exact absurd h (by decide)
    · exact himage h

/-- Without a line break only the tags of apps read as such. -/
theorem isAppTag_iff {tag : String} :
    isAppTag tag = true ↔ ∃ appName, isValidAppName appName = true ∧
      '\n' ∉ appName.toList ∧ IsTagOf appName tag := by
  rw [isAppTag, Bool.and_eq_true, decide_eq_true_eq, Option.any_eq_true]
  constructor
  · rintro ⟨hbreak, name, hparse, hvalid⟩
    obtain ⟨-, hname, htag⟩ := parse_eq_some_iff.mp hparse
    refine ⟨name, hvalid, hname, htag.resolve_right ?_⟩
    rintro ⟨tag', -, rfl⟩
    apply hbreak
    rw [String.toList_append, List.mem_append]
    exact Or.inr (by decide)
  · rintro ⟨name, hvalid, hname, htag⟩
    refine ⟨not_mem_break_of_isTagOf hname htag, name, ?_, hvalid⟩
    refine parse_eq_some_iff.mpr ⟨?_, hname, Or.inl htag⟩
    intro hempty
    rw [hempty] at hvalid
    exact absurd hvalid (by decide)

/-! ## The ids that are removed -/

theorem mem_openhostImages {row : ImageRow} {image : OpenHostImage} :
    image ∈ row.openhostImages ↔ row.id = some image.imageId ∧
      row.created = some image.createdEpoch ∧
      ∃ tag ∈ row.tags, parseOpenhostImageAppName tag = some image.appName := by
  obtain ⟨imageId, appName, createdEpoch⟩ := image
  unfold ImageRow.openhostImages
  split
  · rename_i created id hcreated hid
    simp only [List.mem_map, List.mem_filterMap, OpenHostImage.mk.injEq, hcreated, hid,
      Option.some.injEq]
    constructor
    · rintro ⟨name, ⟨tag, htag, hname⟩, rfl, rfl, rfl⟩
      exact ⟨rfl, rfl, tag, htag, hname⟩
    · rintro ⟨rfl, rfl, tag, htag, hname⟩
      exact ⟨appName, ⟨tag, htag, hname⟩, rfl, rfl, rfl⟩
  · rename_i hnone
    simp only [List.not_mem_nil, false_iff]
    rintro ⟨hid, hcreated, -⟩
    exact hnone _ _ hcreated hid

/-- The ids that a sweep removes: those that look orphaned by one of their tags. -/
theorem mem_sweepOrphanedImages {maxAge : Int} (hpos : 0 < maxAge) {appNames : List String}
    {rows : List ImageRow} {removeImageById : String → Bool} {nowEpoch : ℚ} {imageId : String} :
    imageId ∈ sweepOrphanedImages maxAge (some appNames) (some rows) removeImageById nowEpoch ↔
      removeImageById imageId = true ∧ ∃ row ∈ rows, row.id = some imageId ∧
        row.looksOrphaned maxAge appNames nowEpoch = true := by
  have hage : orphanMaxAgeSeconds maxAge = some maxAge := if_neg (by omega)
  simp only [sweepOrphanedImages, hage, List.mem_map, List.mem_filter, listOpenhostImages,
    Option.getD_some, List.mem_flatMap, mem_openhostImages, Bool.and_eq_true, decide_eq_true_eq,
    Bool.not_eq_true', ImageRow.looksOrphaned, Option.any_eq_true, List.any_eq_true]
  constructor
  · rintro ⟨image, ⟨⟨row, hrow, hid, hcreated, tag, htag, hname⟩, ⟨hgone, hold⟩, hremoved⟩, rfl⟩
    exact ⟨hremoved, row, hrow, hid, ⟨image.createdEpoch, hcreated, hold⟩, tag, htag,
      image.appName, hname, hgone⟩
  · rintro ⟨hremoved, row, hrow, hid, ⟨created, hcreated, hold⟩, tag, htag, name, hname, hgone⟩
    exact ⟨⟨imageId, name, created⟩, ⟨⟨row, hrow, hid, hcreated, tag, htag, hname⟩,
      ⟨hgone, hold⟩, hremoved⟩, rfl⟩

/-- A sweep that is switched off, or cannot read the database, or gets no list, removes nothing. -/
theorem enabled_of_mem_sweep {maxAge : Int} {appNames : Option (List String)}
    {podmanImages : Option (List ImageRow)} {removeImageById : String → Bool} {nowEpoch : ℚ}
    {imageId : String}
    (h : imageId ∈ sweepOrphanedImages maxAge appNames podmanImages removeImageById nowEpoch) :
    0 < maxAge ∧ ∃ names rows, appNames = some names ∧ podmanImages = some rows := by
  cases appNames with
  | none => simp [sweepOrphanedImages] at h
  | some names =>
    cases podmanImages with
    | none => cases ha : orphanMaxAgeSeconds maxAge <;> simp [sweepOrphanedImages, listOpenhostImages, ha] at h
    | some rows =>
      refine ⟨?_, names, rows, rfl, rfl⟩
      by_contra hpos
      have hage : orphanMaxAgeSeconds maxAge = none := if_pos (by omega)
      simp [sweepOrphanedImages, hage] at h

theorem removable_iff {rows : List ImageRow} {appNames : List String} {imageId : String} :
    Removable rows appNames imageId ↔
      (∀ tag ∈ tagsOf rows imageId, ∀ appName ∈ appNames, ¬ IsTagOf appName tag) ∧
        (tagsOf rows imageId).any isAppTag = true := by
  simp only [List.any_eq_true, isAppTag_iff]
  exact ⟨fun h => ⟨h.notCurrent, h.built⟩, fun h => ⟨h.1, h.2⟩⟩

/-- A sweep leaves alone what it should, whichever removals podman performs, exactly when it does
nothing or no id that looks orphaned is shared. -/
theorem sweepOrphanedImages_removable_iff (maxAge : Int) (appNames : Option (List String))
    (podmanImages : Option (List ImageRow)) (nowEpoch : ℚ) :
    (∀ removeImageById, ∀ imageId ∈
        sweepOrphanedImages maxAge appNames podmanImages removeImageById nowEpoch,
      Removable (podmanImages.getD []) (appNames.getD []) imageId) ↔
    (0 < maxAge → ∀ names rows, appNames = some names → podmanImages = some rows →
      OrphansUnshared rows maxAge names nowEpoch) := by
  constructor
  · rintro h hpos names rows rfl rfl row hrow imageId hid hlooks
    have hmem : imageId ∈ sweepOrphanedImages maxAge (some names) (some rows) (fun _ => true)
        nowEpoch := (mem_sweepOrphanedImages hpos).mpr ⟨rfl, row, hrow, hid, hlooks⟩
    exact removable_iff.mp (h _ imageId hmem)
  · intro h removeImageById imageId hmem
    obtain ⟨hpos, names, rows, rfl, rfl⟩ := enabled_of_mem_sweep hmem
    obtain ⟨-, row, hrow, hid, hlooks⟩ := (mem_sweepOrphanedImages hpos).mp hmem
    exact removable_iff.mpr (h hpos names rows rfl rfl row hrow imageId hid hlooks)

/-! ## An app that was renamed -/

/-- The image of the app `journal`, which was called `notes`: the second build found every layer
in place, so the image kept its id and both tags. -/
def renamedImage : ImageRow where
  id := some "3f1c"
  created := some 0
  names := .list [some "localhost/openhost-notes:latest", some "localhost/openhost-journal:latest"]
  repoTags := .falsy

/-- The sweep takes the old tag for that of an app that is gone, and removes the image. -/
theorem renamedImage_not_removable :
    ¬ ∀ removeImageById, ∀ imageId ∈ sweepOrphanedImages 604800 (some ["journal"])
        (some [renamedImage]) removeImageById 700000,
      Removable [renamedImage] ["journal"] imageId := by
  intro h
  have hmem : "3f1c" ∈ sweepOrphanedImages 604800 (some ["journal"]) (some [renamedImage])
      (fun _ => true) 700000 := by decide +kernel
  have hcurrent := (h _ "3f1c" hmem).notCurrent "localhost/openhost-journal:latest"
    (by decide) "journal" (by decide)
  exact hcurrent (Or.inr (by decide))

end OpenHost.Apps
