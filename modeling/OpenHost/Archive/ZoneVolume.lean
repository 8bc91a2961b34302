import OpenHost.Archive.Configure
import OpenHost.Library.Hex
import OpenHost.Library.Utf8

/-!
# The volume name a zone derives

A zone that moves its archive into a shared bucket keys its objects by the volume name, so the name
has to be one JuiceFS accepts and no other zone's.  It is made of the zone's domain, brought into the
permitted alphabet, and of the start of the domain's SHA-256.
-/

namespace OpenHost.Archive

open OpenHost.Text

/-! ## The slug -/

/-- What a substitution leaves is the replacement or was outside the class. -/
theorem mem_subRuns {p : Char → Bool} {rep c : Char} {cs : List Char} {inRun : Bool}
    (h : c ∈ subRuns p rep inRun cs) : c = rep ∨ (c ∈ cs ∧ p c = false) := by
  induction cs generalizing inRun with
  | nil => simp [subRuns] at h
  | cons d cs ih =>
    have hrest : ∀ b, c ∈ subRuns p rep b cs → c = rep ∨ (c ∈ d :: cs ∧ p c = false) :=
      fun b hb => (ih hb).imp_right fun hc => ⟨List.mem_cons_of_mem _ hc.1, hc.2⟩
    simp only [subRuns] at h
    split at h
    · split at h
      · exact hrest _ h
      · -- the run starts here: its replacement, or something after it
        rcases List.mem_cons.mp h with rfl | h
        · exact .inl rfl
        · exact hrest _ h
    · rename_i hd
      rcases List.mem_cons.mp h with rfl | h
      · exact .inr ⟨List.mem_cons_self, by simpa using hd⟩
      · exact hrest _ h

@[simp] theorem slugChar_dash : slugChar '-' = true := by decide

/-- The zone in the permitted alphabet, with no dash at the ends and no two in a row. -/
def zoneSlug (zone : String) : List Char :=
  subRuns (· = '-') '-' false
    (strip '-' (String.ofList (subRuns (fun c => !slugChar c) '-' false zone.toList))).toList

theorem slugChar_of_mem_zoneSlug {zone : String} {c : Char} (h : c ∈ zoneSlug zone) :
    slugChar c = true := by
  -- the second substitution puts in dashes, the strip takes characters out
  rcases mem_subRuns h with rfl | ⟨hc, -⟩
  · simp
  · have hc := (strip_inside _ _).subset hc
    rw [String.toList_ofList] at hc
    rcases mem_subRuns hc with rfl | ⟨-, hc⟩
    · simp
    · simpa using hc

/-- The part of the name that comes from the zone's domain: what fits beside a digest of eight. -/
def zoneHead (zone : String) : String := strip '-' (String.ofList ((zoneSlug zone).take 51))

theorem length_zoneHead_le (zone : String) : (zoneHead zone).toList.length ≤ 51 := by
  refine (strip_inside _ _).length_le.trans ?_
  rw [String.toList_ofList]
  exact List.length_take_le _ _

theorem slugChar_of_mem_zoneHead {zone : String} {c : Char} (h : c ∈ (zoneHead zone).toList) :
    slugChar c = true := by
  have hc := (strip_inside _ _).subset h
  rw [String.toList_ofList] at hc
  exact slugChar_of_mem_zoneSlug (List.mem_of_mem_take hc)

/-! ## The digest -/

section

variable (sha256 : List UInt8 → Vector UInt8 32)

/-- `hashlib.sha256(text.encode()).hexdigest()` -/
def sha256Hex (text : String) : String := Hex.hexdigest (sha256 (Utf8.encode text)).toList

/-- `digest`: the start of the zone's SHA-256, or eight zeros where there is no zone. -/
def zoneDigest (zone : String) : String :=
  if zone = "" then "00000000" else String.ofList ((sha256Hex sha256 zone).toList.take 8)

@[simp] theorem length_zoneDigest (zone : String) : (zoneDigest sha256 zone).toList.length = 8 := by
  unfold zoneDigest
  split
  · rfl
  · simp [sha256Hex]

theorem isDigit_or_isLower_of_mem_zoneDigest {zone : String} {c : Char}
    (h : c ∈ (zoneDigest sha256 zone).toList) : c.isDigit = true ∨ c.isLower = true := by
  unfold zoneDigest at h
  split at h
  · have hzero : c = '0' := by simpa using h
    rw [hzero]
    exact .inl rfl
  · rw [String.toList_ofList] at h
    exact Hex.isDigit_or_isLower_of_mem_hexdigest (List.mem_of_mem_take h)

theorem slugChar_of_mem_zoneDigest {zone : String} {c : Char}
    (h : c ∈ (zoneDigest sha256 zone).toList) : slugChar c = true := by
  rcases isDigit_or_isLower_of_mem_zoneDigest sha256 h with hc | hc <;> simp [slugChar, hc]

theorem getLast?_append_zoneDigest (front : List Char) (zone : String) :
    (front ++ (zoneDigest sha256 zone).toList).getLast? ≠ some '-' := by
  have hne : (zoneDigest sha256 zone).toList ≠ [] := by
    intro h
    simpa [h] using length_zoneDigest sha256 zone
  rw [List.getLast?_append_of_ne_nil _ hne]
  intro h
  have hdash := isDigit_or_isLower_of_mem_zoneDigest sha256 (List.mem_of_getLast? h)
  revert hdash
  decide

/-! ## The name -/

/-- What stands before the digest: `oh-`, and the head where there is one. -/
def zoneFront (zone : String) : String :=
  if zoneHead zone = "" then "oh-" else "oh-" ++ zoneHead zone ++ "-"

theorem length_zoneFront (zone : String) :
    3 ≤ (zoneFront zone).toList.length ∧ (zoneFront zone).toList.length ≤ 55 := by
  have hhead := length_zoneHead_le zone
  unfold zoneFront
  split
  · decide
  · simp only [String.toList_append, List.length_append]
    have hoh : "oh-".toList.length = 3 := rfl
    have hdash : "-".toList.length = 1 := rfl
    omega

theorem slugChar_of_mem_zoneFront {zone : String} {c : Char} (h : c ∈ (zoneFront zone).toList) :
    slugChar c = true := by
  have hoh : ∀ d ∈ "oh-".toList, slugChar d = true :=
    List.all_eq_true.mp (by decide : "oh-".toList.all slugChar = true)
  unfold zoneFront at h
  split at h
  · exact hoh c h
  · simp only [String.toList_append, List.mem_append] at h
    rcases h with (h | h) | h
    · exact hoh c h
    · exact slugChar_of_mem_zoneHead h
    · rw [show c = '-' by simpa using h]
      exact slugChar_dash

theorem head?_zoneFront_append (zone : String) (rest : List Char) :
    ((zoneFront zone).toList ++ rest).head? = some 'o' := by
  unfold zoneFront
  split <;> simp

/-- The clamp and the last strip of the source change nothing: the name is the front and the
digest. -/
theorem defaultVolumeNameForZone_eq (primaryZone : Option String) :
    defaultVolumeNameForZone (sha256Hex sha256) primaryZone =
      zoneFront (primaryZone.getD "") ++ zoneDigest sha256 (primaryZone.getD "") := by
  generalize hzone : primaryZone.getD "" = zone
  have hlen := length_zoneDigest sha256 zone
  have hfront := (length_zoneFront zone).2
  have hname : (if zoneHead zone = "" then "oh-" ++ zoneDigest sha256 zone
      else "oh-" ++ zoneHead zone ++ "-" ++ zoneDigest sha256 zone) =
        zoneFront zone ++ zoneDigest sha256 zone := by
    unfold zoneFront
    split <;> rfl
  have hclamp : String.ofList ((zoneFront zone ++ zoneDigest sha256 zone).toList.take 63) =
      zoneFront zone ++ zoneDigest sha256 zone := by
    rw [List.take_of_length_le, String.ofList_toList]
    rw [String.toList_append, List.length_append]
    omega
  have hstrip : strip '-' (zoneFront zone ++ zoneDigest sha256 zone) =
      zoneFront zone ++ zoneDigest sha256 zone := by
    apply strip_of_ends
    · rw [String.toList_append, head?_zoneFront_append]
      decide
    · rw [String.toList_append]
      exact getLast?_append_zoneDigest sha256 _ zone
  calc
    defaultVolumeNameForZone (sha256Hex sha256) primaryZone
      = orElse (some (strip '-' (String.ofList
          ((if zoneHead zone = "" then "oh-" ++ zoneDigest sha256 zone
            else "oh-" ++ zoneHead zone ++ "-" ++ zoneDigest sha256 zone).toList.take 63))))
          defaultVolumeName := by
        have hdigest : (if zone = "" then "00000000"
            else String.ofList ((sha256Hex sha256 zone).toList.take 8)) =
              zoneDigest sha256 zone := rfl
        simp only [defaultVolumeNameForZone, hzone, hdigest, hlen]
        rfl
    _ = orElse (some (zoneFront zone ++ zoneDigest sha256 zone)) defaultVolumeName := by
        rw [hname, hclamp, hstrip]
    _ = zoneFront zone ++ zoneDigest sha256 zone := by
        apply orElse_some_of_ne
        intro hempty
        have hlength := congrArg (fun s => s.toList.length) hempty
        simp only [String.toList_append, List.length_append, hlen] at hlength
        simp at hlength

/-- The derived name is one JuiceFS accepts, and two zones with different digests get different
names. -/
theorem defaultVolumeNameForZone_valid_and_distinct (primaryZone : Option String) :
    validVolumeName (defaultVolumeNameForZone (sha256Hex sha256) primaryZone) = true ∧
      ∀ other : Option String,
        zoneDigest sha256 (primaryZone.getD "") ≠ zoneDigest sha256 (other.getD "") →
          defaultVolumeNameForZone (sha256Hex sha256) primaryZone ≠
            defaultVolumeNameForZone (sha256Hex sha256) other := by
  simp only [defaultVolumeNameForZone_eq]
  refine ⟨?_, fun other hdigests hnames => hdigests ?_⟩
  · generalize primaryZone.getD "" = zone
    have hfront := length_zoneFront zone
    have hlen := length_zoneDigest sha256 zone
    have hlast := getLast?_append_zoneDigest sha256 (zoneFront zone).toList zone
    have hall : ∀ c ∈ (zoneFront zone).toList ++ (zoneDigest sha256 zone).toList,
        slugChar c = true := by
      intro c hc
      rcases List.mem_append.mp hc with hc | hc
      · exact slugChar_of_mem_zoneFront hc
      · exact slugChar_of_mem_zoneDigest sha256 hc
    simp only [validVolumeName, String.toList_append, List.length_append, Bool.and_eq_true,
      decide_eq_true_eq, bne_iff_ne, head?_zoneFront_append]
    refine ⟨⟨⟨⟨?_, ?_⟩, List.all_eq_true.mpr hall⟩, by decide⟩, hlast⟩
    · omega
    · omega
  · -- the digest is the last eight characters of either name
    have hlists := congrArg String.toList hnames
    rw [String.toList_append, String.toList_append] at hlists
    have htail := List.append_inj_right' hlists (by simp)
    exact String.toList_inj.mp htail

end

end OpenHost.Archive
