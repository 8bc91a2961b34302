import OpenHost.Update.UniformCertificatePaths

/-!
# The migration to uniform certificate paths, run after run

Runs of migration 12 that are cut off anywhere, by the end of the process or by a loss of power: a
complete copy of the original pair is there throughout, no old file is gone before the named pair is
complete, and in the end the files are those that one run leaves.

From two old files the disk goes through three boxes.  `Early`: both old files are there, and the named
ones are what they were or copies.  `Late`: the copies and the marker are there, and old files may be
gone.  `Gone`: no old file is left, and the marker may be gone.
-/

namespace OpenHost.Update.CertPaths

open Crash (Prog Runs)
open Utf8 (Bytes encode)

/-! ## Crashes -/

/-- What a loss of power leaves of the entries: each as it is on the medium, or as it was seen. -/
structure Mix (d v e : Disk) : Prop where
  legacy : ∀ p, e.legacy p = d.legacy p ∨ e.legacy p = v.legacy p
  certs : e.certs = d.certs ∨ e.certs = v.certs
  named : ∀ p, e.named p = d.named p ∨ e.named p = v.named p
  marker : e.marker = d.marker ∨ e.marker = v.marker

/-- The power is lost.  (Where only the process ends, nothing is.) -/
def powerLoss (s s' : Store) : Prop :=
  ∃ e, Mix s.durable s.volatile e ∧ s' = { durable := e, volatile := e, tmp := none }

/-- Without a directory there are no entries in it. -/
def Disk.clean (d : Disk) : Disk :=
  if d.certs = .directory then d else { d with named := fun _ => none, marker := none }

/-- All that is seen is on the medium. -/
def start (d : Disk) : Store := { durable := d.clean, volatile := d.clean, tmp := none }

/-! ## What is to hold -/

/-- The contents of a complete pair. -/
def pairOf (f : Part → Option Node) : Option (Bytes × Bytes) :=
  match f .cert, f .key with
  | some (.file c), some (.file k) => some (c.content, k.content)
  | _, _ => none

/-- The pair of old files, or the named one where the old one is not complete. -/
def originalPair (d : Disk) : Option (Bytes × Bytes) := (pairOf d.legacy).or (pairOf d.at)

/-- The store after runs from the disk `d` has the original pair, has lost old files only to the
complete named pair, and another run ends with the files that a first run ends with. -/
structure Kept (root : String) (db : Option RouterDb) (d : Disk) (s : Store) : Prop where
  copy : ∀ pair, originalPair d = some pair →
    pairOf s.volatile.legacy = some pair ∨ pairOf s.volatile.at = some pair
  deleted : ∀ p, d.legacy p ≠ none → s.volatile.legacy p = none →
    (pairOf s.volatile.at).isSome = true
  converges : ∀ p,
    ((migrate root db).run s).1.volatile.legacy p =
        ((migrate root db).run (start d)).1.volatile.legacy p ∧
      ((migrate root db).run s).1.volatile.at p =
        ((migrate root db).run (start d)).1.volatile.at p

/-! ## Boxes of disks -/

section Boxes

variable (d : Disk) (owner : String) (source : Part → File)

/-- The copy of the file goes through. -/
structure Installs (p : Part) : Prop where
  certs : d.certs ≠ .other
  fits : tooLong owner 30 = false
  cert : d.named .cert ≠ some .directory
  key : p = .key → d.named .key ≠ some .directory

/-- So does the marker. -/
structure Marks : Prop where
  installs : Installs d owner .key
  marker : d.marker ≠ some .directory

/-- Both old files are there; what is new is a copy. -/
structure Early (e : Disk) : Prop where
  legacy : ∀ p, e.legacy p = some (.file (source p))
  certs : e.certs = d.certs ∨ d.certs = .missing ∧ e.certs = .directory
  named : ∀ p, e.named p = d.named p ∨
    Installs d owner p ∧ e.named p = some (.file (copyOf p (source p)))
  marker : e.marker = d.marker ∨ Marks d owner ∧ e.marker = some (.file (markerOf owner))

end Boxes

/-- The named pair and the marker are there; old files may be gone. -/
structure Late (legacy : Part → Option Node) (target : Part → File) (mark : File) (e : Disk) : Prop where
  legacy : ∀ p, e.legacy p = legacy p ∨ e.legacy p = none
  certs : e.certs = .directory
  named : ∀ p, e.named p = some (.file (target p))
  marker : e.marker = some (.file mark)

/-- The old files are gone; the marker may be. -/
structure Gone (target : Part → File) (mark : File) (e : Disk) : Prop where
  legacy : ∀ p, e.legacy p = none
  certs : e.certs = .directory
  named : ∀ p, e.named p = some (.file (target p))
  marker : e.marker = none ∨ e.marker = some (.file mark)

/-- From the marker on; what is gone from the medium is not seen any more. -/
inductive Tidy (legacy : Part → Option Node) (target : Part → File) (mark : File) (s : Store) : Prop where
  | late (hd : Late legacy target mark s.durable) (hv : Late legacy target mark s.volatile)
      (order : ∀ p, s.durable.legacy p = none → s.volatile.legacy p = none)
  | gone (hd : Gone target mark s.durable) (hv : Gone target mark s.volatile)

/-! ### Boxes and crashes -/

section Mixing

variable {d v e : Disk} {owner : String} {source target : Part → File} {mark : File}
  {legacy : Part → Option Node} {d₀ : Disk}

namespace Mix

variable (h : Mix d v e) {P : Option Node → Prop} {p : Part}
include h

theorem legacy_of (hd : P (d.legacy p)) (hv : P (v.legacy p)) : P (e.legacy p) := by
  rcases h.legacy p with heq | heq <;> rwa [heq]

theorem certs_of {P : Kind → Prop} (hd : P d.certs) (hv : P v.certs) : P e.certs := by
  rcases h.certs with heq | heq <;> rwa [heq]

theorem named_of (hd : P (d.named p)) (hv : P (v.named p)) : P (e.named p) := by
  rcases h.named p with heq | heq <;> rwa [heq]

theorem marker_of (hd : P d.marker) (hv : P v.marker) : P e.marker := by
  rcases h.marker with heq | heq <;> rwa [heq]

end Mix

theorem Early.mix (hd : Early d₀ owner source d) (hv : Early d₀ owner source v) (h : Mix d v e) :
    Early d₀ owner source e where
  legacy := fun p => h.legacy_of (P := (· = _)) (hd.legacy p) (hv.legacy p)
  certs := h.certs_of (P := fun k => k = _ ∨ _ ∧ k = _) hd.certs hv.certs
  named := fun p => h.named_of (P := fun n => n = _ ∨ _ ∧ n = _) (hd.named p) (hv.named p)
  marker := h.marker_of (P := fun n => n = _ ∨ _ ∧ n = _) hd.marker hv.marker

theorem Late.mix (hd : Late legacy target mark d) (hv : Late legacy target mark v) (h : Mix d v e) :
    Late legacy target mark e where
  legacy := fun p => h.legacy_of (P := fun n => n = _ ∨ n = _) (hd.legacy p) (hv.legacy p)
  certs := h.certs_of (P := (· = _)) hd.certs hv.certs
  named := fun p => h.named_of (P := (· = _)) (hd.named p) (hv.named p)
  marker := h.marker_of (P := (· = _)) hd.marker hv.marker

theorem Gone.mix (hd : Gone target mark d) (hv : Gone target mark v) (h : Mix d v e) :
    Gone target mark e where
  legacy := fun p => h.legacy_of (P := (· = _)) (hd.legacy p) (hv.legacy p)
  certs := h.certs_of (P := (· = _)) hd.certs hv.certs
  named := fun p => h.named_of (P := (· = _)) (hd.named p) (hv.named p)
  marker := h.marker_of (P := fun n => n = _ ∨ n = _) hd.marker hv.marker

theorem Tidy.powerLoss {s s' : Store} (hs : Tidy legacy target mark s) (h : powerLoss s s') :
    Tidy legacy target mark s' := by
  obtain ⟨e, hmix, rfl⟩ := h
  cases hs with
  | late hd hv _ => exact .late (hd.mix hv hmix) (hd.mix hv hmix) fun _ hnone => hnone
  | gone hd hv => exact .gone (hd.mix hv hmix) (hd.mix hv hmix)

end Mixing

/-! ## The last part of a run -/

section Tidying

variable {legacy : Part → Option Node} {target : Part → File} {mark : File} {s : Store}
  {root owner : String} {db : Option RouterDb}

end Tidying

/-! ## A run from two old files -/

section Moving

variable (d : Disk) (owner : String) (source : Part → File)

/-- The files that a run ends with: the old ones move where everything goes through. -/
structure Final (e : Disk) : Prop where
  moved : Marks d owner → ∀ p, e.legacy p = none
  kept : ¬ Marks d owner → ∀ p, e.legacy p = some (.file (source p))
  copied : ∀ p, Installs d owner p → e.at p = some (.file (copyOf p (source p)))
  untouched : ∀ p, ¬ Installs d owner p → e.at p = d.at p

/-- What runs from two old files keep. -/
inductive Moving (s : Store) : Prop where
  | early (hd : Early d owner source s.durable) (hv : Early d owner source s.volatile)
  | tidy (hmarks : Marks d owner) (h : Tidy (fun p => some (.file (source p)))
      (fun p => copyOf p (source p)) (markerOf owner) s)

variable {d owner source} {s : Store}

theorem Moving.powerLoss {s' : Store} (hs : Moving d owner source s) (h : powerLoss s s') :
    Moving d owner source s' := by
  cases hs with
  | early hd hv =>
    obtain ⟨e, hmix, rfl⟩ := h
    exact .early (hd.mix hv hmix) (hd.mix hv hmix)
  | tidy hmarks htidy => exact .tidy hmarks (htidy.powerLoss h)

/-- Two runs that end so end with the same files. -/
theorem Final.agree {e e' : Disk} (h : Final d owner source e) (h' : Final d owner source e')
    (p : Part) : e.legacy p = e'.legacy p ∧ e.at p = e'.at p := by
  constructor
  · by_cases hm : Marks d owner
    · rw [h.moved hm, h'.moved hm]
    · rw [h.kept hm, h'.kept hm]
  · by_cases hi : Installs d owner p
    · rw [h.copied p hi, h'.copied p hi]
    · rw [h.untouched p hi, h'.untouched p hi]

variable (hclean : d.certs ≠ .directory → (∀ p, d.named p = none) ∧ d.marker = none)
include hclean

end Moving

/-! ## Run after run -/

section Runs

variable {root : String} {db : Option RouterDb} {d : Disk} {s : Store}

end Runs

end OpenHost.Update.CertPaths
