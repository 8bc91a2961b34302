import Mathlib.Data.List.Infix
import OpenHost.Library.Crash

/-!
# Replacing a certificate and its key

`write_cert_and_key` writes two files, one after the other and each in place; `get_cert_status` reads
the certificate and looks only whether the key is there.  A crash in between leaves a pair that does
not belong together, and nothing on the next start says so.
-/

namespace OpenHost.Tls

open Crash (Prog)

/-- The contents of a file. -/
abbrev Bytes : Type := List UInt8

/-- The certificate file and the key file of one domain. -/
structure CertFiles where
  cert : Option Bytes
  key : Option Bytes
  deriving DecidableEq

/-- The parts of the `cryptography` package that decide about a pair. -/
structure X509 (C : Type) where
  /-- `x509.load_pem_x509_certificate`; `none` where it raises `ValueError`. -/
  loadPem : Bytes → Option C
  /-- `not_valid_after_utc`, in microseconds. -/
  notValidAfter : C → Int
  /-- The file holds the private key to the public key of the certificate. -/
  belongs : C → Bytes → Bool

variable {C : Type}

/-! ## Writing the pair -/

/-- `open(path, "wb")` and `f.write(pem)` on the certificate; what has been written before a crash is
some part of it from the start. -/
def writeCert (certPem : Bytes) : Prog CertFiles :=
  .act (fun s => { s with cert := some [] })
    (.actAll (fun b s => { s with cert := s.cert.map (· ++ [b]) }) certPem)

/-- `os.open(path, O_WRONLY | O_CREAT | O_TRUNC)` and `f.write(pem)` on the key. -/
def writeKey (keyPem : Bytes) : Prog CertFiles :=
  .act (fun s => { s with key := some [] })
    (.actAll (fun b s => { s with key := s.key.map (· ++ [b]) }) keyPem)

/-- `write_cert_and_key` -/
def writeCertAndKey (certPem keyPem : Bytes) : Prog CertFiles :=
  (writeCert certPem).andThen (writeKey keyPem)

/-! ## The status on the next start -/

/-- `CertStatus` -/
inductive CertStatus where
  | missing
  | expired
  | expiringSoon
  | ok
  deriving DecidableEq, Repr

/-- `RENEW_BEFORE`, in microseconds. -/
def renewBefore : Int := 7 * 24 * 60 * 60 * 1000000

/-- `get_cert_status` -/
def getCertStatus (x : X509 C) (s : CertFiles) (now : Int) : CertStatus :=
  match s.cert, s.key with
  | some certPem, some _ =>
    match x.loadPem certPem with
    | none => .expired
    | some cert =>
      if x.notValidAfter cert ≤ now then .expired
      else if x.notValidAfter cert ≤ now + renewBefore then .expiringSoon
      else .ok
  | _, _ => .missing

/-- The two files are there and belong together. -/
def Together (x : X509 C) (s : CertFiles) : Prop :=
  ∃ certPem keyPem cert, s.cert = some certPem ∧ s.key = some keyPem ∧
    x.loadPem certPem = some cert ∧ x.belongs cert keyPem = true

/-! ## What is relied on -/

/-- The first certificate in a file is what is read: more text after it changes nothing. -/
def X509.ReadsFirst (x : X509 C) : Prop :=
  ∀ certPem n cert, x.loadPem (certPem.take n) = some cert → x.loadPem certPem = some cert

/-- An empty file holds no private key. -/
def X509.NoEmptyKey (x : X509 C) : Prop := ∀ cert, x.belongs cert [] = false

/-! ## Where a write may be cut off -/

theorem foldl_cert (bs : Bytes) (c : Bytes) (key : Option Bytes) :
    bs.foldl (fun (s : CertFiles) b => { s with cert := s.cert.map (· ++ [b]) }) ⟨some c, key⟩ =
      ⟨some (c ++ bs), key⟩ := by
  induction bs generalizing c with
  | nil => simp
  | cons b bs ih =>
    rw [List.foldl_cons]
    show List.foldl _ (⟨some (c ++ [b]), key⟩ : CertFiles) bs = _
    rw [ih, List.append_assoc, List.singleton_append]

theorem foldl_key (bs : Bytes) (cert : Option Bytes) (k : Bytes) :
    bs.foldl (fun (s : CertFiles) b => { s with key := s.key.map (· ++ [b]) }) ⟨cert, some k⟩ =
      ⟨cert, some (k ++ bs)⟩ := by
  induction bs generalizing k with
  | nil => simp
  | cons b bs ih =>
    rw [List.foldl_cons]
    show List.foldl _ (⟨cert, some (k ++ [b])⟩ : CertFiles) bs = _
    rw [ih, List.append_assoc, List.singleton_append]

theorem cut_writeCert_iff {certPem : Bytes} {s s' : CertFiles} :
    Prog.Cut (writeCert certPem) s s' ↔
      s' = s ∨ ∃ n ≤ certPem.length, s' = ⟨some (certPem.take n), s.key⟩ := by
  constructor
  · intro h
    cases h with
    | here => exact Or.inl rfl
    | act h =>
      obtain ⟨n, hn, rfl⟩ := Prog.cut_actAll_iff.mp h
      exact Or.inr ⟨n, hn, foldl_cert _ [] s.key⟩
  · rintro (rfl | ⟨n, hn, rfl⟩)
    · exact .here
    · exact .act (Prog.cut_actAll_iff.mpr ⟨n, hn, (foldl_cert _ [] s.key).symm⟩)

theorem cut_writeKey_iff {keyPem : Bytes} {s s' : CertFiles} :
    Prog.Cut (writeKey keyPem) s s' ↔
      s' = s ∨ ∃ n ≤ keyPem.length, s' = ⟨s.cert, some (keyPem.take n)⟩ := by
  constructor
  · intro h
    cases h with
    | here => exact Or.inl rfl
    | act h =>
      obtain ⟨n, hn, rfl⟩ := Prog.cut_actAll_iff.mp h
      exact Or.inr ⟨n, hn, foldl_key _ s.cert []⟩
  · rintro (rfl | ⟨n, hn, rfl⟩)
    · exact .here
    · exact .act (Prog.cut_actAll_iff.mpr ⟨n, hn, (foldl_key _ s.cert []).symm⟩)

/-- A crash leaves the old pair, a part of the new certificate beside the old key, or the new
certificate beside a part of the new key. -/
theorem cut_writeCertAndKey_iff {certPem keyPem : Bytes} {s s' : CertFiles} :
    Prog.Cut (writeCertAndKey certPem keyPem) s s' ↔
      s' = s ∨ (∃ n ≤ certPem.length, s' = ⟨some (certPem.take n), s.key⟩) ∨
        ∃ n ≤ keyPem.length, s' = ⟨some certPem, some (keyPem.take n)⟩ := by
  have hrun : (writeCert certPem).run s = (⟨some certPem, s.key⟩, none) := by
    show (Prog.actAll _ certPem).run _ = _
    rw [Prog.run_actAll, foldl_cert, List.nil_append]
  rw [writeCertAndKey, Prog.cut_andThen_iff, hrun, cut_writeCert_iff, cut_writeKey_iff]
  constructor
  · rintro ((h | h) | ⟨-, rfl | h⟩)
    · exact Or.inl h
    · exact Or.inr (Or.inl h)
    · exact Or.inr (Or.inl ⟨certPem.length, Nat.le_refl _, by rw [List.take_length]⟩)
    · exact Or.inr (Or.inr h)
  · rintro (h | h | h)
    · exact Or.inl (Or.inl h)
    · exact Or.inl (Or.inr h)
    · exact Or.inr ⟨rfl, Or.inr h⟩

/-! ## The status -/

theorem getCertStatus_ok_iff {x : X509 C} {s : CertFiles} {now : Int} :
    getCertStatus x s now = .ok ↔ ∃ certPem keyPem cert, s.cert = some certPem ∧
      s.key = some keyPem ∧ x.loadPem certPem = some cert ∧
        now + renewBefore < x.notValidAfter cert := by
  have hpos : 0 < renewBefore := by decide
  obtain ⟨certPem, keyPem⟩ := s
  cases certPem with
  | none => simp [getCertStatus]
  | some certPem =>
    cases keyPem with
    | none => simp [getCertStatus]
    | some keyPem =>
      unfold getCertStatus
      dsimp only
      cases hload : x.loadPem certPem with
      | none => simp [hload]
      | some cert =>
        dsimp only
        split
        · rename_i hexpired
          simp [hload]
          omega
        · split
          · rename_i hsoon
            simp [hload]
            omega
          · rename_i hsoon
            simp [hload]
            omega

/-- Whatever the crash point in the replacement of a pair, the files belong together on the next start
or the status is not OK, exactly if the new certificate is about to expire by then: otherwise the
crash that leaves the key empty shows as OK. -/
theorem crash_safe_iff (x : X509 C) (hfirst : x.ReadsFirst) (hempty : x.NoEmptyKey)
    {s : CertFiles} (hold : Together x s) (certPem keyPem : Bytes) {cert : C}
    (hload : x.loadPem certPem = some cert) (now : Int) :
    (∀ s', Prog.Cut (writeCertAndKey certPem keyPem) s s' →
      Together x s' ∨ getCertStatus x s' now ≠ .ok) ↔
      x.notValidAfter cert ≤ now + renewBefore := by
  constructor
  · intro hsafe
    -- the crash right after the key was opened
    have hcut : Prog.Cut (writeCertAndKey certPem keyPem) s ⟨some certPem, some []⟩ :=
      cut_writeCertAndKey_iff.mpr (Or.inr (Or.inr ⟨0, Nat.zero_le _, rfl⟩))
    rcases hsafe _ hcut with ⟨certPem', keyPem', cert', -, hkey, -, hbelongs⟩ | hstatus
    · cases hkey
      rw [hempty cert'] at hbelongs
      cases hbelongs
    · rw [ne_eq, getCertStatus_ok_iff] at hstatus
      refine Int.not_lt.mp fun hlate => ?_
      exact hstatus ⟨certPem, [], cert, rfl, rfl, hload, hlate⟩
  · intro hsoon s' hcut
    rcases cut_writeCertAndKey_iff.mp hcut with rfl | ⟨n, -, rfl⟩ | ⟨n, -, rfl⟩
    · exact Or.inl hold
    · refine Or.inr ?_
      rw [ne_eq, getCertStatus_ok_iff]
      rintro ⟨certPem', keyPem', cert', hcert, -, hload', hlate⟩
      cases hcert
      -- what can be read of the new certificate is the new certificate
      rw [hfirst certPem n cert' hload', Option.some.injEq] at hload
      subst hload
      omega
    · refine Or.inr ?_
      rw [ne_eq, getCertStatus_ok_iff]
      rintro ⟨certPem', keyPem', cert', hcert, -, hload', hlate⟩
      cases hcert
      rw [hload, Option.some.injEq] at hload'
      subst hload'
      omega

/-! ### Two pairs -/

/-- A certificate and its key as they are read, with the end of its validity. -/
structure Issued where
  certPem : Bytes
  keyPem : Bytes
  notValidAfter : Int

/-- What `cryptography` makes of the files of two pairs, and of parts of them. -/
def twoPairs (p q : Issued) : X509 Bool where
  loadPem := fun certPem =>
    if p.certPem.isPrefixOf certPem then some false
    else if q.certPem.isPrefixOf certPem then some true
    else none
  notValidAfter := fun cert => if cert then q.notValidAfter else p.notValidAfter
  belongs := fun cert keyPem => (if cert then q.keyPem else p.keyPem).isPrefixOf keyPem

theorem together_old (p q : Issued) : Together (twoPairs p q) ⟨some p.certPem, some p.keyPem⟩ :=
  ⟨p.certPem, p.keyPem, false, rfl, rfl, by simp [twoPairs], by simp [twoPairs]⟩

/-- The two can be told apart, and have keys. -/
structure Apart (p q : Issued) : Prop where
  certLength : p.certPem.length = q.certPem.length
  cert : p.certPem ≠ q.certPem
  keyLength : p.keyPem.length = q.keyPem.length
  key : p.keyPem ≠ q.keyPem
  keyNotEmpty : p.keyPem.length ≠ 0

namespace Apart

variable {p q : Issued} (h : Apart p q)
include h

theorem not_prefix {certPem : Bytes} (hp : p.certPem <+: certPem) : ¬ q.certPem <+: certPem := by
  intro hq
  have hstart := List.prefix_of_prefix_length_le hp hq h.certLength.le
  exact h.cert (hstart.eq_of_length h.certLength)

theorem readsFirst : (twoPairs p q).ReadsFirst := by
  intro certPem n cert hload
  have htake : certPem.take n <+: certPem := List.take_prefix n certPem
  simp only [twoPairs, List.isPrefixOf_iff_prefix] at hload ⊢
  split at hload
  · rename_i hp
    rw [if_pos (hp.trans htake)]
    exact hload
  · split at hload
    · rename_i hq
      have hq' := hq.trans htake
      rw [if_neg fun hp => h.not_prefix hp hq', if_pos hq']
      exact hload
    · cases hload

theorem noEmptyKey : (twoPairs p q).NoEmptyKey := by
  intro cert
  have hkey : ∀ k : Bytes, k.length ≠ 0 → k.isPrefixOf ([] : Bytes) = false := by
    intro k hk
    cases k with
    | nil => exact absurd rfl hk
    | cons b k => rfl
  cases cert with
  | false => exact hkey p.keyPem h.keyNotEmpty
  | true => exact hkey q.keyPem (h.keyLength ▸ h.keyNotEmpty)

theorem loadPem_new : (twoPairs p q).loadPem q.certPem = some true := by
  have hnot : ¬ p.certPem <+: q.certPem := fun hp => h.not_prefix hp (List.prefix_refl _)
  simp [twoPairs, hnot]

theorem not_belongs : (twoPairs p q).belongs true p.keyPem = false := by
  show q.keyPem.isPrefixOf p.keyPem = false
  rw [Bool.eq_false_iff, ne_eq, List.isPrefixOf_iff_prefix]
  intro hstart
  exact h.key (hstart.eq_of_length h.keyLength.symm).symm

theorem together_new : Together (twoPairs p q) ⟨some q.certPem, some q.keyPem⟩ :=
  ⟨q.certPem, q.keyPem, true, rfl, rfl, h.loadPem_new, by simp [twoPairs]⟩

end Apart

/-- The PEM text of a certificate for the name `a`, without the last line break. -/
@[irreducible] def oldCertPem : Bytes :=
  [45, 45, 45, 45, 45, 66, 69, 71, 73, 78, 32, 67, 69, 82, 84, 73, 70, 73, 67, 65, 84, 69, 45, 45,
    45, 45, 45, 10, 77, 73, 71, 43, 77, 72, 73, 67, 65, 81, 69, 119, 66, 81, 89, 68, 75, 50, 86,
    119, 77, 65, 119, 120, 67, 106, 65, 73, 66, 103, 78, 86, 66, 65, 77, 77, 65, 87, 69, 119, 72,
    104, 99, 78, 77, 106, 89, 120, 77, 84, 69, 53, 77, 68, 107, 120, 78, 68, 81, 51, 87, 104, 99,
    78, 10, 77, 106, 99, 119, 77, 84, 69, 52, 77, 68, 107, 120, 78, 68, 81, 51, 87, 106, 65, 77,
    77, 81, 111, 119, 67, 65, 89, 68, 86, 81, 81, 68, 68, 65, 70, 104, 77, 67, 111, 119, 66, 81,
    89, 68, 75, 50, 86, 119, 65, 121, 69, 65, 78, 52, 76, 104, 79, 48, 104, 52, 49, 51, 77, 103,
    10, 54, 56, 111, 107, 78, 108, 116, 98, 89, 67, 120, 86, 51, 73, 106, 103, 100, 69, 118, 89,
    51, 98, 99, 118, 56, 83, 49, 118, 85, 76, 81, 119, 66, 81, 89, 68, 75, 50, 86, 119, 65, 48,
    69, 65, 104, 115, 69, 114, 66, 67, 70, 122, 106, 51, 52, 103, 109, 112, 79, 105, 48, 85, 89,
    65, 10, 74, 108, 100, 47, 70, 54, 84, 106, 78, 118, 74, 111, 55, 110, 76, 51, 97, 76, 112, 90,
    65, 87, 121, 116, 54, 52, 85, 97, 121, 70, 67, 57, 51, 113, 106, 89, 90, 111, 55, 90, 83, 72,
    105, 114, 114, 88, 76, 113, 121, 84, 43, 90, 75, 85, 98, 78, 43, 71, 72, 52, 111, 82, 75, 117,
    10, 65, 81, 61, 61, 10, 45, 45, 45, 45, 45, 69, 78, 68, 32, 67, 69, 82, 84, 73, 70, 73, 67,
    65, 84, 69, 45, 45, 45, 45, 45]

/-- The PEM text of its key. -/
@[irreducible] def oldKeyPem : Bytes :=
  [45, 45, 45, 45, 45, 66, 69, 71, 73, 78, 32, 80, 82, 73, 86, 65, 84, 69, 32, 75, 69, 89, 45, 45,
    45, 45, 45, 10, 77, 67, 52, 67, 65, 81, 65, 119, 66, 81, 89, 68, 75, 50, 86, 119, 66, 67, 73,
    69, 73, 72, 87, 79, 119, 83, 113, 115, 105, 84, 119, 110, 101, 77, 77, 112, 121, 90, 87, 116,
    74, 104, 52, 87, 72, 106, 55, 52, 87, 70, 74, 111, 75, 54, 119, 104, 74, 53, 67, 82, 112, 82,
    110, 112, 10, 45, 45, 45, 45, 45, 69, 78, 68, 32, 80, 82, 73, 86, 65, 84, 69, 32, 75, 69, 89,
    45, 45, 45, 45, 45]

/-- The PEM text of a later certificate. -/
@[irreducible] def newCertPem : Bytes :=
  [45, 45, 45, 45, 45, 66, 69, 71, 73, 78, 32, 67, 69, 82, 84, 73, 70, 73, 67, 65, 84, 69, 45, 45,
    45, 45, 45, 10, 77, 73, 71, 43, 77, 72, 73, 67, 65, 81, 73, 119, 66, 81, 89, 68, 75, 50, 86,
    119, 77, 65, 119, 120, 67, 106, 65, 73, 66, 103, 78, 86, 66, 65, 77, 77, 65, 87, 69, 119, 72,
    104, 99, 78, 77, 106, 89, 120, 77, 84, 69, 53, 77, 68, 107, 120, 78, 68, 81, 51, 87, 104, 99,
    78, 10, 77, 106, 99, 119, 77, 106, 69, 51, 77, 68, 107, 120, 78, 68, 81, 51, 87, 106, 65, 77,
    77, 81, 111, 119, 67, 65, 89, 68, 86, 81, 81, 68, 68, 65, 70, 104, 77, 67, 111, 119, 66, 81,
    89, 68, 75, 50, 86, 119, 65, 121, 69, 65, 69, 97, 111, 97, 51, 84, 52, 73, 54, 109, 112, 65,
    10, 113, 118, 80, 82, 56, 88, 79, 88, 86, 97, 114, 71, 43, 84, 83, 69, 104, 56, 101, 68, 88,
    116, 52, 110, 70, 75, 75, 86, 108, 55, 119, 119, 66, 81, 89, 68, 75, 50, 86, 119, 65, 48, 69,
    65, 80, 111, 67, 55, 84, 48, 69, 101, 49, 73, 49, 77, 54, 90, 74, 112, 77, 66, 84, 110, 10,
    107, 108, 76, 84, 43, 110, 80, 77, 81, 71, 115, 56, 81, 115, 65, 75, 90, 47, 98, 104, 84, 114,
    119, 85, 73, 117, 109, 105, 104, 107, 78, 82, 121, 83, 77, 79, 43, 50, 51, 71, 74, 117, 43,
    116, 43, 121, 73, 109, 76, 84, 106, 69, 85, 84, 74, 107, 104, 47, 80, 82, 50, 97, 68, 101, 10,
    68, 103, 61, 61, 10, 45, 45, 45, 45, 45, 69, 78, 68, 32, 67, 69, 82, 84, 73, 70, 73, 67, 65,
    84, 69, 45, 45, 45, 45, 45]

/-- The PEM text of its key. -/
@[irreducible] def newKeyPem : Bytes :=
  [45, 45, 45, 45, 45, 66, 69, 71, 73, 78, 32, 80, 82, 73, 86, 65, 84, 69, 32, 75, 69, 89, 45, 45,
    45, 45, 45, 10, 77, 67, 52, 67, 65, 81, 65, 119, 66, 81, 89, 68, 75, 50, 86, 119, 66, 67, 73,
    69, 73, 79, 50, 50, 82, 56, 66, 114, 99, 74, 80, 78, 116, 50, 66, 70, 79, 80, 99, 115, 70,
    113, 71, 49, 69, 51, 52, 80, 99, 81, 90, 107, 65, 102, 120, 109, 117, 86, 111, 53, 48, 116,
    78, 86, 10, 45, 45, 45, 45, 45, 69, 78, 68, 32, 80, 82, 73, 86, 65, 84, 69, 32, 75, 69, 89,
    45, 45, 45, 45, 45]

/-- Valid until 18 January 2027. -/
def oldPair : Issued := ⟨oldCertPem, oldKeyPem, 1800263687000000⟩

/-- Valid until 17 February 2027. -/
def newPair : Issued := ⟨newCertPem, newKeyPem, 1802855687000000⟩

theorem oldPair_apart_newPair : Apart oldPair newPair where
  certLength := show oldCertPem.length = newCertPem.length by decide +kernel
  cert := show oldCertPem ≠ newCertPem by decide +kernel
  keyLength := show oldKeyPem.length = newKeyPem.length by decide +kernel
  key := show oldKeyPem ≠ newKeyPem by decide +kernel
  keyNotEmpty := show oldKeyPem.length ≠ 0 by decide +kernel

/-- Two days before the new certificate expires it is due, and every crash point is safe. -/
theorem crash_safe_near_expiry :
    (1802855687000000 : Int) ≤ 1802682887000000 + renewBefore ∧
      ∀ s', Prog.Cut (writeCertAndKey newPair.certPem newPair.keyPem)
          ⟨some oldPair.certPem, some oldPair.keyPem⟩ s' →
        Together (twoPairs oldPair newPair) s' ∨
          getCertStatus (twoPairs oldPair newPair) s' 1802682887000000 ≠ .ok := by
  have hdue : (1802855687000000 : Int) ≤ 1802682887000000 + renewBefore := by decide
  have hsafe := crash_safe_iff (twoPairs oldPair newPair) oldPair_apart_newPair.readsFirst
    oldPair_apart_newPair.noEmptyKey (together_old oldPair newPair) newPair.certPem
    newPair.keyPem oldPair_apart_newPair.loadPem_new 1802682887000000
  exact ⟨hdue, hsafe.mpr hdue⟩

/-- The new certificate beside the old key is OK on the next start. -/
theorem crash_leaves_mismatched_pair :
    ¬ ∀ (x : X509 Bool) (s : CertFiles) (certPem keyPem : Bytes) (now : Int) (s' : CertFiles),
      x.ReadsFirst → x.NoEmptyKey → Together x s → Together x ⟨some certPem, some keyPem⟩ →
        Prog.Cut (writeCertAndKey certPem keyPem) s s' →
          Together x s' ∨ getCertStatus x s' now ≠ .ok := by
  intro hsafe
  have hapart := oldPair_apart_newPair
  have hcut : Prog.Cut (writeCertAndKey newPair.certPem newPair.keyPem)
      ⟨some oldPair.certPem, some oldPair.keyPem⟩
      ⟨some newPair.certPem, some oldPair.keyPem⟩ :=
    cut_writeCertAndKey_iff.mpr
      (Or.inr (Or.inl ⟨newPair.certPem.length, Nat.le_refl _, by rw [List.take_length]⟩))
  -- 25 November 2026
  rcases hsafe (twoPairs oldPair newPair) _ _ _ 1795564800000000 _ hapart.readsFirst
    hapart.noEmptyKey (together_old oldPair newPair) hapart.together_new hcut
    with ⟨certPem, keyPem, cert, hcert, hkey, hload, hbelongs⟩ | hstatus
  · rw [← Option.some.inj hcert, hapart.loadPem_new] at hload
    rw [← Option.some.inj hkey, ← Option.some.inj hload, hapart.not_belongs] at hbelongs
    cases hbelongs
  · rw [ne_eq, getCertStatus_ok_iff] at hstatus
    exact hstatus ⟨newPair.certPem, oldPair.keyPem, true, rfl, rfl, hapart.loadPem_new,
      show (1795564800000000 : Int) + renewBefore < 1802855687000000 by decide⟩

end OpenHost.Tls
