import Mathlib.Data.List.Infix

/-!
# UTF-8

Texts and the bytes that stand for them.  `decode` never fails: like Python's
`bytes.decode("utf-8", "replace")` it puts one replacement character for the longest stretch of
bytes that begins a character without finishing it.
-/

namespace OpenHost.Utf8

abbrev Bytes := List UInt8

/-- The bytes of a text. -/
def encode (s : String) : Bytes := s.toList.flatMap String.utf8EncodeChar

/-- The character that the bytes begin with, when they begin with a whole one. -/
def firstChar? (bs : Bytes) : Option Char := bs.toByteArray.utf8DecodeChar? 0

/-- The byte `b` may stand after the first byte `lead` of a character. -/
def continues (lead b : UInt8) : Bool :=
  if lead = 0xE0 then 0xA0 ≤ b && b ≤ 0xBF
  else if lead = 0xED then 0x80 ≤ b && b ≤ 0x9F
  else if lead = 0xF0 then 0x90 ≤ b && b ≤ 0xBF
  else if lead = 0xF4 then 0x80 ≤ b && b ≤ 0x8F
  else 0xC2 ≤ lead && lead ≤ 0xF4 && 0x80 ≤ b && b ≤ 0xBF

/-- How many bytes one replacement character stands for, where no whole character begins. -/
def brokenLength : Bytes → Nat
  | lead :: b :: c :: _ =>
      if continues lead b then
        if 0xF0 ≤ lead && 0x80 ≤ c && c ≤ 0xBF then 3 else 2
      else 1
  | lead :: b :: [] => if continues lead b then 2 else 1
  | _ => 1

/-- The characters that the bytes stand for, once `skip` bytes of the current one are passed. -/
def decodeFrom : Nat → Bytes → List Char
  | _, [] => []
  | skip + 1, _ :: bs => decodeFrom skip bs
  | 0, b :: bs =>
      match firstChar? (b :: bs) with
      | some c => c :: decodeFrom (c.utf8Size - 1) bs
      | none => '\uFFFD' :: decodeFrom (brokenLength (b :: bs) - 1) bs

/-- `bs.decode("utf-8", "replace")`. -/
def decode (bs : Bytes) : String := String.ofList (decodeFrom 0 bs)

/-- `bs.decode("utf-8")` succeeds. -/
def valid (bs : Bytes) : Bool := encode (decode bs) = bs

/-! ## Encoding -/

@[simp] theorem encode_empty : encode "" = [] := rfl

@[simp] theorem encode_append (s t : String) : encode (s ++ t) = encode s ++ encode t := by
  simp [encode]

@[simp] theorem encode_ofList_cons (c : Char) (cs : List Char) :
    encode (String.ofList (c :: cs)) = String.utf8EncodeChar c ++ encode (String.ofList cs) := by
  simp [encode]

theorem utf8EncodeChar_ne_nil (c : Char) : String.utf8EncodeChar c ≠ [] := by
  intro h
  have hlen := String.length_utf8EncodeChar c
  rw [h] at hlen
  have hpos := c.utf8Size_pos
  simp at hlen
  omega

theorem encode_eq_nil_iff {s : String} : encode s = [] ↔ s = "" := by
  constructor
  · intro h
    cases hs : s.toList with
    | nil => exact String.toList_eq_nil_iff.mp hs
    | cons c cs =>
      exfalso
      simp only [encode, hs, List.flatMap_cons, List.append_eq_nil_iff] at h
      exact utf8EncodeChar_ne_nil c h.1
  · rintro rfl
    rfl

/-- The bytes of a character outside ASCII are all outside ASCII. -/
theorem mem_utf8EncodeChar_of_lt {c : Char} {b : UInt8} (h : b ∈ String.utf8EncodeChar c)
    (hb : b < 0x80) : String.utf8EncodeChar c = [b] ∧ c.toNat = b.toNat := by
  have hlt : b.toNat < 128 := UInt8.lt_iff_toNat_lt.mp hb
  have hval : c.val.toNat = c.toNat := rfl
  unfold String.utf8EncodeChar at h ⊢
  simp only at h ⊢
  split at h
  · rename_i hc
    rw [if_pos hc]
    have hbc : b = UInt8.ofNat c.val.toNat := List.mem_singleton.mp h
    refine ⟨by rw [hbc], ?_⟩
    rw [hbc, UInt8.toNat_ofNat', hval]
    rw [hval] at hc
    omega
  · exfalso
    -- every byte of a longer character has its highest bit set
    split at h
    · simp only [List.mem_cons, List.not_mem_nil, or_false] at h
      rcases h with rfl | rfl <;> simp only [UInt8.toNat_ofNat'] at hlt <;> omega
    · split at h
      · simp only [List.mem_cons, List.not_mem_nil, or_false] at h
        rcases h with rfl | rfl | rfl <;> simp only [UInt8.toNat_ofNat'] at hlt <;> omega
      · simp only [List.mem_cons, List.not_mem_nil, or_false] at h
        rcases h with rfl | rfl | rfl | rfl <;> simp only [UInt8.toNat_ofNat'] at hlt <;> omega

/-- Stripping an ASCII character from the left of a text strips its byte. -/
theorem encode_dropWhile {c : Char} {b : UInt8} (hb : b < 0x80)
    (hc : String.utf8EncodeChar c = [b]) (l : List Char) :
    encode (String.ofList (l.dropWhile (· = c))) =
      (encode (String.ofList l)).dropWhile (· = b) := by
  induction l with
  | nil => rfl
  | cons d l ih =>
    by_cases hd : d = c
    · rw [List.dropWhile_cons_of_pos (by simpa using hd), ih, encode_ofList_cons, hd, hc,
        List.singleton_append, List.dropWhile_cons_of_pos (by simp)]
    · rw [List.dropWhile_cons_of_neg (by simpa using hd), encode_ofList_cons]
      cases hbytes : String.utf8EncodeChar d with
      | nil => exact absurd hbytes (utf8EncodeChar_ne_nil d)
      | cons a rest =>
        have hab : a ≠ b := by
          intro hab
          have hmem : b ∈ String.utf8EncodeChar d := by rw [hbytes, hab]; exact List.mem_cons_self
          have hd' := (mem_utf8EncodeChar_of_lt hmem hb).2
          have hc' := (mem_utf8EncodeChar_of_lt (c := c) (by rw [hc]; simp) hb).2
          exact hd (Char.toNat_inj.mp (hd'.trans hc'.symm))
        rw [List.cons_append, List.dropWhile_cons_of_neg (by simpa using hab)]

/-! ## Decoding what was encoded -/

theorem decodeFrom_length_append (l bs : Bytes) :
    decodeFrom l.length (l ++ bs) = decodeFrom 0 bs := by
  induction l with
  | nil => rfl
  | cons b l ih => simpa [decodeFrom] using ih

theorem firstChar?_encodeChar (c : Char) (bs : Bytes) :
    firstChar? (String.utf8EncodeChar c ++ bs) = some c := by
  rw [firstChar?, List.toByteArray_append]
  exact ByteArray.utf8DecodeChar?_utf8EncodeChar_append

/-- A whole character is read as itself, whatever bytes come after it. -/
theorem decodeFrom_encodeChar (c : Char) (bs : Bytes) :
    decodeFrom 0 (String.utf8EncodeChar c ++ bs) = c :: decodeFrom 0 bs := by
  have hfirst := firstChar?_encodeChar c bs
  have hlen := String.length_utf8EncodeChar c
  cases hc : String.utf8EncodeChar c with
  | nil => exact absurd hc (utf8EncodeChar_ne_nil c)
  | cons b l =>
    rw [hc] at hfirst hlen
    have hskip : c.utf8Size - 1 = l.length := by simp at hlen; omega
    show decodeFrom 0 (b :: (l ++ bs)) = _
    rw [List.cons_append] at hfirst
    simp only [decodeFrom, hfirst, hskip, decodeFrom_length_append]

theorem decodeFrom_encode_append (cs : List Char) (bs : Bytes) :
    decodeFrom 0 (cs.flatMap String.utf8EncodeChar ++ bs) = cs ++ decodeFrom 0 bs := by
  induction cs with
  | nil => rfl
  | cons c cs ih =>
    rw [List.flatMap_cons, List.append_assoc, decodeFrom_encodeChar, ih]
    rfl

/-- A text at the front is read as itself, whatever bytes come after it. -/
theorem decode_encode_append (s : String) (bs : Bytes) :
    decode (encode s ++ bs) = s ++ decode bs := by
  rw [decode, encode, decodeFrom_encode_append, String.ofList_append, String.ofList_toList, decode]

@[simp] theorem decode_encode (s : String) : decode (encode s) = s := by
  have h := decode_encode_append s []
  rw [List.append_nil] at h
  rw [h]
  exact String.append_empty

theorem valid_encode (s : String) : valid (encode s) = true := by
  simp [valid]

theorem encode_inj {s t : String} (h : encode s = encode t) : s = t := by
  rw [← decode_encode s, h, decode_encode]

/-- ASCII bytes are the bytes of a text. -/
theorem exists_encode_of_ascii {bs : Bytes} (h : ∀ b ∈ bs, b < 0x80) : ∃ s, encode s = bs := by
  have hchar : ∀ n : Fin 256, UInt8.ofFin n < 0x80 →
      String.utf8EncodeChar (Char.ofNat n) = [UInt8.ofFin n] := by decide +kernel
  induction bs with
  | nil => exact ⟨"", rfl⟩
  | cons b bs ih =>
    obtain ⟨s, hs⟩ := ih fun c hc => h c (List.mem_cons_of_mem b hc)
    refine ⟨String.ofList (Char.ofNat b.toFin :: s.toList), ?_⟩
    rw [encode_ofList_cons, String.ofList_toList, hs, hchar b.toFin (h b List.mem_cons_self)]
    rfl

/-- Reading ASCII bytes and writing them again changes nothing. -/
theorem encode_decode_of_ascii {bs : Bytes} (h : ∀ b ∈ bs, b < 0x80) : encode (decode bs) = bs := by
  obtain ⟨s, rfl⟩ := exists_encode_of_ascii h
  rw [decode_encode]

example : decode [0x61, 0xE2, 0x82, 0x62] = "a\uFFFDb" := by decide

end OpenHost.Utf8
