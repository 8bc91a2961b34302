import OpenHost.Library.Casing
import OpenHost.Library.Url

/-!
# URLs as browsers read them

The part of the URL standard's parser that decides where a URL leads: the scheme, the text in which
a host is looked for, and that host.  The algorithms that the standard takes from elsewhere (IDNA and
the two notations of IP addresses) are parameters.
-/

namespace OpenHost.Whatwg

open Text (lower)

/-- The algorithms for hosts that the URL standard calls. -/
structure HostTools where
  /-- Domain to ASCII. -/
  toAscii : String → Option String
  /-- The IPv4 parser and the text of the address it finds. -/
  ipv4 : String → Option String
  /-- The IPv6 parser and the text of the address it finds. -/
  ipv6 : String → Option String

/-! ## Schemes -/

/-- Blanks and control characters go at both ends, tabs and line breaks everywhere. -/
def trim (url : List Char) : List Char :=
  ((url.dropWhile (· ≤ ' ')).reverse.dropWhile (· ≤ ' ')).reverse.filter
    fun c => c ≠ '\t' && c ≠ '\r' && c ≠ '\n'

/-- A character of a scheme. -/
def isSchemeChar (c : Char) : Bool := c.isAlphanum || c = '+' || c = '-' || c = '.'

/-- The scheme of a URL in lower case, and what comes after it. -/
def scheme? (url : List Char) : Option (String × List Char) :=
  let name := url.takeWhile (· ≠ ':')
  if name.length < url.length && name.head?.any Char.isAlpha && name.all isSchemeChar then
    some (lower (String.ofList name), url.drop (name.length + 1))
  else none

/-- The special schemes other than `file`. -/
def specialSchemes : List String := ["http", "https", "ws", "wss", "ftp"]

/-! ## Authorities -/

/-- A backslash counts as a slash in URLs with a special scheme. -/
def isSlash (c : Char) : Bool := c = '/' || c = '\\'

/-- The character ends the authority. -/
def endsAuthority (special : Bool) (c : Char) : Bool :=
  c = '/' || c = '?' || c = '#' || (special && c = '\\')

/-- Where the host of a URL is looked for. -/
inductive Authority where
  /-- The URL keeps the host of the base URL. -/
  | inherited
  /-- In this text, under a special scheme. -/
  | special (text : List Char)
  /-- In this text, under another scheme. -/
  | plain (text : List Char)
  /-- In this text, under the scheme `file`. -/
  | file (text : List Char)
  /-- Nowhere: the URL has none. -/
  | absent
  deriving DecidableEq, Repr

/-- The authority that the text begins with. -/
def authorityText (special : Bool) (text : List Char) : List Char :=
  text.takeWhile (!endsAuthority special ·)

/-- The URL begins with two characters that count as slashes. -/
def twoSlashes (url : List Char) : Bool :=
  match url with
  | a :: b :: _ => isSlash a && isSlash b
  | _ => false

/-- The authority behind any number of slashes. -/
def ignoreSlashes (text : List Char) : Authority :=
  .special (authorityText true (text.dropWhile isSlash))

/-- The authority of a URL without a scheme, where the base URL has a special one. -/
def relative (url : List Char) : Authority :=
  if twoSlashes url then ignoreSlashes url else .inherited

/-- The authority of a URL that is resolved against one with a special scheme other than `file`. -/
def authority (baseScheme : String) (url : List Char) : Authority :=
  match scheme? url with
  | none => relative url
  | some (scheme, rest) =>
      if scheme = "file" then
        .file (if twoSlashes rest then authorityText true (rest.drop 2) else [])
      else if scheme ∈ specialSchemes then
        -- `https:path` is a path when the base URL is one with `https`, too
        if scheme = baseScheme && rest.take 2 ≠ ['/', '/'] then relative rest
        else ignoreSlashes rest
      else if rest.take 2 = ['/', '/'] then .plain (authorityText false (rest.drop 2))
      else .absent

/-! ## Hosts -/

/-- The authority without the user name and the password. -/
def afterUserinfo (text : List Char) : List Char := (text.reverse.takeWhile (· ≠ '@')).reverse

/-- The host and the port of an authority without its userinfo: a colon between brackets belongs to
the host. -/
def hostAndPort : Bool → List Char → List Char × Option (List Char)
  | _, [] => ([], none)
  | inside, c :: cs =>
      if c = ':' && !inside then ([], some cs)
      else
        let rest := hostAndPort (c = '[' || (inside && c ≠ ']')) cs
        (c :: rest.1, rest.2)

/-- The text of a port is one of a port. -/
def portOk (port : List Char) : Bool :=
  port.all Char.isDigit && Nat.ofDigitChars 10 port 0 ≤ 65535

/-- A forbidden host code point. -/
def forbiddenInHost (c : Char) : Bool :=
  c ∈ ['\x00', '\t', '\n', '\r', ' ', '#', '/', ':', '<', '>', '?', '@', '[', '\\', ']', '^', '|']

/-- A forbidden domain code point. -/
def forbiddenInDomain (c : Char) : Bool :=
  forbiddenInHost c || c < ' ' || c = '%' || c = '\x7f'

/-- The text behind the last dot. -/
def lastLabel (name : List Char) : List Char := (name.reverse.takeWhile (· ≠ '.')).reverse

/-- A hexadecimal digit. -/
def isHexDigit (c : Char) : Bool :=
  c.isDigit || ('a' ≤ c && c ≤ 'f') || ('A' ≤ c && c ≤ 'F')

/-- A number as IPv4 addresses have them, in decimal, octal or hexadecimal digits. -/
def isNumber (label : List Char) : Bool :=
  match label with
  | '0' :: x :: digits =>
      (x.isDigit && digits.all Char.isDigit) ||
        ((x = 'x' || x = 'X') && digits.all isHexDigit)
  | label => label ≠ [] && label.all Char.isDigit

/-- The ends-in-a-number checker. -/
def endsInNumber (name : List Char) : Bool :=
  isNumber (if lastLabel name = [] then lastLabel name.dropLast else lastLabel name)

/-- Percent-decoding a host. -/
def percentDecode (text : List Char) : String :=
  Utf8.decode (Url.unquote (Utf8.encode (String.ofList text)))

/-- Percent-encoding with the C0 control set. -/
def percentEncode (text : List Char) : String :=
  String.ofList (text.flatMap fun c =>
    if ' ' ≤ c && c ≤ '~' then [c]
    else (Utf8.decode (Url.quoteAll (String.utf8EncodeChar c))).toList)

/-- The host parser. -/
def parseHost (tools : HostTools) (special : Bool) (text : List Char) : Option String :=
  if text.head? = some '[' then
    if text.getLast? = some ']' then
      (tools.ipv6 (String.ofList text.tail.dropLast)).map fun address => "[" ++ address ++ "]"
    else none
  else if special then
    match tools.toAscii (percentDecode text) with
    | none => none
    | some name =>
        if name = "" || name.toList.any forbiddenInDomain then none
        else if endsInNumber name.toList then tools.ipv4 name
        else some name
  else if text.any forbiddenInHost then none
  else some (percentEncode text)

/-- The host in the text of an authority; `none` where the URL cannot be used. -/
def hostIn (tools : HostTools) (special : Bool) (text : List Char) : Option String :=
  let info := afterUserinfo text
  let (host, port) := hostAndPort false info
  if host = [] && (special || port.isSome || '@' ∈ text) then none
  else if port.all portOk then parseHost tools special host
  else none

/-- A drive letter of Windows. -/
def isDriveLetter (text : List Char) : Bool :=
  match text with
  | [c, colon] => c.isAlpha && (colon = ':' || colon = '|')
  | _ => false

/-- The host in the text of an authority under the scheme `file`. -/
def fileHost (tools : HostTools) (text : List Char) : Option String :=
  if text = [] || isDriveLetter text then some ""
  else (parseHost tools true text).map fun host => if host = "localhost" then "" else host

/-- The host that an authority leads to, seen from a URL with the host `baseHost`: `none` outside is
a URL that cannot be used, `none` inside one without a host. -/
def hostOf (tools : HostTools) (baseHost : String) : Authority → Option (Option String)
  | .inherited => some (some baseHost)
  | .special text => (hostIn tools true text).map some
  | .plain text => (hostIn tools false text).map some
  | .file text => (fileHost tools text).map some
  | .absent => some none

/-- The host of the URL that a browser finds when it resolves `url` against a base URL. -/
def resolve (tools : HostTools) (baseScheme baseHost : String) (url : String) :
    Option (Option String) :=
  hostOf tools baseHost (authority baseScheme (trim url.toList))

/-! ## Trimming -/

/-- Trimming at the right takes nothing but blanks and control characters. -/
theorem exists_trim_append (url : List Char) :
    ∃ blank, (url.dropWhile (· ≤ ' ')).filter (fun c => c ≠ '\t' && c ≠ '\r' && c ≠ '\n') =
      trim url ++ blank ∧ ∀ c ∈ blank, c ≤ ' ' := by
  generalize hlead : url.dropWhile (· ≤ ' ') = lead
  refine ⟨(lead.reverse.takeWhile (· ≤ ' ')).reverse.filter
    fun c => c ≠ '\t' && c ≠ '\r' && c ≠ '\n', ?_, ?_⟩
  · have hsplit : lead = (lead.reverse.dropWhile (· ≤ ' ')).reverse ++
        (lead.reverse.takeWhile (· ≤ ' ')).reverse := by
      rw [← List.reverse_append, List.takeWhile_append_dropWhile, List.reverse_reverse]
    rw [trim, hlead, ← List.filter_append, ← hsplit]
  · intro c hc
    have hmem := List.mem_reverse.mp (List.mem_of_mem_filter hc)
    simpa using List.mem_takeWhile_imp hmem

theorem ne_of_blank {c d : Char} (hc : c ≤ ' ') (hd : ' ' < d) : c ≠ d := by
  rintro rfl
  exact absurd hc (Char.not_le.mpr hd)

theorem takeWhile_append_blank {p : Char → Bool} {blank : List Char} (h : ∀ c ∈ blank, p c = true)
    (url : List Char) :
    (url ++ blank).takeWhile p =
      if (url.takeWhile p).length = url.length then url ++ blank else url.takeWhile p := by
  rw [List.takeWhile_append, List.takeWhile_eq_self_iff.mpr h]

/-- Blanks at the end do not change the scheme. -/
theorem scheme?_append_blank (url : List Char) {blank : List Char} (h : ∀ c ∈ blank, c ≤ ' ') :
    scheme? (url ++ blank) = (scheme? url).map fun r => (r.1, r.2 ++ blank) := by
  have hcolon : ∀ c ∈ blank, decide (c ≠ ':') = true := fun c hc => by
    simpa using ne_of_blank (h c hc) (by decide)
  have htake := takeWhile_append_blank hcolon url
  have hle := (List.takeWhile_prefix (fun c : Char => decide (c ≠ ':')) (l := url)).length_le
  by_cases hlen : (url.takeWhile (· ≠ ':')).length = url.length
  · -- no colon, neither with the blanks nor without them
    rw [if_pos hlen] at htake
    simp only [scheme?, htake, hlen, List.length_append, Nat.lt_irrefl, decide_false,
      Bool.false_and, if_false, Bool.false_eq_true, Option.map_none]
  · rw [if_neg hlen] at htake
    have hlt : (url.takeWhile (· ≠ ':')).length < url.length := by omega
    have hlt' : (url.takeWhile (· ≠ ':')).length < url.length + blank.length := by omega
    have hdrop : (url ++ blank).drop ((url.takeWhile (· ≠ ':')).length + 1) =
        url.drop ((url.takeWhile (· ≠ ':')).length + 1) ++ blank :=
      List.drop_append_of_le_length (Nat.succ_le_of_lt hlt)
    simp only [scheme?, htake, List.length_append, hlt, hlt', hdrop]
    split <;> rfl

/-! ## The text of a host -/

/-- Without brackets the host ends at the first colon. -/
theorem hostAndPort_fst {text : List Char} (h : '[' ∉ text) :
    (hostAndPort false text).1 = text.takeWhile (· ≠ ':') := by
  induction text with
  | nil => rfl
  | cons c cs ih =>
    have hc : c ≠ '[' := fun hc => h (hc ▸ List.mem_cons_self)
    have hcs : '[' ∉ cs := fun hcs => h (List.mem_cons_of_mem c hcs)
    by_cases hcolon : c = ':'
    · simp [hostAndPort, hcolon]
    · simp [hostAndPort, hcolon, hc, ih hcs]

/-- A host that is found was parsed from the text in front of the port. -/
theorem parseHost_of_hostIn {tools : HostTools} {special : Bool} {text : List Char} {host : String}
    (h : hostIn tools special text = some host) :
    parseHost tools special (hostAndPort false (afterUserinfo text)).1 = some host := by
  simp only [hostIn] at h
  split at h
  · cases h
  · split at h
    · exact h
    · cases h

/-- A text without a percent sign is not changed by percent-decoding. -/
theorem percentDecode_eq_self {text : List Char} (h : '%' ∉ text) :
    percentDecode text = String.ofList text := by
  have hbytes : Url.percent ∉ Utf8.encode (String.ofList text) := by
    intro hmem
    simp only [Utf8.encode, String.toList_ofList, List.mem_flatMap] at hmem
    obtain ⟨c, hc, hb⟩ := hmem
    have hval := (Utf8.mem_utf8EncodeChar_of_lt hb (by decide)).2
    have heq : c = '%' := Char.toNat_inj.mp hval
    exact h (heq ▸ hc)
  rw [percentDecode, (Url.unquote_eq_self_iff _).mpr (Url.unescaped_of_not_mem hbytes),
    Utf8.decode_encode]

/-- Under a special scheme a text that is not an address is handed to IDNA. -/
theorem toAscii_of_parseHost {tools : HostTools} {text : List Char} {host : String}
    (h : parseHost tools true text = some host) (hopen : '[' ∉ text) (hpercent : '%' ∉ text) :
    ∃ name, tools.toAscii (String.ofList text) = some name ∧
      (endsInNumber name.toList = false → host = name) := by
  have hhead : text.head? ≠ some '[' := fun hhead => hopen (List.mem_of_mem_head? hhead)
  rw [parseHost, if_neg hhead, if_pos rfl, percentDecode_eq_self hpercent] at h
  cases hname : tools.toAscii (String.ofList text) with
  | none => simp [hname] at h
  | some name =>
    refine ⟨name, rfl, ?_⟩
    intro hnumber
    simp only [hname, hnumber, Bool.false_eq_true, if_false] at h
    split at h
    · cases h
    · exact (Option.some.inj h).symm

/-- Under any other scheme a text of visible characters is the host as it stands. -/
theorem eq_of_parseHost_plain {tools : HostTools} {text : List Char} {host : String}
    (h : parseHost tools false text = some host) (hopen : '[' ∉ text)
    (hvisible : ∀ c ∈ text, '!' ≤ c ∧ c ≤ '~') : host = String.ofList text := by
  have hhead : text.head? ≠ some '[' := fun hhead => hopen (List.mem_of_mem_head? hhead)
  have hencode : percentEncode text = String.ofList text := by
    rw [percentEncode]
    apply congrArg
    apply Eq.trans _ (List.flatMap_singleton' text)
    apply List.flatMap_congr
    intro c hc
    obtain ⟨hlow, hhigh⟩ := hvisible c hc
    have hblank : ' ' ≤ c := Char.le_trans (by decide) hlow
    simp [hblank, hhigh]
  rw [parseHost, if_neg hhead, if_neg (by simp)] at h
  split at h
  · cases h
  · rw [← Option.some.inj h, hencode]

/-! ## Host names -/

/-- A character of a host name in lower case. -/
def isHostNameChar (c : Char) : Bool := ('a' ≤ c && c ≤ 'z') || c.isDigit || c = '-' || c = '.'

/-- A host name in lower case whose last label begins with a letter. -/
def isHostName (name : String) : Bool :=
  name.toList.all isHostNameChar &&
    (lastLabel name.toList).head?.any fun c => 'a' ≤ c && c ≤ 'z'

/-- The name itself or one below it. -/
def IsUnder (name host : String) : Prop := host = name ∨ ∃ r, host = r ++ "." ++ name

theorem lowerChar_of_isHostNameChar (c : Char) :
    isHostNameChar c = true → Text.lowerChar c = c := by
  apply Text.forall_char (P := fun c => isHostNameChar c = true → Text.lowerChar c = c)
  · decide +kernel
  · intro c hlower _
    exact hlower

theorem lower_of_isHostName {name : String} (h : isHostName name = true) : lower name = name := by
  rw [isHostName, Bool.and_eq_true, List.all_eq_true] at h
  rw [← String.toList_inj, Text.toList_lower]
  exact (List.map_congr_left fun c hc => lowerChar_of_isHostNameChar c (h.1 c hc)).trans
    (List.map_id _)

/-- Lower case keeps a host under a name in lower case. -/
theorem IsUnder.lowered {name host : String} (hname : isHostName name = true)
    (h : IsUnder name host) : IsUnder name (lower host) := by
  rcases h with rfl | ⟨r, rfl⟩
  · left
    exact lower_of_isHostName hname
  · right
    refine ⟨lower r, ?_⟩
    rw [← String.toList_inj]
    have hmap := congrArg String.toList (lower_of_isHostName hname)
    rw [Text.toList_lower] at hmap
    simp only [Text.toList_lower, String.toList_append, List.map_append, hmap]
    rfl

theorem lastLabel_append (r n : List Char) : lastLabel (r ++ '.' :: n) = lastLabel n := by
  have hcut : (n.reverse ++ '.' :: r.reverse).takeWhile (· ≠ '.') =
      n.reverse.takeWhile (· ≠ '.') := by
    rw [List.takeWhile_append]
    split
    · rename_i hlen
      rw [List.takeWhile_cons_of_neg (by simp), List.append_nil]
      exact ((List.takeWhile_prefix _).eq_of_length hlen).symm
    · rfl
  rw [lastLabel, List.reverse_append, List.reverse_cons, List.append_assoc, List.singleton_append,
    hcut, lastLabel]

theorem lastLabel_of_isUnder {name host : String} (h : IsUnder name host) :
    lastLabel host.toList = lastLabel name.toList := by
  rcases h with rfl | ⟨r, rfl⟩
  · rfl
  · have hlist : (r ++ "." ++ name).toList = r.toList ++ '.' :: name.toList := by simp
    rw [hlist, lastLabel_append]

/-- A name whose last label begins with a letter is no IPv4 address. -/
theorem not_endsInNumber {host : List Char}
    (h : (lastLabel host).head?.any (fun c => 'a' ≤ c && c ≤ 'z') = true) :
    endsInNumber host = false := by
  cases hlast : lastLabel host with
  | nil => simp [hlast] at h
  | cons c label =>
    have hc : 'a' ≤ c := by
      rw [hlast] at h
      simp only [List.head?_cons, Option.any_some, Bool.and_eq_true, decide_eq_true_eq] at h
      exact h.1
    have hdigit : c.isDigit = false := by
      simp only [Text.le_iff_toNat, Char.reduceToNat] at hc
      simp only [Char.isDigit, Bool.and_eq_false_iff, decide_eq_false_iff_not,
        UInt32.le_iff_toNat_le]
      right
      have hval : c.val.toNat = c.toNat := rfl
      simp only [hval]
      simp
      omega
    have hzero : c ≠ '0' := by
      rintro rfl
      simp at hdigit
    rw [endsInNumber, hlast, if_neg (by simp)]
    unfold isNumber
    split
    · rename_i heq
      exact absurd (List.cons.inj heq).1 hzero
    · simp [hdigit]

end OpenHost.Whatwg
