import OpenHost.Web.Auth
import OpenHost.Web.Hosts

/-!
# Origins as browsers send them

A browser sends `null` or `scheme://host[:port]`.  The router's parser gets the host and the port
of such a header back.
-/

namespace OpenHost.Web

open Text (lower before)
open Domains (Domain)

/-! ## What browsers send -/

/-- A character that may stand in the host of an origin. -/
def isHostChar (c : Char) : Bool :=
  '!' ≤ c && c ≤ '~' && !endsNetloc c && c ≠ ':' && c ≠ '@' && c ≠ '[' && c ≠ ']' && c ≠ '%'

/-- A character of an IPv6 address. -/
def isIPv6Char (c : Char) : Bool :=
  ('0' ≤ c && c ≤ '9') || ('a' ≤ c && c ≤ 'f') || ('A' ≤ c && c ≤ 'F') || c = ':' || c = '.'

/-- The host of an origin: a name, or an IPv6 address that stands between brackets. -/
inductive OriginHost (fw : Framework) where
  | name (host : String) (nonempty : host ≠ "") (chars : host.toList.all isHostChar = true)
  | ipv6 (address : String) (chars : address.toList.all isIPv6Char = true)
      (group : ':' ∈ address.toList ∧ '.' ∉ (before ':' address).toList)
      (valid : fw.isIPv6 address = true)

/-- An `Origin` as a browser sends it: `null`, or `scheme://host[:port]`. -/
inductive BrowserOrigin (fw : Framework) where
  | null
  | tuple (scheme : String) (host : OriginHost fw) (port : Option Nat)
      (alpha : scheme.toList.head?.any isAsciiAlpha = true)
      (chars : scheme.toList.all isSchemeChar = true)
      (small : ∀ n ∈ port, n ≤ 65535)

namespace BrowserOrigin

variable {fw : Framework}

/-- The text of a host. -/
def hostText : OriginHost fw → String
  | .name host _ _ => host
  | .ipv6 address _ _ _ => "[" ++ address ++ "]"

/-- The text of a port with its colon. -/
def portText : Option Nat → String
  | some n => ":" ++ toString n
  | none => ""

/-- The value of the header. -/
def raw : BrowserOrigin fw → String
  | .null => "null"
  | .tuple scheme host port _ _ _ => scheme ++ "://" ++ hostText host ++ portText port

/-- The host of the origin is the host of this installed app. -/
def HostNames (o : BrowserOrigin fw) (db : Db) (app : App) : Prop :=
  match o with
  | .tuple _ (.name host _ _) _ _ _ _ => NamesApp db host app
  | _ => False

/-- The scheme of the origin, taken for a host, is the host of this installed app. -/
def SchemeNames (o : BrowserOrigin fw) (db : Db) (app : App) : Prop :=
  match o with
  | .tuple scheme _ _ _ _ _ => NamesApp db scheme app
  | .null => False

end BrowserOrigin

/-! ## Parsing what browsers send -/

theorem isDigit_of_mem_toString {n : Nat} {c : Char} (h : c ∈ (toString n).toList) :
    c.isDigit = true := by
  rw [Nat.toString_eq_repr, Nat.toList_repr] at h
  exact Nat.isDigit_of_mem_toDigits (by decide) (by decide) h

theorem portOf_toString {n : Nat} (h : n ≤ 65535) :
    portOf (toString n).toList = some (some n) := by
  have hne : (toString n).toList ≠ [] := by
    rw [Nat.toString_eq_repr, ne_eq, String.toList_eq_nil_iff]
    exact Nat.repr_ne_empty
  have hall : (toString n).toList.all Char.isDigit = true :=
    List.all_eq_true.mpr fun c hc => isDigit_of_mem_toString hc
  have hval : Nat.ofDigitChars 10 (toString n).toList 0 = n := by
    rw [Nat.toString_eq_repr, Nat.toList_repr]
    exact Nat.ofDigitChars_toDigits (by decide) (by decide)
  rw [portOf, if_neg hne, if_pos hall]
  simp only [hval, if_pos h]

/-- What the characters of an origin are not. -/
structure Tame (c : Char) : Prop where
  visible : '!' ≤ c
  ascii : c ≤ '\x7f'
  notDelimiter : endsNetloc c = false
  notAt : c ≠ '@'
  notPercent : c ≠ '%'

theorem tame_of_isHostChar {c : Char} (h : isHostChar c = true) :
    Tame c ∧ c ≠ ':' ∧ c ≠ '[' ∧ c ≠ ']' := by
  simp only [isHostChar, Bool.and_eq_true, decide_eq_true_eq, Bool.not_eq_true'] at h
  obtain ⟨⟨⟨⟨⟨⟨⟨hlo, hhi⟩, hend⟩, hcolon⟩, hat⟩, hopen⟩, hclose⟩, hpercent⟩ := h
  have hascii : c ≤ '\x7f' := by
    rw [Text.le_iff_toNat] at hhi ⊢
    simp at hhi ⊢
    omega
  exact ⟨⟨hlo, hascii, hend, hat, hpercent⟩, hcolon, hopen, hclose⟩

theorem tame_of_isIPv6Char {c : Char} (h : isIPv6Char c = true) :
    Tame c ∧ c ≠ '[' ∧ c ≠ ']' := by
  simp only [isIPv6Char, Bool.or_eq_true, Bool.and_eq_true, decide_eq_true_eq, Text.le_iff_toNat,
    Text.eq_iff_toNat, Char.reduceToNat] at h
  refine ⟨⟨?_, ?_, ?_, ?_, ?_⟩, ?_, ?_⟩ <;>
    simp only [endsNetloc, Bool.or_eq_false_iff, decide_eq_false_iff_not, ne_eq, Text.le_iff_toNat,
      Text.eq_iff_toNat, Char.reduceToNat] <;> omega

theorem tame_of_isDigit {c : Char} (h : c.isDigit = true) :
    Tame c ∧ c ≠ ':' ∧ c ≠ '[' ∧ c ≠ ']' := by
  apply tame_of_isHostChar
  simp only [Char.isDigit, Bool.and_eq_true, decide_eq_true_eq, ge_iff_le] at h
  have hlo : '0' ≤ c := h.1
  have hhi : c ≤ '9' := h.2
  simp only [Text.le_iff_toNat, Char.reduceToNat] at hlo hhi
  simp only [isHostChar, endsNetloc, Bool.and_eq_true, Bool.not_eq_true', Bool.or_eq_false_iff,
    decide_eq_true_eq, decide_eq_false_iff_not, ne_eq, Text.le_iff_toNat, Text.eq_iff_toNat,
    Char.reduceToNat]
  omega

theorem visible_of_isSchemeChar {c : Char} (h : isSchemeChar c = true) : '!' ≤ c ∧ c ≠ ':' := by
  simp only [isSchemeChar, Bool.or_eq_true, Bool.and_eq_true, decide_eq_true_eq, Text.le_iff_toNat,
    Text.eq_iff_toNat, Char.reduceToNat] at h
  simp only [Text.le_iff_toNat, ne_eq, Text.eq_iff_toNat, Char.reduceToNat]
  omega

theorem cleanUrl_eq_self {url : List Char} (h : ∀ c ∈ url, '!' ≤ c) : cleanUrl url = url := by
  have hgt : ∀ c ∈ url, ¬ c ≤ ' ' := by
    intro c hc
    have hv := h c hc
    simp only [Text.le_iff_toNat, Char.reduceToNat] at hv ⊢
    omega
  have hdrop : url.dropWhile (· ≤ ' ') = url := by
    cases url with
    | nil => rfl
    | cons c url =>
      exact List.dropWhile_cons_of_neg (by simpa using hgt c List.mem_cons_self)
  rw [cleanUrl, hdrop]
  apply List.filter_eq_self.mpr
  intro c hc
  have hv := h c hc
  simp only [Text.le_iff_toNat, Bool.and_eq_true, decide_eq_true_eq, ne_eq, Text.eq_iff_toNat,
    Char.reduceToNat] at hv ⊢
  omega

theorem dropScheme_append {scheme rest : List Char}
    (halpha : scheme.head?.any isAsciiAlpha = true) (hchars : scheme.all isSchemeChar = true) :
    dropScheme (scheme ++ ':' :: rest) = rest := by
  have hcolon : ∀ c ∈ scheme, decide (c ≠ ':') = true := fun c hc => by
    simpa using (visible_of_isSchemeChar (List.all_eq_true.mp hchars c hc)).2
  have htake : (scheme ++ ':' :: rest).takeWhile (· ≠ ':') = scheme := by
    rw [List.takeWhile_append_of_pos hcolon]
    simp
  have hcond : (scheme.length < (scheme ++ ':' :: rest).length &&
      scheme.head?.any isAsciiAlpha && scheme.all isSchemeChar) = true := by
    simp only [halpha, hchars, List.length_append, List.length_cons, Bool.and_true,
      decide_eq_true_eq]
    omega
  rw [dropScheme]
  simp only [htake, hcond, if_true]
  rw [← List.drop_drop, List.drop_left, List.drop_one, List.tail_cons]

theorem splitNetloc_slashes {netloc : List Char} (h : ∀ c ∈ netloc, endsNetloc c = false) :
    splitNetloc ('/' :: '/' :: netloc) = netloc := by
  apply List.takeWhile_eq_self_iff.mpr
  intro c hc
  simp [h c hc]

theorem hostInfo_eq_self {netloc : List Char} (h : ∀ c ∈ netloc, c ≠ '@') :
    hostInfo netloc = netloc := by
  have htake : netloc.reverse.takeWhile (· ≠ '@') = netloc.reverse := by
    apply List.takeWhile_eq_self_iff.mpr
    intro c hc
    simpa using h c (List.mem_reverse.mp hc)
  rw [hostInfo, htake, List.reverse_reverse]

namespace BrowserOrigin

variable {fw : Framework}

theorem tame_of_mem_portText {port : Option Nat} {c : Char} (h : c ∈ (portText port).toList) :
    Tame c ∧ c ≠ '[' ∧ c ≠ ']' := by
  cases port with
  | none => simp [portText] at h
  | some n =>
    rw [portText, String.toList_append, List.mem_append] at h
    rcases h with h | h
    · have hc : c = ':' := by simpa using h
      subst hc
      exact tame_of_isIPv6Char (by decide)
    · have hd := tame_of_isDigit (isDigit_of_mem_toString h)
      exact ⟨hd.1, hd.2.2⟩

theorem tame_of_mem_hostText {host : OriginHost fw} {c : Char} (h : c ∈ (hostText host).toList) :
    Tame c := by
  cases host with
  | name host _ chars => exact (tame_of_isHostChar (List.all_eq_true.mp chars c h)).1
  | ipv6 address chars _ _ =>
    simp only [hostText, String.toList_append, List.mem_append] at h
    rcases h with (h | h) | h
    · have hc : c = '[' := by simpa using h
      subst hc
      exact ⟨by decide, by decide, by decide, by decide, by decide⟩
    · exact (tame_of_isIPv6Char (List.all_eq_true.mp chars c h)).1
    · have hc : c = ']' := by simpa using h
      subst hc
      exact ⟨by decide, by decide, by decide, by decide, by decide⟩

/-- The network location of an origin. -/
def netloc (host : OriginHost fw) (port : Option Nat) : List Char :=
  (hostText host).toList ++ (portText port).toList

theorem tame_of_mem_netloc {host : OriginHost fw} {port : Option Nat} {c : Char}
    (h : c ∈ netloc host port) : Tame c := by
  rcases List.mem_append.mp h with h | h
  · exact tame_of_mem_hostText h
  · exact (tame_of_mem_portText h).1

/-- `urlparse` finds the network location of an origin. -/
theorem splitNetloc_raw {scheme : String} {host : OriginHost fw} {port : Option Nat}
    (alpha : scheme.toList.head?.any isAsciiAlpha = true)
    (chars : scheme.toList.all isSchemeChar = true) :
    splitNetloc (dropScheme (cleanUrl (scheme ++ "://" ++ hostText host ++ portText port).toList)) =
      netloc host port := by
  have hlist : (scheme ++ "://" ++ hostText host ++ portText port).toList =
      scheme.toList ++ ':' :: '/' :: '/' :: netloc host port := by
    simp [netloc]
  have hvisible : ∀ c ∈ scheme.toList ++ ':' :: '/' :: '/' :: netloc host port, '!' ≤ c := by
    intro c hc
    simp only [List.mem_append, List.mem_cons] at hc
    rcases hc with hc | rfl | rfl | rfl | hc
    · exact (visible_of_isSchemeChar (List.all_eq_true.mp chars c hc)).1
    · decide
    · decide
    · decide
    · exact (tame_of_mem_netloc hc).visible
  rw [hlist, cleanUrl_eq_self hvisible, dropScheme_append alpha chars, splitNetloc_slashes]
  intro c hc
  exact (tame_of_mem_netloc hc).notDelimiter

/-- The digits of a port. -/
def portDigits : Option Nat → List Char
  | some n => (toString n).toList
  | none => []

theorem toList_portText (port : Option Nat) :
    (portText port).toList = (port.map fun n => ':' :: (toString n).toList).getD [] := by
  cases port with
  | none => rfl
  | some n => simp [portText]

theorem portOf_portDigits {port : Option Nat} (small : ∀ n ∈ port, n ≤ 65535) :
    portOf (portDigits port) = some port := by
  cases port with
  | none => rfl
  | some n => exact portOf_toString (small n rfl)

theorem hostInfo_netloc (host : OriginHost fw) (port : Option Nat) :
    hostInfo (netloc host port) = netloc host port :=
  hostInfo_eq_self fun _ hc => (tame_of_mem_netloc hc).notAt

/-- The host and the port of a network location, before any letter case is changed. -/
theorem hostAndPort_name (host : String) (nonempty : host ≠ "")
    (chars : host.toList.all isHostChar = true) (port : Option Nat) :
    hostAndPort (netloc (.name host nonempty chars : OriginHost fw) port) =
      (host.toList, portDigits port) := by
  have hchar : ∀ c ∈ host.toList, c ≠ ':' ∧ c ≠ '[' := fun c hc =>
    ⟨(tame_of_isHostChar (List.all_eq_true.mp chars c hc)).2.1,
      (tame_of_isHostChar (List.all_eq_true.mp chars c hc)).2.2.1⟩
  have hopen : '[' ∉ netloc (.name host nonempty chars : OriginHost fw) port := by
    intro h
    rcases List.mem_append.mp h with h | h
    · exact (hchar _ h).2 rfl
    · exact (tame_of_mem_portText h).2.1 rfl
  have hcolon : ∀ c ∈ host.toList, decide (c ≠ ':') = true := fun c hc => by
    simpa using (hchar c hc).1
  rw [hostAndPort, hostInfo_netloc]
  simp only [if_neg hopen]
  rw [netloc, hostText, List.takeWhile_append_of_pos hcolon, List.dropWhile_append_of_pos hcolon,
    toList_portText]
  cases port with
  | none => simp [portDigits]
  | some n => simp [portDigits]

theorem hostAndPort_ipv6 (address : String) (chars : address.toList.all isIPv6Char = true)
    (group : ':' ∈ address.toList ∧ '.' ∉ (before ':' address).toList)
    (valid : fw.isIPv6 address = true) (port : Option Nat) :
    hostAndPort (netloc (.ipv6 address chars group valid) port) =
      (address.toList, portDigits port) := by
  have hclose : ∀ c ∈ address.toList, decide (c ≠ ']') = true := fun c hc => by
    simpa using (tame_of_isIPv6Char (List.all_eq_true.mp chars c hc)).2.2
  have hlist : netloc (.ipv6 address chars group valid) port =
      '[' :: (address.toList ++ ']' :: (portText port).toList) := by
    simp [netloc, hostText]
  rw [hostAndPort, hostInfo_netloc, hlist]
  simp only [List.mem_cons, true_or, if_true]
  rw [List.dropWhile_cons_of_neg (by simp), List.tail_cons, List.takeWhile_append_of_pos hclose,
    List.dropWhile_append_of_pos hclose, toList_portText]
  cases port with
  | none => simp [portDigits]
  | some n => simp [portDigits]

/-- The checks of `urlsplit` pass. -/
theorem netlocOk_netloc (host : OriginHost fw) (port : Option Nat) :
    netlocOk fw (netloc host port) = true := by
  have hascii : (netloc host port).all (· ≤ '\x7f') = true :=
    List.all_eq_true.mpr fun c hc => by simpa using (tame_of_mem_netloc hc).ascii
  rw [netlocOk, hascii]
  simp only [Bool.true_or, Bool.and_true]
  cases host with
  | name host nonempty chars =>
    -- no bracket anywhere
    have hnone : ∀ c ∈ netloc (.name host nonempty chars : OriginHost fw) port, c ≠ '[' ∧ c ≠ ']' := by
      intro c hc
      rcases List.mem_append.mp hc with hc | hc
      · exact (tame_of_isHostChar (List.all_eq_true.mp chars c hc)).2.2
      · exact (tame_of_mem_portText hc).2
    have hopen : '[' ∉ netloc (.name host nonempty chars : OriginHost fw) port :=
      fun h => (hnone _ h).1 rfl
    have hclose : ']' ∉ netloc (.name host nonempty chars : OriginHost fw) port :=
      fun h => (hnone _ h).2 rfl
    simp [hopen, hclose]
  | ipv6 address chars group valid =>
    have hclose : ∀ c ∈ address.toList, decide (c ≠ ']') = true := fun c hc => by
      simpa using (tame_of_isIPv6Char (List.all_eq_true.mp chars c hc)).2.2
    have hport := hostAndPort_ipv6 address chars group valid port
    have hinfo := hostInfo_netloc (.ipv6 address chars group valid) port
    have hlist : netloc (.ipv6 address chars group valid) port =
        '[' :: (address.toList ++ ']' :: (portText port).toList) := by
      simp [netloc, hostText]
    have hbrackets : bracketsOk fw (netloc (.ipv6 address chars group valid) port) = true := by
      rw [bracketsOk, hinfo, hport]
      simp only [hlist, List.mem_cons, true_or, if_true, String.ofList_toList, valid, Bool.and_true]
      rw [List.dropWhile_cons_of_neg (by simp), List.tail_cons,
        List.dropWhile_append_of_pos hclose, toList_portText]
      cases port with
      | none => simp
      | some n => simp
    simp [hlist ▸ hbrackets, hlist]

/-- The text that stands for the port in what the parser makes of an origin. -/
def shownPort : Option Nat → String
  | some (n + 1) => ":" ++ toString (n + 1)
  | _ => ""

theorem hostnameLower_eq {host : String} (h : ∀ c ∈ host.toList, c ≠ '%') :
    hostnameLower host.toList = lower host := by
  have hp : ∀ c ∈ host.toList, decide (c ≠ '%') = true := fun c hc => by simpa using h c hc
  rw [hostnameLower, List.takeWhile_eq_self_iff.mpr hp, List.dropWhile_eq_nil_iff.mpr hp,
    String.ofList_toList]
  simp

/-- An origin with the host `host` is formatted as the host in lower case and the port. -/
theorem formatOrigin_of_hostAndPort {scheme : String} {host : OriginHost fw} {port : Option Nat}
    (alpha : scheme.toList.head?.any isAsciiAlpha = true)
    (chars : scheme.toList.all isSchemeChar = true) (small : ∀ n ∈ port, n ≤ 65535)
    {name : String} (hname : name ≠ "") (hpercent : ∀ c ∈ name.toList, c ≠ '%')
    (hhost : hostAndPort (netloc host port) = (name.toList, portDigits port)) :
    formatOrigin fw (scheme ++ "://" ++ hostText host ++ portText port) =
      some (lower name ++ shownPort port) := by
  have hne : name.toList ≠ [] := fun h => hname (String.toList_eq_nil_iff.mp h)
  rw [formatOrigin, splitNetloc_raw alpha chars]
  simp only [netlocOk_netloc, if_true, hhost, portOf_portDigits small, if_neg hne,
    hostnameLower_eq hpercent]
  cases port with
  | none => simp [shownPort]
  | some n =>
    cases n with
    | zero => simp [shownPort]
    | succ n => simp [shownPort, String.append_assoc]

end BrowserOrigin

end OpenHost.Web
