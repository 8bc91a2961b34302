import Mathlib.Algebra.Group.Nat.Defs
import OpenHost.Library.JsonValues

/-!
# What the reader returns

A value that `json.loads` returns can be written by `json.dumps` and is then read as it is.  With larger
limits, the reader returns the same value.  Floats are the only values that are not kept as they are
written: what is read of them is a parameter.

## Reasoning

* `Good`, `StackGood`, `ModeGood`: what holds of the reader's state after any text; one lemma for each
  way to go on (`good_place`, `good_beginValue`, …), and one for a step.
* `good_of_loads`: so it holds of what is returned.
* `loads_mono`: a step that succeeds does so with larger limits.
-/

namespace OpenHost.Json

variable {lim : Limits} {stack : List Frame} {mode : Mode}

/-! ## Values that can be written -/

/-- A value that no reading changes, and that can be written where so many containers can still be
opened. -/
structure Good (lim : Limits) (depth : Nat) (v : Value) : Prop where
  wellFormed : v.wellFormed = true
  fits : v.fits lim depth = true

/-- The members of a dictionary, in which so many containers can be opened. -/
structure MembersGood (lim : Limits) (depth : Nat) (members : List (PyStr × Value)) : Prop where
  nodup : (members.map Prod.fst).Nodup
  joined : ∀ m ∈ members, Joined m.1
  good : ∀ m ∈ members, Good lim depth m.2

/-- What has been read of a container. -/
def FrameGood (lim : Limits) (depth : Nat) : Frame → Prop
  | .list items => ∀ v ∈ items, Good lim depth v
  | .dict members => MembersGood lim depth members
  | .member members key => MembersGood lim depth members ∧ Joined key

/-- The open containers, each with those below it. -/
def StackGood (lim : Limits) : List Frame → Prop
  | [] => True
  | f :: rest =>
    rest.length < lim.depth ∧ FrameGood lim (lim.depth - rest.length - 1) f ∧ StackGood lim rest

/-- What has been read of a value. -/
def ModeGood (lim : Limits) : Mode → Prop
  | .complete v => Good lim lim.depth v
  | .string _ _ read => ∃ s : PyStr, read = s.foldl push []
  | .number part read => numberPart? read = some part
  | .literal _ v => ∀ depth, Good lim depth v
  | _ => True

/-- The state of the reader. -/
structure ConfigGood (lim : Limits) (x : Config) : Prop where
  stack : StackGood lim x.stack
  mode : ModeGood lim x.mode

theorem good_list {depth : Nat} {items : List Value} (h : ∀ v ∈ items, Good lim depth v) :
    Good lim (depth + 1) (.list items) where
  wellFormed := list_wellFormed_iff.mpr fun v hv => (h v hv).wellFormed
  fits := by
    rw [Value.fits, itemsFit_iff]
    exact fun v hv => (h v hv).fits

theorem good_dict {depth : Nat} {members : List (PyStr × Value)} (h : MembersGood lim depth members) :
    Good lim (depth + 1) (.dict members) where
  wellFormed := dict_wellFormed_iff.mpr ⟨h.nodup, fun m hm => ⟨h.joined m hm, (h.good m hm).wellFormed⟩⟩
  fits := by
    rw [Value.fits, membersFit_iff]
    exact fun m hm => (h.good m hm).fits

theorem membersGood_of_good {depth : Nat} {members : List (PyStr × Value)}
    (h : Good lim (depth + 1) (.dict members)) : MembersGood lim depth members := by
  obtain ⟨hnodup, hparts⟩ := dict_wellFormed_iff.mp h.wellFormed
  have hfits := h.fits
  rw [Value.fits, membersFit_iff] at hfits
  exact ⟨hnodup, fun m hm => (hparts m hm).1, fun m hm => ⟨(hparts m hm).2, hfits m hm⟩⟩

theorem mem_setItem {d : List (PyStr × Value)} {key : PyStr} {v : Value} {m : PyStr × Value}
    (h : m ∈ setItem d key v) : m = (key, v) ∨ m ∈ d := by
  unfold setItem at h
  split at h
  · obtain ⟨m', hm', rfl⟩ := List.mem_map.mp h
    split
    · exact .inl rfl
    · exact .inr hm'
  · rcases List.mem_append.mp h with h | h
    · exact .inr h
    · exact .inl (List.mem_singleton.mp h)

theorem keys_setItem (d : List (PyStr × Value)) (key : PyStr) (v : Value) :
    (setItem d key v).map Prod.fst = if key ∈ d.map Prod.fst then d.map Prod.fst
      else d.map Prod.fst ++ [key] := by
  unfold setItem
  split
  · rw [List.map_map]
    apply List.map_congr_left
    intro m _
    rw [Function.comp_apply]
    split
    · next hkey => exact hkey.symm
    · rfl
  · rw [List.map_append]
    rfl

/-- Setting a key keeps the keys distinct. -/
theorem membersGood_setItem {depth : Nat} {members : List (PyStr × Value)} {key : PyStr} {v : Value}
    (h : MembersGood lim depth members) (hkey : Joined key) (hv : Good lim depth v) :
    MembersGood lim depth (setItem members key v) where
  nodup := by
    rw [keys_setItem]
    split
    · exact h.nodup
    · next hnew =>
      refine List.nodup_append.mpr ⟨h.nodup, List.nodup_singleton _, ?_⟩
      rintro k hk k' hk' rfl
      exact hnew (List.mem_singleton.mp hk' ▸ hk)
  joined := fun m hm => by
    rcases mem_setItem hm with rfl | hm
    · exact hkey
    · exact h.joined m hm
  good := fun m hm => by
    rcases mem_setItem hm with rfl | hm
    · exact hv
    · exact h.good m hm

/-! ## The steps of the reader -/

/-- What succeeds has succeeded on the way. -/
theorem exists_ok_of_bind {α β : Type} {r : Except Error α} {f : α → Except Error β} {b : β}
    (h : r >>= f = .ok b) : ∃ a, r = .ok a ∧ f a = .ok b := by
  cases r with
  | error e => cases h
  | ok a => exact ⟨a, rfl, h⟩

/-- A value that has been read goes into the container it stands in. -/
theorem good_place {v : Value} (h : StackGood lim stack) (hv : Good lim (lim.depth - stack.length) v) :
    ConfigGood lim (place stack v) := by
  cases stack with
  | nil => exact ⟨trivial, hv⟩
  | cons f rest =>
    obtain ⟨hdepth, hframe, hrest⟩ := h
    have hlength : lim.depth - (f :: rest).length = lim.depth - rest.length - 1 := by
      rw [List.length_cons]
      omega
    rw [hlength] at hv
    cases f with
    | list items =>
      refine ⟨⟨hdepth, ?_, hrest⟩, trivial⟩
      intro w hw
      rcases List.mem_append.mp hw with hw | hw
      · exact hframe w hw
      · exact List.mem_singleton.mp hw ▸ hv
    | dict members => exact ⟨⟨hdepth, hframe, hrest⟩, trivial⟩
    | member members key =>
      exact ⟨⟨hdepth, membersGood_setItem hframe.1 hframe.2 hv, hrest⟩, trivial⟩

theorem good_openFrame {x : Config} {f : Frame} (h : StackGood lim stack)
    (hf : ∀ depth, FrameGood lim depth f) (hmode : ModeGood lim mode)
    (hopen : openFrame lim stack f mode = .ok x) : ConfigGood lim x := by
  unfold openFrame at hopen
  split at hopen
  · next hdepth =>
    cases hopen
    exact ⟨⟨hdepth, hf _, h⟩, hmode⟩
  · cases hopen

theorem good_beginValue {x : Config} {c : Char} (h : StackGood lim stack)
    (hbegin : beginValue lim stack c = .ok x) : ConfigGood lim x := by
  have hfloat : ∀ text, isFloat text = true → ∀ depth, Good lim depth (.float text) := by
    intro text htext depth
    exact ⟨htext, by cases depth <;> rfl⟩
  have hempty : ∀ depth, FrameGood lim depth (.dict []) := fun depth =>
    ⟨List.nodup_nil, by simp, by simp⟩
  unfold beginValue at hbegin
  by_cases hquote : c = '"'
  · rw [if_pos hquote] at hbegin
    cases hbegin
    exact ⟨h, [], rfl⟩
  rw [if_neg hquote] at hbegin
  by_cases hdict : c = '{'
  · rw [if_pos hdict] at hbegin
    have hmode : ModeGood lim .firstKey := trivial
    exact good_openFrame h hempty hmode hbegin
  rw [if_neg hdict] at hbegin
  by_cases hlist : c = '['
  · rw [if_pos hlist] at hbegin
    have hitems : ∀ depth, FrameGood lim depth (.list []) := fun depth => by simp [FrameGood]
    have hmode : ModeGood lim .firstItem := trivial
    exact good_openFrame h hitems hmode hbegin
  rw [if_neg hlist] at hbegin
  by_cases hminus : c = '-'
  · rw [if_pos hminus] at hbegin
    cases hbegin
    exact ⟨h, by rw [hminus]; rfl⟩
  rw [if_neg hminus] at hbegin
  by_cases hzero : c = '0'
  · rw [if_pos hzero] at hbegin
    cases hbegin
    exact ⟨h, by rw [hzero]; rfl⟩
  rw [if_neg hzero] at hbegin
  by_cases hdigit : c.isDigit = true
  · rw [if_pos hdigit] at hbegin
    cases hbegin
    refine ⟨h, ?_⟩
    simp [ModeGood, numberPart?, firstPart?, hminus, hzero, hdigit]
  rw [if_neg hdigit] at hbegin
  -- what is left are names
  by_cases hnull : c = 'n'
  · rw [if_pos hnull] at hbegin
    cases hbegin
    exact ⟨h, fun depth => ⟨rfl, by cases depth <;> rfl⟩⟩
  rw [if_neg hnull] at hbegin
  by_cases htrue : c = 't'
  · rw [if_pos htrue] at hbegin
    cases hbegin
    exact ⟨h, fun depth => ⟨rfl, by cases depth <;> rfl⟩⟩
  rw [if_neg htrue] at hbegin
  by_cases hfalse : c = 'f'
  · rw [if_pos hfalse] at hbegin
    cases hbegin
    exact ⟨h, fun depth => ⟨rfl, by cases depth <;> rfl⟩⟩
  rw [if_neg hfalse] at hbegin
  by_cases hnan : c = 'N'
  · rw [if_pos hnan] at hbegin
    cases hbegin
    exact ⟨h, hfloat _ (isFloat_iff.mpr (.inr (.inl rfl)))⟩
  rw [if_neg hnan] at hbegin
  by_cases hinfinity : c = 'I'
  · rw [if_pos hinfinity] at hbegin
    cases hbegin
    exact ⟨h, hfloat _ (isFloat_iff.mpr (.inr (.inr (.inl rfl))))⟩
  · rw [if_neg hinfinity] at hbegin
    cases hbegin

/-- A container that is closed is a value of the one around it. -/
theorem good_close {rest : List Frame} {v : Value} (hdepth : rest.length < lim.depth)
    (hrest : StackGood lim rest) (hv : Good lim (lim.depth - rest.length - 1 + 1) v) :
    ConfigGood lim (place rest v) := by
  have hsucc : lim.depth - rest.length - 1 + 1 = lim.depth - rest.length := by omega
  rw [hsucc] at hv
  exact good_place hrest hv

theorem good_afterValue {x : Config} {c : Char} (h : StackGood lim stack) (hmode : ModeGood lim mode)
    (hafter : afterValue stack mode c = .ok x) : ConfigGood lim x := by
  unfold afterValue at hafter
  split at hafter
  · cases hafter
    exact ⟨h, hmode⟩
  cases stack with
  | nil => cases hafter
  | cons f rest =>
    obtain ⟨hdepth, hframe, hrest⟩ := h
    cases f with
    | list items =>
      dsimp only at hafter
      split at hafter
      · cases hafter
        exact ⟨⟨hdepth, hframe, hrest⟩, trivial⟩
      split at hafter
      · cases hafter
        exact good_close hdepth hrest (good_list hframe)
      · cases hafter
    | dict members =>
      dsimp only at hafter
      split at hafter
      · cases hafter
        exact ⟨⟨hdepth, hframe, hrest⟩, trivial⟩
      split at hafter
      · cases hafter
        exact good_close hdepth hrest (good_dict hframe)
      · cases hafter
    | member members key => cases hafter

theorem good_afterPlaced {x y : Config} {c : Char} (h : ConfigGood lim x)
    (hafter : afterPlaced x c = .ok y) : ConfigGood lim y := by
  unfold afterPlaced at hafter
  split at hafter
  · split at hafter
    · cases hafter
      exact h
    · cases hafter
  · exact good_afterValue h.stack h.mode hafter

/-- One more character of a string. -/
theorem joins_push {read : PyStr} (h : ∃ s : PyStr, read = s.foldl push []) (c : CodePoint) :
    ∃ s : PyStr, push read c = s.foldl push [] := by
  obtain ⟨s, rfl⟩ := h
  exact ⟨s ++ [c], by rw [List.foldl_append]; rfl⟩

theorem joined_of_read {read : PyStr} (h : ∃ s : PyStr, read = s.foldl push []) : Joined read.reverse := by
  obtain ⟨s, rfl⟩ := h
  exact joined_join s

theorem good_inString {x : Config} {isKey : Bool} {part : StringPart} {read : PyStr} {c : Char}
    (h : StackGood lim stack) (hread : ∃ s : PyStr, read = s.foldl push [])
    (hstring : inString stack isKey read c part = .ok x) : ConfigGood lim x := by
  have hjoined := joined_of_read hread
  cases part with
  | plain =>
    simp only [inString] at hstring
    split at hstring
    · split at hstring
      · -- a key is over
        cases stack with
        | nil => cases hstring
        | cons f rest =>
          cases f with
          | list items => cases hstring
          | dict members =>
            cases hstring
            exact ⟨⟨h.1, ⟨h.2.1, hjoined⟩, h.2.2⟩, trivial⟩
          | member members key => cases hstring
      · cases hstring
        refine good_place h ⟨decide_eq_true hjoined, ?_⟩
        cases lim.depth - stack.length <;> rfl
    split at hstring
    · cases hstring
      exact ⟨h, hread⟩
    split at hstring
    · cases hstring
    · cases hstring
      exact ⟨h, joins_push hread _⟩
  | backslash =>
    simp only [inString] at hstring
    split at hstring
    · cases hstring
      exact ⟨h, hread⟩
    split at hstring
    · cases hstring
      exact ⟨h, joins_push hread _⟩
    · cases hstring
  | hex count n =>
    simp only [inString] at hstring
    split at hstring
    · split at hstring
      · cases hstring
        exact ⟨h, joins_push hread _⟩
      · cases hstring
        exact ⟨h, hread⟩
    · cases hstring

/-! ### Numbers -/

theorem numberPart?_concat {read : List Char} {part part' : NumberPart} {c : Char}
    (h : numberPart? read = some part) (hnext : nextPart? part c = some part') :
    numberPart? (read ++ [c]) = some part' := by
  cases read with
  | nil => cases h
  | cons d ds =>
    obtain ⟨first, hfirst, hrest⟩ := Option.bind_eq_some_iff.mp h
    rw [List.cons_append, numberPart?, hfirst, Option.bind_some, List.foldlM_append, hrest]
    simpa using hnext

/-- A number that is more than a sign has digits before anything else. -/
theorem digits_ne_nil {read : List Char} {part : NumberPart} (h : numberPart? read = some part)
    (hpart : part ≠ .minus) : (read.dropWhile (· = '-')).takeWhile Char.isDigit ≠ [] := by
  cases read with
  | nil => cases h
  | cons c cs =>
    obtain ⟨first, hfirst, hrest⟩ := Option.bind_eq_some_iff.mp h
    have hdigit : ∀ (d : Char) (ds : List Char), d.isDigit = true →
        ((d :: ds).dropWhile (· = '-')).takeWhile Char.isDigit ≠ [] := by
      intro d ds hd
      have hne : d ≠ '-' := by
        rintro rfl
        exact absurd hd (by decide)
      simp [hne, hd]
    unfold firstPart? at hfirst
    split at hfirst
    · next hminus =>
      cases hfirst
      cases cs with
      | nil =>
        cases hrest
        exact absurd rfl hpart
      | cons d ds =>
        obtain ⟨next, hnext, -⟩ := Option.bind_eq_some_iff.mp hrest
        have hd : d.isDigit = true := by
          unfold nextPart? at hnext
          dsimp only at hnext
          split at hnext
          · next hzero =>
            rw [hzero]
            rfl
          split at hnext
          · assumption
          · cases hnext
        have hsame : ((c :: d :: ds).dropWhile (· = '-')) = (d :: ds).dropWhile (· = '-') := by
          simp [hminus]
        rw [hsame]
        exact hdigit d ds hd
    split at hfirst
    · next hzero =>
      rw [hzero]
      exact hdigit '0' cs rfl
    split at hfirst
    · next hd => exact hdigit c cs hd
    · cases hfirst

/-- As many digits as there are make no longer number. -/
theorem ofDigitChars_lt {ds : List Char} (h : ∀ c ∈ ds, c.isDigit = true) :
    Nat.ofDigitChars 10 ds 0 < 10 ^ ds.length := by
  induction ds with
  | nil => simp
  | cons c ds ih =>
    have hc : c.toNat - '0'.toNat ≤ 9 := by
      have hdigit := h c List.mem_cons_self
      simp only [Char.isDigit, Bool.and_eq_true, decide_eq_true_eq, UInt32.le_iff_toNat_le] at hdigit
      have htoNat : c.toNat = c.val.toNat := rfl
      have hnine : ('9' : Char).val.toNat = 57 := rfl
      have hzero : '0'.toNat = 48 := rfl
      omega
    have hrest := ih fun d hd => h d (List.mem_cons_of_mem c hd)
    rw [Nat.ofDigitChars_cons, Nat.ofDigitChars_eq_ofDigitChars_zero, List.length_cons, Nat.pow_succ]
    have hle : 10 ^ ds.length * (10 * 0 + (c.toNat - '0'.toNat)) ≤ 10 ^ ds.length * 9 :=
      Nat.mul_le_mul_left _ (by omega)
    omega

theorem length_intValue {read : List Char} {n : Int}
    (hdigits : (read.dropWhile (· = '-')).takeWhile Char.isDigit ≠ []) (h : intValue lim read = .ok n) :
    (Nat.toDigits 10 n.natAbs).length ≤ lim.digits := by
  simp only [intValue] at h
  split at h
  · cases h
  · next hlength =>
    generalize hds : (read.dropWhile (· = '-')).takeWhile Char.isDigit = ds at *
    have hmem : ∀ c ∈ ds, c.isDigit = true := by
      rw [← hds]
      exact fun c hc => List.mem_takeWhile_imp hc
    have habs : n.natAbs = Nat.ofDigitChars 10 ds 0 := by
      cases h
      split <;> simp
    have hpos : 0 < ds.length := List.length_pos_iff.mpr hdigits
    have hle : (Nat.toDigits 10 n.natAbs).length ≤ ds.length := by
      rw [Nat.length_toDigits_le_iff (by decide) hpos, habs]
      exact ofDigitChars_lt hmem
    omega

/-- Only a whole number has a value. -/
theorem numberValue_ok {part : NumberPart} {read : List Char} {v : Value}
    (h : numberValue lim part read = .ok v) :
    (part = .zero ∨ part = .digits) ∧ (intValue lim read).map .int = .ok v ∨
      (part = .fraction ∨ part = .exponentDigits) ∧ v = .float read := by
  have hraise : ∀ r : Except Error Int, (do let _ ← r; throw Error.decode : Except Error Value) ≠ .ok v := by
    intro r
    cases r <;> simp [bind, Except.bind, throw, throwThe, MonadExceptOf.throw]
  cases part with
  | zero => exact .inl ⟨.inl rfl, h⟩
  | digits => exact .inl ⟨.inr rfl, h⟩
  | fraction => exact .inr ⟨.inl rfl, (Except.ok.inj h).symm⟩
  | exponentDigits => exact .inr ⟨.inr rfl, (Except.ok.inj h).symm⟩
  | minus => cases h
  | point => exact absurd h (hraise _)
  | exponent =>
    simp only [numberValue] at h
    split at h
    · cases h
    · exact absurd h (hraise _)
  | exponentSign =>
    simp only [numberValue] at h
    split at h
    · cases h
    · exact absurd h (hraise _)

theorem good_numberValue {part : NumberPart} {read : List Char} {v : Value}
    (hread : numberPart? read = some part) (h : numberValue lim part read = .ok v) (depth : Nat) :
    Good lim depth v := by
  have hint : part ≠ .minus → (intValue lim read).map .int = .ok v → Good lim depth v := by
    intro hpart hmap
    cases hvalue : intValue lim read with
    | error e =>
      rw [hvalue] at hmap
      cases hmap
    | ok n =>
      rw [hvalue] at hmap
      cases hmap
      have hlength := length_intValue (digits_ne_nil hread hpart) hvalue
      exact ⟨rfl, by cases depth <;> exact decide_eq_true hlength⟩
  have hfloat : part = .fraction ∨ part = .exponentDigits → v = .float read → Good lim depth v := by
    rintro hpart rfl
    have hfraction : isFraction read = true := by
      rcases hpart with rfl | rfl <;> simp [isFraction, hread]
    exact ⟨isFloat_iff.mpr (.inl hfraction), by cases depth <;> rfl⟩
  rcases numberValue_ok h with ⟨hpart, hmap⟩ | ⟨hpart, hv⟩
  · refine hint ?_ hmap
    rcases hpart with rfl | rfl <;> simp
  · exact hfloat hpart hv

/-- One more character keeps what holds of the reader's state. -/
theorem good_step {x y : Config} {c : Char} (h : ConfigGood lim x) (hstep : step lim x c = .ok y) :
    ConfigGood lim y := by
  obtain ⟨stack, mode⟩ := x
  obtain ⟨hstack, hmode⟩ := h
  cases mode with
  | value =>
    simp only [step] at hstep
    split at hstep
    · cases hstep
      exact ⟨hstack, trivial⟩
    · exact good_beginValue hstack hstep
  | firstItem =>
    simp only [step] at hstep
    split at hstep
    · cases hstep
      exact ⟨hstack, trivial⟩
    split at hstep
    · exact good_afterValue hstack hmode hstep
    · exact good_beginValue hstack hstep
  | firstKey =>
    simp only [step] at hstep
    split at hstep
    · cases hstep
      exact ⟨hstack, trivial⟩
    split at hstep
    · cases hstep
      exact ⟨hstack, [], rfl⟩
    split at hstep
    · exact good_afterValue hstack hmode hstep
    · cases hstep
  | key =>
    simp only [step] at hstep
    split at hstep
    · cases hstep
      exact ⟨hstack, trivial⟩
    split at hstep
    · cases hstep
      exact ⟨hstack, [], rfl⟩
    · cases hstep
  | colon =>
    simp only [step] at hstep
    split at hstep
    · cases hstep
      exact ⟨hstack, trivial⟩
    split at hstep
    · cases hstep
      exact ⟨hstack, trivial⟩
    · cases hstep
  | after => exact good_afterPlaced ⟨hstack, hmode⟩ hstep
  | complete v => exact good_afterPlaced ⟨hstack, hmode⟩ hstep
  | string isKey part read => exact good_inString hstack hmode hstep
  | number part read =>
    simp only [step] at hstep
    split at hstep
    · next hnext =>
      cases hstep
      exact ⟨hstack, numberPart?_concat hmode hnext⟩
    split at hstep
    · cases hstep
      exact ⟨hstack, fun depth => ⟨isFloat_iff.mpr (.inr (.inr (.inr rfl))), by cases depth <;> rfl⟩⟩
    · -- the number is over
      obtain ⟨v, hv, hafter⟩ := exists_ok_of_bind hstep
      exact good_afterPlaced (good_place hstack (good_numberValue hmode hv _)) hafter
  | literal rest v =>
    cases rest with
    | nil => cases hstep
    | cons d rest =>
      cases rest with
      | nil =>
        simp only [step] at hstep
        split at hstep
        · cases hstep
          exact good_place hstack (hmode _)
        · cases hstep
      | cons e rest =>
        simp only [step] at hstep
        split at hstep
        · cases hstep
          exact ⟨hstack, hmode⟩
        · cases hstep

/-! ## The text of a byte string

`json.loads` of bytes decodes them with `surrogatepass`, so the text can hold surrogates. -/

def isSurrogate (c : CodePoint) : Bool := isHigh c || isLow c

/-- One element of a text.  Only a string can hold a surrogate. -/
def stepPoint (lim : Limits) (x : Config) (c : CodePoint) : Except Error Config :=
  if isSurrogate c then
    match x.mode with
    | .string isKey .plain read => .ok ⟨x.stack, .string isKey .plain (push read c)⟩
    | .number part read => do
        let _ ← numberValue lim part read
        .error .decode
    | _ => .error .decode
  else step lim x (Char.ofNat c.val)

def runPoints (lim : Limits) (x : Config) (text : PyStr) : Except Error Config :=
  text.foldlM (stepPoint lim) x

/-- `json.loads(data)` for bytes that are decoded to the text. -/
def loadsPoints (lim : Limits) (text : PyStr) : Except Error Value :=
  runPoints lim ⟨[], .value⟩ text >>= finish lim

theorem isSurrogate_ord (c : Char) : isSurrogate (ord c) = false := by
  have hvalid := c.valid
  simp only [UInt32.isValidChar, Nat.isValidChar] at hvalid
  have hval : (ord c).val = c.val.toNat := rfl
  simp only [isSurrogate, isHigh, isLow, hval, Bool.or_eq_false_iff, Bool.and_eq_false_iff,
    decide_eq_false_iff_not]
  omega

theorem stepPoint_ord (x : Config) (c : Char) : stepPoint lim x (ord c) = step lim x c := by
  have hchar : Char.ofNat (ord c).val = c := Char.ofNat_toNat c
  simp [stepPoint, isSurrogate_ord, hchar]

/-- A text without surrogates is read as such. -/
theorem loadsPoints_ord (text : List Char) : loadsPoints lim (text.map ord) = loads lim text := by
  have hrun : ∀ x, runPoints lim x (text.map ord) = run lim x text := by
    induction text with
    | nil => exact fun _ => rfl
    | cons c cs ih =>
      intro x
      rw [List.map_cons, runPoints, run, List.foldlM_cons, List.foldlM_cons, stepPoint_ord]
      cases step lim x c with
      | error e => rfl
      | ok y => exact ih y
  rw [loadsPoints, hrun, loads]

theorem good_stepPoint {x y : Config} {c : CodePoint} (h : ConfigGood lim x)
    (hstep : stepPoint lim x c = .ok y) : ConfigGood lim y := by
  unfold stepPoint at hstep
  split at hstep
  · obtain ⟨stack, mode⟩ := x
    cases mode with
    | string isKey part read =>
      cases part with
      | plain =>
        cases hstep
        exact ⟨h.stack, joins_push h.mode c⟩
      | _ => cases hstep
    | number part read =>
      obtain ⟨v, -, hraise⟩ := exists_ok_of_bind hstep
      cases hraise
    | _ => cases hstep
  · exact good_step h hstep

theorem good_runPoints {x y : Config} {text : PyStr} (h : ConfigGood lim x)
    (hrun : runPoints lim x text = .ok y) : ConfigGood lim y := by
  induction text generalizing x with
  | nil =>
    cases hrun
    exact h
  | cons c cs ih =>
    obtain ⟨next, hnext, hrest⟩ := exists_ok_of_bind hrun
    exact ih (good_stepPoint h hnext) hrest

/-- What is read is a value that can be written. -/
theorem good_of_loadsPoints {text : PyStr} {v : Value} (h : loadsPoints lim text = .ok v) :
    Good lim lim.depth v := by
  have hstart : ConfigGood lim ⟨[], .value⟩ := ⟨trivial, trivial⟩
  obtain ⟨⟨stack, mode⟩, hrun, hfinish⟩ := exists_ok_of_bind h
  obtain ⟨hstack, hmode⟩ := good_runPoints hstart hrun
  cases mode with
  | complete w =>
    cases hfinish
    exact hmode
  | number part read =>
    obtain ⟨w, hw, hplace⟩ := exists_ok_of_bind hfinish
    cases stack with
    | nil =>
      cases hplace
      exact good_numberValue hmode hw _
    | cons f rest => cases f <;> cases hplace
  | _ => cases hfinish

/-! ## Larger limits -/

/-- The interpreter `lim'` takes what `lim` does. -/
structure Limits.Le (lim lim' : Limits) : Prop where
  depth : lim.depth ≤ lim'.depth
  digits : lim.digits ≤ lim'.digits

variable {lim' : Limits}

theorem openFrame_mono (h : lim.Le lim') {f : Frame} {x : Config}
    (hopen : openFrame lim stack f mode = .ok x) : openFrame lim' stack f mode = .ok x := by
  unfold openFrame at hopen ⊢
  split at hopen
  · next hdepth => rw [if_pos (lt_of_lt_of_le hdepth h.depth), hopen]
  · cases hopen

theorem beginValue_mono (h : lim.Le lim') {c : Char} {x : Config}
    (hbegin : beginValue lim stack c = .ok x) : beginValue lim' stack c = .ok x := by
  unfold beginValue at hbegin ⊢
  by_cases hquote : c = '"'
  · rwa [if_pos hquote] at hbegin ⊢
  rw [if_neg hquote] at hbegin ⊢
  by_cases hdict : c = '{'
  · rw [if_pos hdict] at hbegin ⊢
    exact openFrame_mono h hbegin
  rw [if_neg hdict] at hbegin ⊢
  by_cases hlist : c = '['
  · rw [if_pos hlist] at hbegin ⊢
    exact openFrame_mono h hbegin
  rwa [if_neg hlist] at hbegin ⊢

theorem intValue_mono (h : lim.Le lim') {read : List Char} {n : Int} (hint : intValue lim read = .ok n) :
    intValue lim' read = .ok n := by
  simp only [intValue] at hint ⊢
  split at hint
  · cases hint
  · next hlength => rw [if_neg (fun hlt => hlength (lt_of_le_of_lt h.digits hlt)), hint]

theorem numberValue_mono (h : lim.Le lim') {part : NumberPart} {read : List Char} {v : Value}
    (hnumber : numberValue lim part read = .ok v) : numberValue lim' part read = .ok v := by
  rcases numberValue_ok hnumber with ⟨hpart, hmap⟩ | ⟨hpart, rfl⟩
  · cases hint : intValue lim read with
    | error e =>
      rw [hint] at hmap
      cases hmap
    | ok n =>
      rw [hint] at hmap
      rcases hpart with rfl | rfl <;> rw [numberValue, intValue_mono h hint, hmap]
  · rcases hpart with rfl | rfl <;> rfl

theorem step_mono (h : lim.Le lim') {x y : Config} {c : Char} (hstep : step lim x c = .ok y) :
    step lim' x c = .ok y := by
  obtain ⟨stack, mode⟩ := x
  cases mode with
  | value =>
    simp only [step] at hstep ⊢
    split at hstep
    · next hspace => rw [if_pos hspace, hstep]
    · next hspace => rw [if_neg hspace, beginValue_mono h hstep]
  | firstItem =>
    simp only [step] at hstep ⊢
    split at hstep
    · next hspace => rw [if_pos hspace, hstep]
    next hspace =>
    rw [if_neg hspace]
    split at hstep
    · next hclose => rw [if_pos hclose, hstep]
    · next hclose => rw [if_neg hclose, beginValue_mono h hstep]
  | number part read =>
    simp only [step] at hstep ⊢
    split at hstep
    · exact hstep
    split at hstep
    · next hinfinity => rw [if_pos hinfinity, hstep]
    · next hinfinity =>
      -- the number is over
      obtain ⟨v, hv, hafter⟩ := exists_ok_of_bind hstep
      rw [if_neg hinfinity, numberValue_mono h hv]
      exact hafter
  | _ => exact hstep

theorem stepPoint_mono (h : lim.Le lim') {x y : Config} {c : CodePoint}
    (hstep : stepPoint lim x c = .ok y) : stepPoint lim' x c = .ok y := by
  unfold stepPoint at hstep ⊢
  split at hstep
  · next hsurrogate =>
    rw [if_pos hsurrogate]
    obtain ⟨stack, mode⟩ := x
    cases mode with
    | number part read =>
      obtain ⟨v, -, hraise⟩ := exists_ok_of_bind hstep
      cases hraise
    | string isKey part read => cases part <;> exact hstep
    | _ => exact hstep
  · next hsurrogate => rw [if_neg hsurrogate, step_mono h hstep]

theorem runPoints_mono (h : lim.Le lim') {x y : Config} {text : PyStr}
    (hrun : runPoints lim x text = .ok y) : runPoints lim' x text = .ok y := by
  induction text generalizing x with
  | nil => exact hrun
  | cons c cs ih =>
    obtain ⟨next, hnext, hrest⟩ := exists_ok_of_bind hrun
    rw [runPoints, List.foldlM_cons, stepPoint_mono h hnext]
    exact ih hrest

/-- With larger limits a text is read as the same value. -/
theorem loadsPoints_mono (h : lim.Le lim') {text : PyStr} {v : Value}
    (hloads : loadsPoints lim text = .ok v) : loadsPoints lim' text = .ok v := by
  obtain ⟨⟨stack, mode⟩, hrun, hfinish⟩ := exists_ok_of_bind hloads
  have hfinish' : finish lim' ⟨stack, mode⟩ = .ok v := by
    cases mode with
    | number part read =>
      obtain ⟨w, hw, hplace⟩ := exists_ok_of_bind hfinish
      simp only [finish, numberValue_mono h hw]
      exact hplace
    | _ => exact hfinish
  rw [loadsPoints, runPoints_mono h hrun]
  exact hfinish'

/-- Whatever an interpreter can take: the value that a text stands for, when it stands for one. -/
def Denotes (text : PyStr) (v : Value) : Prop := ∃ lim, loadsPoints lim text = .ok v

/-- What is read is what the text stands for. -/
theorem Denotes.eq_of_loadsPoints {text : PyStr} {v w : Value} (h : Denotes text v)
    (hloads : loadsPoints lim text = .ok w) : v = w := by
  obtain ⟨lim', hv⟩ := h
  let top : Limits := ⟨max lim.depth lim'.depth, lt_of_lt_of_le lim.depth_pos (le_max_left _ _),
    max lim.digits lim'.digits⟩
  have hleft : lim.Le top := ⟨le_max_left _ _, le_max_left _ _⟩
  have hright : lim'.Le top := ⟨le_max_right _ _, le_max_right _ _⟩
  have heq := (loadsPoints_mono hright hv).symm.trans (loadsPoints_mono hleft hloads)
  exact Except.ok.inj heq

/-! ## Floats -/

/-- `float.__repr__(float(text))`, as `json.dumps` has it. -/
structure FloatRepr where
  repr : List Char → List Char
  isFloat_repr : ∀ {text}, isFloat text = true → isFloat (repr text) = true

mutual

/-- The value with its floats as they are once they have been read. -/
def Value.withFloats (F : FloatRepr) : Value → Value
  | .float text => .float (F.repr text)
  | .list items => .list (itemsWithFloats F items)
  | .dict members => .dict (membersWithFloats F members)
  | v => v

def itemsWithFloats (F : FloatRepr) : List Value → List Value
  | [] => []
  | v :: vs => v.withFloats F :: itemsWithFloats F vs

def membersWithFloats (F : FloatRepr) : List (PyStr × Value) → List (PyStr × Value)
  | [] => []
  | (key, v) :: ms => (key, v.withFloats F) :: membersWithFloats F ms

end

variable (F : FloatRepr)

theorem itemsWithFloats_eq (items : List Value) :
    itemsWithFloats F items = items.map (Value.withFloats F) := by
  induction items with
  | nil => simp [itemsWithFloats]
  | cons v vs ih => simp [itemsWithFloats, ih]

theorem membersWithFloats_eq (members : List (PyStr × Value)) :
    membersWithFloats F members = members.map fun m => (m.1, m.2.withFloats F) := by
  induction members with
  | nil => simp [membersWithFloats]
  | cons m ms ih => simp [membersWithFloats, ih]

theorem wellFormed_withFloats {v : Value} (h : v.wellFormed = true) :
    (v.withFloats F).wellFormed = true := by
  induction v using Value.parts_induction with
  | null => exact h
  | bool b => exact h
  | int n => exact h
  | float text => exact F.isFloat_repr h
  | str s => exact h
  | list items ih =>
    rw [list_wellFormed_iff] at h
    rw [Value.withFloats, list_wellFormed_iff, itemsWithFloats_eq]
    intro v hv
    obtain ⟨v', hv', rfl⟩ := List.mem_map.mp hv
    exact ih v' hv' (h v' hv')
  | dict members ih =>
    rw [dict_wellFormed_iff] at h
    rw [Value.withFloats, dict_wellFormed_iff, membersWithFloats_eq]
    have hkeys : (members.map fun m => (m.1, m.2.withFloats F)).map Prod.fst = members.map Prod.fst := by
      simp [List.map_map, Function.comp_def]
    refine ⟨hkeys ▸ h.1, fun m hm => ?_⟩
    obtain ⟨m', hm', rfl⟩ := List.mem_map.mp hm
    exact ⟨(h.2 m' hm').1, ih m' hm' (h.2 m' hm').2⟩

theorem fits_withFloats (v : Value) : ∀ depth, (v.withFloats F).fits lim depth = v.fits lim depth := by
  induction v using Value.parts_induction with
  | null => exact fun _ => rfl
  | bool b => exact fun _ => rfl
  | int n => exact fun _ => rfl
  | float text => exact fun depth => by cases depth <;> rfl
  | str s => exact fun _ => rfl
  | list items ih =>
    intro depth
    cases depth with
    | zero => rfl
    | succ depth =>
      rw [Bool.eq_iff_iff]
      simp only [Value.withFloats, Value.fits, itemsFit_iff, itemsWithFloats_eq, List.mem_map,
        forall_exists_index, and_imp, forall_apply_eq_imp_iff₂]
      exact forall₂_congr fun v hv => by rw [ih v hv]
  | dict members ih =>
    intro depth
    cases depth with
    | zero => rfl
    | succ depth =>
      rw [Bool.eq_iff_iff]
      simp only [Value.withFloats, Value.fits, membersFit_iff, membersWithFloats_eq, List.mem_map,
        forall_exists_index, and_imp, forall_apply_eq_imp_iff₂]
      exact forall₂_congr fun m hm => by rw [ih m hm]

variable {F}

theorem Good.withFloats {depth : Nat} {v : Value} (h : Good lim depth v) :
    Good lim depth (v.withFloats F) where
  wellFormed := wellFormed_withFloats F h.wellFormed
  fits := by rw [fits_withFloats, h.fits]

/-! ## Where more containers can be opened -/

theorem fits_mono {v : Value} {depth depth' : Nat} (hle : depth ≤ depth') (h : v.fits lim depth = true) :
    v.fits lim depth' = true := by
  induction v using Value.parts_induction generalizing depth depth' with
  | null => cases depth' <;> rfl
  | bool b => cases depth' <;> rfl
  | int n => cases depth <;> cases depth' <;> exact h
  | float text => cases depth' <;> rfl
  | str s => cases depth' <;> rfl
  | list items ih =>
    cases depth with
    | zero => cases h
    | succ depth =>
      cases depth' with
      | zero => exact absurd hle (Nat.not_succ_le_zero depth)
      | succ depth' =>
        rw [Value.fits, itemsFit_iff] at h ⊢
        exact fun v hv => ih v hv (Nat.le_of_succ_le_succ hle) (h v hv)
  | dict members ih =>
    cases depth with
    | zero => cases h
    | succ depth =>
      cases depth' with
      | zero => exact absurd hle (Nat.not_succ_le_zero depth)
      | succ depth' =>
        rw [Value.fits, membersFit_iff] at h ⊢
        exact fun m hm => ih m hm (Nat.le_of_succ_le_succ hle) (h m hm)

theorem Good.mono {v : Value} {depth depth' : Nat} (hle : depth ≤ depth') (h : Good lim depth v) :
    Good lim depth' v :=
  ⟨h.wellFormed, fits_mono hle h.fits⟩

/-- The member with a key. -/
theorem mem_of_get? {members : List (PyStr × Value)} {key : String} {v : Value}
    (h : get? members key = some v) : (ofString key, v) ∈ members := by
  obtain ⟨m, hm, rfl⟩ := Option.map_eq_some_iff.mp h
  have hkey := List.find?_some hm
  rw [← of_decide_eq_true hkey]
  exact List.mem_of_find?_eq_some hm

/-- A member of a dictionary is a value that can be written. -/
theorem Good.member {members : List (PyStr × Value)} {key : String} {v : Value} {depth : Nat}
    (h : Good lim depth (.dict members)) (hget : get? members key = some v) :
    ∃ depth', depth = depth' + 1 ∧ Good lim depth' v := by
  cases depth with
  | zero => exact absurd h.fits (by simp [Value.fits])
  | succ depth => exact ⟨depth, rfl, (membersGood_of_good h).good _ (mem_of_get? hget)⟩

/-! ## The members of a dictionary that was rewritten -/

theorem get?_eq_some_iff {members : List (PyStr × Value)} {key : String} {v : Value}
    (hnodup : (members.map Prod.fst).Nodup) :
    get? members key = some v ↔ (ofString key, v) ∈ members := by
  refine ⟨mem_of_get?, ?_⟩
  intro hmem
  have hsome : (get? members key).isSome = true := by
    rw [get?, Option.isSome_map, List.find?_isSome]
    exact ⟨_, hmem, decide_eq_true rfl⟩
  obtain ⟨w, hw⟩ := Option.isSome_iff_exists.mp hsome
  -- keys are distinct
  have hpair := List.inj_on_of_nodup_map hnodup (mem_of_get? hw) hmem rfl
  rw [hw, (Prod.mk.inj hpair).2]

theorem get?_sorted {members : List (PyStr × Value)} (hnodup : (members.map Prod.fst).Nodup)
    (key : String) : get? ((sortedMembers members).insertionSort keyLe) key =
      (get? members key).map Value.sorted := by
  have hsorted : (((sortedMembers members).insertionSort keyLe).map Prod.fst).Nodup :=
    (sorted_keys_perm members).nodup_iff.mpr hnodup
  ext v
  rw [get?_eq_some_iff hsorted, mem_sorted_members, Option.map_eq_some_iff]
  constructor
  · intro h
    obtain ⟨⟨key', w⟩, hm, heq⟩ := h
    obtain ⟨rfl, rfl⟩ := Prod.mk.inj heq
    exact ⟨w, (get?_eq_some_iff hnodup).mpr hm, rfl⟩
  · intro h
    obtain ⟨w, hw, rfl⟩ := h
    exact ⟨_, mem_of_get? hw, rfl⟩

theorem get?_withFloats (F : FloatRepr) (members : List (PyStr × Value)) (key : String) :
    get? (membersWithFloats F members) key = (get? members key).map (Value.withFloats F) := by
  rw [membersWithFloats_eq, get?, get?, List.find?_map, Option.map_map, Option.map_map]
  rfl

/-! ## The writer without an order -/

/-- `json.dumps(value)`, where it raises nothing. -/
def dumpsValue (lim : Limits) (v : Value) : Option (List Char) :=
  if v.fits lim lim.depth then some v.text else none

theorem Good.dumpsValue {v : Value} (h : Good lim lim.depth v) :
    dumpsValue lim v = some v.text ∧ loads lim v.text = .ok v :=
  ⟨if_pos h.fits, loads_text h.wellFormed h.fits⟩

theorem Good.dumpsSorted {v : Value} (h : Good lim lim.depth v) :
    dumpsSorted lim v = some v.sorted.text ∧ loads lim v.sorted.text = .ok v.sorted := by
  have hdumps : Json.dumpsSorted lim v = some v.sorted.text := if_pos h.fits
  exact ⟨hdumps, loads_dumpsSorted h.wellFormed hdumps⟩

end OpenHost.Json
