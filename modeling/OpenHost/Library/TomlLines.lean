import OpenHost.Library.TomlReader

/-!
# The lines of a TOML document

Reading a statement depends on no more than the text of the statement and where its last line ends,
so that a document from which whole statements are taken out is read as before, without them.
-/

namespace OpenHost.Toml

open Scanner

/-! ## Locality -/

/-- Local, and without a `\r`. -/
abbrev Lines {α : Type} (p : Scanner α) : Prop := Scanner.Local (· ≠ '\r') p

theorem ne_return_of_class {p : Char → Bool} (h : p '\r' = false) (c : Char) (hc : p c = true) :
    c ≠ '\r' := by
  rintro rfl
  rw [h] at hc
  cases hc

theorem lines_many {p : Char → Bool} (h : p '\r' = false) : Lines (many p) :=
  .many (ne_return_of_class h)

theorem lines_satisfy {p : Char → Bool} (h : p '\r' = false) : Lines (satisfy p) :=
  .satisfy (ne_return_of_class h)

theorem lines_char {c : Char} (h : c ≠ '\r') : Lines (char c) := .char h

theorem lines_skipWs : Lines skipWs := .bind (lines_many rfl) fun _ => .pure _

theorem lines_skipComment : Lines skipComment := by
  refine .bind .peek fun h => ?_
  split
  · refine .bind (lines_many rfl) fun _ => .bind .peek fun h => ?_
    split
    · exact .pure _
    · exact .pure _
    · exact .fail
  · exact .pure _

theorem lines_skipCommentsAndArrayWs : Lines skipCommentsAndArrayWs := by
  refine .loop (fun _ => .bind .peek fun h => ?_) _
  split
  · exact .bind lines_skipComment fun _ => .pure _
  · split
    · exact .bind (lines_many rfl) fun _ => .pure _
    · exact .pure _
  · exact .pure _

theorem lines_parseHexChar (digits n : Nat) : Lines (parseHexChar digits n) := by
  induction digits generalizing n with
  | zero =>
    unfold parseHexChar
    split
    · exact .pure _
    · exact .fail
  | succ digits ih => exact .bind (lines_satisfy (by decide)) fun c => ih _

theorem lines_parseBasicStrEscape (multiline : Bool) : Lines (parseBasicStrEscape multiline) := by
  refine .bind (lines_char (by decide)) fun _ => .bind (lines_satisfy (by decide)) fun c => ?_
  split
  iterate 7 exact .pure _
  · exact lines_parseHexChar 4 0
  · exact lines_parseHexChar 8 0
  · split
    · exact .bind lines_skipWs fun _ => .bind (lines_char (by decide)) fun _ =>
        .bind (lines_many rfl) fun _ => .pure _
    · split
      · exact .bind (lines_many rfl) fun _ => .pure _
      · exact .fail

theorem lines_skipDelimiter {quote : Char} (h : quote ≠ '\r') : Lines (skipDelimiter quote) :=
  .bind (lines_char h) fun _ => .bind (lines_char h) fun _ => .bind (lines_char h) fun _ => .pure _

theorem lines_looking {quote : Char} (h : quote ≠ '\n') : Lines (looking (delimiter quote)) :=
  .looking (by simp [delimiter, h.symm])

theorem lines_parseBasicStr (multiline : Bool) : Lines (parseBasicStr multiline) := by
  refine .loop (fun result => .bind .peek fun h => ?_) _
  split
  · split
    · refine .bind (lines_looking (by decide)) fun found => ?_
      split
      · exact .bind (lines_skipDelimiter (by decide)) fun _ => .pure _
      · exact .bind (lines_char (by decide)) fun _ => .pure _
    · exact .bind (lines_char (by decide)) fun _ => .pure _
  · exact .bind (lines_parseBasicStrEscape multiline) fun _ => .pure _
  · refine .bind (lines_satisfy ?_) fun _ => .pure _
    cases multiline <;> decide
  · exact .fail

theorem lines_parseLiteralStr : Lines parseLiteralStr :=
  .bind (lines_char (by decide)) fun _ => .bind (lines_many (by decide)) fun _ =>
    .bind (lines_char (by decide)) fun _ => .pure _

theorem lines_parseMultilineLiteral : Lines parseMultilineLiteral := by
  refine .loop (fun result => .bind (lines_looking (by decide)) fun found => ?_) _
  split
  · exact .bind (lines_skipDelimiter (by decide)) fun _ => .pure _
  · exact .bind (lines_satisfy (by decide)) fun _ => .pure _

theorem lines_moreQuotes {quote : Char} (h : quote ≠ '\r') (n : Nat) :
    Lines (moreQuotes quote n) := by
  induction n with
  | zero => exact .pure _
  | succ n ih =>
    refine .bind .peek fun next => ?_
    split
    · exact .bind (lines_char h) fun _ => .bind ih fun _ => .pure _
    · exact .pure _

theorem lines_skipFirstNewline : Lines skipFirstNewline := by
  refine .bind .peek fun next => ?_
  split
  · exact .bind (lines_char (by decide)) fun _ => .pure _
  · exact .pure _

theorem lines_parseMultilineStr (literal : Bool) : Lines (parseMultilineStr literal) := by
  have hquote : quoteOf literal ≠ '\r' := by cases literal <;> decide
  have hcontent : Lines (bif literal then parseMultilineLiteral else parseBasicStr true) := by
    cases literal with
    | true => exact lines_parseMultilineLiteral
    | false => exact lines_parseBasicStr true
  exact .bind (lines_skipDelimiter hquote) fun _ => .bind lines_skipFirstNewline fun _ =>
    .bind hcontent fun _ => .bind (lines_moreQuotes hquote 2) fun _ => .pure _

theorem lines_parseOneLineBasicStr : Lines parseOneLineBasicStr :=
  .bind (lines_char (by decide)) fun _ => lines_parseBasicStr false

theorem lines_parseKeyPart : Lines parseKeyPart := by
  refine .bind .peek fun h => ?_
  split
  · exact .bind lines_parseLiteralStr fun _ => .pure _
  · exact .bind lines_parseOneLineBasicStr fun _ => .pure _
  · split
    · exact .bind (lines_many (by decide)) fun _ => .pure _
    · exact .fail
  · exact .fail

theorem lines_parseKey : Lines parseKey := by
  refine .bind lines_parseKeyPart fun first => .bind lines_skipWs fun _ => .loop (fun key => ?_) _
  refine .bind .peek fun h => ?_
  split
  · exact .bind (lines_char (by decide)) fun _ => .bind lines_skipWs fun _ =>
      .bind lines_parseKeyPart fun _ => .bind lines_skipWs fun _ => .pure _
  · exact .pure _

theorem spaceDigit_sameLine {s s' : List Char} (h : SameLine s s') : spaceDigit s' = spaceDigit s := by
  cases h with
  | nil => rfl
  | newline => rfl
  | cons c h =>
    cases h with
    | nil => rfl
    | newline s s' => by_cases hc : c = ' ' <;> simp [spaceDigit, hc]
    | cons c' h => by_cases hc : c = ' ' <;> simp [spaceDigit, hc]

theorem lines_parseScalarText : Lines parseScalarText := by
  refine .bind (lines_many (by decide)) fun text => .bind (.look fun _ _ => spaceDigit_sameLine) ?_
  intro found
  split
  · exact .bind (lines_char (by decide)) fun _ => .bind (lines_many (by decide)) fun _ => .pure _
  · exact .pure _

section

variable {scalar : List Char → Option Value} {value : Scanner Value}

theorem lines_parseScalar : Lines (parseScalar scalar) := by
  refine .bind lines_parseScalarText fun text => ?_
  split
  · exact .pure _
  · split
    · exact .pure _
    · split
      · exact .pure _
      · exact .fail

theorem lines_arrayRound (hvalue : Lines value) (items : List Value) :
    Lines (arrayRound value items) := by
  refine .bind hvalue fun v => .bind lines_skipCommentsAndArrayWs fun _ => .bind .peek fun h => ?_
  split
  · exact .bind (lines_char (by decide)) fun _ => .pure _
  · refine .bind (lines_char (by decide)) fun _ => .bind lines_skipCommentsAndArrayWs fun _ =>
      .bind .peek fun h => ?_
    split
    · exact .bind (lines_char (by decide)) fun _ => .pure _
    · exact .pure _
  · exact .fail

theorem lines_parseArray (hvalue : Lines value) : Lines (parseArray value) := by
  refine .bind (lines_char (by decide)) fun _ => .bind lines_skipCommentsAndArrayWs fun _ =>
    .bind .peek fun h => ?_
  split
  · exact .bind (lines_char (by decide)) fun _ => .pure _
  · exact .bind (.loop (lines_arrayRound hvalue) _) fun _ => .pure _

theorem lines_parseKeyValuePair (hvalue : Lines value) : Lines (parseKeyValuePair value) :=
  .bind lines_parseKey fun _ => .bind (lines_char (by decide)) fun _ => .bind lines_skipWs fun _ =>
    .bind hvalue fun _ => .pure _

theorem lines_inlineTableRound (hvalue : Lines value) (st : Table × List Key) :
    Lines (inlineTableRound value st) := by
  refine .bind (lines_parseKeyValuePair hvalue) fun pair => ?_
  dsimp only
  split
  · exact .fail
  · refine .bind lines_skipWs fun _ => .bind .peek fun h => ?_
    split
    · exact .bind (lines_char (by decide)) fun _ => .pure _
    · exact .bind (lines_char (by decide)) fun _ => .bind lines_skipWs fun _ => .pure _
    · exact .fail

theorem lines_parseInlineTable (hvalue : Lines value) : Lines (parseInlineTable value) := by
  refine .bind (lines_char (by decide)) fun _ => .bind lines_skipWs fun _ => .bind .peek fun h => ?_
  split
  · exact .bind (lines_char (by decide)) fun _ => .pure _
  · exact .bind (.loop (lines_inlineTableRound hvalue) _) fun _ => .pure _

theorem lines_parseValue (depth : Nat) : Lines (parseValue scalar depth) := by
  induction depth with
  | zero => exact .fail
  | succ depth ih =>
    refine .bind .peek fun h => ?_
    split
    · refine .bind (lines_looking (by decide)) fun found => ?_
      split
      · exact .bind (lines_parseMultilineStr false) fun _ => .pure _
      · exact .bind lines_parseOneLineBasicStr fun _ => .pure _
    · refine .bind (lines_looking (by decide)) fun found => ?_
      split
      · exact .bind (lines_parseMultilineStr true) fun _ => .pure _
      · exact .bind lines_parseLiteralStr fun _ => .pure _
    · exact lines_parseArray ih
    · exact lines_parseInlineTable ih
    · exact lines_parseScalar

theorem lines_parseHeader : Lines parseHeader := by
  refine .bind (lines_char (by decide)) fun _ => .bind .peek fun h => ?_
  split
  · exact .bind (lines_char (by decide)) fun _ => .bind lines_skipWs fun _ =>
      .bind lines_parseKey fun _ => .bind (lines_char (by decide)) fun _ =>
        .bind (lines_char (by decide)) fun _ => .pure _
  · exact .bind lines_skipWs fun _ => .bind lines_parseKey fun _ =>
      .bind (lines_char (by decide)) fun _ => .pure _

theorem lines_parseContent (depth : Nat) : Lines (parseContent scalar depth) := by
  refine .bind .peek fun h => ?_
  split
  iterate 3 exact .pure _
  · exact .bind lines_parseHeader fun _ => .pure _
  · exact .bind (lines_parseKeyValuePair (lines_parseValue depth)) fun _ => .pure _

theorem lines_parseLineEnd : Lines parseLineEnd := by
  refine .bind lines_skipWs fun _ => .bind lines_skipComment fun _ => .bind .peek fun h => ?_
  split
  · exact .pure _
  · exact .pure _
  · exact .fail

theorem lines_parseStatement (depth : Nat) : Lines (parseStatement scalar depth) :=
  .bind lines_skipWs fun _ => .bind (lines_parseContent depth) fun _ =>
    .bind lines_parseLineEnd fun _ => .pure _

/-! ## Statement by statement -/

/-- A statement ends where its last line does. -/
theorem head?_of_parseLineEnd {s r : List Char} (h : parseLineEnd s = some ((), r)) :
    r.head? = none ∨ r.head? = some '\n' := by
  obtain ⟨_, _, -, h⟩ := bind_eq_some_iff.mp h
  obtain ⟨_, _, -, h⟩ := bind_eq_some_iff.mp h
  obtain ⟨next, r₁, hnext, h⟩ := bind_eq_some_iff.mp h
  obtain ⟨hhead, rfl⟩ := Prod.mk.inj (Option.some.inj hnext)
  split at h
  · obtain ⟨-, rfl⟩ := Prod.mk.inj (Option.some.inj h)
    exact .inl hhead
  · obtain ⟨-, rfl⟩ := Prod.mk.inj (Option.some.inj h)
    exact .inr hhead
  · cases h

theorem eq_of_parseStatement {depth : Nat} {s r : List Char} {st : Option Statement}
    (h : parseStatement scalar depth s = some (st, r)) : r = [] ∨ ∃ r', r = '\n' :: r' := by
  obtain ⟨_, _, -, h⟩ := bind_eq_some_iff.mp h
  obtain ⟨_, _, -, h⟩ := bind_eq_some_iff.mp h
  obtain ⟨_, r₁, hend, h⟩ := bind_eq_some_iff.mp h
  obtain ⟨-, rfl⟩ := Prod.mk.inj (Option.some.inj h)
  cases r₁ with
  | nil => exact .inl rfl
  | cons x r' =>
    obtain hhead | hhead := head?_of_parseLineEnd hend
    · cases hhead
    · obtain rfl := Option.some.inj hhead
      exact .inr ⟨r', rfl⟩

variable (scalar) in
/-- The text is made of these statements, each of which is read whatever follows it. -/
inductive Chunks (depth : Nat) : List Char → List (List Char × Option Statement) → Prop
  | last {c : List Char} {st : Option Statement} (hc : '\r' ∉ c)
      (h : parseStatement scalar depth c = some (st, [])) : Chunks depth c [(c, st)]
  | cons {c r : List Char} {st : Option Statement} {rest : List (List Char × Option Statement)}
      (hc : '\r' ∉ c) (h : ∀ r, parseStatement scalar depth (c ++ '\n' :: r) = some (st, '\n' :: r))
      (hrest : Chunks depth r rest) : Chunks depth (c ++ '\n' :: r) ((c ++ ['\n'], st) :: rest)

theorem take_line (c r : List Char) :
    (c ++ '\n' :: r).take ((c ++ '\n' :: r).length - r.length) = c ++ ['\n'] := by
  have hlength : (c ++ '\n' :: r).length - r.length = (c ++ ['\n']).length := by
    simp only [List.length_append, List.length_cons, List.length_nil]
    omega
  rw [hlength, List.append_cons c '\n' r, List.take_left]

namespace Chunks

variable {depth n : Nat} {s : List Char} {chunks : List (List Char × Option Statement)}

theorem of_parseStatements (h : parseStatements scalar depth n s = some chunks) :
    Chunks scalar depth s chunks := by
  induction n generalizing s chunks with
  | zero => cases h
  | succ n ih =>
    rw [parseStatements] at h
    cases hst : parseStatement scalar depth s with
    | none =>
      rw [hst] at h
      cases h
    | some x =>
      obtain ⟨st, r⟩ := x
      obtain ⟨c, rfl, hc, hagain⟩ := lines_parseStatement depth s st r hst
      have hclean : '\r' ∉ c := fun hin => hc _ hin rfl
      rw [hst] at h
      obtain rfl | ⟨r, rfl⟩ := eq_of_parseStatement hst
      · obtain rfl := Option.some.inj h
        rw [List.append_nil] at hst ⊢
        exact .last hclean hst
      · obtain ⟨rest, hrest, rfl⟩ := Option.map_eq_some_iff.mp h
        rw [take_line]
        exact .cons hclean (fun r' => hagain _ (.newline r r')) (ih hrest)

theorem parseStatements (h : Chunks scalar depth s chunks) (hn : s.length < n) :
    parseStatements scalar depth n s = some chunks := by
  induction h generalizing n with
  | last hc h =>
    obtain ⟨n, rfl⟩ := Nat.exists_eq_add_one_of_ne_zero (Nat.ne_zero_of_lt hn)
    rw [Toml.parseStatements, h]
  | cons hc h hrest ih =>
    obtain ⟨n, rfl⟩ := Nat.exists_eq_add_one_of_ne_zero (Nat.ne_zero_of_lt hn)
    rw [List.length_append, List.length_cons] at hn
    rw [Toml.parseStatements, h]
    dsimp only
    rw [ih (by omega), take_line]
    rfl

/-- The text is that of its statements. -/
theorem flatMap_fst (h : Chunks scalar depth s chunks) : chunks.flatMap Prod.fst = s := by
  induction h with
  | last hc h => simp
  | cons hc h hrest ih => simp [ih]

theorem not_mem (h : Chunks scalar depth s chunks) : '\r' ∉ s := by
  induction h with
  | last hc h => exact hc
  | cons hc h hrest ih => simp [hc, ih]

/-- What is left when whole statements are taken out is read as what is left of the statements. -/
theorem filter (h : Chunks scalar depth s chunks) (f : List Char × Option Statement → Bool) :
    ∃ chunks', Chunks scalar depth ((chunks.filter f).flatMap Prod.fst) chunks' ∧
      chunks'.filterMap Prod.snd = (chunks.filter f).filterMap Prod.snd := by
  induction h with
  | @last c st hc h =>
    cases hf : f (c, st) with
    | true =>
      refine ⟨[(c, st)], ?_, by simp [hf]⟩
      simpa [hf] using Chunks.last hc h
    | false =>
      refine ⟨[([], none)], ?_, by simp [hf]⟩
      simpa [hf] using (Chunks.last (by simp) rfl : Chunks scalar depth [] [([], none)])
  | @cons c r st rest hc h hrest ih =>
    obtain ⟨chunks', hchunks', heq⟩ := ih
    cases hf : f (c ++ ['\n'], st) with
    | true =>
      refine ⟨(c ++ ['\n'], st) :: chunks', ?_, ?_⟩
      · simpa [hf] using Chunks.cons hc h hchunks'
      · cases st <;> simp [hf, heq]
    | false =>
      refine ⟨chunks', ?_, ?_⟩
      · simpa [hf] using hchunks'
      · simpa [hf] using heq

end Chunks

end

end OpenHost.Toml
