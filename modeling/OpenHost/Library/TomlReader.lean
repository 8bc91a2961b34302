import OpenHost.Library.Scanners
import OpenHost.Library.Toml

/-!
# The statements of a TOML document

What `tomllib.loads` reads: a document is a sequence of lines with a key and its value, or the header
of a table, or nothing; a value may go on over several lines.  What a date, a time or a number stands
for is left to a function on texts (`scalar`), and `depth` is how deep values may nest before Python
stops with a `RecursionError`.
-/

namespace OpenHost.Toml

open Scanner

/-! ## Characters -/

/-- `ASCII_CTRL` -/
def isCtrl (c : Char) : Bool := c.toNat < 32 || c.toNat = 127

/-- `TOML_WS` -/
def isWs (c : Char) : Bool := c = ' ' || c = '\t'

/-- `TOML_WS_AND_NEWLINE` -/
def isWsOrNewline (c : Char) : Bool := isWs c || c = '\n'

/-- Not in `ILLEGAL_BASIC_STR_CHARS`. -/
def isLegal (c : Char) : Bool := !isCtrl c || c = '\t'

/-- Not in `ILLEGAL_MULTILINE_BASIC_STR_CHARS`. -/
def isLegalMultiline (c : Char) : Bool := isLegal c || c = '\n'

/-- `BARE_KEY_CHARS` -/
def isBareKeyChar (c : Char) : Bool := c.isAlphanum || c = '-' || c = '_'

/-! ## Blanks and comments -/

def skipWs : Scanner Unit := do
  let _ ← many isWs

/-- `skip_comment` -/
def skipComment : Scanner Unit := do
  match ← peek with
  | some '#' =>
    let _ ← many isLegal
    match ← peek with
    | none | some '\n' => pure ()
    | some _ => fail
  | _ => pure ()

/-- `skip_comments_and_array_ws` -/
def skipCommentsAndArrayWs : Scanner Unit :=
  loop (fun _ : Unit => do
    match ← peek with
    | some '#' =>
      skipComment
      return .inl ()
    | some c =>
      if isWsOrNewline c then
        let _ ← many isWsOrNewline
        return .inl ()
      else return .inr ()
    | none => return .inr ()) ()

/-! ## Texts -/

/-- The digit's value. -/
def hexDigit (c : Char) : Nat :=
  if c.isDigit then c.toNat - '0'.toNat else c.toLower.toNat - 'a'.toNat + 10

def isHexDigit (c : Char) : Bool := c.isDigit || ('a' ≤ c.toLower && c.toLower ≤ 'f')

/-- `parse_hex_char` -/
def parseHexChar : Nat → Nat → Scanner (List Char)
  | 0, n => if n.isValidChar then pure [Char.ofNat n] else fail
  | digits + 1, n => do
    let c ← satisfy isHexDigit
    parseHexChar digits (16 * n + hexDigit c)

/-- `parse_basic_str_escape` -/
def parseBasicStrEscape (multiline : Bool) : Scanner (List Char) := do
  let _ ← char '\\'
  match ← satisfy isLegalMultiline with
  | 'b' => return ['\x08']
  | 't' => return ['\t']
  | 'n' => return ['\n']
  | 'f' => return ['\x0c']
  | 'r' => return ['\r']
  | '"' => return ['"']
  | '\\' => return ['\\']
  | 'u' => parseHexChar 4 0
  | 'U' => parseHexChar 8 0
  | c =>
    if multiline && isWs c then
      skipWs
      let _ ← char '\n'
      let _ ← many isWsOrNewline
      return []
    else if multiline && c = '\n' then
      let _ ← many isWsOrNewline
      return []
    else fail

/-- Three quotes of this kind. -/
def delimiter (quote : Char) : List Char := [quote, quote, quote]

/-- Three quotes are read. -/
def skipDelimiter (quote : Char) : Scanner Unit := do
  let _ ← char quote
  let _ ← char quote
  let _ ← char quote

/-- `parse_basic_str` -/
def parseBasicStr (multiline : Bool) : Scanner (List Char) :=
  loop (fun result => do
    match ← peek with
    | some '"' =>
      if multiline then
        if ← looking (delimiter '"') then
          skipDelimiter '"'
          return .inr result
        else
          let c ← char '"'
          return .inl (result ++ [c])
      else
        let _ ← char '"'
        return .inr result
    | some '\\' =>
      let cs ← parseBasicStrEscape multiline
      return .inl (result ++ cs)
    | some _ =>
      let c ← satisfy (if multiline then isLegalMultiline else isLegal)
      return .inl (result ++ [c])
    | none => fail) []

/-- `parse_literal_str` -/
def parseLiteralStr : Scanner (List Char) := do
  let _ ← char '\''
  let result ← many fun c => c ≠ '\'' && isLegal c
  let _ ← char '\''
  return result

/-- What stands in a text between `'''`. -/
def parseMultilineLiteral : Scanner (List Char) :=
  loop (fun result => do
    if ← looking (delimiter '\'') then
      skipDelimiter '\''
      return .inr result
    else
      let c ← satisfy isLegalMultiline
      return .inl (result ++ [c])) []

/-- At most so many more quotes. -/
def moreQuotes (quote : Char) : Nat → Scanner (List Char)
  | 0 => pure []
  | n + 1 => do
    if (← peek) = some quote then
      let c ← char quote
      let cs ← moreQuotes quote n
      return c :: cs
    else return []

/-- A line break right after the quotes is not part of the text. -/
def skipFirstNewline : Scanner Unit := do
  if (← peek) = some '\n' then
    let _ ← char '\n'

/-- The quote of a literal text, or of another one. -/
def quoteOf (literal : Bool) : Char := if literal then '\'' else '"'

/-- `parse_multiline_str` -/
def parseMultilineStr (literal : Bool) : Scanner (List Char) := do
  skipDelimiter (quoteOf literal)
  skipFirstNewline
  let result ← bif literal then parseMultilineLiteral else parseBasicStr true
  let more ← moreQuotes (quoteOf literal) 2
  return result ++ more

/-- `parse_one_line_basic_str` -/
def parseOneLineBasicStr : Scanner (List Char) := do
  let _ ← char '"'
  parseBasicStr false

/-! ## Keys -/

/-- `parse_key_part` -/
def parseKeyPart : Scanner String := do
  match ← peek with
  | some '\'' => return String.ofList (← parseLiteralStr)
  | some '"' => return String.ofList (← parseOneLineBasicStr)
  | some c => if isBareKeyChar c then return String.ofList (← many isBareKeyChar) else fail
  | none => fail

/-- A key: its last part, and those before it. -/
structure Key where
  parents : List String
  stem : String
  deriving DecidableEq, Repr

/-- All parts of the key. -/
def Key.path (key : Key) : List String := key.parents ++ [key.stem]

/-- `parse_key` -/
def parseKey : Scanner Key := do
  let first ← parseKeyPart
  skipWs
  loop (fun key : Key => do
    if (← peek) = some '.' then
      let _ ← char '.'
      skipWs
      let part ← parseKeyPart
      skipWs
      return .inl ⟨key.path, part⟩
    else return .inr key) ⟨[], first⟩

/-! ## Nested dictionaries -/

/-- The value of a key is changed in its place. -/
def Table.modify (key : String) (f : Value → Value) : Table → Table
  | [] => []
  | (k, v) :: t => if k = key then (k, f v) :: t else (k, v) :: Table.modify key f t

/-- `t[key] = v`, for a key that is there. -/
def Table.set (t : Table) (key : String) (v : Value) : Table := t.modify key fun _ => v

/-- What `get_or_create_nest` finds is changed in place; `none` is a `KeyError`. -/
def nest (accessLists : Bool) : List String → (Table → Option Table) → Table → Option Table
  | [], f, t => f t
  | k :: ks, f, t =>
    match t.lookup k with
    | none => (nest accessLists ks f []).map fun inner => t ++ [(k, .table inner)]
    | some (.table inner) => (nest accessLists ks f inner).map fun inner => t.set k (.table inner)
    | some (.array items) =>
      match accessLists, items.getLast? with
      | true, some (.table inner) =>
        (nest accessLists ks f inner).map fun inner =>
          t.set k (.array (items.dropLast ++ [.table inner]))
      | _, _ => none
    | some _ => none

/-- A new entry, where there is none with its key. -/
def insertNew (stem : String) (v : Value) (t : Table) : Option Table :=
  if (t.lookup stem).isNone then some (t ++ [(stem, v)]) else none

/-- `append_nest_to_list`, at its last key. -/
def appendTable (last : String) (t : Table) : Option Table :=
  match t.lookup last with
  | none => some (t ++ [(last, .array [.table []])])
  | some (.array items) => some (t.set last (.array (items ++ [.table []])))
  | some _ => none

/-- `isinstance(v, (dict, list))` -/
def Value.isContainer : Value → Bool
  | .array _ | .table _ => true
  | _ => false

/-! ## Values -/

/-- A date, a time, a number or a Boolean ends before these. -/
def isDelimiter (c : Char) : Bool :=
  isWsOrNewline c || c = '\r' || c = ',' || c = ']' || c = '}' || c = '#'

/-- The text has the form of a date. -/
def isDate : List Char → Bool
  | [a, b, c, d, '-', e, f, '-', g, h] => [a, b, c, d, e, f, g, h].all Char.isDigit
  | _ => false

/-- The time may follow the date after a blank. -/
def spaceDigit : List Char → Bool
  | ' ' :: c :: _ => c.isDigit
  | _ => false

variable (scalar : List Char → Option Value)

/-- The text of a value that is neither a text nor a container. -/
def parseScalarText : Scanner (List Char) := do
  let text ← many fun c => !isDelimiter c
  if isDate text && (← look spaceDigit) then
    let c ← char ' '
    let time ← many fun c => !isDelimiter c
    return text ++ c :: time
  else return text

/-- The value that it is. -/
def parseScalar : Scanner Value := do
  let text ← parseScalarText
  if text = "true".toList then return .bool true
  else if text = "false".toList then return .bool false
  else
    match scalar text with
    | some v => return v
    | none => fail

/-- A round of `parse_array` -/
def arrayRound (value : Scanner Value) (items : List Value) :
    Scanner (List Value ⊕ List Value) := do
  let v ← value
  skipCommentsAndArrayWs
  match ← peek with
  | some ']' =>
    let _ ← char ']'
    return .inr (items ++ [v])
  | some ',' =>
    let _ ← char ','
    skipCommentsAndArrayWs
    if (← peek) = some ']' then
      let _ ← char ']'
      return .inr (items ++ [v])
    else return .inl (items ++ [v])
  | _ => fail

/-- `parse_array` -/
def parseArray (value : Scanner Value) : Scanner Value := do
  let _ ← char '['
  skipCommentsAndArrayWs
  if (← peek) = some ']' then
    let _ ← char ']'
    return .array []
  else return .array (← loop (arrayRound value) [])

/-- `parse_key_value_pair` -/
def parseKeyValuePair (value : Scanner Value) : Scanner (Key × Value) := do
  let key ← parseKey
  let _ ← char '='
  skipWs
  let v ← value
  return (key, v)

/-- An entry of an inline table, which has the frozen keys so far. -/
def insertInline (entries : Table) (frozen : List Key) (key : Key) (v : Value) : Option Table :=
  if frozen.any (·.path.isPrefixOf key.path) then none
  else nest false key.parents (insertNew key.stem v) entries

/-- A round of `parse_inline_table` -/
def inlineTableRound (value : Scanner Value) (st : Table × List Key) :
    Scanner ((Table × List Key) ⊕ Table) := do
  let (key, v) ← parseKeyValuePair value
  match insertInline st.1 st.2 key v with
  | none => fail
  | some entries =>
    skipWs
    match ← peek with
    | some '}' =>
      let _ ← char '}'
      return .inr entries
    | some ',' =>
      let _ ← char ','
      skipWs
      return .inl (entries, if v.isContainer then key :: st.2 else st.2)
    | _ => fail

/-- `parse_inline_table` -/
def parseInlineTable (value : Scanner Value) : Scanner Value := do
  let _ ← char '{'
  skipWs
  if (← peek) = some '}' then
    let _ ← char '}'
    return .table []
  else return .table (← loop (inlineTableRound value) ([], []))

/-- `parse_value` -/
def parseValue : Nat → Scanner Value
  | 0 => fail
  | depth + 1 => do
    match ← peek with
    | some '"' =>
      if ← looking (delimiter '"') then return .str (String.ofList (← parseMultilineStr false))
      else return .str (String.ofList (← parseOneLineBasicStr))
    | some '\'' =>
      if ← looking (delimiter '\'') then return .str (String.ofList (← parseMultilineStr true))
      else return .str (String.ofList (← parseLiteralStr))
    | some '[' => parseArray (parseValue depth)
    | some '{' => parseInlineTable (parseValue depth)
    | _ => parseScalar scalar

/-! ## Statements -/

/-- A statement of a document. -/
inductive Statement where
  | keyValue (key : Key) (v : Value)
  /-- `[key]` -/
  | table (key : Key)
  /-- `[[key]]` -/
  | element (key : Key)

/-- `create_dict_rule` and `create_list_rule`, as far as they read. -/
def parseHeader : Scanner Statement := do
  let _ ← char '['
  if (← peek) = some '[' then
    let _ ← char '['
    skipWs
    let key ← parseKey
    let _ ← char ']'
    let _ ← char ']'
    return .element key
  else
    skipWs
    let key ← parseKey
    let _ ← char ']'
    return .table key

/-- What stands on a line of the document, if anything does. -/
def parseContent (depth : Nat) : Scanner (Option Statement) := do
  match ← peek with
  | none | some '\n' | some '#' => return none
  | some '[' => return some (← parseHeader)
  | some _ =>
    let (key, v) ← parseKeyValuePair (parseValue scalar depth)
    return some (.keyValue key v)

/-- The end of a statement's last line, which is not read. -/
def parseLineEnd : Scanner Unit := do
  skipWs
  skipComment
  match ← peek with
  | none | some '\n' => return ()
  | some _ => fail

/-- A statement of the document, up to where its last line ends. -/
def parseStatement (depth : Nat) : Scanner (Option Statement) := do
  skipWs
  let statement ← parseContent scalar depth
  parseLineEnd
  return statement

/-- The statements of a document, each with its text and the line break after it. -/
def parseStatements (depth : Nat) : Nat → List Char → Option (List (List Char × Option Statement))
  | 0, _ => none
  | n + 1, s =>
    match parseStatement scalar depth s with
    | some (statement, []) => some [(s, statement)]
    | some (statement, _ :: r) =>
      (parseStatements depth n r).map ((s.take (s.length - r.length), statement) :: ·)
    | none => none

end OpenHost.Toml
