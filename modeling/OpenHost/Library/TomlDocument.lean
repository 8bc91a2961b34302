import OpenHost.Library.TomlLines

/-!
# What a TOML document says

The statements of a document are carried out one after another.  Besides the dictionary there are
marks on the namespaces that must not be opened again: those of inline tables and arrays, and those
that have been declared.

A statement that gives a key of a top-level table its value can be left out: the other statements are
carried out as before, and the dictionary is the same but for that key.
-/

namespace OpenHost.Toml

/-! ## The state of the reader -/

/-- What is marked about a namespace. -/
inductive Flag where
  | frozen
  | explicitNest
  deriving DecidableEq, Repr

/-- A mark, on what is below the namespace too if it is recursive. -/
structure Mark where
  key : List String
  flag : Flag
  recursive : Bool
  deriving DecidableEq, Repr

/-- `Flags.is_` -/
def isMarked (marks : List Mark) (key : List String) (flag : Flag) : Bool :=
  !key.isEmpty && marks.any fun m =>
    m.flag = flag && (m.key = key || m.recursive && m.key.isPrefixOf key)

/-- The header that the statements stand under. -/
inductive Header where
  | root
  | table (key : Key)
  | element (key : Key)
  deriving DecidableEq, Repr

/-- `header` -/
def Header.path : Header → List String
  | root => []
  | table key | element key => key.path

/-- The header after a statement. -/
def Header.after (h : Header) : Statement → Header
  | .keyValue _ _ => h
  | .table key => .table key
  | .element key => .element key

/-- `Output`, with the header. -/
structure Output where
  data : Table := []
  marks : List Mark := []
  pending : List (List String) := []
  header : Header := .root

namespace Output

/-- `finalize_pending` -/
def finalizePending (o : Output) : Output :=
  { o with
    marks := o.pending.map (⟨·, .explicitNest, false⟩) ++ o.marks
    pending := [] }

/-- The namespaces that a dotted key opens. -/
def opened (o : Output) (key : Key) : List (List String) :=
  (List.range key.parents.length).map fun i => o.header.path ++ key.parents.take (i + 1)

/-- `key_value_rule` -/
def keyValue (o : Output) (key : Key) (v : Value) : Option Output :=
  if (o.opened key).any (isMarked o.marks · .explicitNest) ||
    isMarked o.marks (o.header.path ++ key.parents) .frozen then none
  else
    (nest true (o.header.path ++ key.parents) (insertNew key.stem v) o.data).map fun data =>
      { o with
        data := data
        pending := o.opened key ++ o.pending
        marks :=
          if v.isContainer then ⟨o.header.path ++ key.path, .frozen, true⟩ :: o.marks else o.marks }

/-- `create_dict_rule` -/
def table (o : Output) (key : Key) : Option Output :=
  if isMarked o.finalizePending.marks key.path .explicitNest ||
    isMarked o.finalizePending.marks key.path .frozen then none
  else
    (nest true key.path some o.data).map fun data =>
      { data := data
        marks := ⟨key.path, .explicitNest, false⟩ :: o.finalizePending.marks
        pending := []
        header := .table key }

/-- `create_list_rule` -/
def element (o : Output) (key : Key) : Option Output :=
  if isMarked o.finalizePending.marks key.path .frozen then none
  else
    (nest true key.parents (appendTable key.stem) o.data).map fun data =>
      { data := data
        marks := ⟨key.path, .explicitNest, false⟩ ::
          o.finalizePending.marks.filter fun m => !key.path.isPrefixOf m.key
        pending := []
        header := .element key }

/-- A statement is carried out. -/
def apply (o : Output) : Statement → Option Output
  | .keyValue key v => o.keyValue key v
  | .table key => o.table key
  | .element key => o.element key

/-- Statements are carried out in order. -/
def applyAll (o : Output) (statements : List Statement) : Option Output :=
  statements.foldlM apply o

end Output

/-- `s.replace("\r\n", "\n")` -/
def replaceReturns : List Char → List Char
  | '\r' :: '\n' :: s => '\n' :: replaceReturns s
  | c :: s => c :: replaceReturns s
  | [] => []

/-- The statements of a text. -/
def statementsOf (scalar : List Char → Option Value) (depth : Nat) (s : List Char) :
    Option (List (List Char × Option Statement)) :=
  parseStatements scalar depth ((replaceReturns s).length + 1) (replaceReturns s)

/-- `tomllib.loads`; `none` is an exception. -/
def loads (scalar : List Char → Option Value) (depth : Nat) (s : List Char) : Option Table :=
  (statementsOf scalar depth s).bind fun chunks =>
    (Output.applyAll {} (chunks.filterMap Prod.snd)).map Output.data

end OpenHost.Toml
