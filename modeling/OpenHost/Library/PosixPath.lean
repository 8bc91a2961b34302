import Mathlib.Data.List.Basic

/-!
# POSIX paths

`os.path.join` and `os.path.relpath` on the characters of a path.  `relpath` makes both paths absolute,
normalises them and compares their parts; for a path below the starting point whose remainder has no
dot segments it is that remainder.
-/

namespace OpenHost.PosixPath

/-- The characters of a path. -/
abbrev Path := List Char

/-- `os.path.isabs` -/
def isAbs (p : Path) : Bool := p.head? = some '/'

/-- `os.path.join(a, b)` -/
def join (a b : Path) : Path :=
  if isAbs b then b else if a = [] ∨ a.getLast? = some '/' then a ++ b else a ++ '/' :: b

/-- `path.split("/")` -/
def parts (p : Path) : List Path := p.splitOn '/'

/-- One more part of an absolute path that is normalised; the parts are held in reverse. -/
def push (stack : List Path) (part : Path) : List Path :=
  if part = [] ∨ part = ['.'] then stack
  else if part = ['.', '.'] then stack.tail
  else part :: stack

/-- The parts of an absolute path after `os.path.normpath`. -/
def resolve (ps : List Path) : List Path := (ps.foldl push []).reverse

/-- `[x for x in os.path.abspath(p).split("/") if x]`, in the working directory `cwd`. -/
def absParts (cwd p : Path) : List Path := resolve (parts (join cwd p))

/-- The length of `os.path.commonprefix([xs, ys])`. -/
def commonLength : List Path → List Path → Nat
  | x :: xs, y :: ys => if x = y then commonLength xs ys + 1 else 0
  | _, _ => 0

/-- `os.path.relpath(p, start)` of a path that is not empty. -/
def relpath (cwd p start : Path) : Path :=
  let startParts := absParts cwd start
  let pathParts := absParts cwd p
  let i := commonLength startParts pathParts
  let rel := List.replicate (startParts.length - i) ['.', '.'] ++ pathParts.drop i
  if rel = [] then ['.'] else ['/'].intercalate rel

/-! ## Paths without dot segments -/

/-- A part that names an entry of a directory. -/
def IsEntry (part : Path) : Prop := part ≠ [] ∧ part ≠ ['.'] ∧ part ≠ ['.', '.']

instance : DecidablePred IsEntry := fun _ => inferInstanceAs (Decidable (_ ∧ _ ∧ _))

/-- A relative path each of whose parts names an entry. -/
def Plain (p : Path) : Prop := ∀ part ∈ parts p, IsEntry part

instance : DecidablePred Plain := fun p => inferInstanceAs (Decidable (∀ part ∈ parts p, _))

/-- The path is at `dir` or below it, by its parts. -/
def Below (dir p rest : Path) : Prop := p = dir ++ '/' :: rest ∧ Plain rest

theorem parts_ne_nil (p : Path) : parts p ≠ [] := List.splitOn_ne_nil '/' p

theorem parts_append_cons (a b : Path) : parts (a ++ '/' :: b) = parts a ++ parts b :=
  List.splitOn_append_cons_self a b

theorem plain_append_iff {a b : Path} : Plain (a ++ '/' :: b) ↔ Plain a ∧ Plain b := by
  simp only [Plain, parts_append_cons, List.mem_append, or_imp, forall_and]

/-- A plain path is relative. -/
theorem Plain.isAbs_eq_false {p : Path} (h : Plain p) : isAbs p = false := by
  cases p with
  | nil => rfl
  | cons c p =>
    by_contra habs
    obtain rfl : c = '/' := by simpa [isAbs] using habs
    -- before the slash is an empty part
    have hparts : parts ('/' :: p) = [] :: parts p := parts_append_cons [] p
    exact (h [] (by rw [hparts]; exact List.mem_cons_self)).1 rfl

theorem plain_of_isEntry {p : Path} (hslash : '/' ∉ p) (h : IsEntry p) : Plain p := by
  intro part hpart
  rw [parts, List.splitOn_eq_singleton hslash, List.mem_singleton] at hpart
  rwa [hpart]

/-! ## Joining -/

theorem join_of_relative {a b : Path} (ha : a ≠ []) (hlast : a.getLast? ≠ some '/')
    (hb : isAbs b = false) : join a b = a ++ '/' :: b := by
  simp [join, hb, ha, hlast]

theorem isAbs_append {a : Path} (ha : a ≠ []) (b : Path) : isAbs (a ++ b) = isAbs a := by
  cases a with
  | nil => exact absurd rfl ha
  | cons c a => rfl

/-- Joining before a path that goes on goes on in the same way. -/
theorem join_append (cwd : Path) {a : Path} (ha : a ≠ []) (b : Path) :
    join cwd (a ++ b) = join cwd a ++ b := by
  unfold join
  rw [isAbs_append ha]
  split
  · rfl
  · split <;> simp

/-! ## Normalising -/

theorem foldl_push_entries {stack ps : List Path} (h : ∀ part ∈ ps, IsEntry part) :
    ps.foldl push stack = ps.reverse ++ stack := by
  induction ps generalizing stack with
  | nil => rfl
  | cons part ps ih =>
    rw [List.forall_mem_cons] at h
    obtain ⟨⟨hne, hdot, hup⟩, hps⟩ := h
    rw [List.foldl_cons, ih hps, push, if_neg (by simp [hne, hdot]), if_neg hup]
    simp

/-- Entries at the end stay as they are. -/
theorem resolve_append {xs ys : List Path} (h : ∀ part ∈ ys, IsEntry part) :
    resolve (xs ++ ys) = resolve xs ++ ys := by
  rw [resolve, List.foldl_append, foldl_push_entries h]
  simp [resolve]

theorem commonLength_append (xs ys : List Path) : commonLength xs (xs ++ ys) = xs.length := by
  induction xs with
  | nil => cases ys <;> rfl
  | cons x xs ih => simp [commonLength, ih]

theorem intercalate_parts (p : Path) : ['/'].intercalate (parts p) = p := List.intercalate_splitOn '/'

/-- What is below a directory by a plain path is reached by that path. -/
theorem relpath_of_below (cwd : Path) {start rest : Path} (hstart : start ≠ []) (hrest : Plain rest) :
    relpath cwd (start ++ '/' :: rest) start = rest := by
  have habs : absParts cwd (start ++ '/' :: rest) = absParts cwd start ++ parts rest := by
    rw [absParts, join_append cwd hstart, parts_append_cons, resolve_append hrest, absParts]
  rw [relpath, habs, commonLength_append]
  simp [parts_ne_nil, intercalate_parts]

end OpenHost.PosixPath
