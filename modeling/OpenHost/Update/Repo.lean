import Mathlib.Data.List.Lex
import Mathlib.Data.List.Sort
import Mathlib.Logic.Relation
import OpenHost.Library.Fields
import OpenHost.Library.Text
import OpenHost.Library.Walks

/-!
# The update walk over a git repository

`update.py` and `apply_after_checkout.py` move a host from one release to the next: `_next_step`
names the next ref, HEAD is detached at the commit it resolves to, and the new checkout asks again
until `_next_step` answers `None`.  The two files hold the same functions; each definition here
carries the source's name for it.

Git is the structure `Repo`: a history of commits, the tags, the other names `rev-parse` knows, and
the answers of `git describe`, of which only the documented behaviour is assumed.
-/

namespace OpenHost.Update

open OpenHost.Text

/-! ## Release tags -/

/-- The zero of each block of ten decimal digits in Unicode. -/
def digitZeros : List Nat :=
  [0x30, 0x660, 0x6f0, 0x7c0, 0x966, 0x9e6, 0xa66, 0xae6, 0xb66, 0xbe6, 0xc66, 0xce6, 0xd66, 0xde6,
    0xe50, 0xed0, 0xf20, 0x1040, 0x1090, 0x17e0, 0x1810, 0x1946, 0x19d0, 0x1a80, 0x1a90, 0x1b50,
    0x1bb0, 0x1c40, 0x1c50, 0xa620, 0xa8d0, 0xa900, 0xa9d0, 0xa9f0, 0xaa50, 0xabf0, 0xff10, 0x104a0,
    0x10d30, 0x11066, 0x110f0, 0x11136, 0x111d0, 0x112f0, 0x11450, 0x114d0, 0x11650, 0x116c0,
    0x11730, 0x118e0, 0x11950, 0x11c50, 0x11d50, 0x11da0, 0x11f50, 0x16a60, 0x16ac0, 0x16b50,
    0x1d7ce, 0x1d7d8, 0x1d7e2, 0x1d7ec, 0x1d7f6, 0x1e140, 0x1e2f0, 0x1e4f0, 0x1e950, 0x1fbf0]

/-- The value of a decimal digit: what `\d` matches and `int()` reads. -/
def digit? (c : Char) : Option Nat :=
  (digitZeros.find? fun first => first ≤ c.toNat && c.toNat < first + 10).map (c.toNat - ·)

/-- `_RELEASE_TAG.fullmatch`: "v" followed by dot-separated integers. -/
def isReleaseTag (name : String) : Bool :=
  match name.toList with
  | 'v' :: numbers =>
    (numbers.splitOn '.').all fun part => !part.isEmpty && part.all fun c => (digit? c).isSome
  | _ => false

/-- `int()` of a run of digits. -/
def pyInt (digits : List Char) : Nat :=
  digits.foldl (fun n c => 10 * n + (digit? c).getD 0) 0

/-- A parsed version: Python compares tuples as Lean compares lists. -/
abbrev Version := List Nat

/-- `_version_key`; the source calls it on release tags only, where `int()` does not fail. -/
def versionKey (tagName : String) : Version :=
  ((tagName.toList.dropWhile (· = 'v')).splitOn '.').map pyInt

example : isReleaseTag "v1.2.0-rc1" = false := by decide

/-! ## History -/

/-- A history of commits.  `depth` is a topological numbering, so there is no cycle. -/
structure History (C : Type) where
  parents : C → List C
  depth : C → Nat
  parents_depth : ∀ c, ∀ p ∈ parents c, depth p < depth c

namespace History

variable {C : Type} [DecidableEq C]

/-- Follow at most `n` parent links from `c` in search of `a`. -/
def containsWithin (h : History C) : Nat → C → C → Bool
  | 0, c, a => c = a
  | n + 1, c, a => c = a || (h.parents c).any fun p => h.containsWithin n p a

/-- The commit `a` is `c` or one of its ancestors. -/
def contains (h : History C) (c a : C) : Bool := h.containsWithin (h.depth c) c a

/-- `a` is a parent of `c`. -/
def Parent (h : History C) (c a : C) : Prop := a ∈ h.parents c

theorem containsWithin_iff {h : History C} {n : Nat} {c a : C} (hn : h.depth c ≤ n) :
    h.containsWithin n c a = true ↔ Relation.ReflTransGen h.Parent c a := by
  induction n generalizing c with
  | zero =>
    -- a commit of depth zero has no parents
    have hroot : ∀ p, ¬ h.Parent c p := by
      intro p hp
      have hlt := h.parents_depth c p hp
      omega
    constructor
    · intro hca
      rw [of_decide_eq_true hca]
    · intro hca
      rcases Relation.ReflTransGen.cases_head hca with rfl | ⟨p, hp, -⟩
      · exact decide_eq_true rfl
      · exact absurd hp (hroot p)
  | succ n ih =>
    simp only [containsWithin, Bool.or_eq_true, decide_eq_true_eq, List.any_eq_true]
    have hparent : ∀ p ∈ h.parents c, h.depth p ≤ n := by
      intro p hp
      have hlt := h.parents_depth c p hp
      omega
    constructor
    · rintro (rfl | ⟨p, hp, hpa⟩)
      · exact .refl
      · exact .head hp ((ih (hparent p hp)).mp hpa)
    · intro hca
      rcases Relation.ReflTransGen.cases_head hca with hca | ⟨p, hp, hpa⟩
      · exact .inl hca
      · exact .inr ⟨p, hp, (ih (hparent p hp)).mpr hpa⟩

/-- `contains` is reachability through parent links. -/
theorem contains_iff {h : History C} {c a : C} :
    h.contains c a = true ↔ Relation.ReflTransGen h.Parent c a :=
  containsWithin_iff (Nat.le_refl _)

theorem contains_refl (h : History C) (c : C) : h.contains c c = true :=
  contains_iff.mpr .refl

end History

/-! ## The repository -/

/-- A repository as the walk sees it.  Names do not depend on where HEAD stands. -/
structure Repo (C : Type) [DecidableEq C] extends History C where
  /-- Full object names, which `rev-parse` takes before any ref. -/
  objects : List (String × C)
  /-- Tags, in the order in which they are listed. -/
  tags : List (String × C)
  /-- Remote branches (as "origin/…"), local branches and whatever else names a commit. -/
  refs : List (String × C)
  /-- `git describe --tags --exact-match`. -/
  describeExact : C → Option String
  /-- `git describe --tags --abbrev=0`. -/
  describeNearest : C → Option String
  tags_nodup : (tags.map Prod.fst).Nodup
  describeExact_tag : ∀ c t, describeExact c = some t → (t, c) ∈ tags
  describeExact_none : ∀ c, describeExact c = none → ∀ t, (t, c) ∉ tags
  /-- A nearest tagged ancestor: no other tagged commit lies between it and `c`. -/
  describeNearest_tag : ∀ c t, describeNearest c = some t →
    ∃ a, (t, a) ∈ tags ∧ toHistory.contains c a = true ∧
      ∀ u b, (u, b) ∈ tags → toHistory.contains c b = true → toHistory.contains b a = true → b = a
  describeNearest_none : ∀ c, describeNearest c = none →
    ∀ t a, (t, a) ∈ tags → toHistory.contains c a = false

namespace Repo

variable {C : Type} [DecidableEq C]

/-- The commit that the tag names. -/
def tagCommit? (r : Repo C) (name : String) : Option C := r.tags.lookup name

/-- `git rev-parse --verify --quiet name^{commit}`. -/
def revParse (r : Repo C) (name : String) : Option C :=
  r.objects.lookup name <|> r.tags.lookup name <|> r.refs.lookup name

/-- `_resolve_ref_sha`: the remote branch tip is preferred. -/
def resolveRefSha (r : Repo C) (ref : String) : Option C :=
  r.revParse ("origin/" ++ ref) <|> r.revParse ref

/-- `_is_ancestor` of the commit that a name stands for. -/
def isAncestor (r : Repo C) (ancestor : String) (descendant : C) : Bool :=
  match r.revParse ancestor with
  | some a => r.contains descendant a
  | none => false

/-- `_get_sorted_tags`: Python's sort is stable. -/
def getSortedTags (r : Repo C) : List String :=
  ((r.tags.map Prod.fst).filter isReleaseTag).insertionSort fun t u => versionKey t ≤ versionKey u

/-- `_current_tag` -/
def currentTag (r : Repo C) (head : C) : Option String := (r.describeExact head).filter isReleaseTag

/-- `_latest_ancestor_tag` -/
def latestAncestorTag (r : Repo C) (head : C) : Option String :=
  (r.describeNearest head).filter isReleaseTag

/-- The release HEAD is taken to be at: `_current_tag(repo) or _latest_ancestor_tag(repo)`. -/
def base (r : Repo C) (head : C) : Option String := r.currentTag head <|> r.latestAncestorTag head

/-- The test of the comprehension in `_next_step`. -/
def newerThan (base : Option String) (t : String) : Bool :=
  match base with
  | none => true
  | some b => decide (versionKey b < versionKey t)

/-- The releases `_next_step` has left: newer than the base, and in the pinned commit if any. -/
def laterTags (r : Repo C) (targetSha : Option C) (head : C) : List String :=
  let later := r.getSortedTags.filter (newerThan (r.base head))
  match targetSha with
  | some sha => later.filter fun t => r.isAncestor t sha
  | none => later

/-- The text of the `RuntimeError` for a pin that no longer resolves. -/
def unresolvedPin (target : String) : String :=
  "Pinned target ref '" ++ target ++ "' could not be resolved on the remote. " ++
    "Fix or clear the pin with 'set_remote' (a URL without an @ref clears it)."

/-- `target_sha`: the commit the target ref is pinned to. -/
def pinned (r : Repo C) (target : Option String) : Option C := target.bind r.resolveRefSha

/-- `_next_step` -/
def nextStep (r : Repo C) (target : Option String) (head : C) : Except String (Option String) :=
  if target.isSome && (r.pinned target).isNone then
    .error (unresolvedPin (target.getD ""))
  -- already on the pinned destination: this comes before the tags
  else if r.pinned target = some head then
    .ok none
  else
    match r.laterTags (r.pinned target) head with
    | t :: _ => .ok (some t)
    -- tags exhausted: the pinned target is the final hop
    | [] => .ok (if (r.pinned target).isSome then target else none)

/-- The commit at which HEAD is detached for a step: `_resolve_ref_sha(step) or step`. -/
def checkout (r : Repo C) (step : String) : Option C := r.resolveRefSha step <|> r.revParse step

/-- HEAD moves from `c` to `c'`. -/
def Moves (r : Repo C) (target : Option String) (c c' : C) : Prop :=
  ∃ step, r.nextStep target c = .ok (some step) ∧ r.checkout step = some c'

/-- `_next_step` answers `None`. -/
def Arrived (r : Repo C) (target : Option String) (c : C) : Prop :=
  r.nextStep target c = .ok none

instance (r : Repo C) (target : Option String) (c : C) : Decidable (r.Arrived target c) :=
  inferInstanceAs (Decidable (r.nextStep target c = .ok none))

end Repo

end OpenHost.Update
