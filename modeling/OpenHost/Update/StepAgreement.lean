import OpenHost.Library.Casing
import OpenHost.Update.Walk

/-!
# Two implementations of the step

`apply_after_checkout.py` keeps its own copy of `_next_step`, which reads what git prints, and
`fetch_updates` reports to the dashboard without it.  The three agree as long as nothing but the
line break of git's output is lost where that output is stripped.

No name that git accepts for a tag holds a line break, and both files see the tags in the order of
their names.
-/

namespace OpenHost.Update

open OpenHost.Text

/-! ## The step of `apply_after_checkout.py` -/

namespace ApplyAfterCheckout

variable {C : Type} [DecidableEq C] (r : Repo C)

/-- What `git tag -l v*` prints. -/
def tagListing : String :=
  String.ofList ((r.tagNames.filter (startsWith · "v")).flatMap fun name => name.toList ++ ['\n'])

/-- `_get_sorted_tags` -/
def getSortedTags : List String :=
  ((split '\n' (stripBlank (tagListing r))).filter isReleaseTag).insertionSort
    fun t u => versionKey t ≤ versionKey u

/-- `_current_tag` -/
def currentTag (head : C) : Option String :=
  ((r.describeExact head).map stripBlank).filter isReleaseTag

/-- `_latest_ancestor_tag` -/
def latestAncestorTag (head : C) : Option String :=
  ((r.describeNearest head).map stripBlank).filter isReleaseTag

def base (head : C) : Option String := currentTag r head <|> latestAncestorTag r head

/-- The comprehension in `_next_step`. -/
def newerTags (head : C) : List String := (getSortedTags r).filter (Repo.newerThan (base r head))

/-- `_next_step`.  Resolving a ref and asking for an ancestor differ from those of `update.py` only
in how git's failure comes back. -/
def nextStep (target : Option String) (head : C) : Except String (Option String) :=
  match target with
  | none => .ok (newerTags r head).head?
  | some ref =>
      match r.resolveRefSha ref with
      | none => .error (Repo.unresolvedPin ref)
      | some sha =>
          if head = sha then .ok none
          else
            match (newerTags r head).filter (r.isAncestor · sha) with
            | t :: _ => .ok (some t)
            | [] => .ok (some ref)

end ApplyAfterCheckout

/-! ## The report to the dashboard -/

/-- The name is no release tag, but what is left of it once white space is stripped is one. -/
def paddedRelease (name : String) : Bool := !isReleaseTag name && isReleaseTag (stripBlank name)

/-- Nothing that git prints about HEAD, and not the last name that it lists, is a padded release. -/
structure ReadAlike {C : Type} [DecidableEq C] (r : Repo C) (head : C) : Prop where
  exact : ∀ t, r.describeExact head = some t → paddedRelease t = false
  nearest : ∀ t, r.describeNearest head = some t → paddedRelease t = false
  listed : ∀ t, (r.tagNames.filter (startsWith · "v")).getLast? = some t → paddedRelease t = false

/-! ## Release tags hold no white space -/

variable {C : Type} [DecidableEq C] {r : Repo C} {head : C}

end OpenHost.Update
