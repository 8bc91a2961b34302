import OpenHost.Update.SetRemote
import OpenHost.Web.UrlPieces

/-!
# Repository URLs

`core/git_ops.py`: the upstream of an app is one text, a URL with a ref behind an `@` of its path.
`parse_repo_url` takes it apart.
-/

namespace OpenHost.Upstream

open Text (truthy? stripBlank)
open Update (knownSchemes rsplitAt parseRemote)
open Web (Framework ParseResult urlparse)

/-! ## Reading a URL -/

/-- `_SCP_STYLE_SSH_RE.match(repo_url)`: a user and an `@`, a host and a colon, before any slash. -/
def isScpStyle (url : List Char) : Bool :=
  let user := url.takeWhile fun c => c ≠ '/' && c ≠ '@'
  let afterUser := url.drop user.length
  let host := afterUser.tail.takeWhile fun c => c ≠ '/' && c ≠ ':'
  user ≠ [] && afterUser.head? = some '@' && host ≠ [] &&
    (afterUser.tail.drop host.length).head? = some ':'

/-- `is_ssh_url`; `none` is a `ValueError`. -/
def isSshUrl (fw : Framework) (url : String) : Option Bool :=
  (urlparse fw url).map fun parsed => parsed.scheme = "ssh" || isScpStyle url.toList

/-- `parse_repo_url`; `none` is a `ValueError`. -/
def parseRepoUrl (fw : Framework) (url : String) : Option (String × Option String) :=
  (isSshUrl fw url).bind fun ssh => if ssh then none else parseRemote fw url

/-! ## Writing one -/

/-- `f"{base_url}@{ref}"` -/
def withRef (base ref : String) : String := base ++ "@" ++ ref

@[simp] theorem toList_withRef (base ref : String) :
    (withRef base ref).toList = base.toList ++ '@' :: ref.toList := by
  simp [withRef]

/-- `_pin_refless_to_landed_branch`, with the branch of the checkout, if there is one. -/
def pinReflessToLandedBranch (fw : Framework) (repoUrl : String) (landed : Option String) :
    Option String :=
  if repoUrl = "" then none
  else match parseRepoUrl fw repoUrl with
    | none => none
    | some (base, ref) =>
      if (truthy? ref).isSome then none else (truthy? landed).map (withRef base)

/-- `set_app_remote`: what is stored, unless the request is refused. -/
def setAppRemote (fw : Framework) (data : String) : Option String :=
  let repoUrl := stripBlank data
  if repoUrl = "" then none
  else (parseRepoUrl fw repoUrl).map fun parsed =>
    match truthy? parsed.2 with
    | some ref => withRef parsed.1 ref
    | none => parsed.1

/-! ## The last ref of a path -/

theorem rsplitAt_append {path ref : List Char} (h : '@' ∉ ref) :
    rsplitAt (path ++ '@' :: ref) = (path, ref) := by
  have hrev : (path ++ '@' :: ref).reverse = ref.reverse ++ '@' :: path.reverse := by simp
  have hlast : ((path ++ '@' :: ref).reverse.takeWhile (· ≠ '@')).reverse = ref := by
    rw [hrev, Web.takeWhile_ne_append (by simpa using h), List.reverse_reverse]
  have hlen : (path ++ '@' :: ref).length - ref.length - 1 = path.length := by
    simp only [List.length_append, List.length_cons]
    omega
  unfold rsplitAt
  dsimp only
  rw [hlast, hlen, List.take_left]

/-- A path with an `@` is divided at the last one. -/
theorem exists_rsplitAt {path : List Char} (h : '@' ∈ path) :
    path = (rsplitAt path).1 ++ '@' :: (rsplitAt path).2 ∧ '@' ∉ (rsplitAt path).2 := by
  obtain ⟨after, before, hsplit, hnot⟩ := List.eq_append_cons_of_mem (List.mem_reverse.mpr h)
  have hpath : path = before.reverse ++ '@' :: after.reverse := by
    rw [← List.reverse_reverse path, hsplit]
    simp
  have hnot' : '@' ∉ after.reverse := by simpa using hnot
  rw [hpath, rsplitAt_append hnot']
  exact ⟨rfl, hnot'⟩

/-! ## A URL with a scheme that is known -/

theorem parseRemote_of_known {fw : Framework} {url : String} {p : ParseResult}
    (h : urlparse fw url = some p) (hknown : p.scheme ∈ knownSchemes) : parseRemote fw url =
      some (if '@' ∈ p.path then
        (({ p with path := (rsplitAt p.path).1 } : ParseResult).geturl,
          some (String.ofList (rsplitAt p.path).2))
      else (url, none)) := by
  unfold parseRemote
  simp [h, hknown]

/-- A URL is read when it can be parsed and is no SSH URL. -/
theorem parseRepoUrl_eq_some_iff {fw : Framework} {url : String} {parsed : String × Option String} :
    parseRepoUrl fw url = some parsed ↔ ∃ p, urlparse fw url = some p ∧ p.scheme ≠ "ssh" ∧
      isScpStyle url.toList = false ∧ parseRemote fw url = some parsed := by
  unfold parseRepoUrl isSshUrl
  cases urlparse fw url with
  | none => simp
  | some p =>
    simp only [Option.map_some, Option.bind_some, Option.some.injEq, exists_eq_left']
    by_cases hssh : p.scheme = "ssh" <;> by_cases hscp : isScpStyle url.toList = true <;>
      simp [hssh, hscp]

end OpenHost.Upstream
