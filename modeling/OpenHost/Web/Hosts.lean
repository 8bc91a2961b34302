import Mathlib.Data.List.TakeWhile
import OpenHost.Web.Request

/-!
# Looking up a host

`get_app_from_hostname` finds exactly the installed app that a host names.
-/

namespace OpenHost.Web

open Text (lower before)
open Domains (Domain matchDomain MostSpecific effectiveDomains)

theorem owns_congr {h h' : String} (heq : Domain.hostNoPort h = Domain.hostNoPort h')
    (d : Domain) : d.owns h = d.owns h' := by
  simp [Domain.owns, heq]

theorem matchDomain_congr {h h' : String} (heq : Domain.hostNoPort h = Domain.hostNoPort h')
    (rows : List Domains.DomainRecord) : matchDomain rows h = matchDomain rows h' := by
  have hbetter : Domains.better h = Domains.better h' := by
    funext best d
    simp [Domains.better, owns_congr heq]
  simp [matchDomain, hbetter]

/-- Only the host without its port and in lower case matters. -/
theorem getAppFromHostname_congr {h h' : String}
    (heq : Domain.hostNoPort h = Domain.hostNoPort h') (db : Db) :
    getAppFromHostname h db = getAppFromHostname h' db := by
  simp [getAppFromHostname, matchDomain_congr heq, heq]

theorem owns_iff {d : Domain} {h : String} :
    d.owns h = true ↔ d.nameNoPort ≠ "" ∧
      (Domain.hostNoPort h = d.nameNoPort ∨ ∃ r, Domain.hostNoPort h = r ++ "." ++ d.nameNoPort) := by
  simp only [Domain.owns, Bool.and_eq_true, Bool.or_eq_true, decide_eq_true_eq,
    Text.endsWith_iff, String.append_assoc]

/-- What is left of `<app>.<domain>` once the domain and the dot before it are cut off. -/
theorem take_append_dot (r z : String) :
    String.ofList ((r ++ "." ++ z).toList.take
      ((r ++ "." ++ z).toList.length - (z.toList.length + 1))) = r := by
  have hlen : (r ++ "." ++ z).toList.length - (z.toList.length + 1) = r.toList.length := by
    simp only [String.toList_append, List.length_append]
    have hdot : (".".toList).length = 1 := rfl
    omega
  rw [hlen, String.append_assoc, String.toList_append, List.take_left]
  simp

theorem ne_append_dot (r z : String) : r ++ "." ++ z ≠ z := by
  intro h
  have hl := congrArg (fun s => s.toList.length) h
  have hdot : (".".toList).length = 1 := rfl
  simp only [String.toList_append, List.length_append, hdot] at hl
  omega

/-- Two names of one length under which a host is owned are the same name. -/
theorem append_dot_inj {r r' z z' : String} (h : r ++ "." ++ z = r' ++ "." ++ z')
    (hlen : z.length = z'.length) : r = r' ∧ z = z' := by
  have hl := congrArg String.toList h
  simp only [String.toList_append, List.append_assoc] at hl
  have hlen' : (".".toList ++ z.toList).length = (".".toList ++ z'.toList).length := by
    rw [List.length_append, List.length_append, String.length_toList (s := z),
      String.length_toList (s := z'), hlen]
  obtain ⟨h1, h2⟩ := List.append_inj' hl hlen'
  exact ⟨String.toList_inj.mp h1, String.toList_inj.mp (List.append_cancel_left h2)⟩

/-- The lookup finds exactly the app that the host names. -/
theorem getAppFromHostname_eq_some_iff {host : String} {db : Db} {app : App} :
    getAppFromHostname host db = some app ↔ NamesApp db host app := by
  constructor
  · intro h
    unfold getAppFromHostname at h
    cases hm : matchDomain db.domains host with
    | none => simp [hm] at h
    | some d =>
      have hspec := Domains.mostSpecific_of_matchDomain hm
      simp only [hm] at h
      split at h
      · cases h
      · rename_i hne
        obtain ⟨-, hr⟩ := owns_iff.mp hspec.owns
        obtain ⟨r, hr⟩ := hr.resolve_left hne
        rw [hr, take_append_dot] at h
        split at h
        · cases h
        · rename_i hdot
          have hname : app.name = r := by
            have hfind := List.find?_some h
            simpa using hfind
          refine ⟨d, hspec, by rw [hname, hr], by rw [hname]; exact hdot, by rw [hname]; exact h⟩
  · rintro ⟨d, hspec, hhost, hdot, hfind⟩
    unfold getAppFromHostname
    cases hm : matchDomain db.domains host with
    | none =>
      have howns := Domains.matchDomain_eq_none_iff.mp hm d hspec.mem
      rw [hspec.owns] at howns
      cases howns
    | some e =>
      have hspec' := Domains.mostSpecific_of_matchDomain hm
      have hlen : d.nameNoPort.length = e.nameNoPort.length :=
        Nat.le_antisymm (hspec'.longest d hspec.mem hspec.owns)
          (hspec.longest e hspec'.mem hspec'.owns)
      -- both names end the host, so they are one name
      have hz : e.nameNoPort = d.nameNoPort := by
        obtain ⟨-, hr⟩ := owns_iff.mp hspec'.owns
        rcases hr with hr | ⟨r, hr⟩
        · exfalso
          have hl := congrArg String.length (hr.symm.trans hhost)
          simp only [String.length_append] at hl
          have hdot1 : ".".length = 1 := rfl
          omega
        · exact (append_dot_inj (hr.symm.trans hhost) hlen.symm).2
      simp only [hz, hhost, if_neg (ne_append_dot _ _), take_append_dot, if_neg hdot, hfind]

/-- A host without a dot names no app. -/
theorem not_namesApp_of_no_dot {db : Db} {host : String} {app : App}
    (h : '.' ∉ (Domain.hostNoPort host).toList) : ¬ NamesApp db host app := by
  rintro ⟨d, -, hhost, -, -⟩
  apply h
  rw [hhost]
  simp

theorem namesApp_congr {h h' : String} (heq : Domain.hostNoPort h = Domain.hostNoPort h')
    (db : Db) (app : App) : NamesApp db h app ↔ NamesApp db h' app := by
  rw [← getAppFromHostname_eq_some_iff, ← getAppFromHostname_eq_some_iff,
    getAppFromHostname_congr heq]

/-- The app that a host names is installed. -/
theorem NamesApp.mem {db : Db} {host : String} {app : App} (h : NamesApp db host app) :
    app ∈ db.apps := by
  obtain ⟨d, -, -, -, hfind⟩ := h
  exact List.mem_of_find?_eq_some hfind

/-! ## Ports and letter case -/

theorem before_append_colon {s : String} (h : ':' ∉ s.toList) (rest : String) :
    before ':' (s ++ ":" ++ rest) = s := by
  rw [← String.toList_inj, Text.toList_before]
  have hs : ∀ c ∈ s.toList, decide (c ≠ ':') = true := by
    intro c hc
    simp only [decide_eq_true_eq]
    rintro rfl
    exact h hc
  have hlist : (s ++ ":" ++ rest).toList = s.toList ++ ':' :: rest.toList := by simp
  rw [hlist, List.takeWhile_append_of_pos hs]
  simp

theorem before_of_no_colon {s : String} (h : ':' ∉ s.toList) : before ':' s = s := by
  rw [← String.toList_inj, Text.toList_before]
  apply List.takeWhile_eq_self_iff.mpr
  intro c hc
  simp only [decide_eq_true_eq]
  rintro rfl
  exact h hc

theorem dot_not_mem_lower {s : String} (h : '.' ∉ s.toList) : '.' ∉ (lower s).toList := by
  rw [Text.toList_lower, List.mem_map]
  rintro ⟨c, hc, heq⟩
  rw [(Text.lowerChar_eq_dot_iff c).mp heq] at hc
  exact h hc

end OpenHost.Web
