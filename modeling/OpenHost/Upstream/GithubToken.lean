import OpenHost.Library.Proc
import OpenHost.Library.Replace
import OpenHost.Upstream.GithubUrl

/-!
# Where a GitHub token goes

The owner's GitHub token is tried where a clone or a pull of an app has failed without it.  It goes into
the URL that git is to use, and into a configuration that git takes for the submodules.  The URL that
gets it leads to GitHub, if git follows it at all, as long as the checkout's `origin` is the URL that a
pull has set.
-/

namespace OpenHost.Upstream

open Text (truthy? stripBlank endsWith)
open Web (Framework ParseResult urlparse endsNetloc)
open Whatwg (IsUnder isHostName)

/-! ## git -/

/-- What git contacts. -/
structure Place where
  scheme : String
  host : String
  deriving DecidableEq, Repr

/-- A character that ends a user or a host. -/
def isDelimiter (c : Char) : Bool := c ∈ ['/', '?', '#', '@', ':']

/-- git with its library for HTTP, which has a parser of its own. -/
structure Git (low : StrLower) where
  /-- The place that it contacts for a URL, if it takes the URL. -/
  contact : String → Option Place
  /-- A URL is read as the generic syntax has it: behind the user comes the host up to a colon, and
  behind the colon a port.  Escapes and capital letters in the host do not change the labels that are
  host names already. -/
  reads : ∀ (url : String) (place : Place) (scheme : String) (user host port rest : List Char),
    contact url = some place → scheme = "http" ∨ scheme = "https" →
    url.toList = scheme.toList ++ ':' :: '/' :: '/' :: (user ++ '@' :: (host ++ (port ++ rest))) →
    (∀ c ∈ user ++ host, isDelimiter c = false) → (port = [] ∨ port.head? = some ':') →
    (∀ c ∈ port, endsNetloc c = false ∧ c ≠ '@') → EndsLocation rest →
    place.scheme = scheme ∧ port.tail.all Char.isDigit = true ∧
      ∀ name, isHostName name = true → IsUnder name (low.lower (String.ofList host)) →
        IsUnder name (Text.lower place.host)

/-- A line of configuration, `url.<url>.insteadOf=<insteadOf>`. -/
structure InsteadOf where
  url : String
  insteadOf : String
  deriving DecidableEq, Repr

/-- `github_token_git_config` -/
def githubTokenGitConfig (token : Option String) : List InsteadOf :=
  match truthy? token with
  | none => []
  | some token => [⟨"https://" ++ token ++ "@github.com/", "https://github.com/"⟩]

/-- What git is asked to do. -/
inductive GitCommand where
  | lsRemote (config : List InsteadOf) (url ref : String)
  | clone (config : List InsteadOf) (branch : Option String) (url dir : String)
  | checkout (ref : String)
  /-- also where the library for repositories does it -/
  | setUrl (url : String)
  | getUrl
  | setHead
  | symbolicRef
  | pull
  | fetch (ref : String)
  | revParse (ref : String)
  | checkoutBranch (ref : String)
  | checkoutFetched
  | submoduleSync
  | submoduleUpdate (config : List InsteadOf)
  deriving DecidableEq, Repr

namespace GitCommand

/-- `github_token_git_config` as arguments. -/
def configArgs (config : List InsteadOf) : List String :=
  config.flatMap fun entry => ["-c", "url." ++ entry.url ++ ".insteadOf=" ++ entry.insteadOf]

/-- The command line. -/
def args : GitCommand → List String
  | .lsRemote config url ref => configArgs config ++ ["ls-remote", "--heads", "--tags", url, ref]
  | .clone config branch url dir =>
      configArgs config ++ ["clone", "--recurse-submodules", "--shallow-submodules"] ++
        (match branch with
          | some branch => ["--branch", branch]
          | none => []) ++ [url, dir]
  | .checkout ref => ["checkout", "--force", ref]
  | .setUrl url => ["remote", "set-url", "origin", url]
  | .getUrl => ["remote", "get-url", "origin"]
  | .setHead => ["remote", "set-head", "origin", "--auto"]
  | .symbolicRef => ["symbolic-ref", "--short", "refs/remotes/origin/HEAD"]
  | .pull => ["pull"]
  | .fetch ref => ["fetch", "origin", ref]
  | .revParse ref => ["rev-parse", "--verify", "--quiet", "refs/remotes/origin/" ++ ref]
  | .checkoutBranch ref => ["checkout", "-fB", ref, "origin/" ++ ref]
  | .checkoutFetched => ["checkout", "-f", "FETCH_HEAD"]
  | .submoduleSync => ["submodule", "sync", "--recursive"]
  | .submoduleUpdate config => configArgs config ++ ["submodule", "update", "--init", "--recursive"]

/-- The URL that is handed over. -/
def url? : GitCommand → Option String
  | .lsRemote _ url _ => some url
  | .clone _ _ url _ => some url
  | .setUrl url => some url
  | _ => none

/-- The configuration that is handed over. -/
def config : GitCommand → List InsteadOf
  | .lsRemote config _ _ => config
  | .clone config _ _ _ => config
  | .submoduleUpdate config => config
  | _ => []

end GitCommand

/-- `subprocess.CompletedProcess` -/
structure Completed where
  returncode : Int
  stdout : String
  stderr : String
  deriving DecidableEq, Repr

/-- The exceptions on the way. -/
inductive CloneError where
  | cloneFailed (message : String)
  | valueError (message : String)
  | timeoutExpired (message : String)
  | other (message : String)
  deriving DecidableEq, Repr

/-- `get_oauth_token("github", ["repo"], …)` -/
inductive OauthReply where
  | token (token : String)
  | required (authorizeUrl : String)
  | unavailable (message : String)
  deriving DecidableEq, Repr

/-- What the code asks of its surroundings; `M` is the type of manifests. -/
structure GitWorld (M : Type) where
  /-- The temporary directory that is cloned into. -/
  cloneDir : String
  /-- The answer to the last of the commands so far. -/
  reply : List GitCommand → Except CloneError Completed
  /-- There is a `.gitmodules` in the checkout. -/
  hasSubmodules : List GitCommand → Bool
  /-- A base URL is copied from a plain directory, with success or not. -/
  plainDir : String → Option (Except CloneError Unit)
  manifest : List GitCommand → Except CloneError M
  oauth : OauthReply
  /-- The text of the `ValueError` for a URL. -/
  urlError : String → String

/-- `_SSH_URL_ERROR` -/
def sshUrlError : String :=
  "SSH git URLs are not supported (e.g. 'git@github.com:user/repo.git' or " ++
  "'ssh://git@github.com/user/repo.git'). Please use the HTTPS clone URL " ++
  "instead, e.g. 'https://github.com/user/repo.git'."

variable {M : Type} (fw : Framework) (low : StrLower) (w : GitWorld M)

/-- A step that may raise; the state is the commands so far. -/
abbrev GitProc := Proc CloneError (List GitCommand)

/-- `subprocess.run(["git", …])` -/
def git (command : GitCommand) : GitProc Completed := fun commands =>
  match w.reply (commands ++ [command]) with
  | .ok completed => (.ok completed, commands ++ [command])
  | .error e => (.raised e, commands ++ [command])

/-- `_redact` -/
def redact (token : Option String) (message : String) : String :=
  match truthy? token with
  | none => message
  | some token => String.ofList (Replace.replaceAll token.toList "***".toList message.toList)

/-- The URL to use, or a `ValueError`. -/
def authedUrl (url : String) (token : Option String) : GitProc String :=
  match truthy? token with
  | none => pure url
  | some token =>
      match injectGithubTokenInUrl fw low url token with
      | some authed => pure authed
      | none => Proc.raise (.valueError (w.urlError url))

/-! ## Cloning -/

/-- `_remote_ref_is_commit` -/
def remoteRefIsCommit (cloneUrl ref : String) (token : Option String) : GitProc Bool := do
  let result ← git w (.lsRemote (githubTokenGitConfig token) cloneUrl ref)
  return result.returncode = 0 && stripBlank result.stdout = ""

/-- `if os.path.exists(….gitmodules): await run_git(…)` -/
def ifSubmodules (command : GitCommand) : GitProc Unit := do
  let submodules ← Proc.reads w.hasSubmodules
  if submodules then (git w command >>= fun _ => pure ()) else pure ()

/-- `await set_remote_url(…)`, and the URLs of the submodules after it. -/
def dropToken (baseUrl : String) : GitProc Unit := do
  let _ ← git w (.setUrl baseUrl)
  ifSubmodules w .submoduleSync

/-- The checkout of a commit. -/
def checkoutCommit (ref : String) (token : Option String) : GitProc Unit := do
  let checkout ← git w (.checkout ref)
  if checkout.returncode ≠ 0 then
    Proc.raise (.cloneFailed ("Git checkout of " ++ ref ++ " failed: " ++
      redact token (stripBlank checkout.stderr)))
  else ifSubmodules w (.submoduleUpdate (githubTokenGitConfig token))

/-- `clone_repo` -/
def cloneRepo (baseUrl : String) (ref token : Option String) : GitProc Unit := do
  let cloneUrl ← authedUrl fw low w baseUrl token
  let refIsCommit ← (match ref with
    | none => pure false
    | some ref => remoteRefIsCommit w cloneUrl ref token)
  let result ← git w (.clone (githubTokenGitConfig token)
    (if refIsCommit then none else truthy? ref) cloneUrl w.cloneDir)
  if result.returncode ≠ 0 then
    Proc.raise (.cloneFailed ("Git clone failed: " ++ redact token (stripBlank result.stderr)))
  else
    let _ ← (if cloneUrl ≠ baseUrl then dropToken w baseUrl else pure ())
    if refIsCommit then checkoutCommit w (ref.getD "") token else pure ()

/-- The text that a failed clone is reported with. -/
def CloneError.report : CloneError → String
  | .cloneFailed message => message
  | .valueError message => message
  | .timeoutExpired _ => "Git clone timed out"
  | .other message => "Clone failed: " ++ message

/-- What `parse_repo_url` says of a URL that it does not take. -/
def repoUrlError (repoUrl : String) : String :=
  if isSshUrl fw repoUrl = some true then sshUrlError else w.urlError repoUrl

/-- `clone_and_read_manifest` -/
def cloneAndReadManifest (repoUrl : String) (token : Option String) : GitProc (Except String M) :=
  match parseRepoUrl fw repoUrl with
  | none => pure (.error (repoUrlError fw w repoUrl))
  | some (baseUrl, ref) =>
      Proc.tryExcept
        (do
          let _ ← (match w.plainDir baseUrl with
            | none => cloneRepo fw low w baseUrl ref token
            | some copied => Proc.ofExcept copied)
          let commands ← Proc.reads id
          let manifest ← Proc.ofExcept (w.manifest commands)
          return .ok manifest)
        (fun _ => true) fun e => pure (.error e.report)

/-- What `clone_with_github_fallback` returns. -/
structure CloneResult (M : Type) where
  manifest : Option M
  error : Option String
  authorizeUrl : Option String

/-- `clone_with_github_fallback` -/
def cloneWithGithubFallback (repoUrl : String) : GitProc (CloneResult M) := do
  let first ← cloneAndReadManifest fw low w repoUrl none
  match first with
  | .ok manifest => return ⟨some manifest, none, none⟩
  | .error cloneError =>
      if cloneError = "" then return ⟨none, some cloneError, none⟩
      else
        match isGithubRepoUrl fw low repoUrl, isSshUrl fw repoUrl with
        | some true, some false =>
            match w.oauth with
            | .required url =>
                return ⟨none, some (cloneError ++ " (GitHub OAuth not configured: " ++ url ++ ")"),
                  some url⟩
            | .unavailable message =>
                return ⟨none, some (cloneError ++ " (also failed to fetch GitHub OAuth token: " ++
                  message ++ ")"), none⟩
            | .token token =>
                let second ← cloneAndReadManifest fw low w repoUrl (some token)
                match second with
                | .ok manifest => return ⟨some manifest, none, none⟩
                | .error error => return ⟨none, some error, none⟩
        | some false, _ => return ⟨none, some cloneError, none⟩
        | some true, some true => return ⟨none, some cloneError, none⟩
        | _, _ => Proc.raise (.valueError (w.urlError repoUrl))

/-! ## Pulling -/

/-- `str(e)` -/
def CloneError.message : CloneError → String
  | .cloneFailed message => message
  | .valueError message => message
  | .timeoutExpired message => message
  | .other message => message

/-- `try: … except Exception as e: …`, with the exception as a value. -/
def attempt {α : Type} (x : GitProc α) : GitProc (Except CloneError α) :=
  Proc.tryExcept (x >>= fun a => pure (.ok a)) (fun _ => true) fun e => pure (.error e)

/-- `_run` -/
def runGit (token : Option String) (command : GitCommand) : GitProc (Except String Unit) := do
  let result ← git w command
  if result.returncode ≠ 0 then
    return .error (redact token (Text.orElse (some (stripBlank result.stderr))
      (Text.orElse (some (stripBlank result.stdout))
        (String.intercalate " " ("git" :: command.args) ++ " failed"))))
  else return .ok ()

/-- `_remote_default_branch` -/
def remoteDefaultBranch : GitProc (Except String (Option String)) := do
  let setHead ← git w .setHead
  if setHead.returncode ≠ 0 then
    return .error (Text.orElse (some (stripBlank setHead.stderr))
      (Text.orElse (some (stripBlank setHead.stdout)) "failed to query remote default branch"))
  else
    let sym ← git w .symbolicRef
    if sym.returncode ≠ 0 then return .ok none
    else
      let name := stripBlank sym.stdout
      return .ok (truthy? (some ((Text.stripPrefix? "origin/" name).getD name)))

/-- `_restore_origin` -/
def restoreOrigin (token original : Option String) : GitProc Unit :=
  match truthy? token, truthy? original with
  | some _, some original => git w (.setUrl original) >>= fun _ => pure ()
  | _, _ => pure ()

/-- `_update_submodules` -/
def updateSubmodules (token original : Option String) : GitProc (Except String Unit) := do
  let submodules ← Proc.reads w.hasSubmodules
  if submodules then
    restoreOrigin w token original
    let synced ← runGit w token .submoduleSync
    match synced with
    | .error error => return .error error
    | .ok () => runGit w token (.submoduleUpdate (githubTokenGitConfig token))
  else return .ok ()

/-- The `try` block of `git_pull`, once there is a ref or none can be found. -/
def checkoutRef (ref token original : Option String) : GitProc (Except String Unit) :=
  match truthy? ref with
  | none => do
      let pulled ← runGit w token .pull
      match pulled with
      | .error error => return .error error
      | .ok () => updateSubmodules w token original
  | some ref => do
      let fetched ← runGit w token (.fetch ref)
      match fetched with
      | .error error => return .error error
      | .ok () =>
          let isBranch ← git w (.revParse ref)
          let checkedOut ← runGit w token
            (if isBranch.returncode = 0 then .checkoutBranch ref else .checkoutFetched)
          match checkedOut with
          | .error error => return .error error
          | .ok () => updateSubmodules w token original

/-- The `try` block of `git_pull`. -/
def updateCheckout (ref token original : Option String) : GitProc (Except String Unit) :=
  match truthy? ref with
  | some ref => checkoutRef w (some ref) token original
  | none => do
      let default ← remoteDefaultBranch w
      match default with
      | .error error => return .error error
      | .ok ref => checkoutRef w ref token original

/-- The URL of `origin`, which gets the token; whatever goes wrong is passed over. -/
def authOrigin (token : Option String) : GitProc (Option String) :=
  match truthy? token with
  | none => pure none
  | some token => do
      let result ← attempt (git w .getUrl)
      match result with
      | .error _ => return none
      | .ok result =>
          let original := stripBlank result.stdout
          match injectGithubTokenInUrl fw low original token with
          | none => return some original
          | some authed =>
              if authed ≠ original then
                let _ ← attempt (git w (.setUrl authed))
                return some original
              else return some original

/-- `git_pull` after `origin` has been set. -/
def pullOrigin (ref token : Option String) : GitProc (Except String Unit) := do
  let original ← authOrigin fw low w token
  let result ← Proc.tryExcept (updateCheckout w ref token original) (fun _ => true)
    fun e => pure (.error e.message)
  restoreOrigin w token original
  return result

/-- `git_pull` -/
def gitPull (repoUrl : String) (token : Option String) : GitProc (Except String Unit) :=
  if repoUrl = "" then pullOrigin fw low w none token
  else
    match parseRepoUrl fw repoUrl with
    | none => pure (.error (repoUrlError fw w repoUrl))
    | some (baseUrl, ref) => do
        let written ← attempt (git w (.setUrl baseUrl))
        match written with
        | .error e => return .error e.message
        | .ok _ => pullOrigin fw low w ref token

/-- How the pull of an update ends. -/
inductive PullResult where
  | pulled
  | failed (message : Option String)
  | redirect (authorizeUrl : String)
  | unavailable (message : String)
  deriving DecidableEq, Repr

/-- The pull without a token, which is not made again after the owner has been to GitHub. -/
def firstPull (repoUrl : String) (continueOauth : Bool) : GitProc (Except (Option String) Unit) :=
  if continueOauth then pure (.error none)
  else gitPull fw low w repoUrl none >>= fun pulled => pure (pulled.mapError some)

/-- The pull in `_reload_app_impl`. -/
def pullWithGithubFallback (repoUrl : String) (continueOauth : Bool) : GitProc PullResult := do
  let first ← firstPull fw low w repoUrl continueOauth
  match first with
  | .ok () => return .pulled
  | .error pullError =>
      match isGithubRepoUrl fw low repoUrl with
      | none => Proc.raise (.valueError (w.urlError repoUrl))
      | some false => return .failed pullError
      | some true =>
          match w.oauth with
          | .required url => return .redirect url
          | .unavailable message => return .unavailable message
          | .token token =>
              let second ← gitPull fw low w repoUrl (some token)
              match second with
              | .ok () => return .pulled
              | .error error => return .failed (some error)

/-! ## What is to hold -/

/-- The two ways to a token. -/
inductive Flow where
  | clone
  | pull (continueOauth : Bool)
  deriving DecidableEq, Repr

/-- All that git is asked to do. -/
def commandsOf (repoUrl : String) : Flow → List GitCommand
  | .clone => (cloneWithGithubFallback fw low w repoUrl []).2
  | .pull continueOauth => (pullWithGithubFallback fw low w repoUrl continueOauth []).2

/-- `remote set-url` takes effect unless it fails: `remote get-url` prints what has just been set, or fails
and prints nothing. -/
def GitWorld.SetsUrl (w : GitWorld M) : Prop :=
  ∀ commands url written printed, w.reply (commands ++ [.setUrl url]) = .ok written →
    written.returncode = 0 → w.reply (commands ++ [.setUrl url] ++ [.getUrl]) = .ok printed →
    stripBlank printed.stdout = stripBlank url ∨ stripBlank printed.stdout = ""

/-- `remote set-url` does not fail for the repository's own URL; its exit code is not looked at. -/
def GitWorld.Settable (w : GitWorld M) (repoUrl : String) : Prop :=
  ∀ base ref commands written, parseRepoUrl fw repoUrl = some (base, ref) →
    w.reply (commands ++ [.setUrl base]) = .ok written → written.returncode = 0

/-- A token is made of characters that do not end a user in a URL. -/
def OauthReply.Plain (reply : OauthReply) : Prop :=
  ∀ token, reply = .token token → ∀ c ∈ token.toList, isDelimiter c = false

/-- The place is GitHub or below it. -/
def Place.OnGithub (place : Place) : Prop := IsUnder "github.com" (Text.lower place.host)

variable {low}

/-- Wherever git goes with the URL is on GitHub, and it goes there over HTTPS unless the repository's own
URL is one of HTTP. -/
def LeadsToGithub (g : Git low) (repoUrl url : String) : Prop :=
  ∀ place, g.contact url = some place → place.OnGithub ∧ (place.scheme = "https" ∨
    place.scheme = "http" ∧ ∃ p, readUrl fw repoUrl = some p ∧ p.scheme = "http")

/-- A URL to hand over: the repository's own one, without a token, or one that leads to GitHub. -/
def Handed (g : Git low) (repoUrl url : String) : Prop :=
  (∃ base ref, parseRepoUrl fw repoUrl = some (base, ref) ∧ (url = base ∨ url = stripBlank base)) ∨
    LeadsToGithub fw g repoUrl url

/-- The same, if the repository's own scheme were never to be HTTP. -/
def HandedOverHttps (g : Git low) (repoUrl url : String) : Prop :=
  (∃ base ref, parseRepoUrl fw repoUrl = some (base, ref) ∧ (url = base ∨ url = stripBlank base)) ∨
    ∀ place, g.contact url = some place → place.OnGithub ∧ place.scheme = "https"

/-- The URL that is handed over is right, and whatever the configuration makes of others leads to GitHub
over HTTPS. -/
structure Guarded (g : Git low) (repoUrl : String) (command : GitCommand) : Prop where
  url : ∀ url, command.url? = some url → Handed fw g repoUrl url
  config : ∀ entry ∈ command.config, ∀ rest place, g.contact (entry.url ++ rest) = some place →
    place.OnGithub ∧ place.scheme = "https"

end OpenHost.Upstream
