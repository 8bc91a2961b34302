import OpenHost.Library.Proc
import OpenHost.Swap.Fstab

/-!
# The swap file

The system agent's `swap.py` makes the swap file, resizes it and writes its entry into fstab, one
command after the other.  A host is well set up when fstab names the swap file exactly if a formatted
one is there; a call that stops on its way may leave the one without the other.
-/

namespace OpenHost.Swap

open Text (stripBlank)

/-! ## The host -/

/-- The file at `SWAP_PATH`. -/
structure SwapFile where
  size : Nat
  /-- It has been written to its end. -/
  complete : Bool
  /-- It has the header that `mkswap` writes. -/
  formatted : Bool
  deriving DecidableEq, Repr

/-- The parts of a host that the calls change. -/
structure Host where
  file : Option SwapFile
  fstab : Option String
  deriving DecidableEq, Repr

namespace Host

/-- A swap file is there that can be used. -/
def hasSwap (s : Host) : Bool := s.file.any fun f => f.complete && f.formatted

/-- fstab names the swap file exactly if there is one that can be used. -/
def Consistent (s : Host) : Prop := names s.fstab = s.hasSwap

end Host

/-- The exceptions that the calls end with. -/
inductive SwapError where
  | runtimeError (message : String)
  | valueError (message : String)
  | osError (message : String)
  deriving DecidableEq, Repr

/-- `except RuntimeError` -/
def SwapError.isRuntimeError : SwapError → Bool
  | .runtimeError _ => true
  | _ => false

/-! ## What the commands answer -/

/-- How a command ends. -/
inductive CmdReply where
  | exited (code : Int) (stderr : String)
  /-- It could not be started. -/
  | notRun (message : String)
  deriving DecidableEq, Repr

namespace CmdReply

def ok : CmdReply → Bool
  | .exited code _ => code = 0
  | .notRun _ => false

def ran : CmdReply → Bool
  | .exited _ _ => true
  | .notRun _ => false

end CmdReply

/-- The answers to the commands of one attempt to make a swap file. -/
structure Attempt where
  /-- `fallocate` or `dd` -/
  alloc : CmdReply
  /-- The size of the file that it leaves when it fails. -/
  left : Option Nat
  /-- The text of its `OSError`. -/
  chmod : Option String
  mkswap : CmdReply
  /-- A `mkswap` that failed had written the header. -/
  marked : Bool
  swapon : CmdReply
  deriving DecidableEq, Repr

/-- The answers to all that one call asks of the system. -/
structure Replies where
  root : Bool
  inContainer : Bool
  swapoff : CmdReply
  unlink : Option String
  first : Attempt
  swapoffAgain : CmdReply
  unlinkAgain : Option String
  second : Attempt
  /-- The `swapon` of a file that is there. -/
  swaponPresent : CmdReply
  fstabRead : Option SwapError
  /-- What fstab holds after it could not be written. -/
  fstabWrite : Option (String × Option String)
  stat : Option String
  /-- The text of `/proc/swaps`, if there is one. -/
  procSwaps : Except SwapError (Option String)

/-! ## The calls -/

/-- `MIN_SWAP_SIZE_GIB` -/
def minSwapSizeGib : Int := 0

/-- `MAX_SWAP_SIZE_GIB` -/
def maxSwapSizeGib : Int := 256

/-- `DEFAULT_SWAP_SIZE_GIB` -/
def defaultSwapSizeGib : Int := 16

/-- `_require_root` -/
def requireRoot (w : Replies) : Proc SwapError Host Unit :=
  if w.root then pure () else Proc.raise (.runtimeError "swap operations must be run as root")

/-- A call of the system, which may fail with an `OSError`. -/
def sysCall (failure : Option String) (effect : Host → Host) : Proc SwapError Host Unit :=
  match failure with
  | some message => Proc.raise (.osError message)
  | none => Proc.modify effect

/-- The `RuntimeError` for a command that failed. -/
def commandError (cmd : List String) (code : Int) (stderr : String) : SwapError :=
  .runtimeError (String.intercalate " " cmd ++ " failed (exit " ++ toString code ++ "): " ++
    stripBlank stderr)

/-- `_run`, with what the command does when it succeeds and when it fails. -/
def run (cmd : List String) (check : Bool) (reply : CmdReply) (done failed : Host → Host) :
    Proc SwapError Host Unit :=
  match reply with
  | .notRun message => Proc.raise (.osError message)
  | .exited code stderr => do
      Proc.modify (if code = 0 then done else failed)
      if check && code ≠ 0 then Proc.raise (commandError cmd code stderr)

/-- `Path(SWAP_PATH).unlink(missing_ok=True)` -/
def unlinkFile (failure : Option String) : Proc SwapError Host Unit :=
  sysCall failure fun s => { s with file := none }

/-- The file has been allocated. -/
def allocated (bytes : Nat) (s : Host) : Host := { s with file := some ⟨bytes, true, false⟩ }

/-- The file has been allocated in part, or not at all. -/
def leftOver (left : Option Nat) (s : Host) : Host :=
  { s with file := left.map fun bytes => ⟨bytes, false, false⟩ }

/-- The header has been written. -/
def marked (s : Host) : Host := { s with file := s.file.map fun f => { f with formatted := true } }

/-- The commands that make a swap file and put it to use. -/
def makeSwap (alloc : List String) (bytes : Nat) (a : Attempt) : Proc SwapError Host Unit := do
  run alloc true a.alloc (allocated bytes) (leftOver a.left)
  sysCall a.chmod id
  run ["mkswap", swapPath] true a.mkswap marked (if a.marked then marked else id)
  run ["swapon", swapPath] true a.swapon id id

/-- `size_gib` in bytes. -/
def gibBytes (sizeGib : Int) : Nat := sizeGib.toNat * (1024 * 1024 * 1024)

/-- The `try` block of `_create_and_enable`: whether it has made the file. -/
def tryFallocate (sizeGib : Int) (w : Replies) : Proc SwapError Host Bool :=
  Proc.tryExcept
    (do
      makeSwap ["fallocate", "-l", toString sizeGib ++ "G", swapPath] (gibBytes sizeGib) w.first
      return true)
    SwapError.isRuntimeError fun _ => do
      run ["swapoff", swapPath] false w.swapoffAgain id id
      unlinkFile w.unlinkAgain
      return false

/-- `_create_and_enable` -/
def createAndEnable (sizeGib : Int) (w : Replies) : Proc SwapError Host Unit := do
  run ["swapoff", swapPath] false w.swapoff id id
  unlinkFile w.unlink
  let enabled ← tryFallocate sizeGib w
  if !enabled then
    makeSwap ["dd", "if=/dev/zero", "of=" ++ swapPath, "bs=1M", "count=" ++ toString (sizeGib * 1024)]
      (gibBytes sizeGib) w.second

/-- `_set_fstab_entry`, on the host. -/
def editFstab (present : Bool) (w : Replies) : Proc SwapError Host Unit :=
  match w.fstabRead, w.fstabWrite with
  | some e, _ => Proc.raise e
  | none, none => Proc.modify fun s => { s with fstab := some (setFstabEntry present s.fstab) }
  | none, some (message, left) => do
      Proc.modify fun s => { s with fstab := left }
      Proc.raise (.osError message)

/-- `int()` of the digits that the kernel prints. -/
def pyInt (digits : List Char) : Except SwapError Nat :=
  if digits.all Char.isDigit then .ok (Nat.ofDigitChars 10 digits 0)
  else .error (.valueError ("invalid literal for int() with base 10: '" ++ String.ofList digits ++
    "'"))

/-- `_active_swap_bytes`, of the text of `/proc/swaps`. -/
def activeSwapBytes : Option String → Except SwapError Nat
  | none => .ok 0
  | some text =>
      let rows := (Lines.splitlines text.toList).tail.map words
      match rows.find? fun parts => 3 ≤ parts.length && parts.head? = some swapPath.toList with
      | none => .ok 0
      | some parts => (pyInt (parts.getD 2 [])).map (· * 1024)

/-- `SwapStatus` -/
structure SwapStatus where
  sizeBytes : Nat
  path : String
  active : Bool
  deriving DecidableEq, Repr

/-- `get_swap_status` -/
def getSwapStatus (w : Replies) : Proc SwapError Host SwapStatus := do
  sysCall w.stat id
  let size ← Proc.reads fun s => (s.file.map SwapFile.size).getD 0
  let text ← Proc.ofExcept w.procSwaps
  let active ← Proc.ofExcept (activeSwapBytes text)
  return ⟨size, swapPath, 0 < active⟩

/-- What `resize_swapfile` does with a size that is allowed. -/
def changeSize (sizeGib : Int) (w : Replies) : Proc SwapError Host Unit :=
  if sizeGib = 0 then do
    run ["swapoff", swapPath] false w.swapoff id id
    unlinkFile w.unlink
    editFstab false w
  else do
    createAndEnable sizeGib w
    editFstab true w

/-- `resize_swapfile` -/
def resizeSwapfile (sizeGib : Int) (w : Replies) : Proc SwapError Host SwapStatus := do
  requireRoot w
  if minSwapSizeGib ≤ sizeGib ∧ sizeGib ≤ maxSwapSizeGib then
    changeSize sizeGib w
    getSwapStatus w
  else
    Proc.raise (.valueError ("swap size must be between " ++ toString minSwapSizeGib ++ " and " ++
      toString maxSwapSizeGib ++ " GiB, got " ++ toString sizeGib))

/-- `ensure_swapfile` -/
def ensureSwapfile (sizeGib : Int) (createOnly : Bool) (w : Replies) :
    Proc SwapError Host SwapStatus := do
  requireRoot w
  if w.inContainer then getSwapStatus w
  else
    let present ← Proc.reads fun s => s.file.isSome
    if createOnly && present then
      run ["swapon", swapPath] false w.swaponPresent id id
      editFstab true w
      getSwapStatus w
    else resizeSwapfile sizeGib w

/-! ## Which commands may fail -/

namespace Attempt

variable (a : Attempt)

/-- All commands of the attempt succeed. -/
def through : Bool := a.alloc.ok && a.chmod.isNone && a.mkswap.ok && a.swapon.ok

/-- The attempt comes as far as the header of the file. -/
def formats : Bool :=
  a.alloc.ok && a.chmod.isNone && (a.mkswap.ok || (a.mkswap.ran && a.marked))

/-- The first command that does not succeed is one that was started. -/
def exits : Bool :=
  if !a.alloc.ok then a.alloc.ran
  else if a.chmod.isSome then false
  else if !a.mkswap.ok then a.mkswap.ran
  else a.swapon.ran

end Attempt

namespace Replies

variable (w : Replies)

/-- Whether fstab names the swap file after the edit; `before` says whether it did before. -/
def editNames (present before : Bool) : Bool :=
  match w.fstabRead, w.fstabWrite with
  | some _, _ => before
  | none, none => present
  | none, some (_, left) => names left

/-- The attempt that the call comes to last. -/
def lastAttempt : Attempt :=
  if !w.first.through && w.first.exits && w.swapoffAgain.ran && w.unlinkAgain.isNone then w.second
  else w.first

/-- The call ends before the old file is removed, or goes through, or ends where a host that had a
swap file has one again and a host that had none has none. -/
def ResizeKeeps (sizeGib : Int) (had : Bool) : Prop :=
  w.root = false ∨ ¬ (minSwapSizeGib ≤ sizeGib ∧ sizeGib ≤ maxSwapSizeGib) ∨
    w.swapoff.ran = false ∨ w.unlink.isSome = true ∨
    if sizeGib = 0 then w.editNames false had = false
    else if w.lastAttempt.through then w.editNames true had = true
    else w.lastAttempt.formats = had

/-- A file that is there already can be used, or the entry is not written. -/
def EnsureKeeps (sizeGib : Int) (createOnly : Bool) (s : Host) : Prop :=
  w.root = false ∨ w.inContainer = true ∨
    if createOnly = true ∧ s.file.isSome = true then
      w.swaponPresent.ran = false ∨ w.editNames true s.hasSwap = s.hasSwap
    else w.ResizeKeeps sizeGib s.hasSwap

end Replies

/-- A call of the agent, by the command line or by a migration. -/
inductive Call where
  | resize (sizeGib : Int)
  | ensure (sizeGib : Int) (createOnly : Bool)
  deriving DecidableEq, Repr

namespace Call

def body : Call → Replies → Proc SwapError Host SwapStatus
  | .resize sizeGib => resizeSwapfile sizeGib
  | .ensure sizeGib createOnly => ensureSwapfile sizeGib createOnly

def Keeps : Call → Replies → Host → Prop
  | .resize sizeGib, w, s => w.ResizeKeeps sizeGib s.hasSwap
  | .ensure sizeGib createOnly, w, s => w.EnsureKeeps sizeGib createOnly s

end Call

/-! ## One command -/

/-- A command that is checked succeeds, or it raises: a `RuntimeError` if it was started. -/
theorem run_checked (cmd : List String) (reply : CmdReply) (done failed : Host → Host) (s : Host) :
    (reply.ok = true ∧ run cmd true reply done failed s = (.ok (), done s)) ∨
    reply.ok = false ∧ ∃ e, e.isRuntimeError = reply.ran ∧
      run cmd true reply done failed s = (.raised e, if reply.ran then failed s else s) := by
  cases reply with
  | notRun message => exact .inr ⟨rfl, .osError message, rfl, rfl⟩
  | exited code stderr =>
    by_cases hcode : code = 0
    · subst hcode
      exact .inl ⟨rfl, rfl⟩
    · refine .inr ⟨by simpa [CmdReply.ok] using hcode, commandError cmd code stderr, rfl, ?_⟩
      simp [run, hcode, Proc.bind_apply, CmdReply.ran]

/-- One that is not checked changes nothing here, however it ends. -/
theorem run_unchecked (cmd : List String) (reply : CmdReply) (s : Host) :
    (reply.ran = true ∧ run cmd false reply id id s = (.ok (), s)) ∨
    reply.ran = false ∧ ∃ e, e.isRuntimeError = false ∧
      run cmd false reply id id s = (.raised e, s) := by
  cases reply with
  | notRun message => exact .inr ⟨rfl, .osError message, rfl, rfl⟩
  | exited code stderr =>
    refine .inl ⟨rfl, ?_⟩
    by_cases hcode : code = 0 <;> simp [run, hcode, Proc.bind_apply]

theorem sysCall_cases (failure : Option String) (effect : Host → Host) (s : Host) :
    (failure = none ∧ sysCall failure effect s = (.ok (), effect s)) ∨
    failure.isSome = true ∧ ∃ e, e.isRuntimeError = false ∧
      sysCall failure effect s = (.raised e, s) := by
  cases failure with
  | none => exact .inl ⟨rfl, rfl⟩
  | some message => exact .inr ⟨rfl, .osError message, rfl, rfl⟩

/-! ## One attempt -/

/-- What an attempt leaves: fstab as it was, and a swap file exactly if it came as far as the
header. -/
structure Leaves (a : Attempt) (s : Host) (result : Outcome SwapError Unit × Host) : Prop where
  fstab : result.2.fstab = s.fstab
  hasSwap : result.2.hasSwap = a.formats
  outcome : (a.through = true ∧ result.1 = .ok ()) ∨ a.through = false ∧ ∃ e, result.1 = .raised e

/-- The kind of an error says whether the command that failed was started. -/
structure Attempted (a : Attempt) (s : Host) (result : Outcome SwapError Unit × Host) : Prop extends
    Leaves a s result where
  kind : ∀ e, result.1 = .raised e → e.isRuntimeError = a.exits

theorem attempted_ok {a : Attempt} {s s' : Host} (hfstab : s'.fstab = s.fstab)
    (hswap : s'.hasSwap = a.formats) (hthrough : a.through = true) : Attempted a s (.ok (), s') :=
  ⟨⟨hfstab, hswap, .inl ⟨hthrough, rfl⟩⟩, fun _ h => nomatch h⟩

theorem attempted_raised {a : Attempt} {s s' : Host} {e : SwapError} (hfstab : s'.fstab = s.fstab)
    (hswap : s'.hasSwap = a.formats) (hthrough : a.through = false)
    (hkind : e.isRuntimeError = a.exits) : Attempted a s (.raised e, s') :=
  ⟨⟨hfstab, hswap, .inr ⟨hthrough, e, rfl⟩⟩, fun _ h => by cases h; exact hkind⟩

theorem hasSwap_leftOver (left : Option Nat) (s : Host) : (leftOver left s).hasSwap = false := by
  cases left <;> rfl

theorem attempted_makeSwap (alloc : List String) (bytes : Nat) (a : Attempt) {s : Host}
    (hnone : s.file = none) : Attempted a s (makeSwap alloc bytes a s) := by
  have hswap : s.hasSwap = false := by simp [Host.hasSwap, hnone]
  unfold makeSwap
  rcases run_checked alloc a.alloc (allocated bytes) (leftOver a.left) s with
    ⟨halloc, hrun⟩ | ⟨halloc, e, hkind, hrun⟩
  case inr =>
    rw [Proc.bind_of_raised hrun]
    apply attempted_raised
    · split <;> rfl
    · split <;> simp [Attempt.formats, halloc, hswap, hasSwap_leftOver]
    · simp [Attempt.through, halloc]
    · simp [hkind, Attempt.exits, halloc]
  rw [Proc.bind_of_ok hrun]
  rcases sysCall_cases a.chmod id (allocated bytes s) with ⟨hchmod, hrun⟩ | ⟨hchmod, e, hkind, hrun⟩
  case inr =>
    have hsome : a.chmod ≠ none := Option.isSome_iff_ne_none.mp hchmod
    rw [Proc.bind_of_raised hrun]
    apply attempted_raised
    · rfl
    · simp [Attempt.formats, hsome, Host.hasSwap, allocated]
    · simp [Attempt.through, hsome]
    · simp [hkind, Attempt.exits, halloc, hchmod]
  rw [Proc.bind_of_ok hrun]
  rcases run_checked ["mkswap", swapPath] a.mkswap marked (if a.marked then marked else id)
      (allocated bytes s) with ⟨hmkswap, hrun⟩ | ⟨hmkswap, e, hkind, hrun⟩
  case inr =>
    rw [id_eq, Proc.bind_of_raised hrun]
    apply attempted_raised
    · by_cases hran : a.mkswap.ran = true <;> by_cases hmark : a.marked = true <;>
        simp [hran, hmark, marked, allocated]
    · by_cases hran : a.mkswap.ran = true <;> by_cases hmark : a.marked = true <;>
        simp [Attempt.formats, halloc, hchmod, hmkswap, hran, hmark, Host.hasSwap, marked, allocated]
    · simp [Attempt.through, hmkswap]
    · simp [hkind, Attempt.exits, halloc, hchmod, hmkswap]
  rw [id_eq, Proc.bind_of_ok hrun]
  -- from here on the file has its header
  have hformats : a.formats = true := by simp [Attempt.formats, halloc, hchmod, hmkswap]
  rcases run_checked ["swapon", swapPath] a.swapon id id (marked (allocated bytes s)) with
    ⟨hswapon, hrun⟩ | ⟨hswapon, e, hkind, hrun⟩
  · rw [hrun]
    apply attempted_ok
    · rfl
    · exact hformats.symm
    · simp [Attempt.through, halloc, hchmod, hmkswap, hswapon]
  · rw [hrun, id_eq, ite_self]
    apply attempted_raised
    · rfl
    · exact hformats.symm
    · simp [Attempt.through, hswapon]
    · simp [hkind, Attempt.exits, halloc, hchmod, hmkswap]

/-! ## Both attempts -/

variable {w : Replies}

theorem lastAttempt_eq_first (h : w.first.through = true ∨ w.first.exits = false ∨
    w.swapoffAgain.ran = false ∨ w.unlinkAgain.isSome = true) : w.lastAttempt = w.first := by
  rw [Option.isSome_iff_ne_none] at h
  unfold Replies.lastAttempt
  rcases h with h | h | h | h <;> simp [h]

theorem lastAttempt_eq_second (hthrough : w.first.through = false) (hexits : w.first.exits = true)
    (hran : w.swapoffAgain.ran = true) (hunlink : w.unlinkAgain = none) :
    w.lastAttempt = w.second := by
  simp [Replies.lastAttempt, hthrough, hexits, hran, hunlink]

/-- The `try` block makes the file, or it raises with what the attempt left, or it has cleared the
way for the second attempt. -/
theorem tryFallocate_cases (sizeGib : Int) (w : Replies) {s : Host} (hnone : s.file = none) :
    (∃ r s', tryFallocate sizeGib w s = (r, s') ∧ s'.fstab = s.fstab ∧
      s'.hasSwap = w.first.formats ∧ w.lastAttempt = w.first ∧
      (w.first.through = true ∧ r = .ok true ∨ w.first.through = false ∧ ∃ e, r = .raised e)) ∨
    ∃ s', tryFallocate sizeGib w s = (.ok false, s') ∧ s'.fstab = s.fstab ∧ s'.file = none ∧
      w.lastAttempt = w.second := by
  obtain ⟨hleaves, hkind⟩ := attempted_makeSwap
    ["fallocate", "-l", toString sizeGib ++ "G", swapPath] (gibBytes sizeGib) w.first hnone
  unfold tryFallocate Proc.tryExcept
  generalize makeSwap ["fallocate", "-l", toString sizeGib ++ "G", swapPath] (gibBytes sizeGib)
    w.first = attempt at hleaves hkind ⊢
  cases hresult : attempt s with
  | mk outcome s₁ =>
    rw [hresult] at hleaves hkind
    rcases hleaves.outcome with ⟨hthrough, rfl⟩ | ⟨hthrough, e, rfl⟩
    · rw [Proc.bind_of_ok hresult]
      exact .inl ⟨_, _, rfl, hleaves.fstab, hleaves.hasSwap, lastAttempt_eq_first (.inl hthrough),
        .inl ⟨hthrough, rfl⟩⟩
    · rw [Proc.bind_of_raised hresult]
      dsimp only
      cases hexits : w.first.exits with
      | false =>
        rw [hkind e rfl, hexits]
        exact .inl ⟨_, _, rfl, hleaves.fstab, hleaves.hasSwap, lastAttempt_eq_first (.inr (.inl hexits)),
          .inr ⟨hthrough, e, rfl⟩⟩
      | true =>
        rw [hkind e rfl, hexits, if_pos rfl]
        -- the handler clears the way, if it can
        rcases run_unchecked ["swapoff", swapPath] w.swapoffAgain s₁ with
          ⟨hran, hrun⟩ | ⟨hran, e', -, hrun⟩
        case inr =>
          rw [Proc.bind_of_raised hrun]
          exact .inl ⟨_, _, rfl, hleaves.fstab, hleaves.hasSwap,
            lastAttempt_eq_first (.inr (.inr (.inl hran))), .inr ⟨hthrough, e', rfl⟩⟩
        rw [Proc.bind_of_ok hrun]
        rcases sysCall_cases w.unlinkAgain (fun s => { s with file := none }) s₁ with
          ⟨hunlink, hrun⟩ | ⟨hunlink, e', -, hrun⟩
        · have hremoved : unlinkFile w.unlinkAgain s₁ = (.ok (), { s₁ with file := none }) := hrun
          rw [Proc.bind_of_ok hremoved]
          exact .inr ⟨_, rfl, hleaves.fstab, rfl,
            lastAttempt_eq_second hthrough hexits hran hunlink⟩
        · have hkept : unlinkFile w.unlinkAgain s₁ = (.raised e', s₁) := hrun
          rw [Proc.bind_of_raised hkept]
          exact .inl ⟨_, _, rfl, hleaves.fstab, hleaves.hasSwap,
            lastAttempt_eq_first (.inr (.inr (.inr hunlink))), .inr ⟨hthrough, e', rfl⟩⟩

/-- Nothing has happened yet when the old file cannot be removed. -/
theorem remove_stops {α : Type} (k : Unit → Proc SwapError Host α) (s : Host)
    (h : w.swapoff.ran = false ∨ w.unlink.isSome = true) :
    ∃ e, (run ["swapoff", swapPath] false w.swapoff id id >>= fun _ => unlinkFile w.unlink >>= k) s =
      (.raised e, s) := by
  rcases run_unchecked ["swapoff", swapPath] w.swapoff s with ⟨hran, hrun⟩ | ⟨-, e, -, hrun⟩
  case inr => exact ⟨e, Proc.bind_of_raised hrun⟩
  rw [Proc.bind_of_ok hrun]
  rcases sysCall_cases w.unlink (fun s => { s with file := none }) s with
    ⟨hunlink, -⟩ | ⟨-, e, -, hrun⟩
  · simp [hran, hunlink] at h
  · exact ⟨e, Proc.bind_of_raised hrun⟩

/-- The old file is removed. -/
theorem remove_eq (s : Host) (hran : w.swapoff.ran = true) (hunlink : w.unlink = none) :
    run ["swapoff", swapPath] false w.swapoff id id s = (.ok (), s) ∧
      unlinkFile w.unlink s = (.ok (), { s with file := none }) := by
  constructor
  · rcases run_unchecked ["swapoff", swapPath] w.swapoff s with ⟨-, hrun⟩ | ⟨h, -⟩
    · exact hrun
    · rw [hran] at h
      cases h
  · rw [hunlink]
    rfl

/-- After that the last attempt decides. -/
theorem leaves_createAndEnable (sizeGib : Int) (s : Host) (hran : w.swapoff.ran = true)
    (hunlink : w.unlink = none) : Leaves w.lastAttempt s (createAndEnable sizeGib w s) := by
  obtain ⟨hswapoff, hremoved⟩ := remove_eq s hran hunlink
  unfold createAndEnable
  rw [Proc.bind_of_ok hswapoff, Proc.bind_of_ok hremoved]
  rcases tryFallocate_cases sizeGib w (s := { s with file := none }) rfl with
    ⟨r, s', htry, hfstab, hswap, hlast, ⟨hthrough, rfl⟩ | ⟨hthrough, e, rfl⟩⟩ |
    ⟨s', htry, hfstab, hnone, hlast⟩
  · rw [Proc.bind_of_ok htry, hlast]
    exact ⟨hfstab, hswap, .inl ⟨hthrough, rfl⟩⟩
  · rw [Proc.bind_of_raised htry, hlast]
    exact ⟨hfstab, hswap, .inr ⟨hthrough, e, rfl⟩⟩
  · rw [Proc.bind_of_ok htry, hlast]
    have hsecond := (attempted_makeSwap
      ["dd", "if=/dev/zero", "of=" ++ swapPath, "bs=1M", "count=" ++ toString (sizeGib * 1024)]
      (gibBytes sizeGib) w.second hnone).toLeaves
    exact ⟨hsecond.fstab.trans hfstab, hsecond.hasSwap, hsecond.outcome⟩

/-! ## The whole call -/

/-- After the edit fstab names the swap file as the answers say, and the file is as it was. -/
theorem editFstab_eq (present : Bool) (w : Replies) (s : Host) :
    ∃ r fstab, editFstab present w s = (r, { s with fstab := fstab }) ∧
      names fstab = w.editNames present (names s.fstab) := by
  unfold editFstab Replies.editNames
  cases w.fstabRead with
  | some e => exact ⟨_, _, rfl, rfl⟩
  | none =>
    cases w.fstabWrite with
    | none => exact ⟨_, _, rfl, names_setFstabEntry present s.fstab⟩
    | some failure => exact ⟨_, failure.2, rfl, rfl⟩

/-- The status is read only. -/
theorem within_getSwapStatus (w : Replies) : Proc.Within (Proc.Same id) (getSwapStatus w) := by
  unfold getSwapStatus
  refine Proc.within_bind (fun s => ?_) fun _ => Proc.within_bind (Proc.within_reads _) fun size =>
    Proc.within_bind (Proc.within_ofExcept _) fun text =>
      Proc.within_bind (Proc.within_ofExcept _) fun active => Proc.within_pure _
  rcases sysCall_cases w.stat id s with ⟨-, hrun⟩ | ⟨-, e, -, hrun⟩ <;> rw [hrun] <;> rfl

theorem getSwapStatus_after {x : Proc SwapError Host Unit} (s : Host) :
    ((x >>= fun _ => getSwapStatus w) s).2 = (x s).2 :=
  Proc.bind_same (fun _ => within_getSwapStatus w) s

/-- A host stays well set up through an edit that agrees with the file. -/
theorem consistent_editFstab_iff {present : Bool} {s : Host} :
    ((editFstab present w s).2).Consistent ↔ w.editNames present (names s.fstab) = s.hasSwap := by
  obtain ⟨r, fstab, hedit, hnames⟩ := editFstab_eq present w s
  rw [hedit, ← hnames]
  rfl

/-- Taking the swap file away. -/
theorem consistent_remove_iff {s : Host} (hs : s.Consistent) (hran : w.swapoff.ran = true)
    (hunlink : w.unlink = none) :
    ((changeSize 0 w s).2).Consistent ↔ w.editNames false s.hasSwap = false := by
  obtain ⟨hswapoff, hremoved⟩ := remove_eq s hran hunlink
  unfold changeSize
  rw [if_pos rfl, Proc.bind_of_ok hswapoff, Proc.bind_of_ok hremoved, consistent_editFstab_iff]
  rw [show names s.fstab = s.hasSwap from hs]
  rfl

/-- Making a new one. -/
theorem consistent_create_iff {sizeGib : Int} {s : Host} (hs : s.Consistent) (hne : sizeGib ≠ 0)
    (hran : w.swapoff.ran = true) (hunlink : w.unlink = none) :
    ((changeSize sizeGib w s).2).Consistent ↔
      if w.lastAttempt.through then w.editNames true s.hasSwap = true
      else w.lastAttempt.formats = s.hasSwap := by
  obtain ⟨hfstab, hswap, houtcome⟩ := leaves_createAndEnable sizeGib s hran hunlink
  have hnames : names s.fstab = s.hasSwap := hs
  unfold changeSize
  rw [if_neg hne]
  cases hresult : createAndEnable sizeGib w s with
  | mk outcome s' =>
    rw [hresult] at hfstab hswap houtcome
    dsimp only at hfstab hswap houtcome
    rcases houtcome with ⟨hthrough, rfl⟩ | ⟨hthrough, e, rfl⟩
    · -- the file has its header, and the entry is all that is missing
      have hformats : w.lastAttempt.formats = true := by
        simp only [Attempt.through, Bool.and_eq_true] at hthrough
        simp [Attempt.formats, hthrough]
      rw [Proc.bind_of_ok hresult, consistent_editFstab_iff, hfstab, hswap, hnames, hformats,
        if_pos hthrough]
    · rw [Proc.bind_of_raised hresult, if_neg (by simp [hthrough]), Host.Consistent, hfstab, hswap,
        hnames]
      exact eq_comm

theorem consistent_changeSize_iff {sizeGib : Int} {s : Host} (hs : s.Consistent) :
    ((changeSize sizeGib w s).2).Consistent ↔ w.swapoff.ran = false ∨ w.unlink.isSome = true ∨
      if sizeGib = 0 then w.editNames false s.hasSwap = false
      else if w.lastAttempt.through then w.editNames true s.hasSwap = true
      else w.lastAttempt.formats = s.hasSwap := by
  by_cases hstops : w.swapoff.ran = false ∨ w.unlink.isSome = true
  · -- nothing is changed
    obtain ⟨e, hresult⟩ : ∃ e, changeSize sizeGib w s = (.raised e, s) := by
      unfold changeSize
      by_cases hzero : sizeGib = 0
      · rw [if_pos hzero]
        exact remove_stops _ s hstops
      · rw [if_neg hzero]
        obtain ⟨e, hcreate⟩ := remove_stops _ s hstops
        exact ⟨e, Proc.bind_of_raised hcreate⟩
    rw [hresult]
    exact iff_of_true hs (or_assoc.mp (.inl hstops))
  · obtain ⟨hran, hunlink⟩ := not_or.mp hstops
    have hran : w.swapoff.ran = true := by simpa using hran
    have hunlink : w.unlink = none := by simpa using hunlink
    by_cases hzero : sizeGib = 0
    · subst hzero
      rw [consistent_remove_iff hs hran hunlink]
      simp [hran, hunlink]
    · rw [consistent_create_iff hs hzero hran hunlink]
      simp [hran, hunlink, hzero]

theorem requireRoot_cases (w : Replies) (s : Host) :
    (w.root = true ∧ requireRoot w s = (.ok (), s)) ∨
    w.root = false ∧ ∃ e, requireRoot w s = (.raised e, s) := by
  unfold requireRoot
  cases w.root with
  | true => exact .inl ⟨rfl, rfl⟩
  | false => exact .inr ⟨rfl, _, rfl⟩

theorem consistent_resize_iff {sizeGib : Int} {s : Host} (hs : s.Consistent) :
    ((resizeSwapfile sizeGib w s).2).Consistent ↔ w.ResizeKeeps sizeGib s.hasSwap := by
  unfold resizeSwapfile Replies.ResizeKeeps
  rcases requireRoot_cases w s with ⟨hroot, hrun⟩ | ⟨hroot, e, hrun⟩
  case inr =>
    rw [Proc.bind_of_raised hrun]
    exact iff_of_true hs (.inl hroot)
  rw [Proc.bind_of_ok hrun]
  by_cases hrange : minSwapSizeGib ≤ sizeGib ∧ sizeGib ≤ maxSwapSizeGib
  · rw [if_pos hrange, getSwapStatus_after, consistent_changeSize_iff hs]
    simp [hroot, hrange]
  · rw [if_neg hrange]
    exact iff_of_true hs (.inr (.inl hrange))

theorem consistent_ensure_iff {sizeGib : Int} {createOnly : Bool} {s : Host} (hs : s.Consistent) :
    ((ensureSwapfile sizeGib createOnly w s).2).Consistent ↔ w.EnsureKeeps sizeGib createOnly s := by
  unfold ensureSwapfile Replies.EnsureKeeps
  rcases requireRoot_cases w s with ⟨hroot, hrun⟩ | ⟨hroot, e, hrun⟩
  case inr =>
    rw [Proc.bind_of_raised hrun]
    exact iff_of_true hs (.inl hroot)
  rw [Proc.bind_of_ok hrun]
  by_cases hcontainer : w.inContainer = true
  · rw [if_pos hcontainer, show (getSwapStatus w s).2 = s from within_getSwapStatus w s]
    exact iff_of_true hs (.inr (.inl hcontainer))
  rw [if_neg hcontainer, Proc.bind_of_ok (Proc.reads_apply _ s)]
  by_cases hpresent : createOnly = true ∧ s.file.isSome = true
  · -- a file that is there gets its entry, whatever it holds
    rw [if_pos (by simpa using hpresent), if_pos hpresent]
    rcases run_unchecked ["swapon", swapPath] w.swaponPresent s with ⟨hran, hrun⟩ | ⟨hran, e, -, hrun⟩
    · rw [Proc.bind_of_ok hrun, getSwapStatus_after, consistent_editFstab_iff,
        show names s.fstab = s.hasSwap from hs]
      simp [hroot, hcontainer, hran]
    · rw [Proc.bind_of_raised hrun]
      exact iff_of_true hs (.inr (.inr (.inl hran)))
  · rw [if_neg (by simpa using hpresent), if_neg hpresent, consistent_resize_iff hs]
    simp [hroot, hcontainer]

/-- A host that is well set up stays so exactly if the commands answer as they are to. -/
theorem consistent_iff (call : Call) (w : Replies) (s : Host) (hs : s.Consistent) :
    ((call.body w s).2).Consistent ↔ call.Keeps w s := by
  cases call with
  | resize sizeGib => exact consistent_resize_iff hs
  | ensure sizeGib createOnly => exact consistent_ensure_iff hs

/-- A command that succeeds. -/
def success : CmdReply := .exited 0 ""

/-- A system on which everything succeeds. -/
def smooth : Replies where
  root := true
  inContainer := false
  swapoff := success
  unlink := none
  first := ⟨success, none, none, success, false, success⟩
  swapoffAgain := success
  unlinkAgain := none
  second := ⟨success, none, none, success, false, success⟩
  swaponPresent := success
  fstabRead := none
  fstabWrite := none
  stat := none
  procSwaps := .ok none

/-- A host without a swap file. -/
def freshHost : Host := ⟨none, some "UUID=abc / ext4 defaults 0 1\n"⟩

theorem fresh_host_consistent : (((Call.resize 8).body smooth freshHost).2).Consistent :=
  (consistent_iff (.resize 8) smooth freshHost (by unfold Host.Consistent; decide +kernel)).mpr
    (.inr (.inr (.inr (.inr rfl))))

/-- A system on which a large file does not fit. -/
def fullDisk : Replies :=
  { smooth with
    first := { smooth.first with alloc := .exited 1 "fallocate failed: No space left on device" }
    second := { smooth.second with
      alloc := .exited 1 "dd: error writing '/swapfile': No space left on device"
      left := some 64424509440 } }

/-- A host with a swap file of 16 GiB. -/
def usualHost : Host := ⟨some ⟨17179869184, true, true⟩, some (fstabLine ++ "\n")⟩

/-- The old file is gone and the new one is not there, but fstab names it still. -/
theorem full_disk_not_consistent : ¬ ∀ (call : Call) (w : Replies) (s : Host), s.Consistent →
    ((call.body w s).2).Consistent := by
  intro h
  have hstart : usualHost.Consistent := by unfold Host.Consistent; decide +kernel
  have hend := h (.resize 200) fullDisk usualHost hstart
  revert hend
  unfold Host.Consistent
  decide +kernel

end OpenHost.Swap
