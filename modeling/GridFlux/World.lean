/-
GridFlux/World.lean

The operating system as the transfer code sees it: regular files by path, the
clock, and the outcome of each system call.

A run of the code is a deterministic function of a `World`: the list
`outcomes` says in advance how the next system calls end, one entry a call, and
an exhausted list means success.  Quantifying over worlds is quantifying over
every combination of failing calls.  A failing write may have moved a prefix
of its data.  The retry loops around `read`, `write`, `pread` and `pwrite`
repeat until everything is moved or the call fails, so each loop is one step.

`storage/posix_file.cpp` and the save path of `checkpoint/manifest_store.cpp`
are modelled here; every operation has a frame lemma saying which paths it
leaves alone.
-/
import Mathlib.Logic.Function.Basic
import Mathlib.Data.List.Basic
import Mathlib.Data.Set.Insert
import Mathlib.Algebra.Order.Group.Nat
import GridFlux.Common
import GridFlux.Text

namespace GridFlux

abbrev Path := Bytes

/-- How one system call ends.  A failure is any error other than a missing
file, which the file map decides; `moved` bytes of a write precede it. -/
inductive Outcome
  | success
  | failure (errorNumber : Int) (moved : Nat)
deriving DecidableEq, Repr

/-- Files, directories, the outcomes of the calls to come, the readings of the
clock to come, and what is fixed for the process. -/
structure World where
  files : Path → Option Bytes
  isDirectory : Path → Bool
  outcomes : List Outcome
  clock : List UInt64
  pid : Nat
  crc32cHardwareAvailable : Bool

/-- An operation's result and the world it leaves. -/
abbrev Effect (α : Type) := Except Status α × World

namespace World

def setFile (w : World) (path : Path) (content : Option Bytes) : World :=
  { w with files := Function.update w.files path content }

@[simp] theorem setFile_files_self (w : World) (path : Path) (content : Option Bytes) :
    (w.setFile path content).files path = content := by
  simp [setFile]

theorem setFile_files_of_ne (w : World) {path other : Path} (content : Option Bytes)
    (h : other ≠ path) : (w.setFile path content).files other = w.files other := by
  simp [setFile, h]

@[simp] theorem setFile_hardware (w : World) (path : Path) (content : Option Bytes) :
    (w.setFile path content).crc32cHardwareAvailable = w.crc32cHardwareAvailable := rfl

@[simp] theorem setFile_isDirectory (w : World) (path : Path) (content : Option Bytes) :
    (w.setFile path content).isDirectory = w.isDirectory := rfl

/-- The outcome of the next call. -/
def nextOutcome (w : World) : Outcome := w.outcomes.headD .success

/-- The world once that call has been made. -/
def afterCall (w : World) : World := { w with outcomes := w.outcomes.tail }

@[simp] theorem afterCall_files (w : World) : w.afterCall.files = w.files := rfl
@[simp] theorem afterCall_hardware (w : World) :
    w.afterCall.crc32cHardwareAvailable = w.crc32cHardwareAvailable := rfl
@[simp] theorem afterCall_isDirectory (w : World) :
    w.afterCall.isDirectory = w.isDirectory := rfl
@[simp] theorem afterCall_pid (w : World) : w.afterCall.pid = w.pid := rfl

@[simp] theorem setFile_nextOutcome (w : World) (path : Path) (content : Option Bytes) :
    (w.setFile path content).nextOutcome = w.nextOutcome := rfl

@[simp] theorem setFile_afterCall (w : World) (path : Path) (content : Option Bytes) :
    (w.setFile path content).afterCall = w.afterCall.setFile path content := rfl

/-- The world after `n` calls. -/
def afterCalls : Nat → World → World
  | 0, w => w
  | n + 1, w => w.afterCall.afterCalls n

/-- The next `n` calls do not fail. -/
def CallsSucceed (n : Nat) (w : World) : Prop :=
  ∀ outcome ∈ w.outcomes.take n, outcome = .success

instance (n : Nat) (w : World) : Decidable (w.CallsSucceed n) :=
  inferInstanceAs (Decidable (∀ outcome ∈ w.outcomes.take n, outcome = .success))

@[simp] theorem callsSucceed_zero (w : World) : w.CallsSucceed 0 := by
  simp [CallsSucceed]

theorem callsSucceed_succ {n : Nat} {w : World} :
    w.CallsSucceed (n + 1) ↔ w.nextOutcome = .success ∧ w.afterCall.CallsSucceed n := by
  rw [CallsSucceed, CallsSucceed, nextOutcome, afterCall]
  cases w.outcomes with
  | nil => simp
  | cons outcome rest => simp

theorem callsSucceed_add {m n : Nat} {w : World} :
    w.CallsSucceed (m + n) ↔ w.CallsSucceed m ∧ (w.afterCalls m).CallsSucceed n := by
  induction m generalizing w with
  | zero => simp [afterCalls]
  | succ m ih =>
      rw [Nat.succ_add, callsSucceed_succ, callsSucceed_succ, ih, and_assoc]
      rfl

@[simp] theorem callsSucceed_setFile {n : Nat} {w : World} {path : Path}
    {content : Option Bytes} : (w.setFile path content).CallsSucceed n ↔ w.CallsSucceed n :=
  Iff.rfl

@[simp] theorem afterCalls_isDirectory (n : Nat) (w : World) :
    (w.afterCalls n).isDirectory = w.isDirectory := by
  induction n generalizing w with
  | zero => rfl
  | succ n ih => exact ih w.afterCall

@[simp] theorem afterCalls_pid (n : Nat) (w : World) : (w.afterCalls n).pid = w.pid := by
  induction n generalizing w with
  | zero => rfl
  | succ n ih => exact ih w.afterCall

/-- A world in which these files exist and nothing fails. -/
def withFiles (files : Path → Option Bytes) : World where
  files := files
  isDirectory _ := false
  outcomes := []
  clock := []
  pid := 1
  crc32cHardwareAvailable := false

/-- No system call to come fails. -/
def Quiet (w : World) : Prop := ∀ outcome ∈ w.outcomes, outcome = .success

theorem Quiet.nextOutcome {w : World} (h : w.Quiet) : w.nextOutcome = .success := by
  rw [World.nextOutcome]
  cases houtcomes : w.outcomes with
  | nil => rfl
  | cons outcome rest => exact h outcome (by simp [houtcomes])

theorem Quiet.afterCall {w : World} (h : w.Quiet) : w.afterCall.Quiet :=
  fun outcome houtcome => h outcome (List.mem_of_mem_tail houtcome)

/-- `nowUnixNanos`. -/
def nowUnixNanos (w : World) : Nat × World :=
  ((w.clock.headD 0).toNat, { w with clock := w.clock.tail })

@[simp] theorem nowUnixNanos_files (w : World) : w.nowUnixNanos.2.files = w.files := rfl
@[simp] theorem nowUnixNanos_hardware (w : World) :
    w.nowUnixNanos.2.crc32cHardwareAvailable = w.crc32cHardwareAvailable := rfl
@[simp] theorem nowUnixNanos_isDirectory (w : World) :
    w.nowUnixNanos.2.isDirectory = w.isDirectory := rfl
@[simp] theorem nowUnixNanos_pid (w : World) : w.nowUnixNanos.2.pid = w.pid := rfl
@[simp] theorem nowUnixNanos_outcomes (w : World) : w.nowUnixNanos.2.outcomes = w.outcomes := rfl

theorem nowUnixNanos_lt (w : World) : w.nowUnixNanos.1 < 2 ^ 64 := (w.clock.headD 0).toNat_lt

/-! ### File contents -/

/-- The content of a file after `pwrite` of the whole of `data` at `offset`;
a hole before the offset reads as zeros. -/
def patch (content : Bytes) (offset : Nat) (data : Bytes) : Bytes :=
  (content ++ List.replicate (offset - content.length) 0).take offset ++ data ++
    content.drop (offset + data.length)

/-- `length` bytes from `offset`, or fewer at the end of the file. -/
def slice (content : Bytes) (offset length : Nat) : Bytes :=
  (content.drop offset).take length

/-- Two pieces make one. -/
theorem slice_append (content : Bytes) (offset m n : Nat) :
    slice content offset m ++ slice content (offset + m) n = slice content offset (m + n) := by
  rw [slice, slice, slice, List.take_add, List.drop_drop]

theorem length_slice {content : Bytes} {offset length : Nat}
    (h : offset + length ≤ content.length) : (slice content offset length).length = length := by
  rw [slice, List.length_take, List.length_drop]
  omega

/-- The content after `ftruncate`. -/
def resized (content : Bytes) (size : Nat) : Bytes :=
  content.take size ++ List.replicate (size - content.length) 0

def kErrNoEntry : Int := 2
def kErrExists : Int := 17
def kErrIsDirectory : Int := 21

/-- The largest `off_t`. -/
def kMaxOffset : Nat := 2 ^ 63 - 1

/-! ### Paths -/

/-- `PosixFile::pathExists`. -/
def pathExists (w : World) (path : Path) : Effect Bool :=
  match w.nextOutcome with
  | .failure e _ => (.error (.systemError (ascii "stat") e), w.afterCall)
  | .success => (.ok ((w.files path).isSome || w.isDirectory path), w.afterCall)

/-- `PosixFile::removePath`: removing a missing file succeeds. -/
def removePath (w : World) (path : Path) : Effect Unit :=
  match w.nextOutcome with
  | .failure e _ => (.error (.systemError (ascii "unlink") e), w.afterCall)
  | .success =>
      if w.isDirectory path then
        (.error (.systemError (ascii "unlink") kErrIsDirectory), w.afterCall)
      else (.ok (), w.afterCall.setFile path none)

/-- `PosixFile::renamePath`: replaces the target in one step. -/
def renamePath (w : World) (source target : Path) : Effect Unit :=
  match w.nextOutcome with
  | .failure e _ => (.error (.systemError (ascii "rename") e), w.afterCall)
  | .success =>
      match w.files source with
      | none => (.error (.systemError (ascii "rename") kErrNoEntry), w.afterCall)
      | some content =>
          if w.isDirectory target then
            (.error (.systemError (ascii "rename") kErrIsDirectory), w.afterCall)
          else if source = target then (.ok (), w.afterCall)
          else (.ok (), (w.afterCall.setFile source none).setFile target (some content))

/-! ### Opening -/

/-- `PosixFile::openReadOnly`, `openReadWrite`, `openWriteOnly`: the file must
be there. -/
def openExisting (w : World) (operation : Bytes) (path : Path) : Effect Unit :=
  match w.nextOutcome with
  | .failure e _ => (.error (.systemError operation e), w.afterCall)
  | .success =>
      if w.isDirectory path then
        (.error (.systemError operation kErrIsDirectory), w.afterCall)
      else if (w.files path).isSome then (.ok (), w.afterCall)
      else (.error (.systemError operation kErrNoEntry), w.afterCall)

/-- `PosixFile::openReadWriteExclusive`: the file must not be there. -/
def openReadWriteExclusive (w : World) (path : Path) : Effect Unit :=
  match w.nextOutcome with
  | .failure e _ =>
      (.error (.systemError (ascii "open read-write-exclusive") e), w.afterCall)
  | .success =>
      if (w.files path).isSome || w.isDirectory path then
        (.error (.systemError (ascii "open read-write-exclusive") kErrExists), w.afterCall)
      else (.ok (), w.afterCall.setFile path (some []))

def openReadOnly (w : World) (path : Path) : Effect Unit :=
  w.openExisting (ascii "open read-only") path

def openReadWrite (w : World) (path : Path) : Effect Unit :=
  w.openExisting (ascii "open read-write") path

/-! ### Reading, writing and sizes of an open file -/

/-- `PosixFile::readAtAll`. -/
def readAtAll (w : World) (path : Path) (offset length : Nat) : Effect Bytes :=
  if length = 0 then (.ok [], w)
  else if offset > kMaxOffset then
    (.error (.invalidArgument (ascii "read offset exceeds off_t range")), w)
  else
    match w.nextOutcome with
    | .failure e _ => (.error (.systemError (ascii "pread") e), w.afterCall)
    | .success =>
        match w.files path with
        | none => (.error (.runtimeError (ascii "unexpected EOF while reading file")), w.afterCall)
        | some content =>
            if offset + length ≤ content.length then
              (.ok (slice content offset length), w.afterCall)
            else
              (.error (.runtimeError (ascii "unexpected EOF while reading file")), w.afterCall)

/-- `PosixFile::writeAtAll`. -/
def writeAtAll (w : World) (path : Path) (offset : Nat) (data : Bytes) : Effect Unit :=
  if data = [] then (.ok (), w)
  else if offset > kMaxOffset then
    (.error (.invalidArgument (ascii "write offset exceeds off_t range")), w)
  else
    match w.nextOutcome with
    | .failure e moved =>
        (.error (.systemError (ascii "pwrite") e),
          w.afterCall.setFile path ((w.files path).map fun content =>
            if data.take moved = [] then content else patch content offset (data.take moved)))
    | .success =>
        (.ok (), w.afterCall.setFile path ((w.files path).map fun content =>
          patch content offset data))

/-- `PosixFile::resize`. -/
def resize (w : World) (path : Path) (size : Nat) : Effect Unit :=
  if size > kMaxOffset then
    (.error (.invalidArgument (ascii "file size exceeds off_t range")), w)
  else
    match w.nextOutcome with
    | .failure e _ => (.error (.systemError (ascii "ftruncate") e), w.afterCall)
    | .success =>
        (.ok (), w.afterCall.setFile path ((w.files path).map fun content => resized content size))

/-- `PosixFile::preallocate`: `posix_fallocate` never shortens the file. -/
def preallocate (w : World) (path : Path) (size : Nat) : Effect Unit :=
  if size = 0 then (.ok (), w)
  else if size > kMaxOffset then
    (.error (.invalidArgument (ascii "preallocate size exceeds off_t range")), w)
  else
    match w.nextOutcome with
    | .failure e _ => (.error (.systemError (ascii "posix_fallocate") e), w.afterCall)
    | .success =>
        (.ok (), w.afterCall.setFile path ((w.files path).map fun content =>
          resized content (max size content.length)))

/-- `PosixFile::sync` of an open file. -/
def sync (w : World) : Effect Unit :=
  match w.nextOutcome with
  | .failure e _ => (.error (.systemError (ascii "fsync") e), w.afterCall)
  | .success => (.ok (), w.afterCall)

/-- `PosixFile::fsyncPath`. -/
def fsyncPath (w : World) (path : Path) : Effect Unit :=
  match w.openReadOnly path with
  | (.error e, w) => (.error e, w)
  | (.ok _, w) => w.sync

/-- `PosixFile::fsyncParentDirectory`: open the directory, then `fsync` it. -/
def fsyncParentDirectory (w : World) : Effect Unit :=
  match w.nextOutcome with
  | .failure e _ => (.error (.systemError (ascii "open parent directory") e), w.afterCall)
  | .success =>
      match w.afterCall.nextOutcome with
      | .failure e _ =>
          (.error (.systemError (ascii "fsync parent directory") e), w.afterCall.afterCall)
      | .success => (.ok (), w.afterCall.afterCall)

/-! ### Frames -/

/-- Only the files in `S` may differ; what is fixed for the process stays. -/
structure Frame (S : Set Path) (w w' : World) : Prop where
  files : ∀ p, p ∉ S → w'.files p = w.files p
  isDirectory : w'.isDirectory = w.isDirectory
  pid : w'.pid = w.pid
  hardware : w'.crc32cHardwareAvailable = w.crc32cHardwareAvailable

theorem Frame.refl (w : World) : Frame ∅ w w := ⟨fun _ _ => rfl, rfl, rfl, rfl⟩

theorem Frame.mono {S T : Set Path} {w w' : World} (h : Frame S w w') (hST : S ⊆ T) :
    Frame T w w' :=
  ⟨fun p hp => h.files p fun hS => hp (hST hS), h.isDirectory, h.pid, h.hardware⟩

theorem Frame.trans {S : Set Path} {w w' w'' : World} (h : Frame S w w')
    (h' : Frame S w' w'') : Frame S w w'' :=
  ⟨fun p hp => (h'.files p hp).trans (h.files p hp), h'.isDirectory.trans h.isDirectory,
    h'.pid.trans h.pid, h'.hardware.trans h.hardware⟩

theorem Frame.afterCall (S : Set Path) (w : World) : Frame S w w.afterCall :=
  ⟨fun _ _ => rfl, rfl, rfl, rfl⟩

theorem Frame.setFile {S : Set Path} {w w' : World} (h : Frame S w w') {path : Path}
    (hp : path ∈ S) (content : Option Bytes) : Frame S w (w'.setFile path content) := by
  refine ⟨fun p hpS => ?_, h.isDirectory, h.pid, h.hardware⟩
  have hne : p ≠ path := fun heq => hpS (heq ▸ hp)
  rw [setFile_files_of_ne _ _ hne, h.files p hpS]

theorem Frame.nowUnixNanos (S : Set Path) (w : World) : Frame S w w.nowUnixNanos.2 :=
  ⟨fun _ _ => rfl, rfl, rfl, rfl⟩

theorem pathExists_frame (w : World) (path : Path) : Frame ∅ w (w.pathExists path).2 := by
  rw [pathExists]
  cases w.nextOutcome with
  | success => exact Frame.afterCall _ w
  | failure e moved => exact Frame.afterCall _ w

theorem removePath_frame (w : World) (path : Path) : Frame {path} w (w.removePath path).2 := by
  rw [removePath]
  cases w.nextOutcome with
  | failure e moved => exact Frame.afterCall _ w
  | success =>
      show Frame _ w (if w.isDirectory path = true then _ else _ : Effect Unit).2
      split
      · exact Frame.afterCall _ w
      · exact (Frame.afterCall _ w).setFile (Set.mem_singleton _) _

theorem renamePath_frame (w : World) (source target : Path) :
    Frame {source, target} w (w.renamePath source target).2 := by
  rw [renamePath]
  cases w.nextOutcome with
  | failure e moved => exact Frame.afterCall _ w
  | success =>
      cases w.files source with
      | none => exact Frame.afterCall _ w
      | some content =>
          show Frame _ w (if _ then _ else if _ then _ else _ : Effect Unit).2
          split
          · exact Frame.afterCall _ w
          · split
            · exact Frame.afterCall _ w
            · exact ((Frame.afterCall _ w).setFile (by simp) _).setFile (by simp) _

theorem openExisting_frame (w : World) (operation : Bytes) (path : Path) :
    Frame ∅ w (w.openExisting operation path).2 := by
  rw [openExisting]
  cases w.nextOutcome with
  | failure e moved => exact Frame.afterCall _ w
  | success =>
      show Frame _ w (if _ then _ else if _ then _ else _ : Effect Unit).2
      split
      · exact Frame.afterCall _ w
      · split
        · exact Frame.afterCall _ w
        · exact Frame.afterCall _ w

theorem openReadWriteExclusive_frame (w : World) (path : Path) :
    Frame {path} w (w.openReadWriteExclusive path).2 := by
  rw [openReadWriteExclusive]
  cases w.nextOutcome with
  | failure e moved => exact Frame.afterCall _ w
  | success =>
      show Frame _ w (if _ then _ else _ : Effect Unit).2
      split
      · exact Frame.afterCall _ w
      · exact (Frame.afterCall _ w).setFile (Set.mem_singleton _) _

theorem readAtAll_frame (w : World) (path : Path) (offset length : Nat) :
    Frame ∅ w (w.readAtAll path offset length).2 := by
  rw [readAtAll]
  split
  · exact Frame.refl w
  · split
    · exact Frame.refl w
    · cases w.nextOutcome with
      | failure e moved => exact Frame.afterCall _ w
      | success =>
          cases w.files path with
          | none => exact Frame.afterCall _ w
          | some content =>
              show Frame _ w (if _ then _ else _ : Effect Bytes).2
              split
              · exact Frame.afterCall _ w
              · exact Frame.afterCall _ w

theorem writeAtAll_frame (w : World) (path : Path) (offset : Nat) (data : Bytes) :
    Frame {path} w (w.writeAtAll path offset data).2 := by
  rw [writeAtAll]
  split
  · exact (Frame.refl w).mono (Set.empty_subset _)
  · split
    · exact (Frame.refl w).mono (Set.empty_subset _)
    · cases w.nextOutcome with
      | failure e moved => exact (Frame.afterCall _ w).setFile (Set.mem_singleton _) _
      | success => exact (Frame.afterCall _ w).setFile (Set.mem_singleton _) _

theorem resize_frame (w : World) (path : Path) (size : Nat) :
    Frame {path} w (w.resize path size).2 := by
  rw [resize]
  split
  · exact (Frame.refl w).mono (Set.empty_subset _)
  · cases w.nextOutcome with
    | failure e moved => exact Frame.afterCall _ w
    | success => exact (Frame.afterCall _ w).setFile (Set.mem_singleton _) _

theorem preallocate_frame (w : World) (path : Path) (size : Nat) :
    Frame {path} w (w.preallocate path size).2 := by
  rw [preallocate]
  split
  · exact (Frame.refl w).mono (Set.empty_subset _)
  · split
    · exact (Frame.refl w).mono (Set.empty_subset _)
    · cases w.nextOutcome with
      | failure e moved => exact Frame.afterCall _ w
      | success => exact (Frame.afterCall _ w).setFile (Set.mem_singleton _) _

theorem sync_frame (w : World) : Frame ∅ w w.sync.2 := by
  rw [sync]
  cases w.nextOutcome with
  | failure e moved => exact Frame.afterCall _ w
  | success => exact Frame.afterCall _ w

theorem fsyncPath_frame (w : World) (path : Path) : Frame ∅ w (w.fsyncPath path).2 := by
  have hopen : Frame ∅ w (w.openReadOnly path).2 := openExisting_frame _ _ _
  rw [fsyncPath]
  rcases h : w.openReadOnly path with ⟨e | _, w'⟩
  · rw [h] at hopen
    exact hopen
  · rw [h] at hopen
    exact hopen.trans (sync_frame w')

theorem fsyncParentDirectory_frame (w : World) : Frame ∅ w w.fsyncParentDirectory.2 := by
  rw [fsyncParentDirectory]
  cases w.nextOutcome with
  | failure e moved => exact Frame.afterCall _ w
  | success =>
      have htwo := (Frame.afterCall ∅ w).trans (Frame.afterCall ∅ w.afterCall)
      show Frame _ w (match w.afterCall.nextOutcome with
        | .failure e _ => _
        | .success => _ : Effect Unit).2
      cases w.afterCall.nextOutcome with
      | failure e moved => exact htwo
      | success => exact htwo

/-! ### What success means -/

/-- A successful rename has moved the file. -/
theorem renamePath_ok {w w' : World} {source target : Path} {u : Unit}
    (h : w.renamePath source target = (.ok u, w')) (hne : source ≠ target) :
    ∃ content, w.files source = some content ∧ w'.files target = some content ∧
      w'.files source = none := by
  rw [renamePath] at h
  cases hout : w.nextOutcome with
  | failure e moved => simp [hout] at h
  | success =>
      cases hfile : w.files source with
      | none => simp [hout, hfile] at h
      | some content =>
          simp only [hout, hfile] at h
          split at h
          · simp at h
          · obtain rfl := (Prod.mk.inj h).2
            exact ⟨content, rfl, by simp, by simp [setFile_files_of_ne, hne]⟩

theorem renamePath_ok_notDirectory {w w' : World} {source target : Path} {u : Unit}
    (h : w.renamePath source target = (.ok u, w')) : w.isDirectory target = false := by
  rw [renamePath] at h
  cases hout : w.nextOutcome with
  | failure e moved => simp [hout] at h
  | success =>
      cases hfile : w.files source with
      | none => simp [hout, hfile] at h
      | some content =>
          simp only [hout, hfile] at h
          split at h
          · simp at h
          · rename_i hdirectory
            exact Bool.eq_false_iff.mpr hdirectory

/-- A failing rename has changed nothing. -/
theorem renamePath_error {w w' : World} {source target : Path} {e : Status}
    (h : w.renamePath source target = (.error e, w')) : w'.files = w.files := by
  rw [renamePath] at h
  cases hout : w.nextOutcome with
  | failure e moved =>
      simp only [hout, Prod.mk.injEq] at h
      rw [← h.2, afterCall_files]
  | success =>
      cases hfile : w.files source with
      | none =>
          simp only [hout, hfile, Prod.mk.injEq] at h
          rw [← h.2, afterCall_files]
      | some content =>
          simp only [hout, hfile] at h
          split at h
          · rw [← (Prod.mk.inj h).2, afterCall_files]
          · split at h
            · simp at h
            · simp at h

/-! ### Files after a call that succeeds -/

theorem preallocate_isSome {w : World} {path : Path} (h : (w.files path).isSome = true)
    (size : Nat) : ((w.preallocate path size).2.files path).isSome = true := by
  rw [preallocate]
  split
  · exact h
  · split
    · exact h
    · cases w.nextOutcome with
      | failure e moved => exact h
      | success => simpa [setFile] using h

theorem resize_isSome {w : World} {path : Path} (h : (w.files path).isSome = true) (size : Nat) :
    ((w.resize path size).2.files path).isSome = true := by
  rw [resize]
  split
  · exact h
  · cases w.nextOutcome with
    | failure e moved => exact h
    | success => simpa [setFile] using h

theorem openExisting_ok {w w' : World} {operation : Bytes} {path : Path} {u : Unit}
    (h : w.openExisting operation path = (.ok u, w')) : (w'.files path).isSome = true := by
  have hframe := w.openExisting_frame operation path
  rw [h] at hframe
  rw [hframe.files _ (Set.notMem_empty _)]
  rw [openExisting] at h
  split at h
  · simp at h
  · split at h
    · simp at h
    · split at h
      · rename_i hsome
        exact hsome
      · simp at h

theorem openReadWriteExclusive_ok {w w' : World} {path : Path} {u : Unit}
    (h : w.openReadWriteExclusive path = (.ok u, w')) : (w'.files path).isSome = true := by
  rw [openReadWriteExclusive] at h
  split at h
  · simp at h
  · split at h
    · simp at h
    · simp only [Prod.mk.injEq, true_and] at h
      rw [← h]
      simp [setFile]

theorem length_resized (content : Bytes) (size : Nat) :
    (resized content size).length = size := by
  rw [resized, List.length_append, List.length_take, List.length_replicate]
  omega

theorem resize_ok {w w' : World} {path : Path} {size : Nat} {content : Bytes} {u : Unit}
    (h : w.resize path size = (.ok u, w')) (hfile : w.files path = some content) :
    w'.files path = some (resized content size) := by
  rw [resize] at h
  split at h
  · cases h
  · cases hout : w.nextOutcome with
    | failure e moved => simp [hout] at h
    | success =>
        simp only [hout, Prod.mk.injEq] at h
        rw [← h.2, setFile_files_self, hfile]
        rfl

/-- A failing `ftruncate` has not touched the file. -/
theorem resize_error {w w' : World} {path : Path} {size : Nat} {e : Status}
    (h : w.resize path size = (.error e, w')) : w'.files = w.files := by
  rw [resize] at h
  split at h
  · rw [← (Prod.mk.inj h).2]
  · cases hout : w.nextOutcome with
    | failure e moved =>
        simp only [hout, Prod.mk.injEq] at h
        rw [← h.2, afterCall_files]
    | success => simp [hout] at h

end World

end GridFlux
