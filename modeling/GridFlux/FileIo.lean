/-
GridFlux/FileIo.lean

The plain transfer loops of the POSIX backend: `PosixFile::readAtAll`
(`storage/posix_file.cpp`) and `posixWriteAtAllWithStats`
(`storage/file_io.cpp`).

A `pread` or `pwrite` may move fewer bytes than it is asked for, none at all,
or fail; the loops go on where the last call stopped.  A loop is given what its
calls return, in order.  Whatever the calls move, a loop that returns ok has
moved the whole range at once (`PosixLoop.run_ok`).
-/
import GridFlux.BufferedFileWriter

namespace GridFlux

open SharedFile

/-- `IoUringOperation`, for both backends. -/
inductive IoUringOperation
  | read
  | write
deriving DecidableEq, Repr

def kErrInterrupted : Int := 4
def kErrAgain : Int := 11

/-! ### The file and the buffer -/

/-- The content of the open file and the caller's buffer. -/
structure FileData where
  content : Bytes
  buffer : Bytes
deriving DecidableEq

namespace FileData

variable (d : FileData)

/-- `count` bytes have been moved between the file at `fileOffset` and the
buffer at `position`. -/
def moved : IoUringOperation → Nat → Nat → Nat → FileData
  | .read, fileOffset, position, count =>
      { d with buffer := World.patch d.buffer position (World.slice d.content fileOffset count) }
  | .write, fileOffset, position, count =>
      { d with content := World.patch d.content fileOffset (World.slice d.buffer position count) }

/-- A read moves only what the file has. -/
def CanMove : IoUringOperation → Nat → Nat → Prop
  | .read, fileOffset, count => fileOffset + count ≤ d.content.length
  | .write, _, _ => True

instance (operation : IoUringOperation) (fileOffset count : Nat) :
    Decidable (d.CanMove operation fileOffset count) := by
  cases operation
  · exact inferInstanceAs (Decidable (fileOffset + count ≤ d.content.length))
  · exact inferInstanceAs (Decidable True)

variable {d} {operation : IoUringOperation} {fileOffset position count more : Nat}

theorem moved_length (h : position + count ≤ d.buffer.length)
    (hcan : d.CanMove operation fileOffset count) :
    (d.moved operation fileOffset position count).buffer.length = d.buffer.length := by
  cases operation with
  | read =>
      show (World.patch _ _ _).length = _
      rw [World.patch_eq_overwrite, length_overwrite, World.length_slice hcan]
      omega
  | write => rfl

/-- Two calls that follow each other move what one longer call moves. -/
theorem moved_moved (h : position + count ≤ d.buffer.length)
    (hcan : d.CanMove operation fileOffset count) :
    (d.moved operation fileOffset position count).moved operation (fileOffset + count)
      (position + count) more = d.moved operation fileOffset position (count + more) := by
  cases operation with
  | read =>
      have hjoin := overwrite_overwrite_append (0 : UInt8) d.buffer
        (World.slice d.content fileOffset count) position
        (World.slice d.content (fileOffset + count) more)
      rw [World.length_slice hcan, World.slice_append] at hjoin
      exact congrArg (FileData.mk d.content) hjoin
  | write =>
      have hjoin := overwrite_overwrite_append (0 : UInt8) d.content
        (World.slice d.buffer position count) fileOffset
        (World.slice d.buffer (position + count) more)
      rw [World.length_slice h, World.slice_append] at hjoin
      exact congrArg (FileData.mk · d.buffer) hjoin

/-- What the second of two such calls can move, one call can. -/
theorem CanMove.append (hcan : d.CanMove operation fileOffset count)
    (hmore : (d.moved operation fileOffset position count).CanMove operation
      (fileOffset + count) more) : d.CanMove operation fileOffset (count + more) := by
  cases operation with
  | read =>
      have hle : fileOffset + count + more ≤ d.content.length := hmore
      show fileOffset + (count + more) ≤ d.content.length
      omega
  | write => trivial

end FileData

/-! ### The loops -/

/-- What one `pread` or `pwrite` returns. -/
inductive SyscallResult
  | count (bytes : Nat)
  | error (errorNumber : Int)
deriving DecidableEq, Repr

/-- What the read loop and the write loop differ in. -/
structure PosixLoop where
  operation : IoUringOperation
  offsetText : Bytes
  callText : Bytes
  zeroText : Bytes
  retries : List Int

/-- The loop from `completed` on.  It has no outcome where the results run out
or are none the call could return. -/
def PosixLoop.run (loop : PosixLoop) (offset length : Nat) (results : List SyscallResult)
    (completed : Nat) (d : FileData) : Option (Except Status Unit × FileData) :=
  if length ≤ completed then some (.ok (), d)
  else if offset + completed > World.kMaxOffset then
    some (.error (.invalidArgument loop.offsetText), d)
  else
    match results with
    | [] => none
    | .error e :: results =>
        if e ∈ loop.retries then loop.run offset length results completed d
        else some (.error (.systemError loop.callText e), d)
    | .count bytes :: results =>
        -- a call moves no more than it is asked for
        if bytes ≤ length - completed ∧ d.CanMove loop.operation (offset + completed) bytes then
          if bytes = 0 then some (.error (.runtimeError loop.zeroText), d)
          else loop.run offset length results (completed + bytes)
            (d.moved loop.operation (offset + completed) completed bytes)
        else none

/-- `PosixFile::readAtAll`, with the retries `PosixFile::readAt` makes. -/
def posixReadAtAll (offset : Nat) (results : List SyscallResult) (d : FileData) :
    Option (Except Status Unit × FileData) :=
  PosixLoop.run
    { operation := .read
      offsetText := ascii "read offset exceeds off_t range"
      callText := ascii "pread"
      zeroText := ascii "unexpected EOF while reading file"
      retries := [kErrInterrupted] }
    offset d.buffer.length results 0 d

/-- `posixWriteAtAllWithStats`, on an open file. -/
def posixWriteAtAllWithStats (offset : Nat) (results : List SyscallResult) (d : FileData) :
    Option (Except Status Unit × FileData) :=
  PosixLoop.run
    { operation := .write
      offsetText := ascii "write offset exceeds off_t range"
      callText := ascii "pwrite"
      zeroText := ascii "pwrite returned zero bytes"
      retries := [kErrInterrupted, kErrAgain] }
    offset d.buffer.length results 0 d

/-- The plain loop for an operation. -/
def posixAtAll : IoUringOperation → Nat → List SyscallResult → FileData →
    Option (Except Status Unit × FileData)
  | .read => posixReadAtAll
  | .write => posixWriteAtAllWithStats

/-! ### What a loop that returns ok has done -/

namespace PosixLoop

variable {loop : PosixLoop} {offset length : Nat}

theorem run_eq_ok {results : List SyscallResult} {completed : Nat} {d d' : FileData}
    (hlength : d.buffer.length = length) (hcompleted : completed < length)
    (h : loop.run offset length results completed d = some (.ok (), d')) :
    d' = d.moved loop.operation (offset + completed) completed (length - completed) := by
  induction results generalizing completed d with
  | nil =>
      rw [run.eq_def, if_neg (by omega)] at h
      split at h
      · cases h
      · cases h
  | cons result results ih =>
      rw [run.eq_def, if_neg (by omega)] at h
      split at h
      · cases h
      · cases result with
        | error e =>
            dsimp only at h
            split at h
            · exact ih hlength hcompleted h
            · cases h
        | count bytes =>
            dsimp only at h
            split at h
            · rename_i hcan
              split at h
              · cases h
              · rename_i hpos
                have hmoved : (d.moved loop.operation (offset + completed) completed
                    bytes).buffer.length = d.buffer.length :=
                  FileData.moved_length (by omega) hcan.2
                by_cases hdone : completed + bytes = length
                · -- the call has moved the rest
                  rw [run.eq_def, if_pos (by omega)] at h
                  cases h
                  rw [show length - completed = bytes by omega]
                · have hrest := ih (hmoved.trans hlength) (by omega) h
                  rw [hrest, ← Nat.add_assoc, FileData.moved_moved (by omega) hcan.2]
                  congr 1
                  omega
            · cases h

end PosixLoop

/-- The file and the buffer once the whole range has been moved. -/
def FileData.transferred (d : FileData) (operation : IoUringOperation) (offset : Nat) : FileData :=
  if d.buffer = [] then d else d.moved operation offset 0 d.buffer.length

theorem PosixLoop.run_ok {loop : PosixLoop} {offset : Nat} {results : List SyscallResult}
    {d d' : FileData} (h : loop.run offset d.buffer.length results 0 d = some (.ok (), d')) :
    d' = d.transferred loop.operation offset := by
  rw [FileData.transferred]
  split
  · rename_i hempty
    rw [PosixLoop.run.eq_def, if_pos (by rw [hempty]; exact Nat.le_refl _)] at h
    cases h
    rfl
  · rename_i hdata
    exact PosixLoop.run_eq_ok rfl (List.length_pos_iff.mpr hdata) h

/-- **A plain loop that returns ok has moved the whole range.** -/
theorem posixAtAll_ok {operation : IoUringOperation} {offset : Nat}
    {results : List SyscallResult} {d d' : FileData}
    (h : posixAtAll operation offset results d = some (.ok (), d')) :
    d' = d.transferred operation offset := by
  cases operation with
  | read => exact PosixLoop.run_ok h
  | write => exact PosixLoop.run_ok h

/-- When a single call can move the whole range, the loop can return ok. -/
theorem PosixLoop.run_single {loop : PosixLoop} {offset : Nat} {d : FileData}
    (hoffset : d.buffer ≠ [] → offset ≤ World.kMaxOffset)
    (hcan : d.buffer ≠ [] → d.CanMove loop.operation offset d.buffer.length) :
    loop.run offset d.buffer.length [.count d.buffer.length] 0 d =
      some (.ok (), d.transferred loop.operation offset) := by
  rw [run.eq_def, FileData.transferred]
  by_cases hempty : d.buffer = []
  · rw [if_pos (by rw [hempty]; exact Nat.le_refl _), if_pos hempty]
  · have hpos : 0 < d.buffer.length := List.length_pos_iff.mpr hempty
    have hle := hoffset hempty
    rw [if_neg (by omega), if_neg (by omega), if_neg hempty]
    dsimp only
    rw [if_pos ⟨by omega, hcan hempty⟩, if_neg (by omega), run.eq_def, if_pos (by omega)]
    rfl

theorem posixAtAll_single {operation : IoUringOperation} {offset : Nat} {d : FileData}
    (hoffset : d.buffer ≠ [] → offset ≤ World.kMaxOffset)
    (hcan : d.buffer ≠ [] → d.CanMove operation offset d.buffer.length) :
    posixAtAll operation offset [.count d.buffer.length] d =
      some (.ok (), d.transferred operation offset) := by
  cases operation with
  | read => exact PosixLoop.run_single hoffset hcan
  | write => exact PosixLoop.run_single hoffset hcan

end GridFlux
