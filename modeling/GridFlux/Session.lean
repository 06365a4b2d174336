/-
GridFlux/Session.lean

`core/session/transfer_session.cpp` and `core/session/download_session.cpp`:
the object that keeps the verified chunk records of one transfer, the range
list derived from them, and the manifest on disk.

The two classes run the same code over their own manifest type; what differs
(the version `save` writes, error texts, which counters are kept) is collected
in a `SessionFormat`.  A method that can fail after changing the object
returns its status together with the session and the world it leaves.

Opening a session is modelled per class, in TransferSession and
DownloadSession; the common parts of the two ways to open one are `fresh` and
`resumed` here.
-/
import GridFlux.ManifestStore
import GridFlux.Transition

namespace GridFlux

open HalfOpen TextCodec

/-! ### The object -/

inductive ManifestFlushPolicy
  | everyNChunks
  | finalOnly
deriving DecidableEq, Repr

/-- `TransferSessionStats` / `DownloadSessionStats`. -/
structure SessionStats where
  loadedVerifiedChunks : Nat := 0
  removedCorruptChunks : Nat := 0
  missingChunks : Nat := 0
  skippedBytes : Nat := 0
  resentBytes : Nat := 0
  verifiedBytes : Nat := 0
  manifestFlushCount : Nat := 0
deriving DecidableEq, Repr

/-- `TransferSession` / `DownloadSession`. -/
structure Session (P : Type) where
  manifest : Manifest P
  completed : RangeList
  manifestPath : Path
  checksumBackend : ChecksumBackend
  manifestFlushPolicy : ManifestFlushPolicy
  manifestFlushIntervalChunks : Nat
  dirtyVerifiedChunks : Nat
  verifiedChunksSorted : Bool
  completedRangesDirty : Bool
  stats : SessionStats
deriving DecidableEq, Repr

/-- What one of the two classes has of its own. -/
structure SessionFormat (P : Type) extends ManifestFormat P where
  saveTexts : SaveTexts
  manifestPathFor : P → Path
  tempPathFor : P → Bytes → Path
  /-- the version the manifest has after `save` has touched it -/
  saveVersion : Nat → Nat
  algorithmMismatch : Bytes
  rangeExceeds : Bytes
  recordMismatch : Bytes
  /-- does `recordVerifiedChunk` count `resentBytes`? -/
  countsResent : Bool
  /-- does `verifyTempChunks` refresh the counters when it has nothing to do? -/
  refreshesStats : Bool

/-- The arguments of `createNew` and `resume`. -/
structure SessionRequest (P : Type) where
  paths : P
  transferId : Bytes
  totalSize : UInt64
  chunkSize : UInt64
  checksumAlgorithm : ChecksumAlgorithm
  checksumBackend : ChecksumBackend
  manifestFlushPolicy : ManifestFlushPolicy
  manifestFlushIntervalChunks : UInt64
deriving DecidableEq, Repr

/-- The status of a method, and the session and the world it leaves. -/
abbrev SessionResult (P : Type) := Except Status Unit × Session P × World

namespace Session

variable {P : Type} (format : SessionFormat P)

def records (s : Session P) : List ChunkChecksumRecord := s.manifest.verifiedChunks

def missingRanges (s : Session P) : List CompletedRange :=
  s.completed.missingRanges s.manifest.totalSize

def bytesCompleted (s : Session P) : Nat := s.completed.bytesCompleted

/-- The counters every mutator refreshes. -/
def refreshStats (s : Session P) : Session P :=
  { s with stats := { s.stats with
      verifiedBytes := s.completed.bytesCompleted
      missingChunks := s.missingRanges.length } }

/-! ### Opening -/

/-- The session `createNew` returns. -/
def fresh (request : SessionRequest P) (backend : ChecksumBackend) (now missingChunks : Nat) :
    Session P where
  manifest :=
    { version := format.version
      transferId := request.transferId
      paths := request.paths
      tempPath := format.tempPathFor request.paths request.transferId
      totalSize := request.totalSize.toNat
      chunkSize := request.chunkSize.toNat
      checksumAlgorithm := request.checksumAlgorithm
      createdAtUnixNanos := now
      updatedAtUnixNanos := now
      state := .transferring
      completedRanges := []
      verifiedChunks := [] }
  completed := .empty
  manifestPath := format.manifestPathFor request.paths
  checksumBackend := backend
  manifestFlushPolicy := request.manifestFlushPolicy
  manifestFlushIntervalChunks := request.manifestFlushIntervalChunks.toNat
  dirtyVerifiedChunks := 0
  verifiedChunksSorted := true
  completedRangesDirty := false
  stats := { missingChunks := missingChunks }

/-- The session `resume` returns, once the range list has been rebuilt. -/
def resumed (request : SessionRequest P) (backend : ChecksumBackend) (manifest : Manifest P)
    (completed : RangeList) (now : Nat) : Session P where
  manifest := { manifest with state := .transferring, updatedAtUnixNanos := now }
  completed := completed
  manifestPath := format.manifestPathFor request.paths
  checksumBackend := backend
  manifestFlushPolicy := request.manifestFlushPolicy
  manifestFlushIntervalChunks := request.manifestFlushIntervalChunks.toNat
  dirtyVerifiedChunks := 0
  verifiedChunksSorted := true
  completedRangesDirty := false
  stats :=
    { loadedVerifiedChunks := manifest.verifiedChunks.length
      verifiedBytes := completed.bytesCompleted
      missingChunks := (completed.missingRanges request.totalSize.toNat).length
      skippedBytes := completed.bytesCompleted }

/-! ### `save` -/

/-- What `save` does before it writes: a fresh time stamp, the records sorted
unless the flag says they are, the ranges refreshed if the flag says so. -/
def prepareSave (s : Session P) (now : Nat) : Session P :=
  { s with
    manifest := { s.manifest with
      updatedAtUnixNanos := now
      version := format.saveVersion s.manifest.version
      verifiedChunks :=
        if s.verifiedChunksSorted then s.manifest.verifiedChunks
        else sortedRecords s.manifest.verifiedChunks
      completedRanges :=
        if s.completedRangesDirty then s.completed.ranges else s.manifest.completedRanges }
    verifiedChunksSorted := true
    completedRangesDirty := false }

/-- The bookkeeping after a successful write. -/
def afterSave (s : Session P) : Session P :=
  { s with
    dirtyVerifiedChunks := 0
    stats := { s.stats with manifestFlushCount := s.stats.manifestFlushCount + 1 } }

def save (s : Session P) (w : World) : SessionResult P :=
  let s' := s.prepareSave format w.nowUnixNanos.1
  match serializePreparedManifest format.toManifestFormat s'.manifest with
  | .error e => (.error e, s', w.nowUnixNanos.2)
  | .ok text =>
      match w.nowUnixNanos.2.saveAtomic format.saveTexts s'.manifestPath text with
      | (.error e, w) => (.error e, s', w)
      | (.ok _, w) => (.ok (), s'.afterSave, w)

/-! ### `recordVerifiedChunk` -/

/-- The record already present that `recordVerifiedChunk` compares with. -/
def sameIdentity (s : Session P) (chunkId offset : Nat) (record : ChunkChecksumRecord) : Bool :=
  record.offset = offset ∨
    (s.manifest.checksumAlgorithm ≠ .none ∧ record.chunkId = chunkId)

/-- The state after a new record has been accepted. -/
def appendRecord (s : Session P) (record : ChunkChecksumRecord) (completed : RangeList) :
    Session P :=
  let s' : Session P :=
    { s with
      completed := completed
      verifiedChunksSorted :=
        s.verifiedChunksSorted &&
          !(s.manifest.verifiedChunks.getLast?.any fun last => ¬precedesOrEquals last record)
      manifest := { s.manifest with
        verifiedChunks := s.manifest.verifiedChunks ++ [record]
        state := .transferring }
      completedRangesDirty := true
      dirtyVerifiedChunks := s.dirtyVerifiedChunks + 1
      stats := { s.stats with
        resentBytes :=
          if format.countsResent then s.stats.resentBytes + record.length
          else s.stats.resentBytes } }
  s'.refreshStats

/-- Is a manifest flush due? -/
def flushDue (s : Session P) : Bool :=
  s.manifestFlushPolicy = .everyNChunks ∧
    s.dirtyVerifiedChunks ≥ s.manifestFlushIntervalChunks

def recordVerifiedChunk (s : Session P) (chunkId offset length : Nat)
    (checksumValue : ChecksumValue) (w : World) : SessionResult P :=
  if checksumValue.algorithm ≠ s.manifest.checksumAlgorithm then
    (.error (.invalidArgument format.algorithmMismatch), s, w)
  else if length = 0 ∨ offset > s.manifest.totalSize ∨
      length > s.manifest.totalSize - offset then
    (.error (.invalidArgument format.rangeExceeds), s, w)
  else
    match s.manifest.verifiedChunks.find? (s.sameIdentity chunkId offset) with
    | some record =>
        if record = ⟨chunkId, offset, length, checksumValue⟩ then (.ok (), s, w)
        else (.error (.invalidArgument format.recordMismatch), s, w)
    | none =>
        match s.completed.insert offset length s.manifest.totalSize with
        | .error e => (.error e, s, w)
        | .ok completed =>
            let s' := s.appendRecord format ⟨chunkId, offset, length, checksumValue⟩ completed
            if s'.flushDue then s'.save format w else (.ok (), s', w)

/-- `TransferSession::recordCompletedRange`. -/
def recordCompletedRange (s : Session P) (offset length : Nat) (w : World) : SessionResult P :=
  s.recordVerifiedChunk format offset offset length ⟨.none, 0#32⟩ w

end Session

/-! ### Reading a chunk back -/

/-- The pieces a loop of at most `limit` bytes a round cuts `length` bytes
into. -/
def pieceSpans (limit : Nat) : Nat → Nat → Nat → List (Nat × Nat)
  | 0, _, _ => []
  | fuel + 1, offset, length =>
      if length = 0 then []
      else
        (offset, min limit length) ::
          pieceSpans limit fuel (offset + min limit length) (length - min limit length)

/-- The loop of `readChecksumForRecord`. -/
def readChecksumLoop (tempPath : Path) :
    List (Nat × Nat) → ChecksumComputer → World → Except Status ChecksumComputer × World
  | [], computer, w => (.ok computer, w)
  | (offset, size) :: spans, computer, w =>
      match w.readAtAll tempPath offset size with
      | (.error e, w) => (.error e, w)
      | (.ok data, w) =>
          readChecksumLoop tempPath spans (computer.update w.crc32cHardwareAvailable data) w

/-- `readChecksumForRecord`, with its buffer of 65536 bytes. -/
def readChecksumForRecord (w : World) (tempPath : Path) (record : ChunkChecksumRecord)
    (backend : ChecksumBackend) : Effect ChecksumValue :=
  match readChecksumLoop tempPath (pieceSpans 65536 record.length record.offset record.length)
      (ChecksumComputer.new w.crc32cHardwareAvailable record.checksum.algorithm backend) w with
  | (.error e, w) => (.error e, w)
  | (.ok computer, w) => (.ok computer.finalize, w)

namespace Session

variable {P : Type} (format : SessionFormat P)

/-! ### `verifyTempChunks` -/

/-- The local variables of the loop: the records kept so far and their ranges,
and how many were dropped. -/
structure VerifyState where
  kept : List ChunkChecksumRecord
  verified : RangeList
  removed : Nat
deriving DecidableEq, Repr

/-- The loop of `verifyTempChunks`. -/
def verifyLoop (backend : ChecksumBackend) (tempPath : Path) (totalSize : Nat) :
    List ChunkChecksumRecord → VerifyState → World → Except Status Unit × VerifyState × World
  | [], v, w => (.ok (), v, w)
  | record :: rest, v, w =>
      match readChecksumForRecord w tempPath record backend with
      | (.error _, w) =>
          verifyLoop backend tempPath totalSize rest { v with removed := v.removed + 1 } w
      | (.ok actual, w) =>
          if actual ≠ record.checksum then
            verifyLoop backend tempPath totalSize rest { v with removed := v.removed + 1 } w
          else
            match v.verified.insert record.offset record.length totalSize with
            | .error e => (.error e, v, w)
            | .ok verified =>
                verifyLoop backend tempPath totalSize rest
                  { v with kept := v.kept ++ [record], verified := verified } w

/-- Count the dropped records. -/
def countRemoved (s : Session P) (removed : Nat) : Session P :=
  { s with stats := { s.stats with
      removedCorruptChunks := s.stats.removedCorruptChunks + removed } }

/-- The state after the loop has dropped at least one record. -/
def replaceRecords (s : Session P) (v : VerifyState) : Session P :=
  let s' : Session P :=
    { s with
      manifest := { s.manifest with
        verifiedChunks := v.kept
        completedRanges := v.verified.ranges
        state := .transferring }
      completed := v.verified
      verifiedChunksSorted := true
      completedRangesDirty := false }
  let s' := s'.refreshStats
  { s' with stats := { s'.stats with skippedBytes := s'.stats.verifiedBytes } }

def verifyTempChunks (s : Session P) (tempPath : Path) (w : World) : SessionResult P :=
  if s.manifest.checksumAlgorithm = .none ∨ s.manifest.verifiedChunks = [] then
    (.ok (), if format.refreshesStats then s.refreshStats else s, w)
  else
    match verifyLoop s.checksumBackend tempPath s.manifest.totalSize s.manifest.verifiedChunks
        ⟨[], .empty, 0⟩ w with
    | (.error e, v, w) => (.error e, s.countRemoved v.removed, w)
    | (.ok _, v, w) =>
        if v.removed = 0 then (.ok (), s.refreshStats, w)
        else ((s.countRemoved v.removed).replaceRecords v).save format w

def markFailed (s : Session P) (w : World) : SessionResult P :=
  { s with manifest := { s.manifest with state := .failed } }.save format w

def markCommitted (s : Session P) (w : World) : SessionResult P :=
  { s with manifest := { s.manifest with state := .committed } }.save format w

end Session

/-- The calls of a run. -/
inductive SessionOp
  | recordVerifiedChunk (chunkId offset length : UInt64) (value : ChecksumValue)
  | recordCompletedRange (offset length : UInt64)
  | verifyTempChunks (tempPath : Path)
  | save
  | markFailed
  | markCommitted
deriving DecidableEq, Repr

def SessionOp.run {P : Type} (format : SessionFormat P) (op : SessionOp) (s : Session P)
    (w : World) : SessionResult P :=
  match op with
  | .recordVerifiedChunk chunkId offset length value =>
      s.recordVerifiedChunk format chunkId.toNat offset.toNat length.toNat value w
  | .recordCompletedRange offset length =>
      s.recordCompletedRange format offset.toNat length.toNat w
  | .verifyTempChunks tempPath => s.verifyTempChunks format tempPath w
  | .save => s.save format w
  | .markFailed => s.markFailed format w
  | .markCommitted => s.markCommitted format w

/-- The record an operation asks for. -/
def SessionOp.record? : SessionOp → Option ChunkChecksumRecord
  | .recordVerifiedChunk chunkId offset length value =>
      some ⟨chunkId.toNat, offset.toNat, length.toNat, value⟩
  | .recordCompletedRange offset length =>
      some ⟨offset.toNat, offset.toNat, length.toNat, ⟨.none, 0#32⟩⟩
  | _ => none

/-- The runs of the sessions that open in a state `initial` admits.  A step is
a call together with the world it is made in: between two calls the files, the
clock and the fate of the system calls to come may be anything. -/
def sessionSystem {P : Type} (format : SessionFormat P) (initial : Session P → Prop) :
    Transition.System (Session P) (SessionOp × World) where
  initial := initial
  step l s s' := s' = (l.1.run format s l.2).2.1

end GridFlux
