/-
GridFlux/TreeJobs.lean

What a worker of the tree client does with one file: `processUploadFile` and
`processDownloadFile` of `tree_transfer_client.cpp`, over the state that the
workers share.

A `Job` is a worker's program.  It goes from call to call; a call is either a
critical section on the shared state or something outside that may answer
anything.  Between two calls of one worker any other worker may move.
-/
import GridFlux.ControlLine

namespace GridFlux

open TextCodec

/-! ### The shared state -/

/-- What the scheduler reads of `TreeTransferOptions`. -/
structure TreeTransferOptions where
  sourceDir : Bytes
  destDir : Bytes
  fileParallelism : Nat := 1
  resume : Bool := false
  maxFiles : Nat := 0

/-- `SchedulerState` with the file that `saveManifest` writes.  The last five
fields are history: whether a save failed, and which indices were handed to
which worker, got a slot, started a transfer and were processed. -/
structure SchedulerState where
  manifest : TreeManifest
  disk : Bytes
  nextIndex : Nat := 0
  startedTransfers : Nat := 0
  stop : Bool := false
  stoppedByMaxFiles : Bool := false
  firstError : Except Status Unit := .ok ()
  completedThisRun : Nat := 0
  skippedFiles : Nat := 0
  transferredBytes : Nat := 0
  saveFailed : Bool := false
  handed : List (Nat × Nat) := []
  slots : List Nat := []
  transfers : List Nat := []
  processed : List Nat := []

/-- What the system answers to one save: the time, and whether the file could
be written and renamed. -/
structure Saving where
  now : Nat
  written : Except Status Unit

namespace SchedulerState

variable (s : SchedulerState)

def setFirstErrorLocked (status : Except Status Unit) : SchedulerState :=
  match status with
  | .ok _ => s
  | .error e =>
      match s.firstError with
      | .ok _ => { s with firstError := .error e, stop := true }
      | .error _ => { s with stop := true }

/-- `saveManifest`; a save that fails leaves the file as it was. -/
def saveManifest (saving : Saving) : Except Status Unit × SchedulerState :=
  let manifest := { s.manifest with updatedAtUnixNanos := saving.now }
  match serializeTreeManifest manifest with
  | .error e => (.error e, { s with manifest := manifest, saveFailed := true })
  | .ok text =>
      match saving.written with
      | .error e => (.error e, { s with manifest := manifest, saveFailed := true })
      | .ok _ => (.ok (), { s with manifest := manifest, disk := text })

/-- A change of one record and the save that follows it under the lock. -/
def changeRecord (index : Nat) (change : TreeFileRecord → TreeFileRecord) (saving : Saving) :
    Except Status Unit × SchedulerState :=
  let changed := { s with manifest :=
    { s.manifest with files := s.manifest.files.modify index change } }
  let (saveStatus, saved) := changed.saveManifest saving
  (saveStatus, saved.setFirstErrorLocked saveStatus)

def updateRecord (index : Nat) (status : TreeFileStatus) (error : Bytes) (saving : Saving) :
    Except Status Unit × SchedulerState :=
  s.changeRecord index (fun record => { record with status := status, error := error }) saving

def updateRecordForTransfer (index : Nat) (transferId : Bytes) (saving : Saving) :
    Except Status Unit × SchedulerState :=
  s.changeRecord index (fun record =>
    { record with transferId := transferId, status := .transferring, error := [] }) saving

/-- `acquireTransferSlot`, for the file with this index. -/
def acquireTransferSlot (maxFiles index : Nat) : Bool × SchedulerState :=
  if maxFiles = 0 then (true, s)
  else if s.startedTransfers ≥ maxFiles then
    (false, { s with stoppedByMaxFiles := true, stop := true })
  else (true, { s with startedTransfers := s.startedTransfers + 1, slots := index :: s.slots })

end SchedulerState

/-! ### Calls and jobs -/

structure FileMetadata where
  size : Nat
  mtimeUnixSeconds : Int
deriving DecidableEq, Repr

/-- A call of a worker, by the type of its answer. -/
inductive Call : Type → Type
  | readRecord (index : Nat) : Call TreeFileRecord
  | updateRecord (index : Nat) (status : TreeFileStatus) (error : Bytes) : Call (Except Status Unit)
  | updateRecordForTransfer (index : Nat) (transferId : Bytes) : Call (Except Status Unit)
  | acquireTransferSlot : Call Bool
  | setFirstError (status : Except Status Unit) : Call Unit
  | countSkipped : Call Unit
  | countCompleted (bytes : Nat) : Call Unit
  | statRegularFile (path : Bytes) : Call (Except Status FileMetadata)
  | createParentDirectory (path : Bytes) : Call (Except Status Unit)
  | setRegularFileMtime (path : Bytes) (mtime : Int) : Call (Except Status Unit)
  | ensureControlReady : Call (Except Status Unit)
  | size (path : Bytes) : Call (Except Status Nat)
  | mdtm (path : Bytes) : Call (Except Status Int)
  | epsv : Call (Except Status Nat)
  | rest (transferId : Bytes) : Call (Except Status Unit)
  | startTransfer (verb : TreeVerb) (path : Bytes) : Call (Except Status Bytes)
  | runTransfer (port : Nat) (path transferId : Bytes) (resume : Bool) : Call (Except Status Unit)
  | waitTransferComplete : Call (Except Status Unit)

/-- What a call may do, for the worker that has the file `index`: its answer and
the state after it.  A `startTransfer` has been sent whatever comes back. -/
def Call.Runs (maxFiles index : Nat) {β : Type} (c : Call β) (s : SchedulerState) (answer : β)
    (s' : SchedulerState) : Prop :=
  match c with
  | .readRecord i => s.manifest.files[i]? = some answer ∧ s' = s
  | .updateRecord i status error => ∃ saving, (answer, s') = s.updateRecord i status error saving
  | .updateRecordForTransfer i transferId =>
      ∃ saving, (answer, s') = s.updateRecordForTransfer i transferId saving
  | .acquireTransferSlot => (answer, s') = s.acquireTransferSlot maxFiles index
  | .setFirstError status => s' = s.setFirstErrorLocked status
  | .countSkipped => s' = { s with skippedFiles := s.skippedFiles + 1 }
  | .countCompleted bytes => s' = { s with
      completedThisRun := s.completedThisRun + 1, transferredBytes := s.transferredBytes + bytes }
  | .startTransfer _ _ => s' = { s with transfers := index :: s.transfers }
  | _ => s' = s

/-- The rest of a worker's program for one file. -/
inductive Job : Type 1
  | finished (status : Except Status Unit)
  | call {β : Type} (c : Call β) (next : β → Job)

namespace Job

/-- A call whose error is the result of the whole job. -/
def orFail {β : Type} (c : Call (Except Status β)) (next : β → Job) : Job :=
  .call c fun
    | .error e => .finished (.error e)
    | .ok answer => next answer

/-- A call whose error is noted in the record as well. -/
def orMarkFailed {β : Type} (index : Nat) (c : Call (Except Status β)) (next : β → Job) : Job :=
  .call c fun
    | .error e =>
        .call (.updateRecord index .failed e.message) fun _ => .finished (.error e)
    | .ok answer => next answer

/-- `markChanged`, two critical sections, and the error that follows it. -/
def markChanged (index : Nat) (message : Bytes) : Job :=
  .call (.updateRecord index .changed message) fun _ =>
    .call (.setFirstError (.error (.invalidArgument message))) fun _ =>
      .finished (.error (.invalidArgument message))

end Job

/-! ### The two programs -/

section Programs

open Job

/-- What `changedMessage` and `changedMissingMessage` begin with. -/
def manifestMessage (start : Bytes) (record : TreeFileRecord) : Bytes :=
  start ++ ascii ": " ++ record.relativePath ++ ascii " manifest_size=" ++ decimal record.size ++
    ascii " manifest_mtime=" ++ signedDecimal record.mtimeUnixSeconds

def changedMessage (start : Bytes) (record : TreeFileRecord) (current : FileMetadata) : Bytes :=
  manifestMessage start record ++ ascii " current_size=" ++ decimal current.size ++
    ascii " current_mtime=" ++ signedDecimal current.mtimeUnixSeconds

def changedMissingMessage (start : Bytes) (record : TreeFileRecord) (detail : Bytes) : Bytes :=
  manifestMessage start record ++ ascii " current_size=missing current_mtime=missing detail=" ++
    detail

def metadataMatches (record : TreeFileRecord) (current : FileMetadata) : Bool :=
  record.size = current.size && record.mtimeUnixSeconds = current.mtimeUnixSeconds

/-- `std::filesystem::path(dir) / relative`. -/
def appendPath (dir relative : Bytes) : Bytes :=
  if relative.head? = some slash then relative
  else if dir = [] ∨ dir.getLast? = some slash then dir ++ relative
  else dir ++ slash :: relative

/-- `validateCompletedUploadFile`, with what its caller does with the status. -/
def validateCompletedUploadFile (remotePath : Bytes) (record : TreeFileRecord)
    (next : Except Status Unit → Job) : Job :=
  .call (.size remotePath) fun
    | .error e => next (.error e)
    | .ok size =>
        if size ≠ record.size then
          next (.error (.invalidArgument
            (ascii "completed upload file changed: " ++ record.relativePath)))
        else next (.ok ())

/-- The transfer command and the record in state `Transferring`. -/
def startFile (index : Nat) (record : TreeFileRecord) (verb : TreeVerb) (remotePath : Bytes)
    (resumeFile : Bool) (next : Bytes → Job) : Job :=
  orMarkFailed index (.startTransfer verb remotePath) fun transferId =>
    let effectiveTransferId := if resumeFile then record.transferId else transferId
    orFail (.updateRecordForTransfer index effectiveTransferId) fun _ => next effectiveTransferId

/-- From `epsv` on, alike in both directions; `next` gets the port, the
identifier and the resume flag. -/
def beginTransfer (options : TreeTransferOptions) (index : Nat) (record : TreeFileRecord)
    (verb : TreeVerb) (remotePath : Bytes) (next : Nat → Bytes → Bool → Job) : Job :=
  orFail .epsv fun port =>
    let resumeFile : Bool := options.resume && record.status ≠ .pending
    let start := startFile index record verb remotePath resumeFile fun transferId =>
      next port transferId resumeFile
    if resumeFile then orFail (.rest record.transferId) fun _ => start else start

/-- The record in state `Completed`. -/
def completeRecord (index : Nat) (record : TreeFileRecord) : Job :=
  orFail (.updateRecord index .completed []) fun _ =>
    .call (.countCompleted record.size) fun _ => .finished (.ok ())

def processUploadFile (options : TreeTransferOptions) (index : Nat) : Job :=
  .call (.readRecord index) fun record =>
    let localPath := appendPath options.sourceDir record.relativePath
    let remotePath := joinRemotePath options.destDir record.relativePath
    .call (.statRegularFile localPath) fun
      | .error e =>
          markChanged index (changedMissingMessage (ascii "source file changed") record e.message)
      | .ok metadata =>
          if options.resume ∧ metadataMatches record metadata = false then
            markChanged index (changedMessage (ascii "source file changed") record metadata)
          else
            orFail .ensureControlReady fun _ =>
              if record.status = .completed then
                validateCompletedUploadFile remotePath record fun
                  | .error e =>
                      markChanged index (changedMissingMessage
                        (ascii "completed upload file changed") record e.message)
                  | .ok _ => .call .countSkipped fun _ => .finished (.ok ())
              else
                .call .acquireTransferSlot fun acquired =>
                  if acquired = false then
                    .finished (.error (.runtimeError
                      (ascii "tree upload stopped after --max-files")))
                  else
                    beginTransfer options index record .stor remotePath
                      fun port transferId resumeFile =>
                        orMarkFailed index (.runTransfer port localPath transferId resumeFile)
                          fun _ => orMarkFailed index .waitTransferComplete fun _ =>
                            completeRecord index record

def processDownloadFile (options : TreeTransferOptions) (index : Nat) : Job :=
  .call (.readRecord index) fun record =>
    let localPath := appendPath options.destDir record.relativePath
    let remotePath := joinRemotePath options.sourceDir record.relativePath
    orFail .ensureControlReady fun _ =>
      if record.status = .completed then
        .call (.statRegularFile localPath) fun
          | .error e =>
              markChanged index (changedMissingMessage
                (ascii "completed download file changed") record e.message)
          | .ok metadata =>
              if metadataMatches record metadata = false then
                markChanged index (changedMessage (ascii "completed download file changed") record
                  metadata)
              else .call .countSkipped fun _ => .finished (.ok ())
      else
        orFail (.size remotePath) fun remoteSize =>
          orFail (.mdtm remotePath) fun remoteMtime =>
            let remoteMetadata : FileMetadata := ⟨remoteSize, remoteMtime⟩
            if options.resume ∧ metadataMatches record remoteMetadata = false then
              markChanged index (changedMessage (ascii "remote file changed") record
                remoteMetadata)
            else
              .call .acquireTransferSlot fun acquired =>
                if acquired = false then
                  .finished (.error (.runtimeError
                    (ascii "tree download stopped after --max-files")))
                else
                  orFail (.createParentDirectory localPath) fun _ =>
                    beginTransfer options index record .retr remotePath
                      fun port transferId resumeFile =>
                        orMarkFailed index (.runTransfer port localPath transferId resumeFile)
                          fun _ => orMarkFailed index .waitTransferComplete fun _ =>
                            orMarkFailed index
                              (.setRegularFileMtime localPath record.mtimeUnixSeconds) fun _ =>
                                completeRecord index record

/-- The `processFile` that the two clients hand to the scheduler. -/
def processFile (mode : TreeTransferMode) : TreeTransferOptions → Nat → Job :=
  match mode with
  | .upload => processUploadFile
  | .download => processDownloadFile

end Programs

end GridFlux
