/-
GridFlux/IoUring.lean

The io_uring transfer loops of `storage/file_io_uring.cpp`.  `ioUringReadAtAll`
and `ioUringWriteAtAll` are one loop but for the operation and the texts of
their errors.

The range is cut into pieces, one for each free slot; a slot's piece is
prepared as a request, submitted, and worked off by one completion after the
other, and whatever a completion leaves of it is submitted again.  The loop
runs in small steps between which nothing but its own state changes; in each
step the kernel chooses what the calls return (`Kernel`): whether there is a
free entry, how many requests it takes, which of the requests it has taken
completes next, and with what result.

A request's transfer and the completion that reports it are one event: nobody
else uses the file and the buffer during the call.  Every transfer is noted in
`moves`.
-/
import GridFlux.FileIo
import GridFlux.Transition

namespace GridFlux

def kMaxQueueDepth : Nat := 256

structure IoUringSlot where
  offset : Nat := 0
  baseIndex : Nat := 0
  remaining : Nat := 0
  submittedLength : Nat := 0
  inFlight : Bool := false
deriving DecidableEq, Repr

/-- A submission queue entry; `position` is where its memory starts in the
buffer. -/
structure IoUringRequest where
  userData : Nat
  fileOffset : Nat
  position : Nat
  nbytes : Nat
deriving DecidableEq, Repr

/-- The arguments of one call, `length` being that of the buffer, and the
content of the file. -/
structure IoUringCall where
  operation : IoUringOperation
  offset : Nat
  queueDepth : Nat
  batchSize : Nat
  data : FileData

/-- Where the loop is. -/
inductive IoUringPhase
  /-- at the condition of the `while` -/
  | loop
  /-- in the `for` over the slots -/
  | fill (slotIndex submitted : Nat)
  | submit (submitted : Nat)
  | wait
  | finished (status : Except Status Unit)

/-- `count` bytes have been moved between the file at `fileOffset` and the
buffer at `position`. -/
structure IoUringMove where
  fileOffset : Nat
  position : Nat
  count : Nat
deriving DecidableEq, Repr

structure IoUringState where
  slots : List IoUringSlot
  nextIndex : Nat
  inFlight : Nat
  phase : IoUringPhase
  /-- requests the kernel has not taken yet -/
  prepared : List IoUringRequest
  /-- requests the kernel has taken and not completed -/
  taken : List IoUringRequest
  data : FileData
  moves : List IoUringMove

/-- What the ring's calls return in one step. -/
structure Kernel where
  /-- `io_uring_get_sqe` finds a free entry -/
  hasSqe : Bool := true
  submitResult : Int := 0
  waitResult : Int := 0
  /-- which of the requests it has taken completes -/
  completes : Nat := 0
  /-- `cqe->res` -/
  result : Int := 0

/-- `systemStatus`. -/
def ioUringStatus (operation : Bytes) (errorNumber : Int) : Status :=
  .systemError operation errorNumber

def isRetryError (error : Int) : Bool := error == kErrInterrupted || error == kErrAgain

def clampRange (value fallback maximum : Nat) : Nat :=
  min (if value = 0 then fallback else value) maximum

/-- `validateOffset`.  No buffer is longer than `off_t` counts, so the
subtraction does not wrap. -/
def validateOffset (offset length : Nat) (operation : Bytes) : Except Status Unit := do
  require (offset ≤ World.kMaxOffset)
    (.invalidArgument (operation ++ ascii " offset exceeds off_t range"))
  require (¬(length > 0 ∧ offset > World.kMaxOffset - (length - 1)))
    (.invalidArgument (operation ++ ascii " range exceeds off_t range"))

def initRing (initResult : Int) : Except Status Unit :=
  require (¬initResult < 0) (ioUringStatus (ascii "io_uring_queue_init") (-initResult))

/-- `handleCompletionResult`: the status, and the slot it leaves. -/
def handleCompletionResult (operation : IoUringOperation) (result : Int) (slot : IoUringSlot) :
    Except Status Unit × IoUringSlot :=
  let slot := { slot with inFlight := false }
  if result < 0 then
    if isRetryError (-result) then (.ok (), slot)
    else
      (.error (ioUringStatus
        (match operation with
          | .read => ascii "io_uring read"
          | .write => ascii "io_uring write") (-result)), slot)
  else if result = 0 then
    (.error (.runtimeError
      (match operation with
        | .read => ascii "unexpected EOF while reading file"
        | .write => ascii "io_uring write returned zero bytes")), slot)
  else
    let completed := result.toNat
    if completed > slot.submittedLength then
      (.error (.runtimeError (ascii "io_uring completion exceeded submitted length")), slot)
    else
      (.ok (), { slot with
        offset := slot.offset + completed
        baseIndex := slot.baseIndex + completed
        remaining := slot.remaining - completed })

namespace IoUringState

/-- The call returns. -/
def finish (s : IoUringState) (status : Except Status Unit) : IoUringState :=
  { s with phase := .finished status }

/-- `submitPending`.  The kernel takes the first of the prepared requests; it
cannot take more than there are. -/
def submitPending (k : Kernel) (submittedSqes : Nat) (s : IoUringState) :
    Option (Except Status Unit × IoUringState) :=
  if submittedSqes = 0 then some (.ok (), s)
  else if k.submitResult < 0 then
    some (.error (ioUringStatus (ascii "io_uring_submit") (-k.submitResult)), s)
  else if k.submitResult.toNat ≤ s.prepared.length then
    some (.ok (), { s with
      prepared := s.prepared.drop k.submitResult.toNat
      taken := s.taken ++ s.prepared.take k.submitResult.toNat })
  else none

/-- The submission after the `for`, and the test for an empty ring. -/
def submit (k : Kernel) (submitted : Nat) (s : IoUringState) : Option IoUringState :=
  match s.submitPending k submitted with
  | none => none
  | some (.error e, s) => some (s.finish (.error e))
  | some (.ok _, s) => some { s with phase := if s.inFlight = 0 then .loop else .wait }

def missingSlot (s : IoUringState) : IoUringState :=
  s.finish (.error (.runtimeError (ascii "io_uring completion missing slot")))

end IoUringState

namespace IoUringCall

variable (call : IoUringCall)

def length : Nat := call.data.buffer.length

def depth : Nat := clampRange call.queueDepth 1 kMaxQueueDepth

def batch : Nat := min (clampRange call.batchSize call.depth kMaxQueueDepth) call.depth

def maxBytesPerSqe : Nat := max 1 ((call.length + call.depth - 1) / call.depth)

/-- The entry `prepFileSqe` fills in; the length is an `unsigned`. -/
def request (slot : IoUringSlot) (slotIndex : Nat) : IoUringRequest where
  userData := slotIndex + 1
  fileOffset := slot.offset
  position := slot.offset - call.offset
  nbytes := slot.submittedLength % 2 ^ 32

/-- `prepFileSqe` for the slot now at `slotIndex`. -/
def prepFileSqe (k : Kernel) (slot : IoUringSlot) (slotIndex : Nat) (s : IoUringState) :
    Except Status Unit × IoUringState :=
  if k.hasSqe then
    (.ok (), { s with
      slots := s.slots.set slotIndex { slot with inFlight := true }
      prepared := s.prepared ++ [call.request slot slotIndex] })
  else
    (.error (.runtimeError (ascii "io_uring_get_sqe returned null")),
      { s with slots := s.slots.set slotIndex slot })

/-- One round of the `for` over the slots. -/
def fill (k : Kernel) (slotIndex submitted : Nat) (s : IoUringState) : IoUringState :=
  match s.slots[slotIndex]? with
  | none => { s with phase := .submit submitted }
  | some slot =>
      if s.nextIndex ≥ call.length ∨ s.inFlight ≥ call.depth ∨ submitted ≥ call.batch then
        { s with phase := .submit submitted }
      else if slot.inFlight ∨ slot.remaining ≠ 0 then
        { s with phase := .fill (slotIndex + 1) submitted }
      else
        let size := min call.maxBytesPerSqe (call.length - s.nextIndex)
        match call.prepFileSqe k
            { offset := call.offset + s.nextIndex
              baseIndex := s.nextIndex
              remaining := size
              submittedLength := size
              inFlight := false } slotIndex s with
        | (.error e, s) => s.finish (.error e)
        | (.ok _, s) => { s with
            nextIndex := s.nextIndex + size
            inFlight := s.inFlight + 1
            phase := .fill (slotIndex + 1) (submitted + 1) }

/-- May the kernel complete the request with this result? -/
def MayComplete (request : IoUringRequest) (result : Int) (s : IoUringState) : Prop :=
  result.toNat ≤ request.nbytes ∧
    (0 < result → s.data.CanMove call.operation request.fileOffset result.toNat)

instance (request : IoUringRequest) (result : Int) (s : IoUringState) :
    Decidable (call.MayComplete request result s) :=
  inferInstanceAs (Decidable (_ ∧ _))

/-- The kernel completes the request at `index`. -/
def complete (index : Nat) (request : IoUringRequest) (result : Int) (s : IoUringState) :
    IoUringState :=
  let s := { s with taken := s.taken.eraseIdx index }
  if 0 < result then
    { s with
      data := s.data.moved call.operation request.fileOffset request.position result.toNat
      moves := s.moves ++ [⟨request.fileOffset, request.position, result.toNat⟩] }
  else s

/-- What is left of a slot's piece is submitted again. -/
def resubmit (k : Kernel) (slot : IoUringSlot) (slotIndex : Nat) (s : IoUringState) :
    Option IoUringState :=
  match call.prepFileSqe k { slot with submittedLength := slot.remaining } slotIndex s with
  | (.error e, s) => some (s.finish (.error e))
  | (.ok _, s) =>
      match s.submitPending k 1 with
      | none => none
      | some (.error e, s) => some (s.finish (.error e))
      | some (.ok _, s) => some { s with inFlight := s.inFlight + 1, phase := .loop }

/-- The rest of the loop's body, for the completion of `slotIndex`. -/
def handle (k : Kernel) (slot : IoUringSlot) (slotIndex : Nat) (s : IoUringState) :
    Option IoUringState :=
  match handleCompletionResult call.operation k.result slot with
  | (.error e, slot) => some ({ s with slots := s.slots.set slotIndex slot }.finish (.error e))
  | (.ok _, slot) =>
      if slot.remaining > 0 then
        call.resubmit k slot slotIndex { s with inFlight := s.inFlight - 1 }
      else
        some { s with
          slots := s.slots.set slotIndex {}
          inFlight := s.inFlight - 1
          phase := .loop }

/-- The slot a completion names. -/
def dispatch (k : Kernel) (encodedSlot : Nat) (s : IoUringState) : Option IoUringState :=
  if encodedSlot = 0 then some s.missingSlot
  else
    match s.slots[encodedSlot - 1]? with
    | none => some s.missingSlot
    | some slot =>
        if slot.inFlight then call.handle k slot (encodedSlot - 1) s
        else some s.missingSlot

/-- From `io_uring_wait_cqe` on.  Without a taken request it does not return. -/
def wait (k : Kernel) (s : IoUringState) : Option IoUringState :=
  if k.waitResult < 0 then
    if isRetryError (-k.waitResult) then some { s with phase := .loop }
    else some (s.finish (.error (ioUringStatus (ascii "io_uring_wait_cqe") (-k.waitResult))))
  else
    match s.taken[k.completes]? with
    | none => none
    | some request =>
        if call.MayComplete request k.result s then
          call.dispatch k request.userData (call.complete k.completes request k.result s)
        else none

/-- One step of the loop, with what the kernel chooses in it. -/
def step (k : Kernel) (s : IoUringState) : Option IoUringState :=
  match s.phase with
  | .finished _ => none
  | .loop =>
      if s.nextIndex < call.length ∨ s.inFlight > 0 then some { s with phase := .fill 0 0 }
      else some (s.finish (.ok ()))
  | .fill slotIndex submitted => some (call.fill k slotIndex submitted s)
  | .submit submitted => s.submit k submitted
  | .wait => call.wait k s

/-- What the checks before the loop say. -/
def accept (initResult : Int) : Except Status Unit := do
  validateOffset call.offset call.length
    (match call.operation with
      | .read => ascii "read"
      | .write => ascii "write")
  initRing initResult

/-- The state in which the loop starts, or in which the call has returned
already. -/
def begin (initResult : Int) : IoUringState where
  slots := List.replicate call.depth {}
  nextIndex := 0
  inFlight := 0
  phase :=
    if call.length = 0 then .finished (.ok ())
    else
      match call.accept initResult with
      | .error e => .finished (.error e)
      | .ok _ => .loop
  prepared := []
  taken := []
  data := call.data
  moves := []

/-- The runs of the call. -/
def runs : Transition.System IoUringState Kernel where
  initial s := ∃ initResult, s = call.begin initResult
  step k s s' := call.step k s = some s'

end IoUringCall

/-- `ioUringReadAtAll`: from the file into the buffer. -/
def ioUringReadAtAll (offset queueDepth batchSize : Nat) (data : FileData) : IoUringCall :=
  ⟨.read, offset, queueDepth, batchSize, data⟩

/-- `ioUringWriteAtAll`: from the buffer into the file. -/
def ioUringWriteAtAll (offset queueDepth batchSize : Nat) (data : FileData) : IoUringCall :=
  ⟨.write, offset, queueDepth, batchSize, data⟩

end GridFlux
