/-
GridFlux/FrameReading.lean

How the upload receiver reads frames from a data connection, byte by byte:
`readFromConnection`, which is called whenever a non-blocking socket has
something, and `readFromTlsConnection`, which waits for what it needs
(`core/io/file_transfer_server.cpp`).

Both fill the connection's two arrays and hand a full header or payload to the
handlers of FileTransferServer.  A reader keeps the bytes its peer has sent and
it has not received (`socket`), and notes what it hands to the handlers
(`dispatched`) and each `recv` it makes (`issued`).

The bounded writeback profile makes a reader pause now and then
(`applyReceiverDrainBudget`); the waiting it does there is not modelled.
-/
import GridFlux.Framing
import GridFlux.UploadRuns

namespace GridFlux

open Framing

namespace FileTransferServer

inductive ReceiverWriteProfile
  | default
  | bounded
deriving DecidableEq, Repr

structure ReceiverWritebackConfig where
  profile : ReceiverWriteProfile
  maxPendingBytes : UInt64
deriving DecidableEq, Repr

/-- What does not change while a connection is read. -/
structure ReaderSetup where
  options : FileTransferOptions
  receiverWriteback : ReceiverWritebackConfig
  /-- the number of the connection -/
  index : Nat
  /-- the peer closes the connection after its last byte -/
  peerCloses : Bool
  /-- what a blocking read then fails with -/
  closedStatus : Status

/-- What the handlers are given. -/
inductive Dispatch
  | header (encoded : EncodedFrameHeader)
  | payload (header : FrameHeader) (bytes : Bytes)

/-- What the handlers read and change, and what they have been given. -/
structure Serving where
  connection : FileServerConnection
  transfer : TransferState
  receiverDrainWindowBytes : UInt64
  world : World
  dispatched : List Dispatch

/-- A `recv` of at most `length` bytes, to be stored from `index` on in an array
of `capacity` bytes. -/
structure Receive where
  capacity : Nat
  index : Nat
  length : Nat
deriving DecidableEq, Repr

/-- A connection with its arrays. -/
structure FrameReader where
  serving : Serving
  encodedHeader : EncodedFrameHeader
  payloadBuffer : Bytes
  headerBytesRead : Nat
  payloadBytesRead : Nat
  budgetPauseRequested : Bool
  socket : Bytes
  issued : List Receive

/-- What the network makes of a `recv`. -/
inductive RecvEvent
  /-- so many bytes have arrived, if the peer has sent them -/
  | arrived (bytes : Nat)
  | wouldBlock
  | interrupted
deriving DecidableEq, Repr

/-- What a `recv` returns. -/
inductive RecvResult
  | bytes (data : Bytes)
  | zero
  | wouldBlock
  | interrupted

/-- How a call ends. -/
inductive ReadResult
  | returned
  /-- the peer has closed the connection -/
  | closed (e : TransferError)
  | refused (e : TransferError)
  /-- the call waits for bytes that do not come -/
  | blocked

namespace Serving

/-- `processCompletedHeader`. -/
def processHeader (setup : ReaderSetup) (encoded : EncodedFrameHeader) (s : Serving) :
    Except TransferError Unit × Serving :=
  let s := { s with dispatched := s.dispatched ++ [Dispatch.header encoded] }
  match processCompletedHeader setup.options s.connection s.transfer encoded with
  | .error e => (.error e, s)
  | .ok (connection, transfer) => (.ok (), { s with connection := connection, transfer := transfer })

/-- `applyReceiverDrainBudget`: the window it leaves, and whether a pause is
requested. -/
def applyReceiverDrainBudget (writeback : ReceiverWritebackConfig) (window writtenBytes : UInt64) :
    UInt64 × Bool :=
  if writeback.profile ≠ .bounded ∨ writtenBytes = 0 then (window, false)
  else if window + writtenBytes < writeback.maxPendingBytes then (window + writtenBytes, false)
  else (0, true)

/-- `processCompletedPayload`, with the budget a DATA frame is charged to. -/
def processPayload (setup : ReaderSetup) (bytes : Bytes) (s : Serving) :
    Except TransferError Unit × Serving × Bool :=
  let header := s.connection.currentHeader
  let s := { s with dispatched := s.dispatched ++ [Dispatch.payload header bytes] }
  match processCompletedPayload setup.options setup.index s.connection s.transfer bytes s.world with
  | (.error e, connection, transfer, world) =>
      (.error e, { s with connection := connection, transfer := transfer, world := world }, false)
  | (.ok _, connection, transfer, world) =>
      let (window, pause) :=
        if header.type = .sessionInit ∨ header.type = .chunkComplete then
          (s.receiverDrainWindowBytes, false)
        else
          applyReceiverDrainBudget setup.receiverWriteback s.receiverDrainWindowBytes
            header.payloadSize.toUInt64
      (.ok (), { s with
        connection := connection
        transfer := transfer
        receiverDrainWindowBytes := window
        world := world }, pause)

def payloadSize (s : Serving) : Nat := s.connection.currentHeader.payloadSize.toNat

end Serving

/-- An `EncodedFrameHeader` with `data` stored from `index` on. -/
def storeHeader (encoded : EncodedFrameHeader) (index : Nat) (data : Bytes) :
    EncodedFrameHeader where
  bytes := store encoded.bytes index data
  size := by rw [length_store, encoded.size]

def kHeaderBytes : Nat := kFrameHeaderSize.toNat

namespace FrameReader

/-- A connection that has just been accepted, in the state the transfer is in. -/
def accepted (setup : ReaderSetup) (transfer : TransferState) (window : UInt64) (world : World)
    (stream : Bytes) : FrameReader where
  serving := ⟨.new setup.options, transfer, window, world, []⟩
  encodedHeader := ⟨List.replicate kHeaderBytes 0, List.length_replicate⟩
  payloadBuffer := List.replicate setup.options.bufferSize.toNat 0
  headerBytesRead := 0
  payloadBytesRead := 0
  budgetPauseRequested := false
  socket := stream
  issued := []

/-- A `recv` of `length` bytes.  It returns zero at the end of the stream, and
also where nothing is asked for. -/
def recv (setup : ReaderSetup) (event : RecvEvent) (length : Nat) (r : FrameReader) : RecvResult :=
  match event with
  | .wouldBlock => .wouldBlock
  | .interrupted => .interrupted
  | .arrived n =>
      if length = 0 then .zero
      else if r.socket = [] then if setup.peerCloses then .zero else .wouldBlock
      else .bytes (r.socket.take (min (max 1 n) length))

/-- `data` has been received into the header. -/
def receivedHeader (data : Bytes) (r : FrameReader) : FrameReader :=
  { r with
    encodedHeader := storeHeader r.encodedHeader r.headerBytesRead data
    headerBytesRead := r.headerBytesRead + data.length
    socket := r.socket.drop data.length }

def receivedPayload (data : Bytes) (r : FrameReader) : FrameReader :=
  { r with
    payloadBuffer := store r.payloadBuffer r.payloadBytesRead data
    payloadBytesRead := r.payloadBytesRead + data.length
    socket := r.socket.drop data.length }

/-- The call of `processCompletedHeader` on the connection's array. -/
def completeHeader (setup : ReaderSetup) (r : FrameReader) : Except TransferError Unit × FrameReader :=
  match r.serving.processHeader setup r.encodedHeader with
  | (.error e, s) => (.error e, { r with serving := s })
  | (.ok _, s) =>
      (.ok (), { r with
        serving := s
        headerBytesRead := 0
        payloadBytesRead :=
          if s.connection.readState = .payload then 0 else r.payloadBytesRead })

/-- The call of `processCompletedPayload`. -/
def completePayload (setup : ReaderSetup) (r : FrameReader) :
    Except TransferError Unit × FrameReader :=
  match r.serving.processPayload setup (r.payloadBuffer.take r.serving.payloadSize) with
  | (.error e, s, _) => (.error e, { r with serving := s })
  | (.ok _, s, pause) =>
      (.ok (), { r with
        serving := s
        payloadBytesRead := 0
        budgetPauseRequested := r.budgetPauseRequested || pause })

def noteReceive (capacity index length : Nat) (r : FrameReader) : FrameReader :=
  { r with issued := r.issued ++ [⟨capacity, index, length⟩] }

def headerRemaining (r : FrameReader) : Nat := kHeaderBytes - r.headerBytesRead

def payloadRemaining (r : FrameReader) : Nat := r.serving.payloadSize - r.payloadBytesRead

/-- How the body of a loop ends: with another round, or with the call. -/
inductive Turn
  | again (r : FrameReader)
  | ends (result : ReadResult) (r : FrameReader)

/-- One round of `readFromConnection` while it reads a header.  That it leaves
the loop after FIN itself is what the loop's condition does anyway. -/
def headerTurn (setup : ReaderSetup) (event : RecvEvent) (r : FrameReader) : Turn :=
  let issued := r.noteReceive r.encodedHeader.bytes.length r.headerBytesRead r.headerRemaining
  match r.recv setup event r.headerRemaining with
  | .bytes data =>
      let received := issued.receivedHeader data
      if received.headerBytesRead = kHeaderBytes then
        match received.completeHeader setup with
        | (.error e, r) => .ends (.refused e) r
        | (.ok _, r) => .again r
      else .again received
  | .zero =>
      .ends (.closed ⟨some .internalError,
        .runtimeError (ascii "connection closed before FIN frame")⟩) issued
  | .wouldBlock => .ends .returned issued
  | .interrupted => .again issued

/-- One round while it reads a payload. -/
def payloadTurn (setup : ReaderSetup) (event : RecvEvent) (r : FrameReader) : Turn :=
  let issued := r.noteReceive r.payloadBuffer.length r.payloadBytesRead r.payloadRemaining
  match r.recv setup event r.payloadRemaining with
  | .bytes data =>
      let received := issued.receivedPayload data
      if received.payloadBytesRead = received.serving.payloadSize then
        match received.completePayload setup with
        | (.error e, r) => .ends (.refused e) r
        | (.ok _, r) =>
            if r.budgetPauseRequested then .ends .returned { r with budgetPauseRequested := false }
            else .again r
      else .again received
  | .zero =>
      .ends (.closed ⟨some .internalError,
        .runtimeError (ascii "connection closed before payload completed")⟩) issued
  | .wouldBlock => .ends .returned issued
  | .interrupted => .again issued

/-- One round of the loop of `readFromConnection`. -/
def turn (setup : ReaderSetup) (event : RecvEvent) (r : FrameReader) : Turn :=
  match r.serving.connection.readState with
  | .done => .ends .returned r
  | .header => r.headerTurn setup event
  | .payload => r.payloadTurn setup event

/-- `readFromConnection`, with what the network makes of its `recv`s.  Where
nothing more is said about them, they would block. -/
def readFromConnection (setup : ReaderSetup) : List RecvEvent → FrameReader → ReadResult × FrameReader
  | [], r => (.returned, r)
  | event :: events, r =>
      match r.turn setup event with
      | .ends result r => (result, r)
      | .again r => readFromConnection setup events r

/-- Repeated calls, up to the first that fails. -/
def readCalls (setup : ReaderSetup) : List (List RecvEvent) → FrameReader → ReadResult × FrameReader
  | [], r => (.returned, r)
  | events :: calls, r =>
      match r.readFromConnection setup events with
      | (.returned, r) => readCalls setup calls r
      | result => result

/-! ### The blocking reader -/

/-- `readAll` of `length` bytes, however the socket splits them.  Without the
bytes it fails or does not return. -/
def readAll (setup : ReaderSetup) (length : Nat) (r : FrameReader) : Except ReadResult Bytes :=
  if length ≤ r.socket.length then .ok (r.socket.take length)
  else if setup.peerCloses then .error (.closed ⟨some .internalError, setup.closedStatus⟩)
  else .error .blocked

/-- One round of the loop of `readFromTlsConnection`. -/
def tlsTurn (setup : ReaderSetup) (r : FrameReader) : Turn :=
  match r.serving.connection.readState with
  | .done => .ends .returned r
  | .header =>
      match r.readAll setup r.headerRemaining with
      | .error result => .ends result r
      | .ok data =>
          match (r.receivedHeader data).completeHeader setup with
          | (.error e, r) => .ends (.refused e) r
          | (.ok _, r) => .again r
  | .payload =>
      match r.readAll setup r.payloadRemaining with
      | .error result => .ends result r
      | .ok data =>
          match (r.receivedPayload data).completePayload setup with
          | (.error e, r) => .ends (.refused e) r
          | (.ok _, r) =>
              if r.budgetPauseRequested then .ends .returned { r with budgetPauseRequested := false }
              else .again r

/-- `readFromTlsConnection` for at most so many rounds. -/
def readFromTlsConnection (setup : ReaderSetup) : Nat → FrameReader → Option (ReadResult × FrameReader)
  | 0, _ => none
  | rounds + 1, r =>
      match r.tlsTurn setup with
      | .ends result r => some (result, r)
      | .again r => readFromTlsConnection setup rounds r

/-- Repeated calls, up to the first that fails or waits. -/
def readTlsCalls (setup : ReaderSetup) (rounds : Nat) :
    Nat → FrameReader → Option (ReadResult × FrameReader)
  | 0, r => some (.returned, r)
  | calls + 1, r =>
      match r.readFromTlsConnection setup rounds with
      | some (.returned, r) => readTlsCalls setup rounds calls r
      | result => result

end FrameReader

end FileTransferServer

end GridFlux
