/-
GridFlux/Frame.lean

`core/protocol/frame.cpp`: the 64-byte frame header and the three payloads
that have a layout of their own (SessionInit, ResumeResponse, ChunkComplete).

Every integer is big-endian and the fields of a header lie one after the other
without gaps, so an encoder is a concatenation and a decoder reads fields at
their offsets.

Main results: an encoded header decodes to itself (`decodeFrameHeader_encode`),
a SessionInit payload does when it can be encoded at all
(`decodeSessionInitPayload_encode`), and what a valid DATA header promises
(`validateFrameHeader_data`).
-/
import GridFlux.BigEndian
import GridFlux.RangeList
import GridFlux.Checksum

namespace GridFlux

open HalfOpen

def kFrameMagic : UInt32 := 0x47465831
def kFrameVersion : UInt16 := 1
def kFrameHeaderSize : UInt16 := 64

inductive FrameType
  | data
  | fin
  | complete
  | error
  | sessionInit
  | resumeResponse
  | chunkComplete
deriving DecidableEq, Repr

inductive FrameStatusCode
  | ok
  | invalidFrame
  | writeFailed
  | sizeMismatch
  | duplicateRange
  | rangeOutOfBounds
  | missingRange
  | outputExists
  | internalError
  | checksumMismatch
  | checksumUnsupported
  | manifestCorrupt
deriving DecidableEq, Repr

inductive SessionMode
  | new
  | resume
deriving DecidableEq, Repr

/-! ### Names on the wire -/

def FrameType.toUInt16 : FrameType → UInt16
  | .data => 1
  | .fin => 2
  | .complete => 3
  | .error => 4
  | .sessionInit => 5
  | .resumeResponse => 6
  | .chunkComplete => 7

/-- The frame type of a number for which `isKnownType` holds. -/
def frameType? (type : UInt16) : Option FrameType :=
  [.data, .fin, .complete, .error, .sessionInit, .resumeResponse, .chunkComplete].find?
    fun known => known.toUInt16 = type

def FrameStatusCode.toUInt32 : FrameStatusCode → UInt32
  | .ok => 0
  | .invalidFrame => 1
  | .writeFailed => 2
  | .sizeMismatch => 3
  | .duplicateRange => 4
  | .rangeOutOfBounds => 5
  | .missingRange => 6
  | .outputExists => 7
  | .internalError => 8
  | .checksumMismatch => 9
  | .checksumUnsupported => 10
  | .manifestCorrupt => 11

/-- The status code of a number for which `isKnownStatus` holds. -/
def frameStatus? (status : UInt32) : Option FrameStatusCode :=
  [.ok, .invalidFrame, .writeFailed, .sizeMismatch, .duplicateRange, .rangeOutOfBounds,
    .missingRange, .outputExists, .internalError, .checksumMismatch, .checksumUnsupported,
    .manifestCorrupt].find? fun known => known.toUInt32 = status

def SessionMode.toUInt16 : SessionMode → UInt16
  | .new => 1
  | .resume => 2

/-- The mode of a number for which `isKnownSessionMode` holds. -/
def sessionMode? (mode : UInt16) : Option SessionMode :=
  [.new, .resume].find? fun known => known.toUInt16 = mode

def checksumAlgorithmToUInt16 : ChecksumAlgorithm → UInt16
  | .none => 0
  | .crc32c => 1

/-- The algorithm of a number for which `isKnownChecksumAlgorithm` holds. -/
def checksumAlgorithm? (algorithm : UInt16) : Option ChecksumAlgorithm :=
  [.none, .crc32c].find? fun known => checksumAlgorithmToUInt16 known = algorithm

@[simp] theorem frameType?_toUInt16 (type : FrameType) : frameType? type.toUInt16 = some type := by
  cases type with
  | data => rfl
  | fin => rfl
  | complete => rfl
  | error => rfl
  | sessionInit => rfl
  | resumeResponse => rfl
  | chunkComplete => rfl

@[simp] theorem frameStatus?_toUInt32 (status : FrameStatusCode) :
    frameStatus? status.toUInt32 = some status := by
  cases status with
  | ok => rfl
  | invalidFrame => rfl
  | writeFailed => rfl
  | sizeMismatch => rfl
  | duplicateRange => rfl
  | rangeOutOfBounds => rfl
  | missingRange => rfl
  | outputExists => rfl
  | internalError => rfl
  | checksumMismatch => rfl
  | checksumUnsupported => rfl
  | manifestCorrupt => rfl

@[simp] theorem sessionMode?_toUInt16 (mode : SessionMode) :
    sessionMode? mode.toUInt16 = some mode := by
  cases mode with
  | new => rfl
  | resume => rfl

@[simp] theorem checksumAlgorithm?_toUInt16 (algorithm : ChecksumAlgorithm) :
    checksumAlgorithm? (checksumAlgorithmToUInt16 algorithm) = some algorithm := by
  rcases algorithm with - | -
  · rfl
  · rfl

/-! ### Fixed-width fields -/

/-- `appendU16` / `writeU16`, and likewise below. -/
def putU16 (value : UInt16) : Bytes := BigEndian.encode 2 value.toNat
def putU32 (value : UInt32) : Bytes := BigEndian.encode 4 value.toNat
def putU64 (value : UInt64) : Bytes := BigEndian.encode 8 value.toNat

/-- `readU16` / `readPayloadU16`, and likewise below. -/
def readU16 (bytes : Bytes) (offset : Nat) : UInt16 :=
  UInt16.ofNat (BigEndian.decode (BigEndian.fieldAt bytes offset 2))
def readU32 (bytes : Bytes) (offset : Nat) : UInt32 :=
  UInt32.ofNat (BigEndian.decode (BigEndian.fieldAt bytes offset 4))
def readU64 (bytes : Bytes) (offset : Nat) : UInt64 :=
  UInt64.ofNat (BigEndian.decode (BigEndian.fieldAt bytes offset 8))

@[simp] theorem length_putU16 (value : UInt16) : (putU16 value).length = 2 :=
  BigEndian.length_encode _ _
@[simp] theorem length_putU32 (value : UInt32) : (putU32 value).length = 4 :=
  BigEndian.length_encode _ _
@[simp] theorem length_putU64 (value : UInt64) : (putU64 value).length = 8 :=
  BigEndian.length_encode _ _

@[simp] theorem readU16_putU16 (value : UInt16) (rest : Bytes) :
    readU16 (putU16 value ++ rest) 0 = value := by
  rw [readU16, BigEndian.fieldAt_append_left (length_putU16 value), putU16,
    BigEndian.decode_encode value.toNat_lt, UInt16.ofNat_toNat]

@[simp] theorem readU32_putU32 (value : UInt32) (rest : Bytes) :
    readU32 (putU32 value ++ rest) 0 = value := by
  rw [readU32, BigEndian.fieldAt_append_left (length_putU32 value), putU32,
    BigEndian.decode_encode value.toNat_lt, UInt32.ofNat_toNat]

@[simp] theorem readU64_putU64 (value : UInt64) (rest : Bytes) :
    readU64 (putU64 value ++ rest) 0 = value := by
  rw [readU64, BigEndian.fieldAt_append_left (length_putU64 value), putU64,
    BigEndian.decode_encode value.toNat_lt, UInt64.ofNat_toNat]

/-! Reading behind the first field. -/

theorem readU16_append {field rest : Bytes} {offset : Nat} (h : field.length ≤ offset) :
    readU16 (field ++ rest) offset = readU16 rest (offset - field.length) := by
  rw [readU16, BigEndian.fieldAt_append_right h, readU16]

theorem readU32_append {field rest : Bytes} {offset : Nat} (h : field.length ≤ offset) :
    readU32 (field ++ rest) offset = readU32 rest (offset - field.length) := by
  rw [readU32, BigEndian.fieldAt_append_right h, readU32]

theorem readU64_append {field rest : Bytes} {offset : Nat} (h : field.length ≤ offset) :
    readU64 (field ++ rest) offset = readU64 rest (offset - field.length) := by
  rw [readU64, BigEndian.fieldAt_append_right h, readU64]

/-! ### The header -/

structure FrameHeader where
  magic : UInt32 := kFrameMagic
  version : UInt16 := kFrameVersion
  headerSize : UInt16 := kFrameHeaderSize
  type : FrameType := .data
  flags : UInt16 := 0
  streamId : UInt32 := 0
  chunkId : UInt64 := 0
  offset : UInt64 := 0
  payloadSize : UInt32 := 0
  statusCode : FrameStatusCode := .ok
  totalSize : UInt64 := 0
deriving DecidableEq, Repr

/-- `EncodedFrameHeader`: an array of 64 bytes. -/
structure EncodedFrameHeader where
  bytes : Bytes
  size : bytes.length = kFrameHeaderSize.toNat
deriving DecidableEq

def encodeFrameHeader (header : FrameHeader) : EncodedFrameHeader where
  bytes :=
    putU32 header.magic ++ (putU16 header.version ++ (putU16 header.headerSize ++
      (putU16 header.type.toUInt16 ++ (putU16 header.flags ++ (putU32 header.streamId ++
        (putU64 header.chunkId ++ (putU64 header.offset ++ (putU32 header.payloadSize ++
          (putU32 header.statusCode.toUInt32 ++ (putU64 header.totalSize ++
            (putU64 0 ++ putU64 0)))))))))))
  size := by simp [kFrameHeaderSize]

def decodeFrameHeader (encoded : EncodedFrameHeader) : Except Status FrameHeader :=
  match frameType? (readU16 encoded.bytes 8) with
  | none => .error (.invalidArgument (ascii "invalid frame type"))
  | some type =>
      match frameStatus? (readU32 encoded.bytes 36) with
      | none => .error (.invalidArgument (ascii "invalid frame status code"))
      | some statusCode =>
          if readU64 encoded.bytes 48 ≠ 0 ∨ readU64 encoded.bytes 56 ≠ 0 then
            .error (.invalidArgument (ascii "frame reserved fields must be zero"))
          else
            .ok
              { magic := readU32 encoded.bytes 0
                version := readU16 encoded.bytes 4
                headerSize := readU16 encoded.bytes 6
                type := type
                flags := readU16 encoded.bytes 10
                streamId := readU32 encoded.bytes 12
                chunkId := readU64 encoded.bytes 16
                offset := readU64 encoded.bytes 24
                payloadSize := readU32 encoded.bytes 32
                statusCode := statusCode
                totalSize := readU64 encoded.bytes 40 }

/-- An encoded header decodes to itself. -/
theorem decodeFrameHeader_encode (header : FrameHeader) :
    decodeFrameHeader (encodeFrameHeader header) = .ok header := by
  -- the zero fields at the end are read with nothing behind them
  have hlast : ∀ value : UInt64, readU64 (putU64 value) 0 = value := fun value => by
    have h := readU64_putU64 value []
    rwa [List.append_nil] at h
  simp [decodeFrameHeader, encodeFrameHeader, readU16_append, readU32_append, readU64_append,
    hlast]

def validateFrameHeader (header : FrameHeader) (maxPayloadSize : UInt32) : Except Status Unit := do
  require (header.magic = kFrameMagic) (.invalidArgument (ascii "invalid frame magic"))
  require (header.version = kFrameVersion) (.invalidArgument (ascii "invalid frame version"))
  require (header.headerSize = kFrameHeaderSize)
    (.invalidArgument (ascii "invalid frame header size"))
  require (header.flags = 0) (.invalidArgument (ascii "frame flags must be zero"))
  require (header.payloadSize ≤ maxPayloadSize)
    (.invalidArgument (ascii "frame payload exceeds buffer size"))
  match header.type with
  | .complete => do
      require (header.payloadSize = 0)
        (.invalidArgument (ascii "COMPLETE frame must not carry payload"))
      require (header.statusCode = .ok)
        (.invalidArgument (ascii "COMPLETE frame status must be OK"))
  | .error => do
      require (header.payloadSize = 0)
        (.invalidArgument (ascii "ERROR frame must not carry payload"))
      require (header.statusCode ≠ .ok)
        (.invalidArgument (ascii "ERROR frame status must not be OK"))
  | .sessionInit | .resumeResponse | .chunkComplete => do
      require (header.payloadSize ≠ 0)
        (.invalidArgument (ascii "control frame must carry payload"))
      require (header.statusCode = .ok)
        (.invalidArgument (ascii "control frame status must be OK"))
  | .fin => do
      require (header.statusCode = .ok)
        (.invalidArgument (ascii "DATA/FIN frame status must be OK"))
      require (header.payloadSize = 0)
        (.invalidArgument (ascii "FIN frame must not carry payload"))
  | .data => do
      require (header.statusCode = .ok)
        (.invalidArgument (ascii "DATA/FIN frame status must be OK"))
      require (header.payloadSize ≠ 0)
        (.invalidArgument (ascii "DATA frame payload must be greater than zero"))
      require (¬(header.offset > header.totalSize ∨
          header.payloadSize.toUInt64 > header.totalSize - header.offset))
        (.invalidArgument (ascii "frame payload range exceeds total size"))

/-- A valid DATA header describes bytes inside the transfer. -/
theorem validateFrameHeader_data {header : FrameHeader} {maxPayloadSize : UInt32} {u : Unit}
    (h : validateFrameHeader header maxPayloadSize = .ok u) (htype : header.type = .data) :
    header.offset.toNat + header.payloadSize.toNat ≤ header.totalSize.toNat := by
  simp only [validateFrameHeader, bind_eq_ok, require_eq_ok, htype, not_or, gt_iff_lt,
    UInt64.not_lt] at h
  obtain ⟨-, -, -, -, -, -, -, -, -, -, -, -, -, -, hoffset, hpayload⟩ := h
  have hle : header.offset.toNat ≤ header.totalSize.toNat := UInt64.le_iff_toNat_le.mp hoffset
  have hsize := UInt64.le_iff_toNat_le.mp hpayload
  rw [UInt64.toNat_sub_of_le _ _ hoffset] at hsize
  have hcast : header.payloadSize.toUInt64.toNat = header.payloadSize.toNat := by simp
  omega

/-! ### Payloads -/

structure SessionInitPayload where
  mode : SessionMode := .new
  transferId : Bytes := []
  totalSize : UInt64 := 0
  chunkSize : UInt64 := 0
  checksumAlgorithm : ChecksumAlgorithm := .crc32c
  sourcePath : Bytes := []
deriving DecidableEq, Repr

structure ResumeResponsePayload where
  statusCode : FrameStatusCode := .ok
  missingRanges : List CompletedRange := []
deriving DecidableEq, Repr

structure ChunkCompletePayload where
  chunkId : UInt64
  offset : UInt64
  length : UInt64
  checksum : ChecksumValue
deriving DecidableEq, Repr

/-- The `source_path` extension, which an empty path does not get. -/
def sourcePathExtension (sourcePath : Bytes) : Bytes :=
  if sourcePath = [] then []
  else putU16 (UInt16.ofNat sourcePath.length) ++ (putU16 0 ++ sourcePath)

def encodeSessionInitPayload (payload : SessionInitPayload) : Except Status Bytes := do
  require (¬(payload.transferId = [] ∨ payload.transferId.length > 65535))
    (.invalidArgument (ascii "invalid transfer_id length"))
  require (payload.sourcePath.length ≤ 65535)
    (.invalidArgument (ascii "invalid source_path length"))
  require (payload.chunkSize ≠ 0)
    (.invalidArgument (ascii "chunk_size must be greater than zero"))
  return putU16 payload.mode.toUInt16 ++ (putU16 (UInt16.ofNat payload.transferId.length) ++
    (putU16 (checksumAlgorithmToUInt16 payload.checksumAlgorithm) ++ (putU16 0 ++
      (putU64 payload.totalSize ++ (putU64 payload.chunkSize ++
        (payload.transferId ++ sourcePathExtension payload.sourcePath))))))

/-- The `source_path` extension read back from `extensionOffset`. -/
def decodeSourcePath (data : Bytes) (extensionOffset : Nat) : Except Status Bytes :=
  if data.length = extensionOffset then .ok []
  else do
    require (¬data.length < extensionOffset + 4)
      (.invalidArgument (ascii "invalid source_path extension length"))
    require (readU16 data (extensionOffset + 2) = 0)
      (.invalidArgument (ascii "session init source_path reserved field must be zero"))
    require (data.length = extensionOffset + 4 + (readU16 data extensionOffset).toNat)
      (.invalidArgument (ascii "invalid source_path payload length"))
    return BigEndian.fieldAt data (extensionOffset + 4) (readU16 data extensionOffset).toNat

def decodeSessionInitPayload (data : Bytes) : Except Status SessionInitPayload := do
  require (¬data.length < 24) (.invalidArgument (ascii "session init payload is too small"))
  match sessionMode? (readU16 data 0) with
  | none => .error (.invalidArgument (ascii "invalid session mode"))
  | some mode =>
      match checksumAlgorithm? (readU16 data 4) with
      | none => .error (.invalidArgument (ascii "invalid checksum algorithm"))
      | some checksumAlgorithm => do
          require (readU16 data 6 = 0)
            (.invalidArgument (ascii "session init reserved field must be zero"))
          let transferIdSize := (readU16 data 2).toNat
          require (¬(transferIdSize = 0 ∨ data.length < 24 + transferIdSize))
            (.invalidArgument (ascii "invalid transfer_id payload length"))
          let sourcePath ← decodeSourcePath data (24 + transferIdSize)
          require (readU64 data 16 ≠ 0)
            (.invalidArgument (ascii "chunk_size must be greater than zero"))
          return {
            mode := mode
            transferId := BigEndian.fieldAt data 24 transferIdSize
            totalSize := readU64 data 8
            chunkSize := readU64 data 16
            checksumAlgorithm := checksumAlgorithm
            sourcePath := sourcePath }

def encodeResumeResponsePayload (payload : ResumeResponsePayload) : Except Status Bytes := do
  require (payload.missingRanges.length ≤ (2 ^ 32 - 1 - 8) / 16)
    (.invalidArgument (ascii "too many missing ranges"))
  return putU32 payload.statusCode.toUInt32 ++
    (putU32 (UInt32.ofNat payload.missingRanges.length) ++
      payload.missingRanges.flatMap fun range =>
        putU64 (UInt64.ofNat range.begin) ++ putU64 (UInt64.ofNat (range.end - range.begin)))

/-- The loop of `decodeResumeResponsePayload`. -/
def decodeMissingRanges (data : Bytes) : Nat → Nat → Except Status (List CompletedRange)
  | 0, _ => .ok []
  | count + 1, offset => do
      let begin := (readU64 data offset).toNat
      let length := (readU64 data (offset + 8)).toNat
      require (length ≠ 0)
        (.invalidArgument (ascii "missing range length must be greater than zero"))
      require (begin ≤ 2 ^ 64 - 1 - length)
        (.invalidArgument (ascii "missing range overflows uint64"))
      let rest ← decodeMissingRanges data count (offset + 16)
      return ⟨begin, begin + length⟩ :: rest

def decodeResumeResponsePayload (data : Bytes) : Except Status ResumeResponsePayload := do
  require (¬(data.length < 8 ∨ (data.length - 8) % 16 ≠ 0))
    (.invalidArgument (ascii "invalid resume response payload size"))
  match frameStatus? (readU32 data 0) with
  | none => .error (.invalidArgument (ascii "invalid resume response status"))
  | some statusCode => do
      let rangeCount := (readU32 data 4).toNat
      require (data.length = 8 + rangeCount * 16)
        (.invalidArgument (ascii "resume response range count mismatch"))
      let missingRanges ← decodeMissingRanges data rangeCount 8
      return ⟨statusCode, missingRanges⟩

def encodeChunkCompletePayload (payload : ChunkCompletePayload) : Except Status Bytes := do
  require (payload.length ≠ 0)
    (.invalidArgument (ascii "chunk complete length must be greater than zero"))
  return putU64 payload.chunkId ++ (putU64 payload.offset ++ (putU64 payload.length ++
    (putU16 (checksumAlgorithmToUInt16 payload.checksum.algorithm) ++ (putU16 0 ++
      putU32 (UInt32.ofBitVec payload.checksum.value)))))

def decodeChunkCompletePayload (data : Bytes) : Except Status ChunkCompletePayload := do
  require (data.length = 32) (.invalidArgument (ascii "invalid chunk complete payload size"))
  match checksumAlgorithm? (readU16 data 24) with
  | none => .error (.invalidArgument (ascii "invalid chunk checksum algorithm"))
  | some algorithm => do
      require (readU16 data 26 = 0)
        (.invalidArgument (ascii "chunk complete reserved field must be zero"))
      require (readU64 data 16 ≠ 0)
        (.invalidArgument (ascii "chunk complete length must be greater than zero"))
      return {
        chunkId := readU64 data 0
        offset := readU64 data 8
        length := readU64 data 16
        checksum := ⟨algorithm, (readU32 data 28).toBitVec⟩ }

/-! ### A SessionInit payload reads back -/

theorem decodeSourcePath_append {head sourcePath : Bytes} (h : sourcePath.length ≤ 65535) :
    decodeSourcePath (head ++ sourcePathExtension sourcePath) head.length = .ok sourcePath := by
  by_cases hnil : sourcePath = []
  · simp [decodeSourcePath, sourcePathExtension, hnil]
  · have hsize : (UInt16.ofNat sourcePath.length).toNat = sourcePath.length :=
      UInt16.toNat_ofNat_of_lt' (by show _ < 65536; omega)
    have hread : BigEndian.fieldAt (head ++ sourcePathExtension sourcePath) (head.length + 4)
        sourcePath.length = sourcePath := by
      rw [sourcePathExtension, if_neg hnil, BigEndian.fieldAt_append_right (by omega),
        BigEndian.fieldAt_append_right (by simp), BigEndian.fieldAt_append_right (by simp)]
      simp [BigEndian.fieldAt]
    rw [decodeSourcePath, if_neg (by simp [sourcePathExtension, hnil]), require_pos
      (by simp [sourcePathExtension, hnil]; omega), ok_bind]
    have hreserved : readU16 (head ++ sourcePathExtension sourcePath) (head.length + 2) = 0 := by
      rw [readU16_append (by omega), sourcePathExtension, if_neg hnil, readU16_append (by simp)]
      simp
    have hlength : readU16 (head ++ sourcePathExtension sourcePath) head.length =
        UInt16.ofNat sourcePath.length := by
      rw [readU16_append (by omega), sourcePathExtension, if_neg hnil]
      simp
    rw [require_pos hreserved, ok_bind, hlength, hsize, require_pos
      (by simp [sourcePathExtension, hnil]; omega), ok_bind, hread]
    rfl

/-- A SessionInit payload that can be encoded decodes to itself. -/
theorem decodeSessionInitPayload_encode {payload : SessionInitPayload} {data : Bytes}
    (h : encodeSessionInitPayload payload = .ok data) :
    decodeSessionInitPayload data = .ok payload := by
  simp only [encodeSessionInitPayload, bind_eq_ok, require_eq_ok] at h
  obtain ⟨-, hid, -, hpath, -, hchunk, hdata⟩ := h
  replace hdata := Except.ok.inj hdata
  obtain ⟨hne, hlen⟩ := not_or.mp hid
  have hsize : (UInt16.ofNat payload.transferId.length).toNat = payload.transferId.length :=
    UInt16.toNat_ofNat_of_lt' (by show _ < 65536; omega)
  have hmode : readU16 data 0 = payload.mode.toUInt16 := by simp [← hdata]
  have hidSize : (readU16 data 2).toNat = payload.transferId.length := by
    simpa [← hdata, readU16_append] using hsize
  have halgorithm : readU16 data 4 = checksumAlgorithmToUInt16 payload.checksumAlgorithm := by
    simp [← hdata, readU16_append]
  have hreserved : readU16 data 6 = 0 := by simp [← hdata, readU16_append]
  have htotalSize : readU64 data 8 = payload.totalSize := by simp [← hdata, readU64_append]
  have hchunkSize : readU64 data 16 = payload.chunkSize := by simp [← hdata, readU64_append]
  have htransferId : BigEndian.fieldAt data 24 payload.transferId.length = payload.transferId := by
    simp [← hdata, BigEndian.fieldAt_append_right, BigEndian.fieldAt_append_left]
  have hlong : ¬data.length < 24 + payload.transferId.length := by
    simp only [← hdata, List.length_append, length_putU16, length_putU64]
    omega
  have hsource : decodeSourcePath data (24 + payload.transferId.length) =
      .ok payload.sourcePath := by
    have h := @decodeSourcePath_append (putU16 payload.mode.toUInt16 ++
      (putU16 (UInt16.ofNat payload.transferId.length) ++
        (putU16 (checksumAlgorithmToUInt16 payload.checksumAlgorithm) ++ (putU16 0 ++
          (putU64 payload.totalSize ++ (putU64 payload.chunkSize ++ payload.transferId))))))
      payload.sourcePath hpath
    simp only [List.append_assoc, List.length_append, length_putU16, length_putU64, hdata] at h
    rw [← h]
    congr 1
    omega
  have hpos : payload.transferId.length ≠ 0 := by simpa using hne
  rw [decodeSessionInitPayload, require_pos (by omega), ok_bind, hmode, sessionMode?_toUInt16]
  simp only [halgorithm, checksumAlgorithm?_toUInt16]
  rw [require_pos hreserved, ok_bind, hidSize, require_pos (by omega), ok_bind, hsource, ok_bind,
    hchunkSize, require_pos hchunk, ok_bind, htransferId, htotalSize]
  rfl

end GridFlux
