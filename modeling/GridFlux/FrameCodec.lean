/-
GridFlux/FrameCodec.lean

The codecs of `core/protocol/frame.cpp` in both directions.

* What an encoder writes, the decoder reads back (`wire_roundTrip`).
* What a decoder accepts is what the encoder writes for the decoded value
  (`CanonicalAt`), with one exception: a SessionInit payload may carry a
  `source_path` extension of length zero, which decodes to no source path and
  is then not written again (`canonicalAt_sessionInit_iff`).
-/
import GridFlux.Frame

namespace GridFlux

open HalfOpen BigEndian

/-! ### Names and fields, read first and written again -/

theorem frameType?_eq_some {value : UInt16} {type : FrameType} (h : frameType? value = some type) :
    type.toUInt16 = value := by
  simpa using List.find?_some h

theorem frameStatus?_eq_some {value : UInt32} {status : FrameStatusCode}
    (h : frameStatus? value = some status) : status.toUInt32 = value := by
  simpa using List.find?_some h

theorem sessionMode?_eq_some {value : UInt16} {mode : SessionMode}
    (h : sessionMode? value = some mode) : mode.toUInt16 = value := by
  simpa using List.find?_some h

theorem checksumAlgorithm?_eq_some {value : UInt16} {algorithm : ChecksumAlgorithm}
    (h : checksumAlgorithm? value = some algorithm) :
    checksumAlgorithmToUInt16 algorithm = value := by
  simpa using List.find?_some h

/-- A field is the numeral of what is read at its place. -/
theorem encode_decode_fieldAt {bytes : Bytes} {offset width : Nat}
    (h : offset + width ≤ bytes.length) :
    encode width (decode (fieldAt bytes offset width)) = fieldAt bytes offset width := by
  have hfield := encode_decode (fieldAt bytes offset width)
  rwa [length_fieldAt h] at hfield

theorem decode_fieldAt_lt {bytes : Bytes} {offset width : Nat}
    (h : offset + width ≤ bytes.length) : decode (fieldAt bytes offset width) < 256 ^ width := by
  have hlt := decode_lt (fieldAt bytes offset width)
  rwa [length_fieldAt h] at hlt

theorem putU16_readU16 {bytes : Bytes} {offset : Nat} (h : offset + 2 ≤ bytes.length) :
    putU16 (readU16 bytes offset) = fieldAt bytes offset 2 := by
  rw [putU16, readU16, UInt16.toNat_ofNat_of_lt' (decode_fieldAt_lt h), encode_decode_fieldAt h]

theorem putU32_readU32 {bytes : Bytes} {offset : Nat} (h : offset + 4 ≤ bytes.length) :
    putU32 (readU32 bytes offset) = fieldAt bytes offset 4 := by
  rw [putU32, readU32, UInt32.toNat_ofNat_of_lt' (decode_fieldAt_lt h), encode_decode_fieldAt h]

theorem putU64_readU64 {bytes : Bytes} {offset : Nat} (h : offset + 8 ≤ bytes.length) :
    putU64 (readU64 bytes offset) = fieldAt bytes offset 8 := by
  rw [putU64, readU64, UInt64.toNat_ofNat_of_lt' (decode_fieldAt_lt h), encode_decode_fieldAt h]

/-- Two fields that lie next to each other, the second at a place of its own
spelling. -/
theorem fieldAt_append_next {bytes : Bytes} {offset offset' length length' : Nat}
    (h : offset' = offset + length) :
    fieldAt bytes offset length ++ fieldAt bytes offset' length' =
      fieldAt bytes offset (length + length') := by
  rw [h, fieldAt_append_fieldAt]

/-! ### The header -/

theorem EncodedFrameHeader.ext {a b : EncodedFrameHeader} (h : a.bytes = b.bytes) : a = b := by
  cases a
  cases b
  cases h
  rfl

/-- An accepted header is the encoding of what it decodes to. -/
theorem encodeFrameHeader_decode {encoded : EncodedFrameHeader} {header : FrameHeader}
    (h : decodeFrameHeader encoded = .ok header) : encodeFrameHeader header = encoded := by
  have hsize : encoded.bytes.length = 64 := encoded.size
  rw [decodeFrameHeader] at h
  cases htype : frameType? (readU16 encoded.bytes 8) with
  | none => simp [htype] at h
  | some type =>
      cases hstatus : frameStatus? (readU32 encoded.bytes 36) with
      | none => simp [htype, hstatus] at h
      | some statusCode =>
          simp only [htype, hstatus] at h
          split at h
          · cases h
          · rename_i hreserved
            obtain ⟨hreserved₁, hreserved₂⟩ := not_or.mp hreserved
            obtain rfl := Except.ok.inj h
            apply EncodedFrameHeader.ext
            rw [encodeFrameHeader]
            dsimp only
            rw [frameType?_eq_some htype, frameStatus?_eq_some hstatus]
            -- the reserved fields are read and written as zero
            rw [show (putU64 0 ++ putU64 0 : Bytes) =
                putU64 (readU64 encoded.bytes 48) ++ putU64 (readU64 encoded.bytes 56) by
              rw [not_not.mp hreserved₁, not_not.mp hreserved₂]]
            rw [putU32_readU32 (by omega), putU16_readU16 (by omega), putU16_readU16 (by omega),
              putU16_readU16 (by omega), putU16_readU16 (by omega), putU32_readU32 (by omega),
              putU64_readU64 (by omega), putU64_readU64 (by omega), putU32_readU32 (by omega),
              putU32_readU32 (by omega), putU64_readU64 (by omega), putU64_readU64 (by omega),
              putU64_readU64 (by omega)]
            -- and thirteen fields in a row are the whole header
            rw [fieldAt_append_next rfl, fieldAt_append_next rfl, fieldAt_append_next rfl,
              fieldAt_append_next rfl, fieldAt_append_next rfl, fieldAt_append_next rfl,
              fieldAt_append_next rfl, fieldAt_append_next rfl, fieldAt_append_next rfl,
              fieldAt_append_next rfl, fieldAt_append_next rfl, fieldAt_append_next rfl]
            exact fieldAt_all (by omega)

/-! ### ChunkComplete -/

theorem decodeChunkCompletePayload_encode {payload : ChunkCompletePayload} {data : Bytes}
    (h : encodeChunkCompletePayload payload = .ok data) :
    decodeChunkCompletePayload data = .ok payload := by
  simp only [encodeChunkCompletePayload, bind_eq_ok, require_eq_ok] at h
  obtain ⟨-, hlength, hdata⟩ := h
  replace hdata := Except.ok.inj hdata
  have hlast : ∀ value : UInt32, readU32 (putU32 value) 0 = value := fun value => by
    have h := readU32_putU32 value []
    rwa [List.append_nil] at h
  have hsize : data.length = 32 := by simp [← hdata]
  have halgorithm : readU16 data 24 = checksumAlgorithmToUInt16 payload.checksum.algorithm := by
    simp [← hdata, readU16_append]
  have hreserved : readU16 data 26 = 0 := by simp [← hdata, readU16_append]
  have hchunkId : readU64 data 0 = payload.chunkId := by simp [← hdata]
  have hoffset : readU64 data 8 = payload.offset := by simp [← hdata, readU64_append]
  have hlen : readU64 data 16 = payload.length := by simp [← hdata, readU64_append]
  have hvalue : readU32 data 28 = UInt32.ofBitVec payload.checksum.value := by
    simp [← hdata, readU32_append, hlast]
  rw [decodeChunkCompletePayload, require_pos hsize, ok_bind, halgorithm,
    checksumAlgorithm?_toUInt16]
  simp only
  rw [require_pos hreserved, ok_bind, hlen, require_pos hlength, ok_bind, hchunkId, hoffset,
    hvalue]
  rfl

theorem encodeChunkCompletePayload_decode {payload : ChunkCompletePayload} {data : Bytes}
    (h : decodeChunkCompletePayload data = .ok payload) :
    encodeChunkCompletePayload payload = .ok data := by
  rw [decodeChunkCompletePayload, bind_eq_ok] at h
  obtain ⟨_, hsize, h⟩ := h
  replace hsize := require_eq_ok.mp hsize
  cases halgorithm : checksumAlgorithm? (readU16 data 24) with
  | none => simp [halgorithm] at h
  | some algorithm =>
      simp only [halgorithm, bind_eq_ok, require_eq_ok] at h
      obtain ⟨-, hreserved, -, hlength, hpayload⟩ := h
      obtain rfl := Except.ok.inj hpayload
      rw [encodeChunkCompletePayload, require_pos hlength, ok_bind]
      refine congrArg Except.ok ?_
      dsimp only
      rw [checksumAlgorithm?_eq_some halgorithm, ← hreserved, UInt32.ofBitVec_toBitVec,
        putU64_readU64 (by omega), putU64_readU64 (by omega), putU64_readU64 (by omega),
        putU16_readU16 (by omega), putU16_readU16 (by omega), putU32_readU32 (by omega),
        fieldAt_append_next rfl, fieldAt_append_next rfl, fieldAt_append_next rfl,
        fieldAt_append_next rfl, fieldAt_append_next rfl]
      exact fieldAt_all (by omega)

/-! ### ResumeResponse -/

/-- The two fields of a range. -/
def rangeFields (range : CompletedRange) : Bytes :=
  putU64 (UInt64.ofNat range.begin) ++ putU64 (UInt64.ofNat (range.end - range.begin))

/-- The ranges are ranges of at least one byte, in 64-bit numbers. -/
def ResumeResponsePayload.RangesOk (payload : ResumeResponsePayload) : Prop :=
  ∀ range ∈ payload.missingRanges, range.begin < range.end ∧ range.end < 2 ^ 64

theorem decodeMissingRanges_append {ranges : List CompletedRange}
    (hok : ∀ range ∈ ranges, range.begin < range.end ∧ range.end < 2 ^ 64) (head : Bytes) :
    decodeMissingRanges (head ++ ranges.flatMap rangeFields) ranges.length head.length =
      .ok ranges := by
  induction ranges generalizing head with
  | nil => rfl
  | cons range ranges ih =>
      obtain ⟨⟨hne, hfits⟩, hrest⟩ := List.forall_mem_cons.mp hok
      have hbegin : (readU64 (head ++ (range :: ranges).flatMap rangeFields) head.length).toNat =
          range.begin := by
        rw [readU64_append le_rfl, Nat.sub_self, List.flatMap_cons, rangeFields, List.append_assoc,
          readU64_putU64]
        exact UInt64.toNat_ofNat_of_lt' (by show _ < 2 ^ 64; omega)
      have hlength : (readU64 (head ++ (range :: ranges).flatMap rangeFields)
          (head.length + 8)).toNat = range.end - range.begin := by
        rw [readU64_append (by omega), List.flatMap_cons, rangeFields, List.append_assoc,
          readU64_append (by rw [length_putU64]; omega), length_putU64,
          show head.length + 8 - head.length - 8 = 0 by omega, readU64_putU64]
        exact UInt64.toNat_ofNat_of_lt' (by show _ < 2 ^ 64; omega)
      have htail : decodeMissingRanges (head ++ (range :: ranges).flatMap rangeFields)
          ranges.length (head.length + 16) = .ok ranges := by
        have h := ih hrest (head ++ rangeFields range)
        rw [List.length_append, show (rangeFields range).length = 16 by simp [rangeFields],
          List.append_assoc] at h
        exact h
      rw [List.length_cons, decodeMissingRanges, hbegin, hlength, require_pos (by omega), ok_bind,
        require_pos (by omega), ok_bind, htail, ok_bind, Nat.add_sub_cancel' hne.le]
      rfl

/-- How long an encoded ResumeResponse is. -/
theorem length_encodeResumeResponsePayload {payload : ResumeResponsePayload} {data : Bytes}
    (h : encodeResumeResponsePayload payload = .ok data) :
    data.length = 8 + payload.missingRanges.length * 16 := by
  simp only [encodeResumeResponsePayload, bind_eq_ok, require_eq_ok] at h
  obtain ⟨-, -, hdata⟩ := h
  replace hdata := Except.ok.inj hdata
  have hfields : (payload.missingRanges.flatMap rangeFields).length =
      payload.missingRanges.length * 16 := by
    induction payload.missingRanges with
    | nil => rfl
    | cons range ranges ih =>
        rw [List.flatMap_cons, List.length_append, ih, List.length_cons]
        simp only [rangeFields, List.length_append, length_putU64]
        omega
  rw [← hfields, ← hdata, List.length_append, List.length_append, length_putU32, length_putU32]
  show 4 + (4 + (payload.missingRanges.flatMap rangeFields).length) = _
  omega

theorem decodeResumeResponsePayload_encode {payload : ResumeResponsePayload} {data : Bytes}
    (hranges : payload.RangesOk) (h : encodeResumeResponsePayload payload = .ok data) :
    decodeResumeResponsePayload data = .ok payload := by
  have hsize := length_encodeResumeResponsePayload h
  simp only [encodeResumeResponsePayload, bind_eq_ok, require_eq_ok] at h
  obtain ⟨-, hcount, hdata⟩ := h
  replace hdata := Except.ok.inj hdata
  have hnumber : (readU32 data 4).toNat = payload.missingRanges.length := by
    have hread : readU32 data 4 = UInt32.ofNat payload.missingRanges.length := by
      simp [← hdata, readU32_append]
    rw [hread]
    exact UInt32.toNat_ofNat_of_lt' (by show _ < 2 ^ 32; omega)
  have hstatus : readU32 data 0 = payload.statusCode.toUInt32 := by simp [← hdata]
  have hloop : decodeMissingRanges data payload.missingRanges.length 8 =
      .ok payload.missingRanges := by
    have h := decodeMissingRanges_append hranges (putU32 payload.statusCode.toUInt32 ++
      putU32 (UInt32.ofNat payload.missingRanges.length))
    rw [List.append_assoc, List.length_append, length_putU32, length_putU32] at h
    rw [← hdata]
    exact h
  rw [decodeResumeResponsePayload, require_pos (by omega), ok_bind, hstatus,
    frameStatus?_toUInt32]
  simp only
  rw [hnumber, require_pos hsize, ok_bind, hloop, ok_bind]
  rfl

/-- The loop reads ranges of at least one byte, and they are written again as
they stood. -/
theorem decodeMissingRanges_spec {data : Bytes} {count offset : Nat} {ranges : List CompletedRange}
    (hsize : offset + count * 16 ≤ data.length)
    (h : decodeMissingRanges data count offset = .ok ranges) :
    ranges.length = count ∧ ranges.flatMap rangeFields = fieldAt data offset (count * 16) ∧
      ∀ range ∈ ranges, range.begin < range.end ∧ range.end < 2 ^ 64 := by
  induction count generalizing offset ranges with
  | zero =>
      obtain rfl := Except.ok.inj h
      exact ⟨rfl, by simp [fieldAt], fun _ hr => (List.not_mem_nil hr).elim⟩
  | succ count ih =>
      simp only [decodeMissingRanges, bind_eq_ok, require_eq_ok] at h
      obtain ⟨-, hne, -, hle, rest, hrest, heq⟩ := h
      obtain rfl := Except.ok.inj heq
      obtain ⟨hcount, hfields, hok⟩ := ih (by omega) hrest
      refine ⟨by rw [List.length_cons, hcount], ?_, ?_⟩
      · rw [List.flatMap_cons, hfields, rangeFields]
        dsimp only
        rw [Nat.add_sub_cancel_left, UInt64.ofNat_toNat, UInt64.ofNat_toNat,
          putU64_readU64 (by omega), putU64_readU64 (by omega), fieldAt_append_next rfl,
          fieldAt_append_next rfl]
        congr 1
        omega
      · refine List.forall_mem_cons.mpr ⟨?_, hok⟩
        have hbegin := (readU64 data offset).toNat_lt
        have hlength := (readU64 data (offset + 8)).toNat_lt
        dsimp only
        omega

theorem encodeResumeResponsePayload_decode {payload : ResumeResponsePayload} {data : Bytes}
    (hsize : data.length < 2 ^ 32) (h : decodeResumeResponsePayload data = .ok payload) :
    encodeResumeResponsePayload payload = .ok data ∧ payload.RangesOk := by
  rw [decodeResumeResponsePayload, bind_eq_ok] at h
  obtain ⟨_, -, h⟩ := h
  cases hstatus : frameStatus? (readU32 data 0) with
  | none => simp [hstatus] at h
  | some statusCode =>
      simp only [hstatus, bind_eq_ok, require_eq_ok] at h
      obtain ⟨-, hlength, missingRanges, hranges, hpayload⟩ := h
      obtain rfl := Except.ok.inj hpayload
      obtain ⟨hcount, hfields, hok⟩ := decodeMissingRanges_spec hlength.ge hranges
      refine ⟨?_, hok⟩
      rw [encodeResumeResponsePayload, require_pos (by dsimp only; omega), ok_bind]
      refine congrArg Except.ok ?_
      show putU32 statusCode.toUInt32 ++ (putU32 (UInt32.ofNat missingRanges.length) ++
        missingRanges.flatMap rangeFields) = data
      rw [frameStatus?_eq_some hstatus, hcount, UInt32.ofNat_toNat, hfields,
        putU32_readU32 (by omega), putU32_readU32 (by omega), fieldAt_append_next rfl,
        fieldAt_append_next rfl]
      exact fieldAt_all (by omega)

/-! ### SessionInit -/

/-- The payload carries a `source_path` extension, and its length is zero: four
bytes behind the transfer id. -/
def HasEmptySourcePath (data : Bytes) : Prop := data.length = 24 + (readU16 data 2).toNat + 4

instance (data : Bytes) : Decidable (HasEmptySourcePath data) :=
  inferInstanceAs (Decidable (data.length = 24 + (readU16 data 2).toNat + 4))

/-- The extension is what the encoder writes, unless it is there but empty. -/
theorem decodeSourcePath_spec {data sourcePath : Bytes} {offset : Nat}
    (h : decodeSourcePath data offset = .ok sourcePath) :
    sourcePath.length ≤ 65535 ∧
      (sourcePathExtension sourcePath = fieldAt data offset (data.length - offset) ↔
        data.length ≠ offset + 4) := by
  rw [decodeSourcePath] at h
  split at h
  · rename_i hend
    obtain rfl := Except.ok.inj h
    refine ⟨by simp, iff_of_true ?_ (by omega)⟩
    rw [sourcePathExtension, if_pos rfl, hend, Nat.sub_self]
    simp [fieldAt]
  · simp only [bind_eq_ok, require_eq_ok] at h
    obtain ⟨-, hlong, -, hreserved, -, hsize, hpath⟩ := h
    obtain rfl := Except.ok.inj hpath
    have hlength := @length_fieldAt _ data (offset + 4) (readU16 data offset).toNat hsize.ge
    have hlt := (readU16 data offset).toNat_lt
    refine ⟨by rw [hlength]; omega, ?_⟩
    by_cases hzero : (readU16 data offset).toNat = 0
    · -- nothing is written for an empty path, but four bytes were read
      rw [sourcePathExtension, if_pos (List.length_eq_zero_iff.mp (hlength.trans hzero))]
      refine iff_of_false (fun hnil => ?_) (fun hne => hne (by omega))
      have hfour := @length_fieldAt _ data offset (data.length - offset) (by omega)
      rw [← hnil, List.length_nil] at hfour
      omega
    · rw [sourcePathExtension, if_neg fun hnil => hzero (by rw [← hlength, hnil]; rfl), hlength,
        UInt16.ofNat_toNat, ← hreserved, putU16_readU16 (by omega), putU16_readU16 (by omega),
        fieldAt_append_next rfl, fieldAt_append_next rfl]
      refine iff_of_true ?_ (by omega)
      congr 1
      omega

theorem encodeSessionInitPayload_decode {payload : SessionInitPayload} {data : Bytes}
    (h : decodeSessionInitPayload data = .ok payload) :
    encodeSessionInitPayload payload = .ok data ↔ ¬HasEmptySourcePath data := by
  rw [decodeSessionInitPayload, bind_eq_ok] at h
  obtain ⟨_, -, h⟩ := h
  cases hmode : sessionMode? (readU16 data 0) with
  | none => simp [hmode] at h
  | some mode =>
      cases halgorithm : checksumAlgorithm? (readU16 data 4) with
      | none => simp [hmode, halgorithm] at h
      | some algorithm =>
          simp only [hmode, halgorithm, bind_eq_ok, require_eq_ok] at h
          obtain ⟨-, hreserved, -, hid, sourcePath, hsource, -, hchunk, hpayload⟩ := h
          obtain rfl := Except.ok.inj hpayload
          obtain ⟨hidPos, hlong⟩ := not_or.mp hid
          obtain ⟨hpathSize, hextension⟩ := decodeSourcePath_spec hsource
          have hidLength := @length_fieldAt _ data 24 (readU16 data 2).toNat (by omega)
          have hlt := (readU16 data 2).toNat_lt
          have hidOk : ¬(fieldAt data 24 (readU16 data 2).toNat = [] ∨
              (fieldAt data 24 (readU16 data 2).toNat).length > 65535) := by
            rw [hidLength]
            rintro (hnil | hbig)
            · rw [hnil] at hidLength
              exact hidPos hidLength.symm
            · omega
          rw [encodeSessionInitPayload, require_pos hidOk, ok_bind, require_pos hpathSize, ok_bind,
            require_pos hchunk, ok_bind]
          dsimp only
          rw [HasEmptySourcePath, ← ne_eq, ← hextension, sessionMode?_eq_some hmode,
            checksumAlgorithm?_eq_some halgorithm, hidLength, UInt16.ofNat_toNat,
            ← hreserved, putU16_readU16 (by omega), putU16_readU16 (by omega),
            putU16_readU16 (by omega), putU16_readU16 (by omega), putU64_readU64 (by omega),
            putU64_readU64 (by omega)]
          -- the fields before the extension are read back in any case
          have hsplit : data = fieldAt data 0 (24 + (readU16 data 2).toNat) ++
              fieldAt data (24 + (readU16 data 2).toNat)
                (data.length - (24 + (readU16 data 2).toNat)) := by
            rw [fieldAt_append_next (Nat.zero_add _).symm]
            exact (fieldAt_all (by omega)).symm
          have hhead : fieldAt data 0 (24 + (readU16 data 2).toNat) = fieldAt data 0 2 ++
              (fieldAt data 2 2 ++ (fieldAt data 4 2 ++ (fieldAt data 6 2 ++ (fieldAt data 8 8 ++
                (fieldAt data 16 8 ++ fieldAt data 24 (readU16 data 2).toNat))))) := by
            rw [fieldAt_append_next rfl, fieldAt_append_next rfl, fieldAt_append_next rfl,
              fieldAt_append_next rfl, fieldAt_append_next rfl, fieldAt_append_next rfl]
            congr 1
            omega
          constructor
          · intro hdata
            replace hdata := Except.ok.inj hdata
            conv_rhs at hdata => rw [hsplit, hhead]
            simp only [List.append_assoc, List.append_cancel_left_eq] at hdata
            exact hdata
          · intro hext
            refine congrArg Except.ok ?_
            conv_rhs => rw [hsplit, hhead]
            simp only [List.append_assoc, hext]

/-! ### Both directions -/

/-- **What is written is read back**: every header, and every payload that can
be encoded, a ResumeResponse with ranges of at least one byte. -/
theorem wire_roundTrip :
    (∀ header, decodeFrameHeader (encodeFrameHeader header) = .ok header) ∧
    (∀ payload data, encodeSessionInitPayload payload = .ok data →
      decodeSessionInitPayload data = .ok payload) ∧
    (∀ payload data, payload.RangesOk → encodeResumeResponsePayload payload = .ok data →
      decodeResumeResponsePayload data = .ok payload) ∧
    (∀ payload data, encodeChunkCompletePayload payload = .ok data →
      decodeChunkCompletePayload data = .ok payload) :=
  ⟨decodeFrameHeader_encode, fun _ _ => decodeSessionInitPayload_encode,
    fun _ _ => decodeResumeResponsePayload_encode, fun _ _ => decodeChunkCompletePayload_encode⟩

/-- A ResumeResponse with two missing ranges, the second up to the last byte a
64-bit number reaches. -/
def twoMissingRanges : ResumeResponsePayload := ⟨.ok, [⟨0, 1⟩, ⟨5, 2 ^ 64 - 1⟩]⟩

theorem wire_roundTrip_of_two_ranges :
    ∃ data, encodeResumeResponsePayload twoMissingRanges = .ok data ∧
      decodeResumeResponsePayload data = .ok twoMissingRanges :=
  ⟨_, rfl, wire_roundTrip.2.2.1 twoMissingRanges _
    (by simp [ResumeResponsePayload.RangesOk, twoMissingRanges]) rfl⟩

/-- `data` is treated as the one text of one message: if it is accepted, it is
what the encoder writes for the decoded message, and it is accepted exactly if
it is what the encoder writes for some message. -/
structure CanonicalAt {α β : Type} (isMessage : α → Prop) (encode : α → Except Status β)
    (decode : β → Except Status α) (data : β) : Prop where
  reencodes : ∀ message, decode data = .ok message → encode message = .ok data
  image : (∃ message, decode data = .ok message) ↔
    ∃ message, isMessage message ∧ encode message = .ok data

/-- Payloads that denote the same message are equal. -/
theorem CanonicalAt.unique {α β : Type} {isMessage : α → Prop} {encode : α → Except Status β}
    {decode : β → Except Status α} {data data' : β} (h : CanonicalAt isMessage encode decode data)
    (h' : CanonicalAt isMessage encode decode data') {message : α}
    (hdecode : decode data = .ok message) (hdecode' : decode data' = .ok message) :
    data = data' :=
  Except.ok.inj ((h.reencodes _ hdecode).symm.trans (h'.reencodes _ hdecode'))

/-- With the round trip, canonicity is re-encoding. -/
theorem canonicalAt_of_reencodes {α β : Type} {isMessage : α → Prop} {encode : α → Except Status β}
    {decode : β → Except Status α} {data : β}
    (hroundTrip : ∀ message, isMessage message → encode message = .ok data →
      decode data = .ok message)
    (hreencodes : ∀ message, decode data = .ok message →
      encode message = .ok data ∧ isMessage message) :
    CanonicalAt isMessage encode decode data where
  reencodes message h := (hreencodes message h).1
  image := ⟨fun ⟨message, h⟩ => ⟨message, (hreencodes message h).2, (hreencodes message h).1⟩,
    fun ⟨message, hmessage, h⟩ => ⟨message, hroundTrip message hmessage h⟩⟩

/-- An accepted SessionInit payload is canonical unless it has an empty
`source_path` extension. -/
theorem canonicalAt_sessionInit_iff {data : Bytes} {payload : SessionInitPayload}
    (hdecode : decodeSessionInitPayload data = .ok payload) :
    CanonicalAt (fun _ => True) encodeSessionInitPayload decodeSessionInitPayload data ↔
      ¬HasEmptySourcePath data := by
  constructor
  · intro h
    exact (encodeSessionInitPayload_decode hdecode).mp (h.reencodes payload hdecode)
  · intro h
    exact canonicalAt_of_reencodes (fun payload _ => decodeSessionInitPayload_encode)
      fun payload hdecode => ⟨(encodeSessionInitPayload_decode hdecode).mpr h, trivial⟩

theorem canonicalAt_sessionInit_of_error {data : Bytes} {e : Status}
    (h : decodeSessionInitPayload data = .error e) :
    CanonicalAt (fun _ => True) encodeSessionInitPayload decodeSessionInitPayload data := by
  refine canonicalAt_of_reencodes (fun payload _ => decodeSessionInitPayload_encode)
    fun payload hdecode => ?_
  rw [h] at hdecode
  cases hdecode

/-- **Which byte strings are canonical**: all headers, all ResumeResponses a
32-bit payload size can announce, all ChunkCompletes, and of the accepted
SessionInits those without an empty `source_path` extension. -/
theorem wire_canonical (encoded : EncodedFrameHeader) (data : Bytes) :
    CanonicalAt (fun _ => True) (fun header => .ok (encodeFrameHeader header)) decodeFrameHeader
      encoded ∧
    (∀ payload, decodeSessionInitPayload data = .ok payload →
      (CanonicalAt (fun _ => True) encodeSessionInitPayload decodeSessionInitPayload data ↔
        ¬HasEmptySourcePath data)) ∧
    (∀ e, decodeSessionInitPayload data = .error e →
      CanonicalAt (fun _ => True) encodeSessionInitPayload decodeSessionInitPayload data) ∧
    (data.length < 2 ^ 32 → CanonicalAt ResumeResponsePayload.RangesOk
      encodeResumeResponsePayload decodeResumeResponsePayload data) ∧
    CanonicalAt (fun _ => True) encodeChunkCompletePayload decodeChunkCompletePayload data := by
  refine ⟨?_, fun _ => canonicalAt_sessionInit_iff, fun _ => canonicalAt_sessionInit_of_error,
    fun hsize => ?_, ?_⟩
  · refine canonicalAt_of_reencodes (fun header _ h => ?_) fun header h => ⟨?_, trivial⟩
    · obtain rfl := Except.ok.inj h
      exact decodeFrameHeader_encode header
    · rw [encodeFrameHeader_decode h]
  · exact canonicalAt_of_reencodes (fun payload hok h => decodeResumeResponsePayload_encode hok h)
      fun payload h => encodeResumeResponsePayload_decode hsize h
  · exact canonicalAt_of_reencodes (fun payload _ h => decodeChunkCompletePayload_encode h)
      fun payload h => ⟨encodeChunkCompletePayload_decode h, trivial⟩

/-- The SessionInit of a transfer `t` of one byte in chunks of one byte. -/
def oneByteInit : SessionInitPayload :=
  { transferId := ascii "t", totalSize := 1, chunkSize := 1 }

def oneByteInitBytes : Bytes :=
  [0, 1, 0, 1, 0, 1, 0, 0, 0, 0, 0, 0, 0, 0, 0, 1, 0, 0, 0, 0, 0, 0, 0, 1, 116]

theorem wire_canonical_of_one_byte :
    CanonicalAt (fun _ => True) encodeSessionInitPayload decodeSessionInitPayload
        oneByteInitBytes ∧
      CanonicalAt ResumeResponsePayload.RangesOk encodeResumeResponsePayload
        decodeResumeResponsePayload (List.replicate 8 0) :=
  ⟨((wire_canonical (encodeFrameHeader {}) oneByteInitBytes).2.1 oneByteInit (by decide)).mpr
      (by decide),
    (wire_canonical (encodeFrameHeader {}) (List.replicate 8 0)).2.2.2.1 (by decide)⟩

/-- With an empty `source_path` extension the payload is accepted as the same
message, which is not encoded like that. -/
theorem wire_emptySourcePath :
    decodeSessionInitPayload (oneByteInitBytes ++ [0, 0, 0, 0]) = .ok oneByteInit ∧
      encodeSessionInitPayload oneByteInit ≠ .ok (oneByteInitBytes ++ [0, 0, 0, 0]) :=
  ⟨by decide, by decide⟩

end GridFlux
