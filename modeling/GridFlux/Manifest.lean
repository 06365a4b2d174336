/-
GridFlux/Manifest.lean

What `transfer_manifest.cpp` and `download_manifest.cpp` have in common: the
chunk records, their order, the two list-valued fields, the record of fields
and both serializers.  The two files differ in the version they write, in
their path fields and in their error texts; a `ManifestFormat` collects these,
and each source file's functions are the ones here applied to its format.

`serializePreparedManifest` is the fast path used by the sessions: it trusts
the caller to have sorted the records and derived the ranges.

Main results: the list fields read back (`parseRanges_serializeRanges`,
`parseVerifiedChunks_serialize`), whatever the list parsers accept is
canonical respectively separated (`parseRanges_spec`,
`parseVerifiedChunks_spec`), and the two serializers agree on a prepared
manifest (`serializePrepared_eq`).
-/
import Mathlib.Data.List.Sort
import GridFlux.RangeList
import GridFlux.ManifestText

namespace GridFlux

open HalfOpen TextCodec

/-! ### States and chunk records -/

inductive ManifestState
  | created
  | transferring
  | failed
  | committed
deriving DecidableEq, Repr

def manifestStateName : ManifestState → Bytes
  | .created => ascii "created"
  | .transferring => ascii "transferring"
  | .failed => ascii "failed"
  | .committed => ascii "committed"

def parseManifestState (text : Bytes) : Except Status ManifestState :=
  if text = ascii "created" then .ok .created
  else if text = ascii "transferring" then .ok .transferring
  else if text = ascii "failed" then .ok .failed
  else if text = ascii "committed" then .ok .committed
  else .error (.invalidArgument (ascii "invalid manifest state"))

@[simp] theorem parseManifestState_name (state : ManifestState) :
    parseManifestState (manifestStateName state) = .ok state := by
  cases state with
  | created => rfl
  | transferring => rfl
  | failed => rfl
  | committed => rfl

/-- `checkpoint::ChunkChecksumRecord`. -/
structure ChunkChecksumRecord where
  chunkId : Nat
  offset : Nat
  length : Nat
  checksum : ChecksumValue
deriving DecidableEq, Repr

/-- The bytes a record speaks about. -/
def ChunkChecksumRecord.range (record : ChunkChecksumRecord) : CompletedRange :=
  ⟨record.offset, record.offset + record.length⟩

/-- The order of the records in a manifest: by offset, then by chunk id. -/
def precedesOrEquals (left right : ChunkChecksumRecord) : Prop :=
  left.offset < right.offset ∨ (left.offset = right.offset ∧ left.chunkId ≤ right.chunkId)

instance : DecidableRel precedesOrEquals := fun left right =>
  inferInstanceAs (Decidable (left.offset < right.offset ∨
    (left.offset = right.offset ∧ left.chunkId ≤ right.chunkId)))

theorem precedesOrEquals_total (a b : ChunkChecksumRecord) :
    precedesOrEquals a b ∨ precedesOrEquals b a := by
  simp only [precedesOrEquals]
  omega

theorem precedesOrEquals_trans {a b c : ChunkChecksumRecord} (h : precedesOrEquals a b)
    (h' : precedesOrEquals b c) : precedesOrEquals a c := by
  simp only [precedesOrEquals] at *
  omega

instance : Std.Total precedesOrEquals := ⟨precedesOrEquals_total⟩

instance : IsTrans ChunkChecksumRecord precedesOrEquals :=
  ⟨fun _ _ _ => precedesOrEquals_trans⟩

/-- `sortedRecords`. -/
def sortedRecords (records : List ChunkChecksumRecord) : List ChunkChecksumRecord :=
  records.insertionSort precedesOrEquals

/-- The records stand in manifest order. -/
def RecordsSorted (records : List ChunkChecksumRecord) : Prop :=
  records.Pairwise precedesOrEquals

instance (records : List ChunkChecksumRecord) : Decidable (RecordsSorted records) :=
  inferInstanceAs (Decidable (records.Pairwise precedesOrEquals))

theorem sortedRecords_perm (records : List ChunkChecksumRecord) :
    (sortedRecords records).Perm records :=
  List.perm_insertionSort _ _

theorem recordsSorted_sortedRecords (records : List ChunkChecksumRecord) :
    RecordsSorted (sortedRecords records) :=
  List.pairwise_insertionSort _ _

theorem sortedRecords_eq {records : List ChunkChecksumRecord} (h : RecordsSorted records) :
    sortedRecords records = records :=
  List.Pairwise.insertionSort_eq h

/-- The ranges the records speak about. -/
def recordRanges (records : List ChunkChecksumRecord) : List CompletedRange :=
  records.map ChunkChecksumRecord.range

theorem recordRanges_perm {records records' : List ChunkChecksumRecord}
    (h : records.Perm records') : (recordRanges records).Perm (recordRanges records') :=
  h.map _

/-- `completedFromVerified`. -/
def completedFromVerified (records : List ChunkChecksumRecord) (totalSize : Nat) :
    Except Status RangeList :=
  RangeList.empty.insertAll totalSize (recordRanges (sortedRecords records))

theorem RangeList.insertAll_singleton (l : RangeList) (totalSize : Nat)
    (record : ChunkChecksumRecord) :
    l.insertAll totalSize [record.range] = l.insert record.offset record.length totalSize := by
  simp only [RangeList.insertAll, ChunkChecksumRecord.range, Nat.add_sub_cancel_left]
  cases l.insert record.offset record.length totalSize with
  | error e => rfl
  | ok l' => rfl

/-- Chunk records that can stand in one manifest: non-empty in-bounds ranges, no
two of which share a byte. -/
structure RecordsOk (records : List ChunkChecksumRecord) (totalSize : Nat) : Prop where
  bounded : ∀ r ∈ recordRanges records, r.begin < r.end ∧ r.end ≤ totalSize
  separated : Separated (recordRanges records)

theorem RecordsOk.nil (totalSize : Nat) : RecordsOk [] totalSize :=
  ⟨by simp [recordRanges], List.Pairwise.nil⟩

theorem RecordsOk.perm {records records' : List ChunkChecksumRecord} {totalSize : Nat}
    (h : RecordsOk records totalSize) (hp : records.Perm records') :
    RecordsOk records' totalSize :=
  ⟨fun r hr => h.bounded r ((recordRanges_perm hp).mem_iff.mpr hr),
    h.separated.perm (recordRanges_perm hp)⟩

theorem RecordsOk.sublist {records records' : List ChunkChecksumRecord} {totalSize : Nat}
    (h : RecordsOk records totalSize) (hs : records'.Sublist records) :
    RecordsOk records' totalSize :=
  ⟨fun r hr => h.bounded r ((hs.map _).subset hr), h.separated.sublist (hs.map _)⟩

/-- Of records that can stand together, each byte has one owner. -/
theorem RecordsOk.owner_unique {records : List ChunkChecksumRecord} {totalSize x : Nat}
    (h : RecordsOk records totalSize) {r r' : ChunkChecksumRecord} (hr : r ∈ records)
    (hr' : r' ∈ records) (hx : r.range.begin ≤ x ∧ x < r.range.end)
    (hx' : r'.range.begin ≤ x ∧ x < r'.range.end) : r = r' := by
  by_contra hne
  have hpairs := List.pairwise_map.mp h.separated
  have hsymm : Std.Symm fun a b : ChunkChecksumRecord =>
      a.range.end ≤ b.range.begin ∨ b.range.end ≤ a.range.begin := ⟨fun _ _ hxy => hxy.symm⟩
  rcases List.Pairwise.forall hpairs hr hr' hne with hab | hab
  · exact absurd (hx.2.trans_le (hab.trans hx'.1)) (lt_irrefl _)
  · exact absurd (hx'.2.trans_le (hab.trans hx.1)) (lt_irrefl _)

theorem RecordsOk.nodup {records : List ChunkChecksumRecord} {totalSize : Nat}
    (h : RecordsOk records totalSize) : records.Nodup := by
  refine (List.pairwise_map.mp h.separated).imp_of_mem fun {a b} ha _ hab heq => ?_
  subst heq
  have hne := (h.bounded _ (List.mem_map_of_mem ha)).1
  rcases hab with hab | hab
  · exact absurd (hne.trans_le hab) (lt_irrefl _)
  · exact absurd (hne.trans_le hab) (lt_irrefl _)

/-- The range list holds exactly the bytes of the records. -/
structure Derived (completed : RangeList) (records : List ChunkChecksumRecord)
    (totalSize : Nat) : Prop where
  wellFormed : completed.WellFormed totalSize
  covered_eq : covered completed.ranges = covered (recordRanges records)
  bytes_eq : completed.bytesCompleted = totalLength (recordRanges records)

theorem Derived.perm {completed : RangeList} {records records' : List ChunkChecksumRecord}
    {totalSize : Nat} (h : Derived completed records totalSize) (hp : records.Perm records') :
    Derived completed records' totalSize :=
  ⟨h.wellFormed, h.covered_eq.trans (covered_perm (recordRanges_perm hp)),
    h.bytes_eq.trans (totalLength_perm (recordRanges_perm hp))⟩

/-- The derived ranges are unique. -/
theorem Derived.ranges_eq {completed completed' : RangeList}
    {records records' : List ChunkChecksumRecord} {totalSize : Nat}
    (h : Derived completed records totalSize) (h' : Derived completed' records' totalSize)
    (hp : records.Perm records') : completed.ranges = completed'.ranges :=
  h.wellFormed.canonical.eq_of_covered_eq h'.wellFormed.canonical <| by
    rw [(h.perm hp).covered_eq, h'.covered_eq]

/-- Inserting records one after the other. -/
theorem insertAll_records {records : List ChunkChecksumRecord} {completed : RangeList}
    {totalSize : Nat}
    (h : RangeList.empty.insertAll totalSize (recordRanges records) = .ok completed) :
    RecordsOk records totalSize ∧ Derived completed records totalSize := by
  obtain ⟨hwf, hcov, hbytes, hb, hsep, -⟩ :=
    RangeList.insertAll_spec (RangeList.WellFormed.empty totalSize) h
  refine ⟨⟨hb, hsep⟩, hwf, ?_, ?_⟩
  · rw [hcov]
    simp [RangeList.empty]
  · rw [hbytes]
    simp [RangeList.empty]

theorem insertAll_of_recordsOk {records : List ChunkChecksumRecord} {totalSize : Nat}
    (h : RecordsOk records totalSize) :
    ∃ completed, RangeList.empty.insertAll totalSize (recordRanges records) = .ok completed :=
  RangeList.insertAll_of_separated (RangeList.WellFormed.empty totalSize) h.bounded h.separated
    (by simp [RangeList.empty])

theorem completedFromVerified_spec {records : List ChunkChecksumRecord} {completed : RangeList}
    {totalSize : Nat} (h : completedFromVerified records totalSize = .ok completed) :
    RecordsOk records totalSize ∧ Derived completed records totalSize := by
  obtain ⟨hok, hder⟩ := insertAll_records h
  exact ⟨hok.perm (sortedRecords_perm records), hder.perm (sortedRecords_perm records)⟩

theorem completedFromVerified_of_recordsOk {records : List ChunkChecksumRecord}
    {totalSize : Nat} (h : RecordsOk records totalSize) :
    ∃ completed, completedFromVerified records totalSize = .ok completed ∧
      Derived completed records totalSize := by
  obtain ⟨completed, hok⟩ := insertAll_of_recordsOk (h.perm (sortedRecords_perm records).symm)
  exact ⟨completed, hok, (completedFromVerified_spec hok).2⟩

/-! ### The field `completed_ranges` -/

def rangeText (range : CompletedRange) : Bytes :=
  decimal range.begin ++ dash :: decimal range.end

/-- `serializeRanges`. -/
def serializeRanges (ranges : List CompletedRange) : Bytes :=
  join comma (ranges.map rangeText)

/-- One round of `parseRanges`. -/
def parseRange (missingDash badEnd : Bytes) (totalSize : Nat) (merged : RangeList)
    (item : Bytes) : Except Status RangeList :=
  match splitFirst dash item with
  | none => .error (.invalidArgument missingDash)
  | some (beginText, endText) => do
      let parsedBegin ← parseU64 beginText (ascii "range begin")
      let parsedEnd ← parseU64 endText (ascii "range end")
      require (parsedEnd > parsedBegin) (.invalidArgument badEnd)
      merged.merge parsedBegin (parsedEnd - parsedBegin) totalSize

/-- `parseRanges`. -/
def parseRanges (missingDash badEnd text : Bytes) (totalSize : Nat) :
    Except Status (List CompletedRange) := do
  let merged ← (pieces comma text).foldlM (parseRange missingDash badEnd totalSize) .empty
  return merged.ranges

theorem pieces_serializeRanges (ranges : List CompletedRange) :
    pieces comma (serializeRanges ranges) = ranges.map rangeText := by
  refine pieces_join comma fun p hp => ?_
  obtain ⟨r, -, rfl⟩ := List.mem_map.mp hp
  simp only [rangeText, List.mem_append, List.mem_cons, not_or]
  exact ⟨⟨notMem_decimal (by decide), by decide, notMem_decimal (by decide)⟩, by simp⟩

theorem parseRange_rangeText {missingDash badEnd : Bytes} {totalSize : Nat} {r : CompletedRange}
    (hr : r.begin < r.end) (hb : r.end ≤ totalSize) (hu : totalSize < 2 ^ 64)
    (merged : RangeList) :
    parseRange missingDash badEnd totalSize merged (rangeText r) =
      merged.merge r.begin (r.end - r.begin) totalSize := by
  have hsplit : splitFirst dash (rangeText r) = some (decimal r.begin, decimal r.end) :=
    splitFirst_append dash (notMem_decimal (by decide)) _
  simp only [parseRange, hsplit, parseU64_decimal (show r.begin < 2 ^ 64 by omega),
    parseU64_decimal (show r.end < 2 ^ 64 by omega), ok_bind, require_pos hr]

/-- Merging a list of in-bounds ranges one by one covers their union. -/
theorem foldlM_merge (missingDash badEnd : Bytes) {totalSize : Nat} (hu : totalSize < 2 ^ 64)
    {ranges : List CompletedRange} (h : ∀ r ∈ ranges, r.begin < r.end ∧ r.end ≤ totalSize)
    {merged : RangeList} (hm : merged.WellFormed totalSize) :
    ∃ l, (ranges.map rangeText).foldlM (parseRange missingDash badEnd totalSize) merged =
        .ok l ∧ l.WellFormed totalSize ∧
      covered l.ranges = covered merged.ranges ∪ covered ranges := by
  induction ranges generalizing merged with
  | nil => exact ⟨merged, rfl, hm, by simp⟩
  | cons r ranges ih =>
      obtain ⟨⟨hr, hb⟩, hrest⟩ := List.forall_mem_cons.mp h
      have hback : r.begin + (r.end - r.begin) = r.end := by omega
      obtain ⟨l₁, hok₁, hm₁, hcov₁⟩ := RangeList.merge_of_bound hm (Nat.sub_pos_of_lt hr)
        (hback.trans_le hb)
      obtain ⟨l, hok, hl, hcov⟩ := ih hrest hm₁
      refine ⟨l, ?_, hl, ?_⟩
      · rw [List.map_cons, List.foldlM_cons, parseRange_rangeText hr hb hu, hok₁]
        exact hok
      · rw [hcov, hcov₁, hback, covered_cons, Set.union_assoc]

/-- A canonical in-bounds list of ranges reads back. -/
theorem parseRanges_serializeRanges {missingDash badEnd : Bytes} {totalSize : Nat}
    {ranges : List CompletedRange} (hc : Canonical ranges) (hb : ∀ r ∈ ranges, r.end ≤ totalSize)
    (hu : totalSize < 2 ^ 64) :
    parseRanges missingDash badEnd (serializeRanges ranges) totalSize = .ok ranges := by
  obtain ⟨l, hok, hl, hcov⟩ := foldlM_merge missingDash badEnd hu
    (fun r hr => ⟨hc.nonempty r hr, hb r hr⟩) (RangeList.WellFormed.empty totalSize)
  have hranges : l.ranges = ranges := by
    refine hl.canonical.eq_of_covered_eq hc ?_
    rw [hcov]
    simp [RangeList.empty]
  rw [parseRanges, pieces_serializeRanges, hok, ok_bind, hranges]
  rfl

/-- Whatever `parseRanges` accepts is canonical and in bounds. -/
theorem parseRanges_spec {missingDash badEnd text : Bytes} {totalSize : Nat}
    {ranges : List CompletedRange}
    (h : parseRanges missingDash badEnd text totalSize = .ok ranges) :
    Canonical ranges ∧ ∀ r ∈ ranges, r.end ≤ totalSize := by
  have hfold : ∀ (items : List Bytes) (merged l : RangeList), merged.WellFormed totalSize →
      items.foldlM (parseRange missingDash badEnd totalSize) merged = .ok l →
      l.WellFormed totalSize := by
    intro items
    induction items with
    | nil =>
        intro merged l hm hok
        obtain rfl := Except.ok.inj hok
        exact hm
    | cons item items ih =>
        intro merged l hm hok
        rw [List.foldlM_cons, bind_eq_ok] at hok
        obtain ⟨mid, hstep, hok⟩ := hok
        refine ih mid l ?_ hok
        rw [parseRange] at hstep
        split at hstep
        · cases hstep
        · simp only [bind_eq_ok] at hstep
          obtain ⟨_, -, _, -, _, -, hmerge⟩ := hstep
          exact (RangeList.merge_spec hm hmerge).2.2.1
  rw [parseRanges, bind_eq_ok] at h
  obtain ⟨l, hok, hl⟩ := h
  obtain rfl := Except.ok.inj hl
  have hwf := hfold _ _ _ (RangeList.WellFormed.empty totalSize) hok
  exact ⟨hwf.canonical, hwf.bounded⟩

/-! ### The field `verified_chunks` -/

def recordText (record : ChunkChecksumRecord) : Bytes :=
  join colon [decimal record.chunkId, decimal record.offset, decimal record.length,
    checksumAlgorithmName record.checksum.algorithm, hex32 record.checksum.value]

/-- `serializeVerifiedChunksSorted`. -/
def serializeVerifiedChunksSorted (records : List ChunkChecksumRecord) : Bytes :=
  join comma (records.map recordText)

/-- The next of the first four fields of a record. -/
def nextField (item : Bytes) : Except Status (Bytes × Bytes) :=
  match splitFirst colon item with
  | none => .error (.invalidArgument (ascii "verified chunk missing field"))
  | some parts => .ok parts

/-- The five fields of a record. -/
def recordFields (item : Bytes) : Except Status (Bytes × Bytes × Bytes × Bytes × Bytes) := do
  let (chunkId, item) ← nextField item
  let (offset, item) ← nextField item
  let (length, item) ← nextField item
  let (algorithm, value) ← nextField item
  require (colon ∉ value) (.invalidArgument (ascii "verified chunk has too many fields"))
  return (chunkId, offset, length, algorithm, value)

/-- One record of `parseVerifiedChunks`.  The transfer parser compares the
algorithm before it reads the checksum digits, the download parser after. -/
def parseRecord (compareFirst : Bool) (manifestAlgorithm : ChecksumAlgorithm) (item : Bytes) :
    Except Status ChunkChecksumRecord := do
  let (chunkIdText, offsetText, lengthText, algorithmText, valueText) ← recordFields item
  let chunkId ← parseU64 chunkIdText (ascii "chunk_id")
  let offset ← parseU64 offsetText (ascii "chunk offset")
  let length ← parseU64 lengthText (ascii "chunk length")
  let algorithm ← parseChecksumAlgorithm algorithmText
  require (compareFirst → algorithm = manifestAlgorithm)
    (.invalidArgument (ascii "verified chunk checksum algorithm mismatch"))
  let value ← parseHex32 valueText (ascii "checksum")
  require (algorithm = manifestAlgorithm)
    (.invalidArgument (ascii "verified chunk checksum algorithm mismatch"))
  return ⟨chunkId, offset, length, ⟨algorithm, value⟩⟩

/-- One round of `parseVerifiedChunks`. -/
def parseVerifiedChunk (compareFirst : Bool) (totalSize : Nat)
    (manifestAlgorithm : ChecksumAlgorithm) (state : List ChunkChecksumRecord × RangeList)
    (item : Bytes) : Except Status (List ChunkChecksumRecord × RangeList) := do
  let record ← parseRecord compareFirst manifestAlgorithm item
  let completed ← state.2.insert record.offset record.length totalSize
  return (state.1 ++ [record], completed)

/-- `parseVerifiedChunks`. -/
def parseVerifiedChunks (compareFirst : Bool) (text : Bytes) (totalSize : Nat)
    (manifestAlgorithm : ChecksumAlgorithm) : Except Status (List ChunkChecksumRecord) := do
  let state ← (pieces comma text).foldlM
    (parseVerifiedChunk compareFirst totalSize manifestAlgorithm) ([], .empty)
  return sortedRecords state.1

/-- The numbers of the record fit the fields that carry them. -/
def ChunkChecksumRecord.Fits (record : ChunkChecksumRecord) : Prop :=
  record.chunkId < 2 ^ 64 ∧ record.offset < 2 ^ 64 ∧ record.length < 2 ^ 64

theorem notMem_checksumAlgorithmName {x : UInt8}
    (hx : x ∉ ascii "none" ∧ x ∉ ascii "crc32c") (algorithm : ChecksumAlgorithm) :
    x ∉ checksumAlgorithmName algorithm := by
  cases algorithm with
  | none => exact hx.1
  | crc32c => exact hx.2

theorem notMem_recordText_comma (record : ChunkChecksumRecord) : comma ∉ recordText record := by
  intro h
  rcases mem_join h with h | ⟨p, hp, h⟩
  · exact absurd h (by decide)
  · simp only [List.mem_cons, List.not_mem_nil, or_false] at hp
    rcases hp with rfl | rfl | rfl | rfl | rfl
    · exact notMem_decimal (by decide) h
    · exact notMem_decimal (by decide) h
    · exact notMem_decimal (by decide) h
    · exact notMem_checksumAlgorithmName (by decide) _ h
    · exact notMem_hex32 (by decide) h

theorem recordFields_recordText (record : ChunkChecksumRecord) :
    recordFields (recordText record) = .ok (decimal record.chunkId, decimal record.offset,
      decimal record.length, checksumAlgorithmName record.checksum.algorithm,
      hex32 record.checksum.value) := by
  have hnext : ∀ {p : Bytes} (rest : Bytes), colon ∉ p →
      nextField (p ++ colon :: rest) = .ok (p, rest) := by
    intro p rest hp
    rw [nextField, splitFirst_append colon hp]
  have hname : colon ∉ checksumAlgorithmName record.checksum.algorithm :=
    notMem_checksumAlgorithmName (by decide) _
  have hvalue : colon ∉ hex32 record.checksum.value := notMem_hex32 (by decide)
  simp only [recordFields, recordText, join]
  rw [hnext _ (notMem_decimal (by decide)), ok_bind, hnext _ (notMem_decimal (by decide)),
    ok_bind, hnext _ (notMem_decimal (by decide)), ok_bind, hnext _ hname, ok_bind,
    require_pos hvalue]
  rfl

/-- A record reads back. -/
theorem parseRecord_recordText (compareFirst : Bool) {record : ChunkChecksumRecord}
    (h : record.Fits) :
    parseRecord compareFirst record.checksum.algorithm (recordText record) = .ok record := by
  obtain ⟨hid, hoff, hlen⟩ := h
  simp only [parseRecord, recordFields_recordText, ok_bind, parseU64_decimal hid,
    parseU64_decimal hoff, parseU64_decimal hlen, parseChecksumAlgorithm_name,
    parseHex32_hex32, require_pos, implies_true]
  rfl

theorem pieces_serializeVerifiedChunks (records : List ChunkChecksumRecord) :
    pieces comma (serializeVerifiedChunksSorted records) = records.map recordText := by
  refine pieces_join comma fun p hp => ?_
  obtain ⟨record, -, rfl⟩ := List.mem_map.mp hp
  exact ⟨notMem_recordText_comma record, by simp [recordText, join, decimal_ne_nil]⟩

/-- On the text of records the loop is a run of inserts. -/
theorem foldlM_parseVerifiedChunk (compareFirst : Bool) (totalSize : Nat)
    {algorithm : ChecksumAlgorithm} {records : List ChunkChecksumRecord}
    (h : ∀ r ∈ records, r.Fits ∧ r.checksum.algorithm = algorithm)
    (read : List ChunkChecksumRecord) (completed : RangeList) :
    (records.map recordText).foldlM (parseVerifiedChunk compareFirst totalSize algorithm)
        (read, completed) =
      (completed.insertAll totalSize (recordRanges records) >>= fun l =>
        .ok (read ++ records, l)) := by
  induction records generalizing read completed with
  | nil => simp [recordRanges, RangeList.insertAll, pure, Except.pure]
  | cons r records ih =>
      obtain ⟨⟨hfits, rfl⟩, hrest⟩ := List.forall_mem_cons.mp h
      have hlen : r.offset + r.length - r.offset = r.length := by omega
      simp only [List.map_cons, List.foldlM_cons, parseVerifiedChunk,
        parseRecord_recordText compareFirst hfits, ok_bind, recordRanges, RangeList.insertAll,
        ChunkChecksumRecord.range, hlen]
      cases completed.insert r.offset r.length totalSize with
      | error e => rfl
      | ok l =>
          show (records.map recordText).foldlM _ (read ++ [r], l) = _
          rw [ih hrest]
          simp [recordRanges]

/-- Separated in-bounds records in any order read back sorted. -/
theorem parseVerifiedChunks_serialize (compareFirst : Bool) {totalSize : Nat}
    {algorithm : ChecksumAlgorithm} {records : List ChunkChecksumRecord}
    (h : ∀ r ∈ records, r.Fits ∧ r.checksum.algorithm = algorithm)
    (hok : RecordsOk records totalSize) :
    parseVerifiedChunks compareFirst (serializeVerifiedChunksSorted records) totalSize
      algorithm = .ok (sortedRecords records) := by
  obtain ⟨l, hl⟩ := insertAll_of_recordsOk hok
  rw [parseVerifiedChunks, pieces_serializeVerifiedChunks,
    foldlM_parseVerifiedChunk compareFirst totalSize h, hl]
  rfl

theorem parseRecord_spec {compareFirst : Bool} {algorithm : ChecksumAlgorithm} {item : Bytes}
    {record : ChunkChecksumRecord} (h : parseRecord compareFirst algorithm item = .ok record) :
    record.Fits ∧ record.checksum.algorithm = algorithm := by
  simp only [parseRecord, bind_eq_ok] at h
  obtain ⟨_, -, _, hid, _, hoff, _, hlen, _, -, _, -, _, -, _, halg, heq⟩ := h
  obtain rfl := Except.ok.inj heq
  exact ⟨⟨parseU64_lt hid, parseU64_lt hoff, parseU64_lt hlen⟩, require_eq_ok.mp halg⟩

/-- Whatever `parseVerifiedChunks` accepts is a sorted list of records whose
ranges are non-empty, in bounds and separated. -/
theorem parseVerifiedChunks_spec {compareFirst : Bool} {text : Bytes} {totalSize : Nat}
    {algorithm : ChecksumAlgorithm} {records : List ChunkChecksumRecord}
    (h : parseVerifiedChunks compareFirst text totalSize algorithm = .ok records) :
    RecordsSorted records ∧ (∀ r ∈ records, r.Fits ∧ r.checksum.algorithm = algorithm) ∧
      RecordsOk records totalSize := by
  -- the loop keeps: the range list is what inserting the records read so far gives
  have hfold : ∀ (items : List Bytes) (state state' : List ChunkChecksumRecord × RangeList),
      (RangeList.empty.insertAll totalSize (recordRanges state.1) = .ok state.2 ∧
        ∀ r ∈ state.1, r.Fits ∧ r.checksum.algorithm = algorithm) →
      items.foldlM (parseVerifiedChunk compareFirst totalSize algorithm) state = .ok state' →
      RangeList.empty.insertAll totalSize (recordRanges state'.1) = .ok state'.2 ∧
        ∀ r ∈ state'.1, r.Fits ∧ r.checksum.algorithm = algorithm := by
    intro items
    induction items with
    | nil =>
        intro state state' hinv hok
        obtain rfl := Except.ok.inj hok
        exact hinv
    | cons item items ih =>
        intro state state' hinv hok
        rw [List.foldlM_cons, bind_eq_ok] at hok
        obtain ⟨mid, hstep, hok⟩ := hok
        refine ih mid state' ?_ hok
        simp only [parseVerifiedChunk, bind_eq_ok] at hstep
        obtain ⟨record, hrec, completed, hins, hmid⟩ := hstep
        obtain rfl := Except.ok.inj hmid
        refine ⟨?_, ?_⟩
        · show RangeList.empty.insertAll totalSize (recordRanges (state.1 ++ [record])) = _
          rw [recordRanges, List.map_append, RangeList.insertAll_append]
          rw [show state.1.map ChunkChecksumRecord.range = recordRanges state.1 from rfl,
            hinv.1, ok_bind, List.map_cons, List.map_nil, RangeList.insertAll_singleton, hins]
        · intro r hr
          rcases List.mem_append.mp hr with hr | hr
          · exact hinv.2 r hr
          · obtain rfl := List.mem_singleton.mp hr
            exact parseRecord_spec hrec
  rw [parseVerifiedChunks, bind_eq_ok] at h
  obtain ⟨state, hok, heq⟩ := h
  obtain rfl := Except.ok.inj heq
  obtain ⟨hins, hall⟩ := hfold _ _ _ ⟨rfl, by simp⟩ hok
  have hperm := sortedRecords_perm state.1
  exact ⟨recordsSorted_sortedRecords _, fun r hr => hall r (hperm.mem_iff.mp hr),
    (insertAll_records hins).1.perm hperm.symm⟩

/-! ### The manifest record and its serializers -/

/-- The fields of `TransferManifest` and `DownloadManifest`; `paths` holds the
path fields in which the two differ. -/
structure Manifest (P : Type) where
  version : Nat
  transferId : Bytes
  paths : P
  tempPath : Bytes
  totalSize : Nat
  chunkSize : Nat
  checksumAlgorithm : ChecksumAlgorithm
  createdAtUnixNanos : Nat
  updatedAtUnixNanos : Nat
  state : ManifestState
  completedRanges : List CompletedRange
  verifiedChunks : List ChunkChecksumRecord
deriving DecidableEq, Repr

def kMaxTransferIdLength : Nat := 128

/-- `isValidTransferId`. -/
def isValidTransferId (transferId : Bytes) : Bool :=
  !transferId.isEmpty && transferId.length ≤ kMaxTransferIdLength &&
    transferId.all fun value =>
      (97 ≤ value && value ≤ 122) || (65 ≤ value && value ≤ 90) ||
        (48 ≤ value && value ≤ 57) || value == 46 || value == 95 || value == 45

/-- The keys around the path fields, in the order `buildManifestBody` writes
them. -/
def headKeys : List Bytes := [ascii "manifest_version", ascii "transfer_id"]

def tailKeys : List Bytes :=
  [ascii "temp_path_hex", ascii "total_size", ascii "chunk_size", ascii "checksum_algorithm",
    ascii "created_at_unix_ns", ascii "updated_at_unix_ns", ascii "state",
    ascii "completed_ranges", ascii "verified_chunks"]

/-- Keys a manifest body can be read back by. -/
def KeysReadable (keys : List Bytes) : Prop :=
  keys.Nodup ∧ ∀ k ∈ keys, k ≠ [] ∧ equalsSign ∉ k ∧ newline ∉ k ∧ k ≠ checksumKey

instance (keys : List Bytes) : Decidable (KeysReadable keys) :=
  inferInstanceAs (Decidable (_ ∧ _))

/-- What one of the two manifest files has of its own: the version it writes,
the keys and values of its path fields, and its error texts.  The last field
makes a format with clashing keys impossible. -/
structure ManifestFormat (P : Type) where
  version : Nat
  pathKeys : List Bytes
  pathValues : P → List Bytes
  badVersion : Bytes
  emptyPaths : Bytes
  zeroChunkSize : Bytes
  length_pathValues : ∀ p, (pathValues p).length = pathKeys.length
  keysReadable : KeysReadable (headKeys ++ pathKeys ++ tailKeys)

/-- The numbers of the manifest fit the `uint64_t` fields that carry them. -/
structure Manifest.Fits {P : Type} (manifest : Manifest P) : Prop where
  totalSize : manifest.totalSize < 2 ^ 64
  chunkSize : manifest.chunkSize < 2 ^ 64
  createdAt : manifest.createdAtUnixNanos < 2 ^ 64
  updatedAt : manifest.updatedAtUnixNanos < 2 ^ 64
  chunkIds : ∀ r ∈ manifest.verifiedChunks, r.chunkId < 2 ^ 64

/-- In-bounds records of a fitting manifest fit. -/
theorem Manifest.Fits.records {P : Type} {manifest : Manifest P} (h : manifest.Fits)
    (hok : RecordsOk manifest.verifiedChunks manifest.totalSize) :
    ∀ r ∈ manifest.verifiedChunks, r.Fits := by
  intro r hr
  have hb := hok.bounded r.range (List.mem_map.mpr ⟨r, hr, rfl⟩)
  have hu := h.totalSize
  simp only [ChunkChecksumRecord.range] at hb
  exact ⟨h.chunkIds r hr, by omega, by omega⟩

/-- A manifest whose records can stand together, carry the manifest's algorithm
and cover exactly `ranges`. -/
structure ManifestOk {P : Type} (manifest : Manifest P) (ranges : List CompletedRange) :
    Prop where
  records : RecordsOk manifest.verifiedChunks manifest.totalSize
  algorithms : ∀ r ∈ manifest.verifiedChunks, r.checksum.algorithm = manifest.checksumAlgorithm
  canonical : Canonical ranges
  covered_eq : covered ranges = covered (recordRanges manifest.verifiedChunks)

/-- The ranges the records cover lie inside the transfer. -/
theorem ManifestOk.bounded {P : Type} {manifest : Manifest P} {ranges : List CompletedRange}
    (h : ManifestOk manifest ranges) : ∀ r ∈ ranges, r.end ≤ manifest.totalSize := by
  intro r hr
  have hne := h.canonical.nonempty r hr
  have hmem : r.end - 1 ∈ covered (recordRanges manifest.verifiedChunks) :=
    h.covered_eq ▸ ⟨r, hr, by omega, by omega⟩
  obtain ⟨s, hs, -, hlt⟩ := hmem
  have := (h.records.bounded s hs).2
  omega

/-- The ranges a consistent manifest declares are the ones its records give. -/
theorem ManifestOk.derived {P : Type} {manifest : Manifest P} {ranges : List CompletedRange}
    (h : ManifestOk manifest ranges) {records : List ChunkChecksumRecord}
    (hp : records.Perm manifest.verifiedChunks) :
    ∃ completed, completedFromVerified records manifest.totalSize = .ok completed ∧
      completed.ranges = ranges := by
  obtain ⟨completed, hok, hder⟩ := completedFromVerified_of_recordsOk (h.records.perm hp.symm)
  refine ⟨completed, hok, hder.wellFormed.canonical.eq_of_covered_eq h.canonical ?_⟩
  rw [(hder.perm hp).covered_eq, h.covered_eq]

section Serialize

variable {P : Type} (format : ManifestFormat P)

/-- The entries `buildManifestBody` writes, in order. -/
def manifestEntries (manifest : Manifest P) (ranges : List CompletedRange) :
    List (Bytes × Bytes) :=
  [(ascii "manifest_version", decimal manifest.version),
    (ascii "transfer_id", manifest.transferId)] ++
  format.pathKeys.zip ((format.pathValues manifest.paths).map toHex) ++
  [(ascii "temp_path_hex", toHex manifest.tempPath),
    (ascii "total_size", decimal manifest.totalSize),
    (ascii "chunk_size", decimal manifest.chunkSize),
    (ascii "checksum_algorithm", checksumAlgorithmName manifest.checksumAlgorithm),
    (ascii "created_at_unix_ns", decimal manifest.createdAtUnixNanos),
    (ascii "updated_at_unix_ns", decimal manifest.updatedAtUnixNanos),
    (ascii "state", manifestStateName manifest.state),
    (ascii "completed_ranges", serializeRanges ranges),
    (ascii "verified_chunks", serializeVerifiedChunksSorted manifest.verifiedChunks)]

/-- `buildManifestBody`. -/
def buildManifestBody (manifest : Manifest P) (ranges : List CompletedRange) : Bytes :=
  bodyOf (manifestEntries format manifest ranges)

/-- The checks both serializers make first. -/
def checkSerializable (manifest : Manifest P) : Except Status Unit := do
  require (manifest.version = format.version) (.invalidArgument format.badVersion)
  require (isValidTransferId manifest.transferId)
    (.invalidArgument (ascii "invalid transfer_id"))
  require ([] ∉ format.pathValues manifest.paths ∧ manifest.tempPath ≠ [])
    (.invalidArgument format.emptyPaths)
  require (manifest.chunkSize ≠ 0) (.invalidArgument format.zeroChunkSize)

/-- A body followed by its CRC32C; by `crc32c_eq` the checksum does not depend
on the backend the host picks. -/
def withBodyChecksum (body : Bytes) : Bytes :=
  checksummedText body (hex32 (crc32cOf body))

/-- The checksum line has the same length for every body. -/
theorem withBodyChecksum_injective : Function.Injective withBodyChecksum := by
  intro body body' h
  have hline : ∀ b : Bytes, (entryLine (checksumKey, hex32 (crc32cOf b)) ++ [newline]).length =
      checksumKey.length + 10 := fun b => by simp [entryLine, hex32]
  simp only [withBodyChecksum, checksummedText, List.append_assoc] at h
  exact (List.append_inj' h ((hline body).trans (hline body').symm)).1

/-- `serializeTransferManifest` / `serializeDownloadManifest`. -/
def serializeManifest (manifest : Manifest P) : Except Status Bytes := do
  checkSerializable format manifest
  let prepared := { manifest with verifiedChunks := sortedRecords manifest.verifiedChunks }
  let completed ← completedFromVerified prepared.verifiedChunks manifest.totalSize
  return withBodyChecksum (buildManifestBody format prepared completed.ranges)

/-- `serializePreparedTransferManifest` / `serializePreparedDownloadManifest`. -/
def serializePreparedManifest (manifest : Manifest P) : Except Status Bytes := do
  checkSerializable format manifest
  return withBodyChecksum (buildManifestBody format manifest manifest.completedRanges)

/-- **The fast path agrees with the plain serializer** on a manifest whose
records are sorted and whose ranges are the ones derived from them. -/
theorem serializePrepared_eq {manifest : Manifest P} {completed : RangeList}
    (hsorted : RecordsSorted manifest.verifiedChunks)
    (hderived : completedFromVerified manifest.verifiedChunks manifest.totalSize = .ok completed)
    (hranges : manifest.completedRanges = completed.ranges) :
    serializePreparedManifest format manifest = serializeManifest format manifest := by
  rw [serializePreparedManifest, serializeManifest]
  simp only [sortedRecords_eq hsorted, hderived, ok_bind, hranges]
  rfl

/-- Where the two serializers write the same text, they write the same body. -/
theorem body_eq_of_serialized {manifest : Manifest P} {text : Bytes}
    (hprepared : serializePreparedManifest format manifest = .ok text)
    (hplain : serializeManifest format manifest = .ok text) :
    ∃ completed, completedFromVerified (sortedRecords manifest.verifiedChunks)
        manifest.totalSize = .ok completed ∧
      buildManifestBody format manifest manifest.completedRanges =
        buildManifestBody format
          { manifest with verifiedChunks := sortedRecords manifest.verifiedChunks }
          completed.ranges := by
  simp only [serializePreparedManifest, bind_eq_ok] at hprepared
  simp only [serializeManifest, bind_eq_ok] at hplain
  obtain ⟨_, -, htext⟩ := hprepared
  obtain ⟨_, -, completed, hcompleted, htext'⟩ := hplain
  exact ⟨completed, hcompleted, withBodyChecksum_injective
    ((Except.ok.inj htext).trans (Except.ok.inj htext').symm)⟩

theorem checkSerializable_eq_ok {manifest : Manifest P} {u : Unit} :
    checkSerializable format manifest = .ok u ↔
      manifest.version = format.version ∧ isValidTransferId manifest.transferId ∧
        ([] ∉ format.pathValues manifest.paths ∧ manifest.tempPath ≠ []) ∧
        manifest.chunkSize ≠ 0 := by
  simp [checkSerializable, bind_eq_ok]

/-! ### The body as a list of entries -/

theorem manifestEntries_keys (manifest : Manifest P) (ranges : List CompletedRange) :
    (manifestEntries format manifest ranges).map Prod.fst =
      headKeys ++ format.pathKeys ++ tailKeys := by
  have hzip : (format.pathKeys.zip ((format.pathValues manifest.paths).map toHex)).map Prod.fst =
      format.pathKeys := by
    rw [List.map_fst_zip]
    simp [format.length_pathValues]
  simp only [manifestEntries, List.map_append, hzip]
  rfl

theorem newline_notMem_transferId {transferId : Bytes} (h : isValidTransferId transferId) :
    newline ∉ transferId := by
  intro hmem
  simp only [isValidTransferId, Bool.and_eq_true, List.all_eq_true] at h
  exact absurd (h.2 newline hmem) (by decide)

theorem newline_notMem_serializeRanges (ranges : List CompletedRange) :
    newline ∉ serializeRanges ranges := by
  intro h
  rcases mem_join h with h | ⟨p, hp, h⟩
  · exact absurd h (by decide)
  · obtain ⟨r, -, rfl⟩ := List.mem_map.mp hp
    simp only [rangeText, List.mem_append, List.mem_cons] at h
    rcases h with h | h | h
    · exact notMem_decimal (by decide) h
    · exact absurd h (by decide)
    · exact notMem_decimal (by decide) h

theorem newline_notMem_serializeVerifiedChunks (records : List ChunkChecksumRecord) :
    newline ∉ serializeVerifiedChunksSorted records := by
  intro h
  rcases mem_join h with h | ⟨p, hp, h⟩
  · exact absurd h (by decide)
  · obtain ⟨record, -, rfl⟩ := List.mem_map.mp hp
    rcases mem_join h with h | ⟨q, hq, h⟩
    · exact absurd h (by decide)
    · simp only [List.mem_cons, List.not_mem_nil, or_false] at hq
      rcases hq with rfl | rfl | rfl | rfl | rfl
      · exact notMem_decimal (by decide) h
      · exact notMem_decimal (by decide) h
      · exact notMem_decimal (by decide) h
      · exact notMem_checksumAlgorithmName (by decide) _ h
      · exact notMem_hex32 (by decide) h

/-- The entries of a manifest with a valid id form a readable body. -/
theorem manifestEntries_bodyOk {manifest : Manifest P} (ranges : List CompletedRange)
    (hid : isValidTransferId manifest.transferId) :
    BodyOk (manifestEntries format manifest ranges) := by
  have hkeys := manifestEntries_keys format manifest ranges
  obtain ⟨hnodup, hread⟩ := format.keysReadable
  rw [← hkeys] at hnodup hread
  have hkey : ∀ e ∈ manifestEntries format manifest ranges, e.1 ≠ [] ∧ equalsSign ∉ e.1 ∧
      newline ∉ e.1 ∧ e.1 ≠ checksumKey := fun e he =>
    hread e.1 (List.mem_map.mpr ⟨e, he, rfl⟩)
  have hvalue : ∀ e ∈ manifestEntries format manifest ranges, newline ∉ e.2 := by
    intro e he
    simp only [manifestEntries, List.mem_append, List.mem_cons, List.not_mem_nil, or_false] at he
    rcases he with ((rfl | rfl) | he) | rfl | rfl | rfl | rfl | rfl | rfl | rfl | rfl | rfl
    · exact notMem_decimal (by decide)
    · exact newline_notMem_transferId hid
    · obtain ⟨p, -, hp⟩ := List.mem_map.mp (List.of_mem_zip he).2
      rw [← hp]
      exact notMem_toHex (by decide)
    · exact notMem_toHex (by decide)
    · exact notMem_decimal (by decide)
    · exact notMem_decimal (by decide)
    · exact notMem_checksumAlgorithmName (by decide) _
    · exact notMem_decimal (by decide)
    · exact notMem_decimal (by decide)
    · cases h : manifest.state with
      | created => decide
      | transferring => decide
      | failed => decide
      | committed => decide
    · exact newline_notMem_serializeRanges ranges
    · exact newline_notMem_serializeVerifiedChunks _
  refine ⟨fun e he => ⟨(hkey e he).1, (hkey e he).2.1⟩, hnodup, fun e he => (hkey e he).2.2.2,
    fun e he => ?_⟩
  simp only [entryLine, List.mem_append, List.mem_cons, not_or]
  exact ⟨(hkey e he).2.2.1, by decide, hvalue e he⟩

end Serialize

end GridFlux
