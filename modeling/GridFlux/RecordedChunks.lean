/-
GridFlux/RecordedChunks.lean

What stands in the temp file where a chunk has been received.

A stream in the middle of a chunk has gathered some bytes of it (`Gathers`); a
record was made of bytes with its checksum (`RecordedAs`).  The segments of a
transfer are what its streams have gathered and what its records were made of.
As long as nobody writes anything else into the temp file, each position of a
recorded chunk holds what one of these segments wants there (`FileOk`); once no
stream is inside a chunk, and contents of one chunk that differ do not collide,
the bytes of each record have its checksum (`RecordsOk.intact`).
-/
import GridFlux.BufferedFileWriter
import GridFlux.SessionDisk

namespace GridFlux

open HalfOpen SharedFile

/-! ### A chunk being received -/

/-- A chunk that a stream is in the middle of; `pending` are writes it still
has to make. -/
structure ChunkState where
  offset : Nat
  next : Nat
  computer : ChecksumComputer
  writer : BufferedFileWriter
  pending : List WriteJob

/-- `data` has come of the chunk: the checksum has been fed with it, it is
written up to `written`, the pending writes go on from there, and the writer
holds the rest. -/
structure Gathers (chunk : ChunkState) (data : Bytes) (written : Nat) : Prop where
  next_eq : chunk.next = chunk.offset + data.length
  algorithm : chunk.computer.algorithm = .crc32c
  fed : chunk.computer.Fed data
  holds : ∃ mid, BufferedFileWriter.Writes ⟨chunk.offset, data⟩ chunk.pending written mid ∧
    chunk.writer.Holds ⟨chunk.offset, data⟩ mid

namespace Gathers

variable {chunk : ChunkState} {data : Bytes} {written : Nat}

/-- The first DATA frame of a chunk has just come. -/
theorem begin (offset : Nat) (hardware : Bool) (backend : ChecksumBackend)
    {writer : BufferedFileWriter} (hwriter : writer.buffered = []) :
    Gathers ⟨offset, offset, .new hardware .crc32c backend, writer, []⟩ [] offset :=
  ⟨rfl, rfl, ChecksumComputer.new_fed hardware _ _, offset, .nil,
    BufferedFileWriter.holds_end hwriter ⟨offset, []⟩⟩

/-- The bytes of a DATA frame. -/
theorem afterData (h : Gathers chunk data written) (hpending : chunk.pending = []) (hardware : Bool)
    (bytes : Bytes) :
    Gathers ⟨chunk.offset, chunk.next + bytes.length, chunk.computer.update hardware bytes,
      (chunk.writer.write chunk.next bytes).2, (chunk.writer.write chunk.next bytes).1⟩
      (data ++ bytes) written := by
  obtain ⟨hnext, halgorithm, hfed, mid, hpend, hholds⟩ := h
  rw [hpending] at hpend
  cases hpend
  obtain ⟨written', hwrites, hholds'⟩ := @BufferedFileWriter.Holds.write _ _ _ bytes _ hholds
  rw [← hnext] at hwrites hholds'
  refine ⟨?_, ?_, hfed.update hardware bytes, written', hwrites, hholds'⟩
  · rw [List.length_append, ← Nat.add_assoc, ← hnext]
  · rw [ChecksumComputer.update_algorithm]
    exact halgorithm

/-- The flush at the end of a chunk. -/
theorem flush (h : Gathers chunk data written) (hpending : chunk.pending = []) :
    Gathers { chunk with writer := chunk.writer.flush.2, pending := chunk.writer.flush.1 } data
      written := by
  obtain ⟨hnext, halgorithm, hfed, mid, hpend, hholds⟩ := h
  rw [hpending] at hpend
  cases hpend
  exact ⟨hnext, halgorithm, hfed, _, hholds.flush.1,
    BufferedFileWriter.holds_end hholds.flush.2 ⟨chunk.offset, data⟩⟩

/-- The pending writes have been made. -/
theorem afterWrites (h : Gathers chunk data written) :
    ∃ mid, BufferedFileWriter.Writes ⟨chunk.offset, data⟩ chunk.pending written mid ∧
      Gathers { chunk with pending := [] } data mid := by
  obtain ⟨hnext, halgorithm, hfed, mid, hpend, hholds⟩ := h
  exact ⟨mid, hpend, hnext, halgorithm, hfed, mid, .nil, hholds⟩

/-- With nothing pending and nothing buffered, everything has been written. -/
theorem written_eq (h : Gathers chunk data written) (hpending : chunk.pending = [])
    (hbuffered : chunk.writer.buffered = []) : written = chunk.offset + data.length := by
  obtain ⟨-, -, -, mid, hpend, hholds⟩ := h
  rw [hpending] at hpend
  cases hpend
  have hends := hholds.ends
  rw [hbuffered] at hends
  exact hends

theorem finalize (h : Gathers chunk data written) :
    chunk.computer.finalize = checksumOf .crc32c data := by
  rw [h.fed.finalize, h.algorithm]

end Gathers

/-! ### What records were made of -/

/-- The segment is what the record was made of. -/
structure RecordedAs (record : ChunkChecksumRecord) (seg : Segment UInt8) : Prop where
  offset : seg.offset = record.offset
  length : seg.data.length = record.length
  checksum : checksumOf .crc32c seg.data = record.checksum

/-- The contents that some record was made of. -/
def recordSegments (contents : Set (Segment UInt8)) (records : List ChunkChecksumRecord) :
    Set (Segment UInt8) :=
  { seg | seg ∈ contents ∧ ∃ record ∈ records, RecordedAs record seg }

theorem recordSegments_mono {contents contents' : Set (Segment UInt8)}
    {records records' : List ChunkChecksumRecord} (hcontents : contents ⊆ contents')
    (hrecords : records ⊆ records') :
    recordSegments contents records ⊆ recordSegments contents' records' := by
  rintro seg ⟨hseg, record, hrecord, has⟩
  exact ⟨hcontents hseg, record, hrecords hrecord, has⟩

/-- Different contents of one chunk have different checksums. -/
def NoCollision (contents : Set (Segment UInt8)) : Prop :=
  ∀ a ∈ contents, ∀ b ∈ contents, a.offset = b.offset → a.data.length = b.data.length →
    crc32cOf a.data = crc32cOf b.data → a.data = b.data

theorem NoCollision.mono {contents contents' : Set (Segment UInt8)} (h : NoCollision contents')
    (hsub : contents ⊆ contents') : NoCollision contents :=
  fun a ha b hb => h a (hsub ha) b (hsub hb)

/-- The bytes of the record are in the file and have its checksum. -/
def ChunkChecksumRecord.Intact (record : ChunkChecksumRecord) (content : Bytes) : Prop :=
  record.offset + record.length ≤ content.length ∧
    checksumOf .crc32c (World.slice content record.offset record.length) = record.checksum

section Records

variable {contents : Set (Segment UInt8)} {records : List ChunkChecksumRecord} {totalSize : Nat}
  {content : Bytes}

/-- A segment that wants something inside a record was made into that record. -/
theorem RecordsOk.recordedAs (hok : RecordsOk records totalSize) {record : ChunkChecksumRecord}
    (hrecord : record ∈ records) {seg : Segment UInt8} (hseg : seg ∈ recordSegments contents records)
    {x : Nat} (hx : x ∈ Set.Ico record.offset (record.offset + record.length)) {a : UInt8}
    (ha : seg.wanted x = some a) : RecordedAs record seg := by
  obtain ⟨-, record', hrecord', has⟩ := hseg
  obtain ⟨hle, hlt⟩ := Segment.mem_of_wanted ha
  rw [Segment.end, has.length] at hlt
  rw [has.offset] at hle hlt
  obtain rfl := hok.owner_unique hrecord hrecord' hx ⟨hle, hlt⟩
  exact has

/-- A covered record stands in the file as it was made. -/
theorem RecordsOk.slice_eq (hok : RecordsOk records totalSize) (hcollision : NoCollision contents)
    (hcovered : Covered (recordSegments contents records) (covered (recordRanges records)) content)
    {record : ChunkChecksumRecord} (hrecord : record ∈ records) :
    record.offset + record.length ≤ content.length ∧ ∃ seg ∈ contents, RecordedAs record seg ∧
      World.slice content record.offset record.length = seg.data := by
  have hrange := List.mem_map_of_mem (f := ChunkChecksumRecord.range) hrecord
  have hpos : record.offset < record.offset + record.length := (hok.bounded _ hrange).1
  have hpositions : Set.Ico record.offset (record.offset + record.length) ⊆
      covered (recordRanges records) := fun x hx => ⟨_, hrange, hx⟩
  -- the segment that wants the first byte
  obtain ⟨hlt, seg, hseg, hfirst⟩ := hcovered record.offset (hpositions ⟨le_rfl, hpos⟩)
  rw [List.getElem?_eq_getElem hlt] at hfirst
  have has := hok.recordedAs hrecord hseg ⟨le_rfl, hpos⟩ hfirst.symm
  refine ⟨?_, seg, hseg.1, has, ?_⟩
  · -- the last byte is covered
    obtain ⟨hlast, -⟩ := hcovered (record.offset + record.length - 1)
      (hpositions ⟨by omega, by omega⟩)
    omega
  · rw [← has.length]
    apply hcovered.take_drop_eq
    · rw [has.length]
      exact hpositions
    · intro seg' hseg' x hx a ha
      rw [has.length] at hx
      have has' := hok.recordedAs hrecord hseg' hx ha
      have hdata : seg'.data = seg.data := by
        refine hcollision seg' hseg'.1 seg hseg.1 (has'.offset.trans has.offset.symm)
          (has'.length.trans has.length.symm) ?_
        exact congrArg ChecksumValue.value (has'.checksum.trans has.checksum.symm)
      rw [Segment.wanted, if_pos (by rw [has'.offset]; exact hx.1), has'.offset, hdata] at ha
      exact ha

/-- **Covered records are intact.** -/
theorem RecordsOk.intact (hok : RecordsOk records totalSize) (hcollision : NoCollision contents)
    (hcovered : Covered (recordSegments contents records) (covered (recordRanges records)) content) :
    ∀ record ∈ records, record.Intact content := by
  intro record hrecord
  obtain ⟨hle, seg, -, has, hslice⟩ := hok.slice_eq hcollision hcovered hrecord
  exact ⟨hle, by rw [hslice, has.checksum]⟩

/-- Cutting the file behind what is covered, or padding it, keeps that covered. -/
theorem covered_resized {segs : Set (Segment UInt8)} {positions : Set Nat}
    (h : Covered segs positions content) {size : Nat} (hsize : ∀ x ∈ positions, x < size) :
    Covered segs positions (World.resized content size) := by
  intro x hx
  obtain ⟨hlt, seg, hseg, heq⟩ := h x hx
  have hget : (World.resized content size)[x]? = content[x]? := by
    rw [World.resized, List.getElem?_append_left (by
      rw [List.length_take]
      exact lt_min (hsize x hx) hlt), List.getElem?_take_of_lt (hsize x hx)]
  refine ⟨?_, seg, hseg, hget.trans heq⟩
  rw [World.length_resized]
  exact hsize x hx

/-- Fewer records are covered as well. -/
theorem RecordsOk.covered_subset (hok : RecordsOk records totalSize)
    {records' : List ChunkChecksumRecord} (hsub : records' ⊆ records)
    (hcovered : Covered (recordSegments contents records) (covered (recordRanges records)) content) :
    Covered (recordSegments contents records') (covered (recordRanges records')) content := by
  rintro x ⟨range, hrange, hx⟩
  obtain ⟨record, hrecord, rfl⟩ := List.mem_map.mp hrange
  obtain ⟨hlt, seg, hseg, heq⟩ := hcovered x ⟨_, List.mem_map_of_mem (hsub hrecord), hx⟩
  have hwanted := heq
  rw [List.getElem?_eq_getElem hlt] at hwanted
  exact ⟨hlt, seg, ⟨hseg.1, record, hrecord,
    hok.recordedAs (hsub hrecord) hseg hx hwanted.symm⟩, heq⟩

/-- Intact records are covered by what stands in the file. -/
theorem covered_of_intact (hintact : ∀ record ∈ records, record.Intact content)
    (hcontents : ∀ record ∈ records,
      ⟨record.offset, World.slice content record.offset record.length⟩ ∈ contents) :
    Covered (recordSegments contents records) (covered (recordRanges records)) content := by
  rintro x ⟨range, hrange, hx⟩
  obtain ⟨record, hrecord, rfl⟩ := List.mem_map.mp hrange
  obtain ⟨hle, hchecksum⟩ := hintact record hrecord
  have hlength : (World.slice content record.offset record.length).length = record.length := by
    rw [World.slice, List.length_take, List.length_drop]
    omega
  have hx' : record.offset ≤ x ∧ x < record.offset + record.length := hx
  refine ⟨by omega, _, ⟨hcontents record hrecord, record, hrecord, rfl, hlength, hchecksum⟩, ?_⟩
  rw [Segment.wanted, if_pos hx'.1, World.slice]
  show content[x]? = (List.take _ (List.drop _ content))[x - record.offset]?
  rw [List.getElem?_take_of_lt (by omega), List.getElem?_drop, Nat.add_sub_cancel' hx'.1]

end Records

/-! ### The temp file during a transfer -/

/-- The segments of a transfer: what its records were made of, and what its
streams have gathered. -/
def transferSegments (contents : Set (Segment UInt8)) (records : List ChunkChecksumRecord)
    (chunks : Nat → Option ChunkState) (gathered : Nat → Bytes) : Set (Segment UInt8) :=
  recordSegments contents records ∪
    { seg | ∃ i chunk, chunks i = some chunk ∧ seg = ⟨chunk.offset, gathered i⟩ }

/-- What holds of the temp file: recorded chunks, and what has been written of
the chunks being received, consist of bytes the segments want there. -/
structure FileOk (contents : Set (Segment UInt8)) (records : List ChunkChecksumRecord)
    (chunks : Nat → Option ChunkState) (gathered : Nat → Bytes) (totalSize : Nat)
    (content : Bytes) : Prop where
  recorded : Covered (transferSegments contents records chunks gathered)
    (covered (recordRanges records)) content
  receiving : ∀ i chunk, chunks i = some chunk → ∃ written, Gathers chunk (gathered i) written ∧
    Covered (transferSegments contents records chunks gathered)
      (Set.Ico chunk.offset written) content ∧ chunk.next ≤ totalSize

namespace FileOk

variable {contents : Set (Segment UInt8)} {records : List ChunkChecksumRecord}
  {chunks : Nat → Option ChunkState} {gathered : Nat → Bytes} {totalSize : Nat}
  {content content' : Bytes}

/-- A transfer without streams. -/
theorem of_covered (h : Covered (recordSegments contents records)
    (covered (recordRanges records)) content) (gathered : Nat → Bytes) (totalSize : Nat)
    (hnone : ∀ i, chunks i = none) :
    FileOk contents records chunks gathered totalSize content := by
  refine ⟨fun x hx => ?_, fun i chunk hchunk => ?_⟩
  · obtain ⟨hlt, seg, hseg, heq⟩ := h x hx
    exact ⟨hlt, seg, Or.inl hseg, heq⟩
  · rw [hnone] at hchunk
    cases hchunk

/-- The file may be rewritten with what the segments want. -/
theorem rewritten (h : FileOk contents records chunks gathered totalSize content)
    {segs : Set (Segment UInt8)} {bound : Nat} (hrewritten : Rewritten 0 segs bound content content')
    (hsegs : segs ⊆ transferSegments contents records chunks gathered) :
    FileOk contents records chunks gathered totalSize content' := by
  refine ⟨hrewritten.covered hsegs h.recorded, fun i chunk hchunk => ?_⟩
  obtain ⟨written, hgathers, hcovered, hnext⟩ := h.receiving i chunk hchunk
  exact ⟨written, hgathers, hrewritten.covered hsegs hcovered, hnext⟩

/-- What a stream has gathered only grows. -/
theorem wanted_of_extend {i : Nat} {chunk : ChunkState} {data : Bytes}
    (hold : ∀ old, chunks i = some old → chunk.offset = old.offset ∧
      ∃ more, data = gathered i ++ more) :
    ∀ seg ∈ transferSegments contents records chunks gathered, ∀ x a, seg.wanted x = some a →
      ∃ seg' ∈ transferSegments contents records (Function.update chunks i (some chunk))
        (Function.update gathered i data), seg'.wanted x = some a := by
  rintro seg (hseg | ⟨j, old, hj, rfl⟩) x a ha
  · exact ⟨seg, Or.inl hseg, ha⟩
  · by_cases hij : j = i
    · -- the stream's own segment has grown
      subst hij
      obtain ⟨hoffset, more, rfl⟩ := hold old hj
      refine ⟨⟨chunk.offset, gathered j ++ more⟩, Or.inr ⟨j, chunk, ?_, ?_⟩, ?_⟩
      · rw [Function.update_self]
      · rw [Function.update_self]
      · rw [hoffset]
        exact (Segment.part_self ⟨old.offset, gathered j⟩).append.wanted_eq ha
    · refine ⟨⟨old.offset, gathered j⟩, Or.inr ⟨j, old, ?_, ?_⟩, ha⟩
      · rw [Function.update_of_ne hij]
        exact hj
      · rw [Function.update_of_ne hij]

/-- A stream gathers more of its chunk, or begins one. -/
theorem extend (h : FileOk contents records chunks gathered totalSize content) {i : Nat}
    {chunk : ChunkState} {data : Bytes} {written : Nat}
    (hold : ∀ old, chunks i = some old → chunk.offset = old.offset ∧
      ∃ more, data = gathered i ++ more)
    (hgathers : Gathers chunk data written)
    (hcovered : Covered (transferSegments contents records chunks gathered)
      (Set.Ico chunk.offset written) content) (hnext : chunk.next ≤ totalSize) :
    FileOk contents records (Function.update chunks i (some chunk))
      (Function.update gathered i data) totalSize content := by
  have hsegs := @wanted_of_extend contents records chunks gathered i chunk data hold
  refine ⟨h.recorded.mono hsegs subset_rfl, fun j chunk' hj => ?_⟩
  by_cases hij : j = i
  · subst hij
    rw [Function.update_self] at hj ⊢
    obtain rfl := Option.some.inj hj
    exact ⟨written, hgathers, hcovered.mono hsegs subset_rfl, hnext⟩
  · rw [Function.update_of_ne hij] at hj ⊢
    obtain ⟨written', hgathers', hcovered', hnext'⟩ := h.receiving j chunk' hj
    exact ⟨written', hgathers', hcovered'.mono hsegs subset_rfl, hnext'⟩

/-- A stream gathers more of its chunk, and all that is pending is written. -/
theorem makeWrites (h : FileOk contents records chunks gathered totalSize content) {i : Nat}
    {chunk : ChunkState} {data : Bytes} {written : Nat}
    (hold : ∀ old, chunks i = some old → chunk.offset = old.offset ∧
      ∃ more, data = gathered i ++ more)
    (hgathers : Gathers chunk data written)
    (hcovered : Covered (transferSegments contents records chunks gathered)
      (Set.Ico chunk.offset written) content) (hnext : chunk.next ≤ totalSize)
    {w w' : World} {path : Path} {u : Unit} (hfile : w.files path = some content)
    (hrun : w.runWrites path chunk.pending = (.ok u, w')) :
    ∃ content', w'.files path = some content' ∧
      Rewritten 0 {⟨chunk.offset, data⟩} (chunk.offset + data.length) content content' ∧
      FileOk contents records (Function.update chunks i (some { chunk with pending := [] }))
        (Function.update gathered i data) totalSize content' := by
  have hextended := h.extend hold hgathers hcovered hnext
  have hsegs := @wanted_of_extend contents records chunks gathered i chunk data hold
  obtain ⟨mid, hwrites, hgathers'⟩ := hgathers.afterWrites
  obtain ⟨content', hfile', hrewritten, hok⟩ := World.runWrites_of_writes hfile hwrites
  rw [hrun] at hfile' hok
  have hmem : ({⟨chunk.offset, data⟩} : Set (Segment UInt8)) ⊆ transferSegments contents records
      (Function.update chunks i (some chunk)) (Function.update gathered i data) := by
    rw [Set.singleton_subset_iff]
    exact Or.inr ⟨i, chunk, Function.update_self .., by rw [Function.update_self]⟩
  refine ⟨content', hfile', hrewritten, ?_⟩
  have hwritten : Covered (transferSegments contents records
      (Function.update chunks i (some chunk)) (Function.update gathered i data))
      (Set.Ico chunk.offset mid) content' :=
    hrewritten.covered_extend (hmem rfl) (hcovered.mono hsegs subset_rfl) (hok rfl)
  have hwrote : FileOk _ _ (Function.update _ i _) (Function.update _ i data) _ _ :=
    (hextended.rewritten hrewritten hmem).extend (fun old hold' => by
      rw [Function.update_self] at hold' ⊢
      obtain rfl := Option.some.inj hold'
      exact ⟨rfl, [], (List.append_nil data).symm⟩) hgathers' hwritten hnext
  rwa [Function.update_idem, Function.update_idem] at hwrote

/-- One `pwrite` of a pending write, which moves `moved` bytes at most. -/
theorem writeSome (h : FileOk contents records chunks gathered totalSize content) {i : Nat}
    {chunk : ChunkState} (hchunk : chunks i = some chunk) {job : WriteJob} {jobs : List WriteJob}
    (hpending : chunk.pending = job :: jobs) (moved : Nat) {w w' : World} {path : Path} {u : Unit}
    (hfile : w.files path = some content)
    (hwrite : w.writeAtAll path job.offset (job.data.take moved) = (.ok u, w')) :
    ∃ content', w'.files path = some content' ∧
      FileOk contents records (Function.update chunks i (some { chunk with
        pending := if moved < job.data.length then ⟨job.offset + moved, job.data.drop moved⟩ :: jobs
          else jobs })) gathered totalSize content' := by
  obtain ⟨written, ⟨hend, halgorithm, hfed, last, hpend, hholds⟩, hcovered, hnext⟩ :=
    h.receiving i chunk hchunk
  rw [hpending] at hpend
  obtain ⟨mid, hfirst, hrest⟩ := hpend.advance moved
  have hrun : w.runWrites path [⟨job.offset, job.data.take moved⟩] = (.ok (), w') := by
    rw [World.runWrites, hwrite]
    rfl
  obtain ⟨content', hfile', hrewritten, hok⟩ := World.runWrites_of_writes hfile hfirst
  rw [hrun] at hfile' hok
  -- the bytes are those of the stream's own segment
  have hmem : ⟨chunk.offset, gathered i⟩ ∈ transferSegments contents records chunks gathered :=
    Or.inr ⟨i, chunk, hchunk, rfl⟩
  have hwritten := hrewritten.covered_extend hmem hcovered (hok rfl)
  have hgathers : Gathers { chunk with
      pending := if moved < job.data.length then ⟨job.offset + moved, job.data.drop moved⟩ :: jobs
        else jobs } (gathered i) mid := ⟨hend, halgorithm, hfed, last, hrest, hholds⟩
  have hwrote : FileOk _ _ (Function.update _ i _) (Function.update _ i (gathered i)) _ _ :=
    (h.rewritten hrewritten (Set.singleton_subset_iff.mpr hmem)).extend (fun old hold => by
      obtain rfl := Option.some.inj (hchunk.symm.trans hold)
      exact ⟨rfl, [], (List.append_nil _).symm⟩) hgathers hwritten hnext
  rw [Function.update_eq_self] at hwrote
  exact ⟨content', hfile', hwrote⟩

/-- A chunk that has been written is recorded. -/
theorem record (h : FileOk contents records chunks gathered totalSize content) {i : Nat}
    {chunk : ChunkState} (hchunk : chunks i = some chunk) (hpending : chunk.pending = [])
    (hbuffered : chunk.writer.buffered = []) {contents' : Set (Segment UInt8)}
    {records' : List ChunkChecksumRecord} (hcontents : contents ⊆ contents')
    (hmem : ⟨chunk.offset, gathered i⟩ ∈ contents') (hrecords : records ⊆ records')
    (hnew : ∀ r ∈ records', r ∈ records ∨ RecordedAs r ⟨chunk.offset, gathered i⟩)
    (hin : ∃ r ∈ records', RecordedAs r ⟨chunk.offset, gathered i⟩) :
    FileOk contents' records' (Function.update chunks i none) gathered totalSize content := by
  have hsegs : ∀ seg ∈ transferSegments contents records chunks gathered, ∀ x a,
      seg.wanted x = some a → ∃ seg' ∈ transferSegments contents' records'
        (Function.update chunks i none) gathered, seg'.wanted x = some a := by
    rintro seg (hseg | ⟨j, old, hj, rfl⟩) x a ha
    · exact ⟨seg, Or.inl (recordSegments_mono hcontents hrecords hseg), ha⟩
    · by_cases hij : j = i
      · subst hij
        obtain rfl := Option.some.inj (hchunk.symm.trans hj)
        exact ⟨_, Or.inl ⟨hmem, hin⟩, ha⟩
      · refine ⟨⟨old.offset, gathered j⟩, Or.inr ⟨j, old, ?_, rfl⟩, ha⟩
        rw [Function.update_of_ne hij]
        exact hj
  obtain ⟨written, hgathers, hcovered, -⟩ := h.receiving i chunk hchunk
  have hend := hgathers.written_eq hpending hbuffered
  constructor
  · rintro x ⟨range, hrange, hx⟩
    obtain ⟨r, hr, rfl⟩ := List.mem_map.mp hrange
    rcases hnew r hr with hr | has
    · exact h.recorded.mono hsegs subset_rfl x ⟨_, List.mem_map_of_mem hr, hx⟩
    · refine hcovered.mono hsegs subset_rfl x ?_
      have hoffset : chunk.offset = r.offset := has.offset
      have hlength : (gathered i).length = r.length := has.length
      rw [hend, hoffset, hlength]
      exact hx
  · intro j chunk' hj
    by_cases hij : j = i
    · subst hij
      rw [Function.update_self] at hj
      cases hj
    · rw [Function.update_of_ne hij] at hj
      obtain ⟨written', hgathers', hcovered', hnext'⟩ := h.receiving j chunk' hj
      exact ⟨written', hgathers', hcovered'.mono hsegs subset_rfl, hnext'⟩

/-- More contents do no harm. -/
theorem contents_mono (h : FileOk contents records chunks gathered totalSize content)
    {contents' : Set (Segment UInt8)} (hcontents : contents ⊆ contents') :
    FileOk contents' records chunks gathered totalSize content := by
  have hsegs : ∀ seg ∈ transferSegments contents records chunks gathered, ∀ x a,
      seg.wanted x = some a → ∃ seg' ∈ transferSegments contents' records chunks gathered,
        seg'.wanted x = some a := fun seg hseg x a ha =>
    ⟨seg, hseg.imp_left fun hseg => recordSegments_mono hcontents (List.Subset.refl _) hseg, ha⟩
  refine ⟨h.recorded.mono hsegs subset_rfl, fun i chunk hchunk => ?_⟩
  obtain ⟨written, hgathers, hcovered, hnext⟩ := h.receiving i chunk hchunk
  exact ⟨written, hgathers, hcovered.mono hsegs subset_rfl, hnext⟩

/-- Without streams, recorded chunks consist of what records were made of. -/
theorem covered (h : FileOk contents records chunks gathered totalSize content)
    (hnone : ∀ i, chunks i = none) :
    Covered (recordSegments contents records) (HalfOpen.covered (recordRanges records)) content := by
  intro x hx
  obtain ⟨hlt, seg, hseg | ⟨i, chunk, hchunk, -⟩, heq⟩ := h.recorded x hx
  · exact ⟨hlt, seg, hseg, heq⟩
  · rw [hnone] at hchunk
    cases hchunk

end FileOk

/-! ### Reading chunks back -/

theorem readAtAll_ok {w w' : World} {path : Path} {offset length : Nat} {data : Bytes}
    (h : w.readAtAll path offset length = (.ok data, w')) (hpos : 0 < length) :
    ∃ content, w.files path = some content ∧ offset + length ≤ content.length ∧
      data = World.slice content offset length := by
  rw [World.readAtAll, if_neg (by omega)] at h
  split at h
  · simp at h
  · cases hnext : w.nextOutcome with
    | failure e moved => simp [hnext] at h
    | success =>
        cases hfile : w.files path with
        | none => simp [hnext, hfile] at h
        | some content =>
            simp only [hnext, hfile] at h
            split at h
            · rename_i hle
              simp only [Prod.mk.injEq, Except.ok.injEq] at h
              exact ⟨content, rfl, hle, h.1.symm⟩
            · simp at h

/-- The loop feeds the computer with the bytes of the chunk. -/
theorem readChecksumLoop_ok {path : Path} {limit fuel : Nat} (hlimit : 0 < limit)
    {offset length : Nat} (hfuel : length ≤ fuel) {computer computer' : ChecksumComputer}
    {w w' : World}
    (h : readChecksumLoop path (pieceSpans limit fuel offset length) computer w =
      (.ok computer', w')) {content : Bytes} (hfile : w.files path = some content) {fed : Bytes}
    (hfed : computer.Fed fed) :
    computer'.Fed (fed ++ World.slice content offset length) ∧
      computer'.algorithm = computer.algorithm ∧
      (0 < length → offset + length ≤ content.length) := by
  induction fuel generalizing offset length computer w fed with
  | zero =>
      obtain rfl : length = 0 := by omega
      rw [pieceSpans, readChecksumLoop] at h
      simp only [Prod.mk.injEq, Except.ok.injEq] at h
      obtain ⟨rfl, -⟩ := h
      exact ⟨by simpa [World.slice] using hfed, rfl, fun h => absurd h (lt_irrefl _)⟩
  | succ fuel ih =>
      rw [pieceSpans] at h
      split at h
      · rename_i hzero
        subst hzero
        rw [readChecksumLoop] at h
        simp only [Prod.mk.injEq, Except.ok.injEq] at h
        obtain ⟨rfl, -⟩ := h
        exact ⟨by simpa [World.slice] using hfed, rfl, fun h => absurd h (lt_irrefl _)⟩
      · rename_i hne
        have hread := w.readAtAll_frame path offset (min limit length)
        rw [readChecksumLoop] at h
        rcases hresult : w.readAtAll path offset (min limit length) with ⟨e | data, w₁⟩
        · simp [hresult] at h
        · rw [hresult] at hread
          simp only [hresult] at h
          obtain ⟨content', hfile', hbound, rfl⟩ := readAtAll_ok hresult (by omega)
          obtain rfl := Option.some.inj (hfile.symm.trans hfile')
          obtain ⟨hfed', halgorithm, hle⟩ := ih (by omega) h
            ((hread.files _ (Set.notMem_empty _)).trans hfile)
            (hfed.update w₁.crc32cHardwareAvailable _)
          refine ⟨?_, halgorithm.trans (ChecksumComputer.update_algorithm _ _ _), fun _ => ?_⟩
          · rw [List.append_assoc, World.slice_append] at hfed'
            rwa [show min limit length + (length - min limit length) = length by omega] at hfed'
          · by_cases hrest : 0 < length - min limit length
            · have := hle hrest
              omega
            · omega

/-- A chunk that could be read back: its bytes are in the file, and the value
is their checksum. -/
theorem readChecksumForRecord_ok {w w' : World} {path : Path} {record : ChunkChecksumRecord}
    {backend : ChecksumBackend} {value : ChecksumValue} (hpos : 0 < record.length)
    (h : readChecksumForRecord w path record backend = (.ok value, w')) :
    ∃ content, w.files path = some content ∧
      record.offset + record.length ≤ content.length ∧
      value = checksumOf record.checksum.algorithm
        (World.slice content record.offset record.length) := by
  rw [readChecksumForRecord] at h
  rcases hloop : readChecksumLoop path
      (pieceSpans 65536 record.length record.offset record.length)
      (ChecksumComputer.new w.crc32cHardwareAvailable record.checksum.algorithm backend) w
    with ⟨e | computer, w₁⟩
  · simp [hloop] at h
  · simp only [hloop, Prod.mk.injEq, Except.ok.injEq] at h
    -- the first read finds the file
    obtain ⟨content, hfile⟩ : ∃ content, w.files path = some content := by
      obtain ⟨fuel, hfuel⟩ := Nat.exists_eq_succ_of_ne_zero hpos.ne'
      rw [hfuel, pieceSpans, if_neg (by omega), readChecksumLoop] at hloop
      rcases hread : w.readAtAll path record.offset (min 65536 (fuel + 1)) with ⟨e | data, w₂⟩
      · simp [hread] at hloop
      · obtain ⟨content, hfile, -⟩ := readAtAll_ok hread (by omega)
        exact ⟨content, hfile⟩
    obtain ⟨hfed, halgorithm, hle⟩ := readChecksumLoop_ok (by omega) le_rfl hloop hfile
      (ChecksumComputer.new_fed _ _ _)
    refine ⟨content, hfile, hle hpos, ?_⟩
    rw [← h.1, hfed.finalize, halgorithm]
    rfl

namespace Session

variable {P : Type} {format : SessionFormat P}

/-- The intact records of a run of `intactRecords` are intact. -/
theorem intact_of_mem_intactRecords {backend : ChecksumBackend} {path : Path}
    {records : List ChunkChecksumRecord} {w : World} {content : Bytes}
    (hfile : w.files path = some content)
    (halgorithm : ∀ r ∈ records, r.checksum.algorithm = .crc32c ∧ 0 < r.length) :
    ∀ record ∈ intactRecords backend path records w, record.Intact content := by
  induction records generalizing w with
  | nil => exact fun _ h => (List.not_mem_nil h).elim
  | cons record rest ih =>
      obtain ⟨⟨hcrc, hpos⟩, hrest⟩ := List.forall_mem_cons.mp halgorithm
      have hframe := readChecksumForRecord_frame w path record backend
      rw [intactRecords]
      rcases h : readChecksumForRecord w path record backend with ⟨e | actual, w'⟩
      · rw [h] at hframe
        exact ih ((hframe.files _ (Set.notMem_empty _)).trans hfile) hrest
      · rw [h] at hframe
        have ih' := ih ((hframe.files _ (Set.notMem_empty _)).trans hfile) hrest
        simp only
        split
        · rename_i heq
          refine List.forall_mem_cons.mpr ⟨?_, ih'⟩
          obtain ⟨content', hfile', hle, hvalue⟩ := readChecksumForRecord_ok hpos h
          obtain rfl := Option.some.inj (hfile.symm.trans hfile')
          exact ⟨hle, by rw [← hcrc, ← hvalue, heq]⟩
        · exact ih'

theorem save_records_perm (format : SessionFormat P) (s : Session P) (w : World) :
    (s.save format w).2.1.records.Perm s.records := by
  obtain ⟨dirty, stats, h⟩ := s.save_session format w
  rw [h]
  exact s.prepareSave_records_perm format _

/-- What a record operation leaves: the records there were, and perhaps the new
one; and the new one for certain when it succeeds. -/
structure Recorded (s s' : Session P) (record : ChunkChecksumRecord)
    (status : Except Status Unit) : Prop where
  kept : s.records ⊆ s'.records
  new : ∀ r ∈ s'.records, r ∈ s.records ∨ r = record
  done : status = .ok () → record ∈ s'.records

theorem recordVerifiedChunk_recorded (format : SessionFormat P) (s : Session P) (chunkId offset length : Nat) (value : ChecksumValue) (w : World) :
    Recorded s (s.recordVerifiedChunk format chunkId offset length value w).2.1
      ⟨chunkId, offset, length, value⟩
      (s.recordVerifiedChunk format chunkId offset length value w).1 := by
  have hsame : ∀ e : Status, Recorded s s ⟨chunkId, offset, length, value⟩ (.error e) :=
    fun e => ⟨List.Subset.refl _, fun _ hr => Or.inl hr, fun h => by cases h⟩
  rw [recordVerifiedChunk]
  split
  · exact hsame _
  · split
    · exact hsame _
    · cases hfind : s.manifest.verifiedChunks.find? (s.sameIdentity chunkId offset) with
      | some record =>
          simp only
          split
          · rename_i heq
            refine ⟨List.Subset.refl _, fun _ hr => Or.inl hr, fun _ => ?_⟩
            rw [← heq]
            exact List.mem_of_find?_eq_some hfind
          · exact hsame _
      | none =>
          cases s.completed.insert offset length s.manifest.totalSize with
          | error e => exact hsame e
          | ok completed =>
              have happend : Recorded s
                  (s.appendRecord format ⟨chunkId, offset, length, value⟩ completed)
                  ⟨chunkId, offset, length, value⟩ (.ok ()) := by
                refine ⟨List.subset_append_left _ _, fun r hr => ?_, fun _ => ?_⟩
                · exact (List.mem_append.mp hr).imp_right List.mem_singleton.mp
                · exact List.mem_append_right _ (List.mem_singleton_self _)
              simp only
              split
              · have hperm := save_records_perm format
                  (s.appendRecord format ⟨chunkId, offset, length, value⟩ completed) w
                exact ⟨fun r hr => hperm.mem_iff.mpr (happend.kept hr),
                  fun r hr => happend.new r (hperm.mem_iff.mp hr),
                  fun _ => hperm.mem_iff.mpr (happend.done rfl)⟩
              · exact happend

/-- **After `verifyTempChunks` every record is intact.** -/
theorem Ok.verifyTempChunks_intact {s : Session P} (h : s.Ok)
    (halgorithm : s.manifest.checksumAlgorithm = .crc32c)
    (halgorithms : ∀ r ∈ s.records, r.checksum.algorithm = .crc32c) {path : Path} {w : World}
    {content : Bytes} (hfile : w.files path = some content) :
    ∀ record ∈ (s.verifyTempChunks format path w).2.1.records, record.Intact content := by
  have hkept : ∀ record ∈ intactRecords s.checksumBackend path s.records w,
      record.Intact content := by
    apply intact_of_mem_intactRecords hfile
    intro r hr
    have hpos : r.offset < r.offset + r.length :=
      (h.records.bounded _ (List.mem_map_of_mem hr)).1
    exact ⟨halgorithms r hr, by omega⟩
  rw [verifyTempChunks]
  split
  · rename_i hguard
    have hnil : s.records = [] := by
      refine hguard.resolve_left fun hnone => ?_
      rw [halgorithm] at hnone
      cases hnone
    have hrecords : (if format.refreshesStats then s.refreshStats else s).records = [] := by
      split
      · exact hnil
      · exact hnil
    intro record hrecord
    rw [hrecords] at hrecord
    exact (List.not_mem_nil hrecord).elim
  · obtain ⟨v, hloop, hcount⟩ := @verifyLoop_ok s.checksumBackend path s.manifest.totalSize
      s.records ⟨[], .empty, 0⟩ w rfl h.records
    have hv := @verifyLoop_kept s.checksumBackend path s.manifest.totalSize s.records
      ⟨[], .empty, 0⟩ w rfl h.records
    rw [hloop] at hv
    have hv' : v.kept = intactRecords s.checksumBackend path s.records w := hv
    rw [show s.manifest.verifiedChunks = s.records from rfl, hloop]
    simp only
    split
    · -- nothing was dropped
      rename_i hremoved
      obtain ⟨hsub, -⟩ := @verifyLoop_kept_sublist P s path w v (by rw [hloop])
      simp only [List.length_nil, Nat.zero_add] at hcount
      have hall : v.kept = s.records := hsub.eq_of_length (by omega)
      rw [← hv', hall] at hkept
      exact hkept
    · intro record hrecord
      rw [(save_records_perm format _ _).mem_iff] at hrecord
      rw [← hv'] at hkept
      exact hkept record hrecord

/-- **A file whose records all agree with a source**, with nothing missing, is
that source. -/
theorem Ok.content_eq {s : Session P} (h : s.Ok) (hmissing : s.missingRanges = [])
    {content source : Bytes} (htotal : s.manifest.totalSize = source.length)
    (hle : content.length ≤ source.length)
    (hslices : ∀ record ∈ s.records, World.slice content record.offset record.length =
      World.slice source record.offset record.length) : content = source := by
  have hcovers : covered (recordRanges s.records) = Set.Ico 0 source.length := by
    rw [← h.derived.covered_eq, ← htotal]
    exact (RangeList.missingRanges_eq_nil_iff h.derived.wellFormed).mp hmissing
  apply List.ext_getElem?
  intro x
  by_cases hx : x < source.length
  · have hmem : x ∈ covered (recordRanges s.records) := by
      rw [hcovers]
      exact ⟨Nat.zero_le x, hx⟩
    obtain ⟨range, hrange, hbegin, hend⟩ := hmem
    obtain ⟨record, hrecord, rfl⟩ := List.mem_map.mp hrange
    have hbegin' : record.offset ≤ x := hbegin
    have hend' : x < record.offset + record.length := hend
    have hget := congrArg (fun bytes : Bytes => bytes[x - record.offset]?) (hslices record hrecord)
    simp only [World.slice] at hget
    rwa [List.getElem?_take_of_lt (by omega), List.getElem?_take_of_lt (by omega),
      List.getElem?_drop, List.getElem?_drop, Nat.add_sub_cancel' hbegin'] at hget
  · rw [List.getElem?_eq_none (by omega), List.getElem?_eq_none (by omega)]

end Session

end GridFlux
