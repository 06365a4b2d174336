/-
GridFlux/ChunksLeft.lean

What of a transfer plan a session still has to receive.

When the records of a session are chunks of the plan, each chunk is missing as a
whole or not at all (`Session.Ok.meets_missingRanges`).  So a stream that is
answered with the missing ranges sends the chunks of its own that have no record,
each in one piece (`Session.Ok.sendStream_missingRanges`); a record of the first
of them takes it off the list and leaves the lists of the other streams alone
(`RecordAdded.left_own`, `RecordAdded.left_other`); and when no stream has a chunk
left, nothing is missing (`Session.Ok.missingRanges_of_left`).
-/
import GridFlux.QuietWorld
import GridFlux.RecordOutcome
import GridFlux.ResumeRuns
import GridFlux.UploadRecords

namespace GridFlux

open HalfOpen

variable {P : Type} {s s' : Session P} {connections : Nat} {chunks : List ChunkRange}
  {chunk : ChunkRange}

namespace Session

/-- The session has a record of the chunk. -/
def Has (s : Session P) (chunk : ChunkRange) : Prop :=
  ∃ record ∈ s.records, record.offset = chunk.offset

instance (s : Session P) (chunk : ChunkRange) : Decidable (s.Has chunk) :=
  inferInstanceAs (Decidable (∃ record ∈ s.records, _))

/-- The chunks of a stream that have no record. -/
def left (s : Session P) (chunks : List ChunkRange) (streamId : Nat) : List ChunkRange :=
  chunks.filter fun chunk => chunk.streamId = streamId ∧ ¬s.Has chunk

theorem mem_left {streamId : Nat} :
    chunk ∈ s.left chunks streamId ↔
      chunk ∈ chunks ∧ chunk.streamId = streamId ∧ ¬s.Has chunk := by
  rw [left, List.mem_filter, decide_eq_true_eq]

end Session

/-- The chunk as it is sent when all of it is missing. -/
def SentRange.whole (chunk : ChunkRange) : SentRange := ⟨chunk, chunk.range⟩

/-! ### Chunks and records -/

section Records

variable {totalSize chunkSize : Nat} {record : ChunkChecksumRecord}

theorem plannedChunk_of_mem (hplan : planChunks totalSize chunkSize connections = .ok chunks)
    (hchunk : chunk ∈ chunks) :
    0 < chunkSize ∧ chunk.chunkId * chunkSize < totalSize ∧
      chunk.offset = chunk.chunkId * chunkSize ∧
      chunk.length = min chunkSize (totalSize - chunk.chunkId * chunkSize) := by
  obtain ⟨hne, -⟩ := planChunks_eq hplan
  obtain ⟨hlt, heq⟩ := (mem_planChunks hplan).mp hchunk
  refine ⟨Nat.pos_of_ne_zero hne, hlt, ?_, ?_⟩
  · exact congrArg ChunkRange.offset heq
  · exact congrArg ChunkRange.length heq

theorem planChunks_offset_inj (hplan : planChunks totalSize chunkSize connections = .ok chunks)
    {c : ChunkRange} (hc : c ∈ chunks) (hchunk : chunk ∈ chunks) :
    c.offset = chunk.offset ↔ c = chunk := by
  refine ⟨fun heq => ?_, fun heq => by rw [heq]⟩
  obtain ⟨hne, -, -⟩ := planChunks_bounds hplan hc
  obtain ⟨hne', -, -⟩ := planChunks_bounds hplan hchunk
  exact planChunks_unique hplan hc hchunk (x := c.offset) ⟨le_refl _, hne⟩
    ⟨heq.ge, by rw [heq]; exact hne'⟩

/-- A record of the plan has the range of the chunk or no byte of it. -/
theorem ChunkChecksumRecord.Planned.range_or_apart
    (hrecord : record.Planned chunkSize totalSize)
    (hplan : planChunks totalSize chunkSize connections = .ok chunks) (hchunk : chunk ∈ chunks) :
    (record.offset = chunk.offset → record.range = chunk.range) ∧
      (record.offset ≠ chunk.offset → Disjoint (Set.Ico record.range.begin record.range.end)
        (Set.Ico chunk.range.begin chunk.range.end)) := by
  obtain ⟨hpos, hlt, hoffset, hlength⟩ := plannedChunk_of_mem hplan hchunk
  obtain ⟨hrecordOffset, hinside, hrecordLength⟩ := hrecord
  constructor
  · intro heq
    have hlengths : record.length = chunk.length := by
      rw [hrecordLength, hlength, heq, hoffset]
    show (⟨record.offset, record.offset + record.length⟩ : CompletedRange) =
      ⟨chunk.offset, chunk.offset + chunk.length⟩
    rw [heq, hlengths]
  · intro hne
    rw [Set.disjoint_left]
    rintro x ⟨hb, he⟩ ⟨hb', he'⟩
    -- a byte of both lies in the cell of both
    change record.offset ≤ x at hb
    change x < record.offset + record.length at he
    change chunk.offset ≤ x at hb'
    change x < chunk.offset + chunk.length at he'
    have hcell : x / chunkSize = record.chunkId :=
      Nat.div_eq_of_lt_le (by omega) (by rw [Nat.succ_mul]; omega)
    have hcell' : x / chunkSize = chunk.chunkId :=
      Nat.div_eq_of_lt_le (by omega) (by rw [Nat.succ_mul]; omega)
    apply hne
    rw [hrecordOffset, hoffset, ← hcell, ← hcell']

end Records

namespace Session.Ok

variable (h : s.Ok) (hplanned : s.manifest.RecordsAre ChunkChecksumRecord.Planned)
  (hplan : planChunks s.manifest.totalSize s.manifest.chunkSize connections = .ok chunks)

include h hplanned hplan

theorem subset_of_has (hchunk : chunk ∈ chunks) (hhas : s.Has chunk) :
    Set.Ico chunk.range.begin chunk.range.end ⊆ covered s.completed.ranges := by
  obtain ⟨record, hrecord, hoffset⟩ := hhas
  have hrange := ((hplanned record hrecord).range_or_apart hplan hchunk).1 hoffset
  rw [h.derived.covered_eq, ← hrange]
  exact fun x hx => ⟨record.range, List.mem_map_of_mem hrecord, hx⟩

theorem disjoint_of_not_has (hchunk : chunk ∈ chunks) (hnot : ¬s.Has chunk) :
    Disjoint (covered s.completed.ranges) (Set.Ico chunk.range.begin chunk.range.end) := by
  rw [h.derived.covered_eq, Set.disjoint_left]
  rintro x ⟨range, hrange, hx⟩ hx'
  obtain ⟨record, hrecord, rfl⟩ := List.mem_map.mp hrange
  have hapart := ((hplanned record hrecord).range_or_apart hplan hchunk).2
    fun heq => hnot ⟨record, hrecord, heq⟩
  exact Set.disjoint_left.mp hapart hx hx'

/-- A chunk is missing as a whole, or nothing of it is. -/
theorem meets_missingRanges (hchunk : chunk ∈ chunks) :
    meets chunk.range s.missingRanges = if s.Has chunk then [] else [chunk.range] := by
  obtain ⟨hne, hend, -⟩ := planChunks_bounds hplan hchunk
  split
  · rename_i hhas
    apply (canonical_missingRanges h).meets_of_disjoint
    rw [Set.disjoint_left]
    intro x hx hx'
    exact ((mem_missingRanges h).mp hx).2
      (h.subset_of_has hplanned hplan hchunk hhas hx')
  · rename_i hnot
    apply (canonical_missingRanges h).meets_of_subset hne
    intro x hx
    refine (mem_missingRanges h).mpr ⟨hx.2.trans_le hend, fun hin => ?_⟩
    exact Set.disjoint_left.mp (h.disjoint_of_not_has hplanned hplan hchunk hnot) hin hx

/-- **What a stream sends** when it is answered with the missing ranges. -/
theorem sendStream_missingRanges (streamId : Nat) :
    FileTransferClient.sendStream chunks streamId s.missingRanges =
      (s.left chunks streamId).map SentRange.whole := by
  have hpart : ∀ plan : List ChunkRange, (∀ c ∈ plan, c ∈ chunks) →
      FileTransferClient.sendStream plan streamId s.missingRanges =
        (s.left plan streamId).map SentRange.whole := by
    intro plan hsub
    induction plan with
    | nil => rfl
    | cons c plan ih =>
        obtain ⟨hc, hrest⟩ := List.forall_mem_cons.mp hsub
        have hmeets : s.missingRanges.filterMap (fun range =>
            (FileTransferClient.intersects c range).map (SentRange.mk c)) =
              (meets c.range s.missingRanges).map (SentRange.mk c) := by
          rw [meets, List.map_filterMap, FileTransferClient.intersects_eq_meet?]
        have hsplit : FileTransferClient.sendStream (c :: plan) streamId s.missingRanges =
            (if c.streamId = streamId then
              (meets c.range s.missingRanges).map (SentRange.mk c) else []) ++
                FileTransferClient.sendStream plan streamId s.missingRanges := by
          rw [FileTransferClient.sendStream, FileTransferClient.sendStream, List.filter_cons]
          by_cases hstream : c.streamId = streamId
          · simp only [hstream, decide_true, if_true, List.flatMap_cons, hmeets]
          · simp only [hstream, decide_false, if_false, List.nil_append, Bool.false_eq_true]
        rw [hsplit, ih hrest, h.meets_missingRanges hplanned hplan hc, left, left,
          List.filter_cons]
        by_cases hstream : c.streamId = streamId
        · by_cases hhas : s.Has c
          · simp [hstream, hhas]
          · simp [hstream, hhas, SentRange.whole]
        · simp [hstream]
  exact hpart chunks fun _ hc => hc

/-- When no stream has a chunk left, nothing is missing. -/
theorem missingRanges_of_left (hleft : ∀ t < connections, s.left chunks t = []) :
    s.missingRanges = [] := by
  apply (canonical_missingRanges h).eq_of_covered_eq .nil
  rw [covered_nil, Set.eq_empty_iff_forall_notMem]
  intro x hx
  obtain ⟨c, hc, hxc⟩ := missing_in_chunk h hplan hx
  obtain ⟨-, -, hstream⟩ := planChunks_bounds hplan hc
  have hhas : s.Has c := by
    by_contra hnot
    have hmem : c ∈ s.left chunks c.streamId := mem_left.mpr ⟨hc, rfl, hnot⟩
    rw [hleft c.streamId hstream] at hmem
    exact List.not_mem_nil hmem
  exact ((mem_missingRanges h).mp hx).2 (h.subset_of_has hplanned hplan hc hhas hxc)

/-- A chunk without a record can be recorded when no system call fails. -/
theorem recordVerifiedChunk_added {format : SessionFormat P} {w : World}
    (hserializable : s.Serializable format) (hquiet : w.Quiet) (hwritable : s.ManifestWritable w)
    (hchunk : chunk ∈ chunks) (hnot : ¬s.Has chunk) {value : ChecksumValue}
    (halgorithm : value.algorithm = s.manifest.checksumAlgorithm) :
    (s.recordVerifiedChunk format chunk.chunkId chunk.offset chunk.length value w).1 = .ok () ∧
      RecordAdded s
        (s.recordVerifiedChunk format chunk.chunkId chunk.offset chunk.length value w).2.1
        ⟨chunk.chunkId, chunk.offset, chunk.length, value⟩ := by
  obtain ⟨hpos, hlt, hoffset, hlength⟩ := plannedChunk_of_mem hplan hchunk
  have hnone : s.manifest.verifiedChunks.find? (s.sameIdentity chunk.chunkId chunk.offset) =
      none := by
    rw [List.find?_eq_none]
    intro record hrecord hsame
    rw [sameIdentity, decide_eq_true_eq] at hsame
    apply hnot
    rcases hsame with hsame | ⟨-, hsame⟩
    · exact ⟨record, hrecord, hsame⟩
    · exact ⟨record, hrecord, by rw [(hplanned record hrecord).offset, hsame, hoffset]⟩
  obtain ⟨completed, hinsert, -⟩ := @RangeList.insert_of_disjoint s.completed chunk.offset
    chunk.length s.manifest.totalSize h.derived.wellFormed (by omega) (by omega)
    (h.disjoint_of_not_has hplanned hplan hchunk hnot)
  have hok : (s.recordVerifiedChunk format chunk.chunkId chunk.offset chunk.length value w).1 =
      .ok () := by
    rw [recordVerifiedChunk, if_neg (not_not.mpr halgorithm), if_neg (by omega), hnone]
    simp only [hinsert]
    split
    · refine (Serializable.save_ok_iff ?_).mpr ⟨hquiet.callsSucceed 4, hwritable⟩
      rw [Serializable, checkSerializable_eq_ok] at hserializable ⊢
      exact hserializable
    · rfl
  refine ⟨hok, ?_⟩
  obtain ⟨outcome, hsays⟩ := h.recordVerifiedChunk_says hserializable (hquiet.callsSucceed 4)
    hwritable chunk.chunkId chunk.offset chunk.length value
  cases outcome with
  | added => exact hsays.2
  | duplicate => exact absurd ⟨_, hsays.2, rfl⟩ hnot
  | refused =>
      obtain ⟨e, heq⟩ := hsays
      rw [heq] at hok
      cases hok

end Session.Ok

/-! ### A chunk is recorded -/

namespace RecordAdded

variable {value : ChecksumValue}
  (h : RecordAdded s s' ⟨chunk.chunkId, chunk.offset, chunk.length, value⟩)

include h

theorem has_iff (c : ChunkRange) : s'.Has c ↔ s.Has c ∨ c.offset = chunk.offset := by
  constructor
  · rintro ⟨record, hrecord, hoffset⟩
    rcases List.mem_append.mp (h.records.mem_iff.mp hrecord) with hrecord | hrecord
    · exact Or.inl ⟨record, hrecord, hoffset⟩
    · rw [List.mem_singleton.mp hrecord] at hoffset
      exact Or.inr hoffset.symm
  · rintro (⟨record, hrecord, hoffset⟩ | hoffset)
    · exact ⟨record, h.records.mem_iff.mpr (List.mem_append_left _ hrecord), hoffset⟩
    · exact ⟨_, h.records.mem_iff.mpr (List.mem_append_right _ (List.mem_singleton_self _)),
        hoffset.symm⟩

/-- The stream that has sent the chunk has the others left. -/
theorem left_own {totalSize chunkSize : Nat}
    (hplan : planChunks totalSize chunkSize connections = .ok chunks) {rest : List ChunkRange}
    {streamId : Nat} (hleft : s.left chunks streamId = chunk :: rest) :
    s'.left chunks streamId = rest := by
  have hchunk : chunk ∈ chunks :=
    (Session.mem_left.mp (hleft ▸ List.mem_cons_self : chunk ∈ s.left chunks streamId)).1
  have hfilter : s'.left chunks streamId = (s.left chunks streamId).filter (· ≠ chunk) := by
    rw [Session.left, Session.left, List.filter_filter]
    apply List.filter_congr
    intro c hc
    rw [← Bool.decide_and, decide_eq_decide, h.has_iff, planChunks_offset_inj hplan hc hchunk]
    tauto
  have hnodup : (chunk :: rest).Nodup := by
    rw [← hleft]
    exact (nodup_planChunks hplan).filter _
  rw [hfilter, hleft, List.filter_cons, if_neg (by simp), List.filter_eq_self]
  intro c hc
  rw [decide_eq_true_eq]
  rintro rfl
  exact (List.nodup_cons.mp hnodup).1 hc

theorem left_other {totalSize chunkSize : Nat}
    (hplan : planChunks totalSize chunkSize connections = .ok chunks) (hchunk : chunk ∈ chunks)
    {streamId : Nat} (hstream : chunk.streamId ≠ streamId) :
    s'.left chunks streamId = s.left chunks streamId := by
  rw [Session.left, Session.left]
  apply List.filter_congr
  intro c hc
  rw [decide_eq_decide, h.has_iff, planChunks_offset_inj hplan hc hchunk]
  constructor
  · rintro ⟨hid, hnot⟩
    exact ⟨hid, fun hhas => hnot (Or.inl hhas)⟩
  · rintro ⟨hid, hnot⟩
    refine ⟨hid, ?_⟩
    rintro (hhas | rfl)
    · exact hnot hhas
    · exact hstream hid

end RecordAdded

end GridFlux
