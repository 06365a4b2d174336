/-
GridFlux/SessionInvariant.lean

What holds of a session over a whole run.

`SessionOp.run_cases` says once what an operation can do: one `Change`, and
then possibly a save.  The invariants are derived from it:

* `Session.Ok`: the records can stand together and the range list holds
  exactly their bytes;
* `Session.Opened`: the parameters are those of the request, and everything
  fits its field;
* `Session.RangesCurrent`: ranges that are not called dirty are the current
  ones;
* `Session.OrderHonest`: a record list called sorted is sorted.  One operation
  can break it, so it is kept under a condition on the step
  (`SessionOp.KeepsOrder`).
-/
import GridFlux.Session

namespace GridFlux

open HalfOpen TextCodec

/-! ### What an operation can do -/

/-- What an operation does to a session before it may save it: nothing, a new
state name, one record more, or the records that survived `verifyTempChunks`. -/
inductive Change {P : Type} (format : SessionFormat P) (op : SessionOp) (w : World)
    (s : Session P) : Session P → Prop
  | unchanged : Change format op w s s
  | state (state : ManifestState) :
      Change format op w s { s with manifest := { s.manifest with state := state } }
  | append (record : ChunkChecksumRecord) (completed : RangeList)
      (hop : op.record? = some record)
      (halg : record.checksum.algorithm = s.manifest.checksumAlgorithm)
      (hnew : ∀ r ∈ s.records, s.sameIdentity record.chunkId record.offset r = false)
      (hinsert : s.completed.insert record.offset record.length s.manifest.totalSize =
        .ok completed) :
      Change format op w s (s.appendRecord format record completed)
  | drop (tempPath : Path) (v : Session.VerifyState)
      (hop : op = .verifyTempChunks tempPath)
      (halg : s.manifest.checksumAlgorithm ≠ .none)
      (hloop : v = (Session.verifyLoop s.checksumBackend tempPath s.manifest.totalSize s.records
        ⟨[], .empty, 0⟩ w).2.1)
      (hremoved : v.removed ≠ 0) :
      Change format op w s ((s.countRemoved v.removed).replaceRecords v)

namespace Session

variable {P : Type} (format : SessionFormat P)

/-- `save` prepares the session and touches two counters. -/
theorem save_session (s : Session P) (w : World) :
    ∃ dirty stats, (s.save format w).2.1 =
      { s.prepareSave format w.nowUnixNanos.1 with
        dirtyVerifiedChunks := dirty, stats := stats } := by
  cases hser : serializePreparedManifest format.toManifestFormat
      (s.prepareSave format w.nowUnixNanos.1).manifest with
  | error e =>
      simp only [save, hser]
      exact ⟨_, _, rfl⟩
  | ok text =>
      rcases hsave : w.nowUnixNanos.2.saveAtomic format.saveTexts
          (s.prepareSave format w.nowUnixNanos.1).manifestPath text with ⟨e | _, w'⟩
      · simp only [save, hser, hsave]
        exact ⟨_, _, rfl⟩
      · simp only [save, hser, hsave]
        exact ⟨_, _, rfl⟩

/-- How an operation made in `w` ends, given the session `s₁` after its change:
with `s₁` up to counters, or with a save of `s₁`.  Before that it has only read
files. -/
inductive Ends (w : World) (s₁ : Session P) : SessionResult P → Prop
  | kept (status : Except Status Unit) (stats : SessionStats) (w₁ : World)
      (hw : World.Frame ∅ w w₁) : Ends w s₁ (status, { s₁ with stats := stats }, w₁)
  | saved (w₁ : World) (hw : World.Frame ∅ w w₁) : Ends w s₁ (s₁.save format w₁)

/-- The session an operation leaves, given the session `s₁` after its change:
`s₁` itself or `s₁` saved, up to counters. -/
inductive Settled (s₁ : Session P) : Session P → Prop
  | kept (stats : SessionStats) : Settled s₁ { s₁ with stats := stats }
  | saved (now : Nat) (hnow : now < 2 ^ 64) (dirty : Nat) (stats : SessionStats) :
      Settled s₁ { s₁.prepareSave format now with dirtyVerifiedChunks := dirty, stats := stats }

theorem Ends.settled {w : World} {s₁ : Session P} {r : SessionResult P}
    (h : Ends format w s₁ r) : Settled format s₁ r.2.1 := by
  cases h with
  | kept status stats w₁ hw => exact .kept stats
  | saved w₁ hw =>
      obtain ⟨dirty, stats, h⟩ := s₁.save_session format w₁
      rw [h]
      exact .saved _ w₁.nowUnixNanos_lt dirty stats

end Session

/-! ### Reading chunks back changes no file -/

theorem readChecksumLoop_frame {tempPath : Path} {spans : List (Nat × Nat)}
    {computer : ChecksumComputer} {w : World} :
    World.Frame ∅ w (readChecksumLoop tempPath spans computer w).2 := by
  induction spans generalizing computer w with
  | nil => exact World.Frame.refl w
  | cons span spans ih =>
      obtain ⟨offset, size⟩ := span
      have hread := w.readAtAll_frame tempPath offset size
      rw [readChecksumLoop]
      rcases h : w.readAtAll tempPath offset size with ⟨e | data, w'⟩
      · rw [h] at hread
        exact hread
      · rw [h] at hread
        exact hread.trans ih

theorem readChecksumForRecord_frame (w : World) (tempPath : Path)
    (record : ChunkChecksumRecord) (backend : ChecksumBackend) :
    World.Frame ∅ w (readChecksumForRecord w tempPath record backend).2 := by
  have hloop := @readChecksumLoop_frame tempPath
    (pieceSpans 65536 record.length record.offset record.length)
    (ChecksumComputer.new w.crc32cHardwareAvailable record.checksum.algorithm backend) w
  rw [readChecksumForRecord]
  rcases h : readChecksumLoop tempPath (pieceSpans 65536 record.length record.offset record.length)
    (ChecksumComputer.new w.crc32cHardwareAvailable record.checksum.algorithm backend) w
    with ⟨e | computer, w'⟩
  · rw [h] at hloop
    exact hloop
  · rw [h] at hloop
    exact hloop

theorem Session.verifyLoop_frame {backend : ChecksumBackend} {tempPath : Path}
    {totalSize : Nat} {rs : List ChunkChecksumRecord} {v : Session.VerifyState} {w : World} :
    World.Frame ∅ w (Session.verifyLoop backend tempPath totalSize rs v w).2.2 := by
  induction rs generalizing v w with
  | nil => exact World.Frame.refl w
  | cons record rest ih =>
      have hread := readChecksumForRecord_frame w tempPath record backend
      rw [Session.verifyLoop]
      rcases h : readChecksumForRecord w tempPath record backend with ⟨e | actual, w'⟩
      · rw [h] at hread
        exact hread.trans ih
      · rw [h] at hread
        by_cases hne : actual ≠ record.checksum
        · simp only [if_pos hne]
          exact hread.trans ih
        · simp only [if_neg hne]
          cases v.verified.insert record.offset record.length totalSize with
          | error e => exact hread
          | ok verified => exact hread.trans ih

/-- The chunk id an operation asks for fits a `uint64_t`. -/
theorem SessionOp.record?_chunkId_lt {op : SessionOp}
    {record : ChunkChecksumRecord} (h : op.record? = some record) :
    record.chunkId < 2 ^ 64 := by
  cases op with
  | recordVerifiedChunk chunkId offset length value =>
      obtain rfl := Option.some.inj h
      exact chunkId.toNat_lt
  | recordCompletedRange offset length =>
      obtain rfl := Option.some.inj h
      exact offset.toNat_lt
  | save => cases h
  | markFailed => cases h
  | markCommitted => cases h
  | verifyTempChunks tempPath => cases h

/-- **All an operation can do**: one change, and then possibly a save. -/
theorem SessionOp.run_cases {P : Type} (format : SessionFormat P) (op : SessionOp)
    (s : Session P) (w : World) :
    ∃ s₁, Change format op w s s₁ ∧ Session.Ends format w s₁ (op.run format s w) := by
  have hkept : ∀ (s₁ : Session P) (status : Except Status Unit),
      Session.Ends format w s₁ (status, s₁, w) := fun s₁ status =>
    .kept status s₁.stats w (World.Frame.refl w)
  have hsaved : ∀ s₁ : Session P, Session.Ends format w s₁ (s₁.save format w) := fun s₁ =>
    .saved w (World.Frame.refl w)
  have hrecord : ∀ {chunkId offset length : Nat} {value : ChecksumValue},
      op.record? = some ⟨chunkId, offset, length, value⟩ →
      ∃ s₁, Change format op w s s₁ ∧
        Session.Ends format w s₁ (s.recordVerifiedChunk format chunkId offset length value w) := by
    intro chunkId offset length value hop
    rw [Session.recordVerifiedChunk]
    split
    · exact ⟨s, .unchanged, hkept s _⟩
    · rename_i halg
      split
      · exact ⟨s, .unchanged, hkept s _⟩
      · cases hfind : s.manifest.verifiedChunks.find? (s.sameIdentity chunkId offset) with
        | some record =>
            refine ⟨s, .unchanged, ?_⟩
            show Session.Ends format w s (if _ then _ else _ : SessionResult P)
            split
            · exact hkept s _
            · exact hkept s _
        | none =>
            have hnew : ∀ r ∈ s.records, s.sameIdentity chunkId offset r = false := fun r hr =>
              Bool.eq_false_iff.mpr (List.find?_eq_none.mp hfind r hr)
            cases hinsert : s.completed.insert offset length s.manifest.totalSize with
            | error e => exact ⟨s, .unchanged, hkept s _⟩
            | ok completed =>
                refine ⟨_, .append ⟨chunkId, offset, length, value⟩ completed hop
                  (not_not.mp halg) hnew hinsert, ?_⟩
                show Session.Ends format w _ (if _ then _ else _ : SessionResult P)
                split
                · exact hsaved _
                · exact hkept _ _
  cases op with
  | recordVerifiedChunk chunkId offset length value => exact hrecord rfl
  | recordCompletedRange offset length => exact hrecord rfl
  | save => exact ⟨s, .unchanged, hsaved s⟩
  | markFailed => exact ⟨_, .state .failed, hsaved _⟩
  | markCommitted => exact ⟨_, .state .committed, hsaved _⟩
  | verifyTempChunks tempPath =>
      show ∃ s₁, _ ∧ Session.Ends format w s₁ (s.verifyTempChunks format tempPath w)
      rw [Session.verifyTempChunks]
      split
      · refine ⟨s, .unchanged, ?_⟩
        cases format.refreshesStats with
        | true => exact .kept _ _ w (World.Frame.refl w)
        | false => exact hkept s _
      · rename_i hguard
        have hframe := @Session.verifyLoop_frame s.checksumBackend tempPath s.manifest.totalSize
          s.manifest.verifiedChunks ⟨[], .empty, 0⟩ w
        rcases hloop : Session.verifyLoop s.checksumBackend tempPath s.manifest.totalSize
          s.manifest.verifiedChunks ⟨[], .empty, 0⟩ w with ⟨e | _, v, w'⟩
        · rw [hloop] at hframe
          exact ⟨s, .unchanged, .kept _ _ w' hframe⟩
        · rw [hloop] at hframe
          by_cases hremoved : v.removed = 0
          · refine ⟨s, .unchanged, ?_⟩
            simp only [if_pos hremoved]
            exact .kept _ _ w' hframe
          · refine ⟨_, .drop tempPath v rfl (not_or.mp hguard).1 ?_ hremoved, ?_⟩
            · rw [Session.records, hloop]
            · simp only [if_neg hremoved]
              exact .saved w' hframe

namespace Session

variable {P : Type} (format : SessionFormat P)

/-- The loop of `verifyTempChunks` keeps a sublist and inserts exactly it. -/
theorem verifyLoop_spec {backend : ChecksumBackend} {tempPath : Path} {totalSize : Nat}
    {rs : List ChunkChecksumRecord} {v : VerifyState} {w : World}
    (hv : RangeList.empty.insertAll totalSize (recordRanges v.kept) = .ok v.verified) :
    ∃ kept, kept.Sublist rs ∧
      (verifyLoop backend tempPath totalSize rs v w).2.1.kept = v.kept ++ kept ∧
      RangeList.empty.insertAll totalSize (recordRanges (v.kept ++ kept)) =
        .ok (verifyLoop backend tempPath totalSize rs v w).2.1.verified := by
  induction rs generalizing v w with
  | nil => exact ⟨[], List.Sublist.refl _, by simp [verifyLoop], by simpa [verifyLoop] using hv⟩
  | cons record rest ih =>
      rw [verifyLoop]
      rcases readChecksumForRecord w tempPath record backend with ⟨e | actual, w'⟩
      · obtain ⟨kept, hsub, hk, hi⟩ := @ih { v with removed := v.removed + 1 } w' hv
        exact ⟨kept, hsub.cons record, hk, hi⟩
      · by_cases hne : actual ≠ record.checksum
        · simp only [if_pos hne]
          obtain ⟨kept, hsub, hk, hi⟩ := @ih { v with removed := v.removed + 1 } w' hv
          exact ⟨kept, hsub.cons record, hk, hi⟩
        · simp only [if_neg hne]
          cases hins : v.verified.insert record.offset record.length totalSize with
          | error e => exact ⟨[], List.nil_sublist _, by simp, by simpa using hv⟩
          | ok verified =>
              have hv' : RangeList.empty.insertAll totalSize
                  (recordRanges (v.kept ++ [record])) = .ok verified := by
                rw [recordRanges, List.map_append, RangeList.insertAll_append]
                show (RangeList.empty.insertAll totalSize (recordRanges v.kept) >>= _) = _
                rw [hv, ok_bind, List.map_cons, List.map_nil, RangeList.insertAll_singleton, hins]
              obtain ⟨kept, hsub, hk, hi⟩ :=
                @ih { v with kept := v.kept ++ [record], verified := verified } w' hv'
              refine ⟨record :: kept, hsub.cons_cons record, ?_, ?_⟩
              · rw [hk]
                simp
              · rw [← hi]
                simp

/-- What `verifyTempChunks` keeps of the records of a session. -/
theorem verifyLoop_kept_sublist {s : Session P} {tempPath : Path} {w : World} {v : VerifyState}
    (hv : v = (verifyLoop s.checksumBackend tempPath s.manifest.totalSize s.records
      ⟨[], .empty, 0⟩ w).2.1) :
    v.kept.Sublist s.records ∧
      RangeList.empty.insertAll s.manifest.totalSize (recordRanges v.kept) = .ok v.verified := by
  obtain ⟨kept, hsub, hkept, hinsert⟩ := @verifyLoop_spec s.checksumBackend tempPath
    s.manifest.totalSize s.records ⟨[], .empty, 0⟩ w rfl
  rw [← hv, List.nil_append] at hkept
  rw [← hv, List.nil_append, ← hkept] at hinsert
  exact ⟨hkept ▸ hsub, hinsert⟩

/-! ### The invariant -/

/-- **The session invariant**: the chunk records can stand together, and the
range list holds exactly their bytes. -/
structure Ok (s : Session P) : Prop where
  records : RecordsOk s.records s.manifest.totalSize
  derived : Derived s.completed s.records s.manifest.totalSize

/-- The invariant depends on the records (up to order), the range list and the
size only. -/
theorem Ok.congr {s s' : Session P} (h : s.Ok) (hrecords : s'.records.Perm s.records)
    (hcompleted : s'.completed = s.completed)
    (hsize : s'.manifest.totalSize = s.manifest.totalSize) : s'.Ok := by
  refine ⟨?_, ?_⟩
  · rw [hsize]
    exact h.records.perm hrecords.symm
  · rw [hsize, hcompleted]
    exact h.derived.perm hrecords.symm

theorem prepareSave_records_perm (s : Session P) (now : Nat) :
    (s.prepareSave format now).records.Perm s.records := by
  show (if s.verifiedChunksSorted then s.manifest.verifiedChunks
    else sortedRecords s.manifest.verifiedChunks).Perm s.manifest.verifiedChunks
  split
  · exact List.Perm.refl _
  · exact sortedRecords_perm _

theorem Ok.settled {s s' : Session P} (h : s.Ok) (hs : Settled format s s') : s'.Ok := by
  cases hs with
  | kept stats => exact h.congr (List.Perm.refl _) rfl rfl
  | saved now hnow dirty stats => exact h.congr (s.prepareSave_records_perm format now) rfl rfl

theorem Ok.append {s : Session P} (h : s.Ok) {record : ChunkChecksumRecord}
    {completed : RangeList}
    (hinsert : s.completed.insert record.offset record.length s.manifest.totalSize =
      .ok completed) : (s.appendRecord format record completed).Ok := by
  obtain ⟨hlength, hbound, hdisjoint⟩ := RangeList.disjoint_of_insert h.derived.wellFormed hinsert
  obtain ⟨hwf, hcovered, hbytes⟩ := RangeList.insert_spec h.derived.wellFormed hinsert
  have hranges : recordRanges (s.records ++ [record]) =
      recordRanges s.records ++ [record.range] := by simp [recordRanges]
  rw [h.derived.covered_eq] at hdisjoint
  refine ⟨⟨?_, ?_⟩, ⟨hwf, ?_, ?_⟩⟩
  · show ∀ r ∈ recordRanges (s.records ++ [record]), _
    rw [hranges]
    intro r hr
    rcases List.mem_append.mp hr with hr | hr
    · exact h.records.bounded r hr
    · obtain rfl := List.mem_singleton.mp hr
      exact ⟨Nat.lt_add_of_pos_right hlength, hbound⟩
  · show Separated (recordRanges (s.records ++ [record]))
    rw [hranges]
    refine List.pairwise_append.mpr ⟨h.records.separated, List.pairwise_singleton _ _, ?_⟩
    intro r hr r' hr'
    obtain rfl := List.mem_singleton.mp hr'
    exact separated_of_disjoint (h.records.bounded r hr).1
      (Nat.lt_add_of_pos_right hlength) hdisjoint hr
  · show covered completed.ranges = covered (recordRanges (s.records ++ [record]))
    rw [hranges, covered_append, hcovered, h.derived.covered_eq]
    simp [ChunkChecksumRecord.range]
  · show completed.bytesCompleted = totalLength (recordRanges (s.records ++ [record]))
    rw [hranges, totalLength_append, hbytes, h.derived.bytes_eq]
    simp [ChunkChecksumRecord.range]

/-- Records and range list built by inserting the ranges one after the other. -/
theorem Ok.of_insertAll {s : Session P}
    (h : RangeList.empty.insertAll s.manifest.totalSize (recordRanges s.records) =
      .ok s.completed) : s.Ok :=
  ⟨(insertAll_records h).1, (insertAll_records h).2⟩

theorem Ok.change {op : SessionOp} {w : World} {s s₁ : Session P} (h : s.Ok)
    (hc : Change format op w s s₁) : s₁.Ok := by
  cases hc with
  | unchanged => exact h
  | state state => exact h.congr (List.Perm.refl _) rfl rfl
  | append record completed hop halg hnew hinsert => exact h.append format hinsert
  | drop tempPath v hop halg hloop hremoved =>
      exact .of_insertAll (verifyLoop_kept_sublist hloop).2

/-- **Every operation keeps the invariant**, whether it succeeds or fails. -/
theorem Ok.run {s : Session P} (h : s.Ok) (op : SessionOp) (w : World) :
    (op.run format s w).2.1.Ok := by
  obtain ⟨s₁, hchange, hends⟩ := op.run_cases format s w
  exact (h.change format hchange).settled format (hends.settled format)

/-! ### What stays of the request -/

/-- The parameters of the session are those of the request it was opened with,
on a machine with or without the CRC32C instruction. -/
structure Opened (hardware : Bool) (request : SessionRequest P) (s : Session P) : Prop where
  transferId : s.manifest.transferId = request.transferId
  paths : s.manifest.paths = request.paths
  tempPath : s.manifest.tempPath = format.tempPathFor request.paths request.transferId
  totalSize : s.manifest.totalSize = request.totalSize.toNat
  chunkSize : s.manifest.chunkSize = request.chunkSize.toNat
  checksumAlgorithm : s.manifest.checksumAlgorithm = request.checksumAlgorithm
  manifestPath : s.manifestPath = format.manifestPathFor request.paths
  checksumBackend : resolveChecksumBackend hardware request.checksumAlgorithm
    request.checksumBackend = .ok s.checksumBackend
  flushPolicy : s.manifestFlushPolicy = request.manifestFlushPolicy
  flushInterval : s.manifestFlushIntervalChunks = request.manifestFlushIntervalChunks.toNat

/-- Everything the manifest stores fits its field, and every record carries the
checksum algorithm of the transfer. -/
structure Storable (s : Session P) : Prop where
  createdAt : s.manifest.createdAtUnixNanos < 2 ^ 64
  updatedAt : s.manifest.updatedAtUnixNanos < 2 ^ 64
  chunkIds : ∀ r ∈ s.records, r.chunkId < 2 ^ 64
  algorithms : ∀ r ∈ s.records, r.checksum.algorithm = s.manifest.checksumAlgorithm

variable {format}

theorem Opened.change {hardware : Bool} {request : SessionRequest P} {op : SessionOp}
    {w : World} {s s₁ : Session P} (h : s.Opened format hardware request)
    (hc : Change format op w s s₁) : s₁.Opened format hardware request := by
  cases hc with
  | unchanged => exact h
  | state state =>
      exact ⟨h.transferId, h.paths, h.tempPath, h.totalSize, h.chunkSize, h.checksumAlgorithm,
        h.manifestPath, h.checksumBackend, h.flushPolicy, h.flushInterval⟩
  | append record completed hop halg hnew hinsert =>
      exact ⟨h.transferId, h.paths, h.tempPath, h.totalSize, h.chunkSize, h.checksumAlgorithm,
        h.manifestPath, h.checksumBackend, h.flushPolicy, h.flushInterval⟩
  | drop tempPath v hop halg hloop hremoved =>
      exact ⟨h.transferId, h.paths, h.tempPath, h.totalSize, h.chunkSize, h.checksumAlgorithm,
        h.manifestPath, h.checksumBackend, h.flushPolicy, h.flushInterval⟩

theorem Opened.settled {hardware : Bool} {request : SessionRequest P} {s s' : Session P}
    (h : s.Opened format hardware request) (hs : Settled format s s') :
    s'.Opened format hardware request := by
  cases hs with
  | kept stats =>
      exact ⟨h.transferId, h.paths, h.tempPath, h.totalSize, h.chunkSize, h.checksumAlgorithm,
        h.manifestPath, h.checksumBackend, h.flushPolicy, h.flushInterval⟩
  | saved now hnow dirty stats =>
      exact ⟨h.transferId, h.paths, h.tempPath, h.totalSize, h.chunkSize, h.checksumAlgorithm,
        h.manifestPath, h.checksumBackend, h.flushPolicy, h.flushInterval⟩

theorem Storable.change {op : SessionOp} {w : World} {s s₁ : Session P} (h : s.Storable)
    (hc : Change format op w s s₁) : s₁.Storable := by
  cases hc with
  | unchanged => exact h
  | state state => exact ⟨h.createdAt, h.updatedAt, h.chunkIds, h.algorithms⟩
  | append record completed hop halg hnew hinsert =>
      refine ⟨h.createdAt, h.updatedAt, ?_, ?_⟩
      · intro r hr
        rcases List.mem_append.mp hr with hr | hr
        · exact h.chunkIds r hr
        · obtain rfl := List.mem_singleton.mp hr
          exact SessionOp.record?_chunkId_lt hop
      · intro r hr
        rcases List.mem_append.mp hr with hr | hr
        · exact h.algorithms r hr
        · obtain rfl := List.mem_singleton.mp hr
          exact halg
  | drop tempPath v hop halg hloop hremoved =>
      have hmem := (verifyLoop_kept_sublist hloop).1.subset
      exact ⟨h.createdAt, h.updatedAt, fun r hr => h.chunkIds r (hmem hr),
        fun r hr => h.algorithms r (hmem hr)⟩

theorem Storable.settled {s s' : Session P} (h : s.Storable) (hs : Settled format s s') :
    s'.Storable := by
  cases hs with
  | kept stats => exact ⟨h.createdAt, h.updatedAt, h.chunkIds, h.algorithms⟩
  | saved now hnow dirty stats =>
      have hmem := fun r => (s.prepareSave_records_perm format now).mem_iff (a := r)
      exact ⟨h.createdAt, hnow, fun r hr => h.chunkIds r ((hmem r).mp hr),
        fun r hr => h.algorithms r ((hmem r).mp hr)⟩

/-! ### The two flags of `save` -/

/-- Ranges that are not called dirty are the current ones. -/
def RangesCurrent (s : Session P) : Prop :=
  s.completedRangesDirty = false → s.manifest.completedRanges = s.completed.ranges

/-- A record list called sorted is sorted. -/
def OrderHonest (s : Session P) : Prop :=
  s.verifiedChunksSorted = true → RecordsSorted s.records

theorem RangesCurrent.change {op : SessionOp} {w : World} {s s₁ : Session P}
    (h : s.RangesCurrent) (hc : Change format op w s s₁) : s₁.RangesCurrent := by
  cases hc with
  | unchanged => exact h
  | state state => exact h
  | append record completed hrecord halg hnew hinsert => intro hflag; cases hflag
  | drop tempPath v hverify halg hloop hremoved => exact fun _ => rfl

theorem RangesCurrent.prepareSave {s : Session P} (h : s.RangesCurrent) (now : Nat) :
    (s.prepareSave format now).manifest.completedRanges = s.completed.ranges := by
  show (if s.completedRangesDirty then s.completed.ranges
    else s.manifest.completedRanges) = s.completed.ranges
  split
  · rfl
  · rename_i hflag
    exact h (Bool.eq_false_iff.mpr hflag)

theorem RangesCurrent.settled {s s' : Session P} (h : s.RangesCurrent)
    (hs : Settled format s s') : s'.RangesCurrent := by
  cases hs with
  | kept stats => exact h
  | saved now hnow dirty stats => exact fun _ => h.prepareSave now

/-- The records whose bytes can be read from the temp file and still have their
checksum, in the order in which the session keeps the records. -/
def intactRecords (backend : ChecksumBackend) (tempPath : Path) :
    List ChunkChecksumRecord → World → List ChunkChecksumRecord
  | [], _ => []
  | record :: rest, w =>
      match readChecksumForRecord w tempPath record backend with
      | (.error _, w) => intactRecords backend tempPath rest w
      | (.ok actual, w) =>
          if actual = record.checksum then record :: intactRecords backend tempPath rest w
          else intactRecords backend tempPath rest w

/-- A record that can stand together with those kept so far is inserted. -/
theorem insert_of_recordsOk {kept rest : List ChunkChecksumRecord} {record : ChunkChecksumRecord}
    {verified : RangeList} {totalSize : Nat}
    (hv : RangeList.empty.insertAll totalSize (recordRanges kept) = .ok verified)
    (hok : RecordsOk (kept ++ record :: rest) totalSize) :
    ∃ verified', verified.insert record.offset record.length totalSize = .ok verified' ∧
      RangeList.empty.insertAll totalSize (recordRanges (kept ++ [record])) = .ok verified' := by
  have hstarts : RecordsOk (kept ++ [record]) totalSize :=
    hok.sublist ((List.Sublist.refl kept).append
      (List.singleton_sublist.mpr (List.mem_cons_self ..)))
  obtain ⟨verified', hall⟩ := insertAll_of_recordsOk hstarts
  refine ⟨verified', ?_, hall⟩
  rw [recordRanges, List.map_append, RangeList.insertAll_append] at hall
  rw [show kept.map ChunkChecksumRecord.range = recordRanges kept from rfl, hv, ok_bind,
    List.map_cons, List.map_nil, RangeList.insertAll_singleton] at hall
  exact hall

/-- Records that can stand together are kept by `verifyTempChunks` exactly when
they are intact. -/
theorem verifyLoop_kept {backend : ChecksumBackend} {tempPath : Path} {totalSize : Nat}
    {rs : List ChunkChecksumRecord} {v : VerifyState} {w : World}
    (hv : RangeList.empty.insertAll totalSize (recordRanges v.kept) = .ok v.verified)
    (hok : RecordsOk (v.kept ++ rs) totalSize) :
    (verifyLoop backend tempPath totalSize rs v w).2.1.kept =
      v.kept ++ intactRecords backend tempPath rs w := by
  induction rs generalizing v w with
  | nil => simp [verifyLoop, intactRecords]
  | cons record rest ih =>
      have hdrop : RecordsOk (v.kept ++ rest) totalSize :=
        hok.sublist ((List.Sublist.refl v.kept).append (List.sublist_cons_self record rest))
      rw [verifyLoop, intactRecords]
      rcases readChecksumForRecord w tempPath record backend with ⟨e | actual, w'⟩
      · exact @ih { v with removed := v.removed + 1 } w' hv hdrop
      · by_cases heq : actual = record.checksum
        · simp only [ne_eq, heq, not_true_eq_false, if_false, if_true]
          obtain ⟨verified, hins, hall⟩ := insert_of_recordsOk hv hok
          have hnext := @ih { v with kept := v.kept ++ [record], verified := verified } w' hall
            (by simpa using hok)
          simp only [hins]
          rw [hnext]
          simp
        · simp only [ne_eq, heq, not_false_eq_true, if_true, if_false]
          exact @ih { v with removed := v.removed + 1 } w' hv hdrop

end Session

/-- The condition under which an operation keeps the flags honest: when
`verifyTempChunks` of a session with checksums meets a corrupt record, the
intact ones stand in manifest order. -/
def SessionOp.KeepsOrder {P : Type} (op : SessionOp) (w : World) (s : Session P) : Prop :=
  match op with
  | .verifyTempChunks tempPath =>
      s.manifest.checksumAlgorithm = .none ∨
        Session.intactRecords s.checksumBackend tempPath s.records w = s.records ∨
        RecordsSorted (Session.intactRecords s.checksumBackend tempPath s.records w)
  | _ => True

instance {P : Type} (op : SessionOp) (w : World) (s : Session P) :
    Decidable (op.KeepsOrder w s) :=
  match op with
  | .verifyTempChunks tempPath => inferInstanceAs (Decidable (_ ∨ _ ∨
      RecordsSorted (Session.intactRecords s.checksumBackend tempPath s.records w)))
  | .recordVerifiedChunk _ _ _ _ => isTrue trivial
  | .recordCompletedRange _ _ => isTrue trivial
  | .save => isTrue trivial
  | .markFailed => isTrue trivial
  | .markCommitted => isTrue trivial

namespace Session

variable {P : Type} {format : SessionFormat P}

/-- The world once the bytes of these records have been read back. -/
def afterReading (backend : ChecksumBackend) (tempPath : Path) :
    List ChunkChecksumRecord → World → World
  | [], w => w
  | record :: rest, w =>
      afterReading backend tempPath rest (readChecksumForRecord w tempPath record backend).2

/-- Over records that can stand together the loop goes through to the end, and
counts as removed exactly what it does not keep. -/
theorem verifyLoop_ok {backend : ChecksumBackend} {tempPath : Path} {totalSize : Nat}
    {rs : List ChunkChecksumRecord} {v : VerifyState} {w : World}
    (hv : RangeList.empty.insertAll totalSize (recordRanges v.kept) = .ok v.verified)
    (hok : RecordsOk (v.kept ++ rs) totalSize) :
    ∃ v', verifyLoop backend tempPath totalSize rs v w =
        (.ok (), v', afterReading backend tempPath rs w) ∧
      v'.kept.length + v'.removed = v.kept.length + v.removed + rs.length := by
  induction rs generalizing v w with
  | nil => exact ⟨v, rfl, rfl⟩
  | cons record rest ih =>
      have hdrop : RecordsOk (v.kept ++ rest) totalSize :=
        hok.sublist ((List.Sublist.refl v.kept).append (List.sublist_cons_self record rest))
      rw [verifyLoop, afterReading]
      rcases readChecksumForRecord w tempPath record backend with ⟨e | actual, w'⟩
      · obtain ⟨v', hloop, hcount⟩ := @ih { v with removed := v.removed + 1 } w' hv hdrop
        refine ⟨v', hloop, ?_⟩
        simp only [List.length_cons] at hcount ⊢
        omega
      · by_cases heq : actual = record.checksum
        · simp only [ne_eq, heq, not_true_eq_false, if_false]
          obtain ⟨verified, hins, hall⟩ := insert_of_recordsOk hv hok
          obtain ⟨v', hloop, hcount⟩ := @ih
            { v with kept := v.kept ++ [record], verified := verified } w' hall (by simpa using hok)
          refine ⟨v', by simp only [hins]; exact hloop, ?_⟩
          simp only [List.length_append, List.length_cons, List.length_nil] at hcount ⊢
          omega
        · simp only [ne_eq, heq, not_false_eq_true, if_true]
          obtain ⟨v', hloop, hcount⟩ := @ih { v with removed := v.removed + 1 } w' hv hdrop
          refine ⟨v', hloop, ?_⟩
          simp only [List.length_cons] at hcount ⊢
          omega

theorem recordsSorted_append {records : List ChunkChecksumRecord}
    {record : ChunkChecksumRecord} (h : RecordsSorted records)
    (hlast : ∀ last ∈ records.getLast?, precedesOrEquals last record) :
    RecordsSorted (records ++ [record]) := by
  rcases List.eq_nil_or_concat records with rfl | ⟨init, last, rfl⟩
  · exact List.pairwise_singleton _ _
  · have hle : precedesOrEquals last record := hlast last (by simp)
    refine List.pairwise_append.mpr ⟨h, List.pairwise_singleton _ _, fun r hr r' hr' => ?_⟩
    obtain rfl := List.mem_singleton.mp hr'
    simp only [List.concat_eq_append] at hr h
    rcases List.mem_append.mp hr with hr | hr
    · exact precedesOrEquals_trans
        ((List.pairwise_append.mp h).2.2 r hr last (List.mem_singleton_self _)) hle
    · obtain rfl := List.mem_singleton.mp hr
      exact hle

theorem OrderHonest.change {op : SessionOp} {w : World} {s s₁ : Session P}
    (h : s.OrderHonest) (hok : s.Ok) (hop : op.KeepsOrder w s)
    (hc : Change format op w s s₁) : s₁.OrderHonest := by
  cases hc with
  | unchanged => exact h
  | state state => exact h
  | append record completed hrecord halg hnew hinsert =>
      intro hflag
      have hboth : s.verifiedChunksSorted = true ∧
          ∀ last ∈ s.records.getLast?, precedesOrEquals last record := by
        simp only [appendRecord, refreshStats, Bool.and_eq_true, Bool.not_eq_true',
          Option.any_eq_false, decide_eq_false_iff_not, not_not] at hflag
        exact hflag
      exact recordsSorted_append (h hboth.1) hboth.2
  | drop tempPath v hverify halg hloop hremoved =>
      subst hverify
      intro _
      have hkept : v.kept = intactRecords s.checksumBackend tempPath s.records w := by
        rw [hloop]
        exact verifyLoop_kept rfl hok.records
      show RecordsSorted v.kept
      rw [hkept]
      rcases hop.resolve_left halg with hall | hsorted
      · -- nothing would have been removed
        obtain ⟨v', hv', hcount⟩ := @verifyLoop_ok s.checksumBackend tempPath
          s.manifest.totalSize s.records ⟨[], .empty, 0⟩ w rfl hok.records
        rw [hv'] at hloop
        subst hloop
        rw [hkept, hall] at hcount
        simp only [List.length_nil] at hcount
        omega
      · exact hsorted

theorem OrderHonest.prepareSave {s : Session P} (h : s.OrderHonest) (now : Nat) :
    RecordsSorted (s.prepareSave format now).records := by
  show RecordsSorted (if s.verifiedChunksSorted then s.manifest.verifiedChunks
    else sortedRecords s.manifest.verifiedChunks)
  split
  · rename_i hflag
    exact h hflag
  · exact recordsSorted_sortedRecords _

theorem OrderHonest.settled {s s' : Session P} (h : s.OrderHonest)
    (hs : Settled format s s') : s'.OrderHonest := by
  cases hs with
  | kept stats => exact h
  | saved now hnow dirty stats => exact fun _ => h.prepareSave now

/-- The ranges derived from the records of a session are its current ranges. -/
theorem Ok.completedFromVerified {s : Session P} (h : s.Ok) :
    ∃ derived, completedFromVerified s.records s.manifest.totalSize = .ok derived ∧
      derived.ranges = s.completed.ranges := by
  obtain ⟨derived, hok, hder⟩ := completedFromVerified_of_recordsOk h.records
  exact ⟨derived, hok, hder.ranges_eq h.derived (List.Perm.refl _)⟩

/-- **Honest flags make the fast path of `save` right**: it writes what the
plain serializer makes of the manifest. -/
theorem OrderHonest.serializePrepared_eq {s : Session P} (h : s.OrderHonest)
    (hranges : s.RangesCurrent) (hok : s.Ok) (now : Nat) :
    serializePreparedManifest format.toManifestFormat (s.prepareSave format now).manifest =
      serializeManifest format.toManifestFormat (s.prepareSave format now).manifest := by
  have hprepared : (s.prepareSave format now).Ok :=
    hok.congr (s.prepareSave_records_perm format now) rfl rfl
  obtain ⟨derived, hderived, hcurrent⟩ := hprepared.completedFromVerified
  exact GridFlux.serializePrepared_eq _ (h.prepareSave now) hderived
    ((hranges.prepareSave now).trans hcurrent.symm)

/-! ### What a save writes -/

theorem save_ok {s s' : Session P} {w w' : World} {u : Unit}
    (h : s.save format w = (.ok u, s', w')) :
    ∃ text, serializePreparedManifest format.toManifestFormat s'.manifest = .ok text ∧
      s' = (s.prepareSave format w.nowUnixNanos.1).afterSave ∧
      w'.files s'.manifestPath = some text := by
  rw [save] at h
  cases hser : serializePreparedManifest format.toManifestFormat
      (s.prepareSave format w.nowUnixNanos.1).manifest with
  | error e => simp [hser] at h
  | ok text =>
      rcases hsave : w.nowUnixNanos.2.saveAtomic format.saveTexts
        (s.prepareSave format w.nowUnixNanos.1).manifestPath text with ⟨e | _, w₁⟩
      · simp [hser, hsave] at h
      · simp only [hser, hsave, Prod.mk.injEq] at h
        obtain ⟨-, rfl, rfl⟩ := h
        exact ⟨text, hser, rfl, World.saveAtomic_ok hsave⟩

theorem save_error {s s' : Session P} {w w' : World} {e : Status}
    (h : s.save format w = (.error e, s', w')) :
    s' = s.prepareSave format w.nowUnixNanos.1 ∧
      w'.files s'.manifestPath = w.files s'.manifestPath := by
  rw [save] at h
  cases hser : serializePreparedManifest format.toManifestFormat
      (s.prepareSave format w.nowUnixNanos.1).manifest with
  | error e =>
      simp only [hser, Prod.mk.injEq] at h
      obtain ⟨-, rfl, rfl⟩ := h
      exact ⟨rfl, rfl⟩
  | ok text =>
      rcases hsave : w.nowUnixNanos.2.saveAtomic format.saveTexts
        (s.prepareSave format w.nowUnixNanos.1).manifestPath text with ⟨e | _, w₁⟩
      · simp only [hser, hsave, Prod.mk.injEq] at h
        obtain ⟨-, rfl, rfl⟩ := h
        have hfile := World.saveAtomic_error hsave
        rw [World.nowUnixNanos_files] at hfile
        exact ⟨rfl, hfile⟩
      · simp [hser, hsave] at h

/-- The manifest file after an operation: untouched, or what the plain
serializer makes of the session's manifest. -/
def WritesSerialized (format : SessionFormat P) (w : World) (r : SessionResult P) : Prop :=
  r.2.2.files r.2.1.manifestPath = w.files r.2.1.manifestPath ∨
    ∃ text, serializeManifest format.toManifestFormat r.2.1.manifest = .ok text ∧
      r.2.2.files r.2.1.manifestPath = some text

theorem OrderHonest.save {s s' : Session P} {w w' : World} {u : Unit} (h : s.OrderHonest)
    (hranges : s.RangesCurrent) (hok : s.Ok) (hsave : s.save format w = (.ok u, s', w')) :
    ∃ text, serializeManifest format.toManifestFormat s'.manifest = .ok text ∧
      w'.files s'.manifestPath = some text := by
  obtain ⟨text, hser, rfl, hfile⟩ := save_ok hsave
  exact ⟨text, (h.serializePrepared_eq hranges hok _).symm.trans hser, hfile⟩

theorem OrderHonest.ends {w : World} {s₁ : Session P} {r : SessionResult P}
    (h : s₁.OrderHonest) (hranges : s₁.RangesCurrent) (hok : s₁.Ok)
    (hends : Ends format w s₁ r) : WritesSerialized format w r := by
  cases hends with
  | kept status stats w₁ hw => exact Or.inl (hw.files _ (Set.notMem_empty _))
  | saved w₁ hw =>
      rcases hsave : s₁.save format w₁ with ⟨e | _, s', w'⟩
      · exact Or.inl ((save_error hsave).2.trans (hw.files _ (Set.notMem_empty _)))
      · exact Or.inr (h.save hranges hok hsave)

/-! ### Opening and running -/

/-- What holds of every session, whatever is called on it. -/
structure Sound (format : SessionFormat P) (hardware : Bool) (request : SessionRequest P)
    (s : Session P) : Prop where
  ok : s.Ok
  opened : s.Opened format hardware request
  storable : s.Storable
  ranges : s.RangesCurrent

theorem Sound.change {hardware : Bool} {request : SessionRequest P} {op : SessionOp} {w : World}
    {s s₁ : Session P} (h : s.Sound format hardware request) (hc : Change format op w s s₁) :
    s₁.Sound format hardware request :=
  ⟨h.ok.change format hc, h.opened.change hc, h.storable.change hc, h.ranges.change hc⟩

theorem Sound.run {hardware : Bool} {request : SessionRequest P} {s : Session P}
    (h : s.Sound format hardware request) (op : SessionOp) (w : World) :
    (op.run format s w).2.1.Sound format hardware request := by
  obtain ⟨s₁, hchange, hends⟩ := op.run_cases format s w
  have hsettled := hends.settled format
  have h₁ := h.change hchange
  exact ⟨h₁.ok.settled format hsettled, h₁.opened.settled hsettled,
    h₁.storable.settled hsettled, h₁.ranges.settled hsettled⟩

theorem OrderHonest.run {s : Session P} (h : s.OrderHonest) (hok : s.Ok) {op : SessionOp}
    {w : World} (hop : op.KeepsOrder w s) : (op.run format s w).2.1.OrderHonest := by
  obtain ⟨s₁, hchange, hends⟩ := op.run_cases format s w
  exact (h.change hok hop hchange).settled (hends.settled format)

/-- An operation that keeps the order writes nothing but serialized manifests,
and so does every save inside it. -/
theorem OrderHonest.writes {s : Session P} (h : s.OrderHonest) (hranges : s.RangesCurrent)
    (hok : s.Ok) {op : SessionOp} {w : World} (hop : op.KeepsOrder w s) :
    WritesSerialized format w (op.run format s w) := by
  obtain ⟨s₁, hchange, hends⟩ := op.run_cases format s w
  exact (h.change hok hop hchange).ends (hranges.change hchange) (hok.change format hchange) hends

theorem fresh_sound {hardware : Bool} {request : SessionRequest P} {backend : ChecksumBackend}
    (hbackend : resolveChecksumBackend hardware request.checksumAlgorithm
      request.checksumBackend = .ok backend) {now : Nat} (hnow : now < 2 ^ 64) (missing : Nat) :
    (fresh format request backend now missing).Sound format hardware request :=
  ⟨.of_insertAll rfl, ⟨rfl, rfl, rfl, rfl, rfl, rfl, rfl, hbackend, rfl, rfl⟩,
    ⟨hnow, hnow, fun _ hr => (List.not_mem_nil hr).elim, fun _ hr => (List.not_mem_nil hr).elim⟩,
    fun _ => rfl⟩

/-- A resumed session is sound when its manifest answers the request and its
records are those the range list was rebuilt from. -/
theorem resumed_sound {hardware : Bool} {request : SessionRequest P} {backend : ChecksumBackend}
    (hbackend : resolveChecksumBackend hardware request.checksumAlgorithm
      request.checksumBackend = .ok backend) {manifest : Manifest P} {completed : RangeList} {now : Nat}
    (hnow : now < 2 ^ 64) (hfits : manifest.Fits)
    (htransferId : manifest.transferId = request.transferId)
    (hpaths : manifest.paths = request.paths)
    (htempPath : manifest.tempPath = format.tempPathFor request.paths request.transferId)
    (htotalSize : manifest.totalSize = request.totalSize.toNat)
    (hchunkSize : manifest.chunkSize = request.chunkSize.toNat)
    (halgorithm : manifest.checksumAlgorithm = request.checksumAlgorithm)
    (halgorithms : ∀ r ∈ manifest.verifiedChunks,
      r.checksum.algorithm = manifest.checksumAlgorithm)
    (hinsert : RangeList.empty.insertAll manifest.totalSize
      (recordRanges manifest.verifiedChunks) = .ok completed)
    (hranges : manifest.completedRanges = completed.ranges) :
    (resumed format request backend manifest completed now).Sound format hardware request :=
  ⟨.of_insertAll hinsert, ⟨htransferId, hpaths, htempPath, htotalSize, hchunkSize, halgorithm, rfl,
    hbackend, rfl, rfl⟩, ⟨hfits.createdAt, hnow, hfits.chunkIds, halgorithms⟩, fun _ => hranges⟩

end Session

theorem mem_missingRanges {P : Type} {s : Session P} (h : s.Ok) {x : Nat} :
    x ∈ covered s.missingRanges ↔ x < s.manifest.totalSize ∧ x ∉ covered s.completed.ranges := by
  rw [Session.missingRanges, RangeList.covered_missingRanges h.derived.wellFormed]
  constructor
  · rintro ⟨⟨-, hlt⟩, hnot⟩
    exact ⟨hlt, hnot⟩
  · rintro ⟨hlt, hnot⟩
    exact ⟨⟨Nat.zero_le _, hlt⟩, hnot⟩

theorem canonical_missingRanges {P : Type} {s : Session P} (h : s.Ok) :
    Canonical s.missingRanges :=
  RangeList.canonical_missingRanges h.derived.wellFormed

/-- An operation that asks for a record stores the bytes of that record, or
none. -/
theorem SessionOp.run_record {P : Type} (format : SessionFormat P) {op : SessionOp}
    {record : ChunkChecksumRecord} (hop : op.record? = some record) {s : Session P} (h : s.Ok)
    (w : World) :
    (op.run format s w).2.1.Ok ∧
      (op.run format s w).2.1.manifest.totalSize = s.manifest.totalSize ∧
      (covered (op.run format s w).2.1.completed.ranges = covered s.completed.ranges ∨
        covered (op.run format s w).2.1.completed.ranges = covered s.completed.ranges ∪
          Set.Ico record.offset (record.offset + record.length)) := by
  obtain ⟨s₁, hchange, hends⟩ := op.run_cases format s w
  have hkept : ∀ {s' : Session P}, Session.Settled format s₁ s' →
      s'.manifest.totalSize = s₁.manifest.totalSize ∧ s'.completed = s₁.completed := by
    intro s' hs
    cases hs with
    | kept stats => exact ⟨rfl, rfl⟩
    | saved now hnow dirty stats => exact ⟨rfl, rfl⟩
  obtain ⟨hsize, hcompleted⟩ := hkept (hends.settled format)
  refine ⟨h.run format op w, ?_, ?_⟩
  · rw [hsize]
    cases hchange with
    | unchanged => rfl
    | state state => rfl
    | append record' completed hop' halg hnew hinsert => rfl
    | drop tempPath v hop' halg hloop hremoved => rfl
  · rw [hcompleted]
    cases hchange with
    | unchanged => exact Or.inl rfl
    | state state => exact Or.inl rfl
    | append record' completed hop' halg hnew hinsert =>
        obtain rfl := Option.some.inj (hop.symm.trans hop')
        exact Or.inr (RangeList.insert_spec h.derived.wellFormed hinsert).2.1
    | drop tempPath v hop' halg hloop hremoved =>
        rw [hop'] at hop
        cases hop

end GridFlux
