/-
GridFlux/RecordOutcome.lean

`recordVerifiedChunk` is all or nothing.  Provided that the manifest can be
written when a flush is due, a call on a reachable session ends in exactly one
of three ways (`recordVerifiedChunk_allOrNothing`):

* the record is new, and the completed set grows by exactly its range;
* the very same record is there already, and nothing changes;
* the call is refused, and nothing changes.

The one thing to see is that a due flush cannot be refused by the serializer:
a session that opened stays serializable (`transfer_serializable`,
`download_serializable`), so only the system calls could fail it.
-/
import GridFlux.CommitAtomicity

namespace GridFlux

open HalfOpen TextCodec Transition

variable {P : Type} {format : SessionFormat P}

/-! ### A reachable session can be serialized -/

theorem transfer_serializable {hardware : Bool} {request : SessionRequest TransferPaths}
    {s : TransferSession} (h : (transferSystem hardware request).Reachable s) :
    s.Serializable transferSessionFormat := by
  obtain ⟨s₀, hopens⟩ := h.exists_initial
  exact TransferSession.serializable_of_valid (TransferSession.Opens.valid hopens)
    (transfer_sound h)

theorem DownloadSession.Opens.version {hardware : Bool} {request : SessionRequest DownloadPaths}
    {s : DownloadSession} (h : DownloadSession.Opens hardware request s) :
    s.manifest.version = kDownloadManifestVersion := by
  obtain ⟨w, w', -, hcreate | hresume⟩ := h
  · obtain ⟨backend, now, missing, -, -, rfl⟩ := DownloadSession.createNew_ok hcreate
    rfl
  · obtain ⟨backend, now, text, manifest, completed, -, -, -, hparse, -, rfl⟩ :=
      DownloadSession.resume_ok hresume
    exact (parseDownloadManifest_spec hparse).2.2.1

theorem DownloadSession.Opens.serializable {hardware : Bool}
    {request : SessionRequest DownloadPaths} {s : DownloadSession}
    (h : DownloadSession.Opens hardware request s) : s.Serializable downloadSessionFormat := by
  have hvalid := h.valid
  simp only [DownloadSession.validateInputs, bind_eq_ok, require_eq_ok] at hvalid
  obtain ⟨_, htarget, _, hsource, _, hid, _, hchunk, -⟩ := hvalid
  refine h.sound.1.serializable h.version hid ?_ ?_ hchunk
  · show [] ∉ [request.paths.sourcePath, request.paths.targetPath]
    intro hmem
    rcases List.mem_cons.mp hmem with hnil | hmem
    · exact hsource hnil.symm
    · exact htarget (List.mem_singleton.mp hmem).symm
  · show downloadTempPathForOutput request.paths.targetPath request.transferId ≠ []
    simp [downloadTempPathForOutput, ascii]

theorem download_serializable {hardware : Bool} {request : SessionRequest DownloadPaths}
    {s : DownloadSession} (h : (downloadSystem hardware request).Reachable s) :
    s.Serializable downloadSessionFormat := by
  apply h.invariant (I := fun s => s.Serializable downloadSessionFormat)
  · exact fun s hopens => DownloadSession.Opens.serializable hopens
  · intro l s s' _ hs hstep
    obtain rfl := hstep
    exact hs.run versionSettles_download l.1 l.2

/-! ### The three outcomes -/

inductive RecordOutcome
  | added
  | duplicate
  | refused
deriving DecidableEq, Repr

/-- The record is in, once, and the completed set has grown by its range. -/
structure RecordAdded (s s' : Session P) (record : ChunkChecksumRecord) : Prop where
  new : record ∉ s.records
  apart : Disjoint (covered s.completed.ranges)
    (Set.Ico record.offset (record.offset + record.length))
  records : s'.records.Perm (s.records ++ [record])
  completed : covered s'.completed.ranges =
    covered s.completed.ranges ∪ Set.Ico record.offset (record.offset + record.length)
  missing : covered s'.missingRanges =
    covered s.missingRanges \ Set.Ico record.offset (record.offset + record.length)
  bytesCompleted : s'.bytesCompleted = s.bytesCompleted + record.length

/-- What each outcome says of the result of a call made in `s` and `w`.  Of a
refused or a duplicate record the session keeps no trace at all. -/
def RecordOutcome.Says (s : Session P) (w : World) (record : ChunkChecksumRecord)
    (r : SessionResult P) : RecordOutcome → Prop
  | .added => r.1 = .ok () ∧ RecordAdded s r.2.1 record
  | .duplicate => r = (.ok (), s, w) ∧ record ∈ s.records
  | .refused => ∃ e, r = (.error e, s, w)

/-- No two outcomes say the same. -/
theorem RecordOutcome.says_unique {s : Session P} {w : World} {record : ChunkChecksumRecord}
    {r : SessionResult P} {outcome outcome' : RecordOutcome} (h : outcome.Says s w record r)
    (h' : outcome'.Says s w record r) : outcome = outcome' := by
  cases outcome with
  | added =>
      cases outcome' with
      | added => rfl
      | duplicate => exact absurd h'.2 h.2.new
      | refused =>
          obtain ⟨e, rfl⟩ := h'
          cases h.1
  | duplicate =>
      cases outcome' with
      | added => exact absurd h.2 h'.2.new
      | duplicate => rfl
      | refused =>
          obtain ⟨e, rfl⟩ := h'
          cases h.1
  | refused =>
      obtain ⟨e, rfl⟩ := h
      cases outcome' with
      | added => cases h'.1
      | duplicate => cases h'.1
      | refused => rfl

/-- A record of which neither the offset nor, where it counts, the id is
taken is new. -/
theorem notMem_of_find_sameIdentity {s : Session P} {record : ChunkChecksumRecord}
    (h : s.manifest.verifiedChunks.find? (s.sameIdentity record.chunkId record.offset) = none) :
    record ∉ s.records := by
  intro hmem
  have hnot := List.find?_eq_none.mp h record hmem
  apply hnot
  rw [Session.sameIdentity, decide_eq_true_eq]
  exact Or.inl rfl

theorem Session.Ok.recordAdded {s s' : Session P} (h : s.Ok) {record : ChunkChecksumRecord}
    (hnew : record ∉ s.records) {completed : RangeList}
    (hinsert : s.completed.insert record.offset record.length s.manifest.totalSize =
      .ok completed)
    (hrecords : s'.records.Perm (s.records ++ [record])) (hcompleted : s'.completed = completed)
    (hsize : s'.manifest.totalSize = s.manifest.totalSize) : RecordAdded s s' record := by
  obtain ⟨hwf, hcovered, hbytes⟩ := RangeList.insert_spec h.derived.wellFormed hinsert
  obtain ⟨-, -, hdisjoint⟩ := RangeList.disjoint_of_insert h.derived.wellFormed hinsert
  refine ⟨hnew, hdisjoint, hrecords, ?_, ?_, ?_⟩
  · rw [hcompleted, hcovered]
  · rw [missingRanges, missingRanges, hsize, hcompleted, RangeList.covered_missingRanges hwf,
      RangeList.covered_missingRanges h.derived.wellFormed, hcovered, Set.sdiff_sdiff]
  · rw [bytesCompleted, hcompleted, hbytes]
    rfl

/-- **One call.**  If a due flush can write its manifest, one of the outcomes
says what a call has done. -/
theorem Session.Ok.recordVerifiedChunk_says {s : Session P} (h : s.Ok)
    (hserializable : s.Serializable format) {w : World} (hcalls : w.CallsSucceed 4)
    (hwritable : s.ManifestWritable w) (chunkId offset length : Nat)
    (checksumValue : ChecksumValue) :
    ∃ outcome : RecordOutcome, outcome.Says s w ⟨chunkId, offset, length, checksumValue⟩
      (s.recordVerifiedChunk format chunkId offset length checksumValue w) := by
  rw [recordVerifiedChunk]
  split
  · exact ⟨.refused, _, rfl⟩
  split
  · exact ⟨.refused, _, rfl⟩
  split
  · -- the record's place is taken
    rename_i record hfind
    split
    · rename_i heq
      subst heq
      exact ⟨.duplicate, rfl, List.mem_of_find?_eq_some hfind⟩
    · exact ⟨.refused, _, rfl⟩
  rename_i hfind
  have hnew := @notMem_of_find_sameIdentity P s ⟨chunkId, offset, length, checksumValue⟩ hfind
  split
  · exact ⟨.refused, _, rfl⟩
  rename_i completed hinsert
  generalize hs' : s.appendRecord format ⟨chunkId, offset, length, checksumValue⟩ completed = s'
  have hrecords : s'.records = s.records ++ [⟨chunkId, offset, length, checksumValue⟩] := by
    rw [← hs']
    rfl
  have hcompleted : s'.completed = completed := by
    rw [← hs']
    rfl
  have hsize : s'.manifest.totalSize = s.manifest.totalSize := by
    rw [← hs']
    rfl
  refine ⟨.added, ?_⟩
  dsimp only
  split
  · -- the flush changes the order of the records at most
    have hser' : s'.Serializable format := by
      rw [Serializable, checkSerializable_eq_ok] at hserializable ⊢
      rw [← hs']
      exact hserializable
    have hwritable' : s'.ManifestWritable w := by
      rw [← hs']
      exact hwritable
    have hok := hser'.save_ok_iff.mpr ⟨hcalls, hwritable'⟩
    rcases hsave : s'.save format w with ⟨status, s'', w''⟩
    rw [hsave] at hok
    dsimp only at hok
    subst hok
    obtain ⟨text, -, rfl, -⟩ := save_ok hsave
    refine ⟨rfl, h.recordAdded hnew hinsert ?_ hcompleted hsize⟩
    rw [← hrecords]
    exact s'.prepareSave_records_perm format _
  · exact ⟨rfl, h.recordAdded hnew hinsert (hrecords ▸ List.Perm.refl _) hcompleted hsize⟩

/-- **Recording is all or nothing.**  On every reachable session of either
class, for every record and in every world whose next system calls succeed,
exactly one of the three outcomes says what the call has done. -/
theorem recordVerifiedChunk_allOrNothing (hardware : Bool) :
    (∀ request s, (transferSystem hardware request).Reachable s →
      ∀ (chunkId offset length : UInt64) (value : ChecksumValue) (w : World),
        w.CallsSucceed 4 → s.ManifestWritable w →
        ∃! outcome : RecordOutcome,
          outcome.Says s w ⟨chunkId.toNat, offset.toNat, length.toNat, value⟩
            (s.recordVerifiedChunk transferSessionFormat chunkId.toNat offset.toNat length.toNat
              value w)) ∧
    (∀ request s, (downloadSystem hardware request).Reachable s →
      ∀ (chunkId offset length : UInt64) (value : ChecksumValue) (w : World),
        w.CallsSucceed 4 → s.ManifestWritable w →
        ∃! outcome : RecordOutcome,
          outcome.Says s w ⟨chunkId.toNat, offset.toNat, length.toNat, value⟩
            (s.recordVerifiedChunk downloadSessionFormat chunkId.toNat offset.toNat length.toNat
              value w)) := by
  constructor
  · intro request s hs chunkId offset length value w hcalls hwritable
    obtain ⟨outcome, hsays⟩ := (transfer_sound hs).ok.recordVerifiedChunk_says
      (transfer_serializable hs) hcalls hwritable chunkId.toNat offset.toNat length.toNat value
    exact ⟨outcome, hsays, fun _ hsays' => RecordOutcome.says_unique hsays' hsays⟩
  · intro request s hs chunkId offset length value w hcalls hwritable
    obtain ⟨outcome, hsays⟩ := (download_sound hs).ok.recordVerifiedChunk_says
      (download_serializable hs) hcalls hwritable chunkId.toNat offset.toNat length.toNat value
    exact ⟨outcome, hsays, fun _ hsays' => RecordOutcome.says_unique hsays' hsays⟩

theorem recordVerifiedChunk_allOrNothing_second :
    (∃! outcome : RecordOutcome,
      outcome.Says (threeChunksAfter [recordZero 2]) corruptSecondByte
        ⟨0, 0, 1, checksumOf .crc32c [0]⟩
        ((threeChunksAfter [recordZero 2]).recordVerifiedChunk transferSessionFormat 0 0 1
          (checksumOf .crc32c [0]) corruptSecondByte)) ∧
    (∃! outcome : RecordOutcome,
      outcome.Says (Session.fresh downloadSessionFormat threeChunksDownload .software 0 1)
        corruptSecondByte ⟨0, 0, 1, checksumOf .crc32c [0]⟩
        ((Session.fresh downloadSessionFormat threeChunksDownload .software 0
          1).recordVerifiedChunk downloadSessionFormat 0 0 1 (checksumOf .crc32c [0])
            corruptSecondByte)) :=
  ⟨(recordVerifiedChunk_allOrNothing false).1 threeChunks _ (threeChunks_reachable _) 0 0 1 _ _
      (by decide) ⟨rfl, rfl⟩,
    (recordVerifiedChunk_allOrNothing false).2 threeChunksDownload _ threeChunksDownload_reachable 0 0 1
      _ _ (by decide) ⟨rfl, rfl⟩⟩

end GridFlux
