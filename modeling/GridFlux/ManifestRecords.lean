/-
GridFlux/ManifestRecords.lean

Records that are all of one kind, in a session and in the manifest file it
writes.

A session whose records are as some predicate says leaves no other record in its
manifest file, as long as what it records is of that kind too.
-/
import GridFlux.RecordedChunks

namespace GridFlux

/-- All records of the manifest are as `Q` says, which may look at the sizes. -/
def Manifest.RecordsAre {P : Type} (Q : Nat → Nat → ChunkChecksumRecord → Prop)
    (manifest : Manifest P) : Prop :=
  ∀ r ∈ manifest.verifiedChunks, Q manifest.chunkSize manifest.totalSize r

theorem Manifest.RecordsAre.congr {P : Type} {Q : Nat → Nat → ChunkChecksumRecord → Prop}
    {manifest manifest' : Manifest P} (h : manifest.RecordsAre Q) (hchunk : manifest'.chunkSize = manifest.chunkSize)
    (htotal : manifest'.totalSize = manifest.totalSize)
    (hrecords : manifest'.verifiedChunks ⊆ manifest.verifiedChunks) :
    manifest'.RecordsAre Q := by
  intro r hr
  rw [hchunk, htotal]
  exact h r (hrecords hr)

/-- Where nothing is recorded, the records stay as they are said to be. -/
theorem Session.QuietCalls.recordsAre {P : Type} {format : SessionFormat P} {S : Set Path}
    {s s' : Session P} {w w' : World} (h : Session.QuietCalls format S s w s' w')
    {parse : Bytes → Except Status (Manifest P)} (hread : ReadsBack format parse)
    {hardware : Bool} {request : SessionRequest P} (hs : s.Sound format hardware request)
    (hS : format.manifestPathFor request.paths ∉ S)
    {Q : Nat → Nat → ChunkChecksumRecord → Prop} (hsession : s.manifest.RecordsAre Q)
    (hdisk : DiskSays parse w (format.manifestPathFor request.paths) (Manifest.RecordsAre Q)) :
    DiskSays parse w' (format.manifestPathFor request.paths) (Manifest.RecordsAre Q) ∧
      s'.manifest.RecordsAre Q := by
  have hkept : ∀ {s₁ : Session P}, s₁.Sound format hardware request →
      s₁.records ⊆ s.records → s₁.manifest.RecordsAre Q := fun hs₁ hsub =>
    hsession.congr (hs₁.opened.chunkSize.trans hs.opened.chunkSize.symm)
      (hs₁.opened.totalSize.trans hs.opened.totalSize.symm) hsub
  refine ⟨h.diskSays hread hs hS hdisk fun s₁ manifest hs₁ hsub hstores => ?_,
    hkept (h.calls.sound hs) h.records_subset⟩
  rw [hstores.stored]
  exact (hkept hs₁ hsub).congr rfl rfl (s₁.stored_perm.subset)

/-- **A record that is as the others** leaves them as they are said to be,
whether it can be stored or not. -/
theorem Session.Sound.recorded_recordsAre {P : Type} {format : SessionFormat P}
    {parse : Bytes → Except Status (Manifest P)} (hread : ReadsBack format parse) {hardware : Bool}
    {request : SessionRequest P} {s s' : Session P} (hs : s.Sound format hardware request)
    {Q : Nat → Nat → ChunkChecksumRecord → Prop} (hsession : s.manifest.RecordsAre Q)
    {w w' : World}
    (hdisk : DiskSays parse w (format.manifestPathFor request.paths) (Manifest.RecordsAre Q))
    {chunkId offset length : UInt64} {value : ChecksumValue}
    (hnew : Q s.manifest.chunkSize s.manifest.totalSize
      ⟨chunkId.toNat, offset.toNat, length.toNat, value⟩) {status : Except Status Unit}
    (h : s.recordVerifiedChunk format chunkId.toNat offset.toNat length.toNat value w =
      (status, s', w')) :
    DiskSays parse w' (format.manifestPathFor request.paths) (Manifest.RecordsAre Q) ∧
      s'.manifest.RecordsAre Q := by
  have hrun : SessionOp.run format (.recordVerifiedChunk chunkId offset length value) s w =
      (status, s', w') := h
  have hs' := hs.run (.recordVerifiedChunk chunkId offset length value) w
  have hrecorded := s.recordVerifiedChunk_recorded format chunkId.toNat offset.toNat length.toNat
    value w
  rw [hrun] at hs'
  rw [h] at hrecorded
  have hkept : s'.manifest.RecordsAre Q := by
    intro r hr
    rw [hs'.opened.chunkSize.trans hs.opened.chunkSize.symm,
      hs'.opened.totalSize.trans hs.opened.totalSize.symm]
    rcases hrecorded.new r hr with hold | rfl
    · exact hsession r hold
    · exact hnew
  have hwrites := hs.run_diskSays hread (.recordVerifiedChunk chunkId offset length value) hdisk
  rw [hrun] at hwrites
  refine ⟨hwrites fun manifest hstores => ?_, hkept⟩
  rw [hstores.stored]
  exact hkept.congr rfl rfl s'.stored_perm.subset

end GridFlux
