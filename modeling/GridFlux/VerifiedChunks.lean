/-
GridFlux/VerifiedChunks.lean

What `verifyTempChunks` keeps.

A record is kept exactly when its bytes can be read back and have its checksum.
When no read fails for reasons of its own, that is a property of the bytes of
the temp file alone (`Stands`); then the records kept are those that stand, in
their old order, and a second call finds all of them (`verifyTempChunks_exact`).
-/
import GridFlux.RecordedChunks
import GridFlux.SessionRuns

namespace GridFlux

open HalfOpen Transition

/-! ### Records that can be read -/

namespace ChunkChecksumRecord

/-- The whole range can be read from the file: each piece of at most 65536
bytes begins at an `off_t` and lies inside the file. -/
def Readable (record : ChunkChecksumRecord) (content : Bytes) : Prop :=
  ∀ piece ∈ pieceSpans 65536 record.length record.offset record.length,
    piece.1 ≤ World.kMaxOffset ∧ piece.1 + piece.2 ≤ content.length

instance (record : ChunkChecksumRecord) (content : Bytes) :
    Decidable (record.Readable content) :=
  inferInstanceAs (Decidable (∀ piece ∈ _, _ ∧ _))

/-- The record can be read and its bytes hash to its checksum. -/
def Stands (record : ChunkChecksumRecord) (content : Bytes) : Prop :=
  record.Readable content ∧
    checksumOf record.checksum.algorithm
      (World.slice content record.offset record.length) = record.checksum

instance (record : ChunkChecksumRecord) (content : Bytes) :
    Decidable (record.Stands content) :=
  inferInstanceAs (Decidable (_ ∧ _))

end ChunkChecksumRecord

/-- The pieces are not empty and cut the range up. -/
theorem pieceSpans_bounds {limit fuel : Nat} (hlimit : 0 < limit) {offset length : Nat}
    (hfuel : length ≤ fuel) :
    (∀ piece ∈ pieceSpans limit fuel offset length,
      0 < piece.2 ∧ offset ≤ piece.1 ∧ piece.1 + piece.2 ≤ offset + length) ∧
    (0 < length → ∃ piece ∈ pieceSpans limit fuel offset length,
      piece.1 + piece.2 = offset + length) := by
  induction fuel generalizing offset length with
  | zero =>
      obtain rfl : length = 0 := by omega
      exact ⟨fun _ h => (List.not_mem_nil h).elim, fun h => absurd h (lt_irrefl 0)⟩
  | succ fuel ih =>
      rw [pieceSpans]
      split
      · rename_i hzero
        exact ⟨fun _ h => (List.not_mem_nil h).elim, fun h => absurd hzero h.ne'⟩
      · rename_i hne
        obtain ⟨hall, hlast⟩ := @ih (offset + min limit length) (length - min limit length)
          (by omega)
        constructor
        · intro piece hpiece
          rcases List.mem_cons.mp hpiece with rfl | hpiece
          · exact ⟨by dsimp only; omega, le_rfl, by dsimp only; omega⟩
          · obtain ⟨hpos, hle, hend⟩ := hall piece hpiece
            exact ⟨hpos, by omega, by omega⟩
        · intro hpos
          by_cases hrest : 0 < length - min limit length
          · obtain ⟨piece, hpiece, heq⟩ := hlast hrest
            exact ⟨piece, List.mem_cons_of_mem _ hpiece, by omega⟩
          · exact ⟨_, List.mem_cons_self, by dsimp only; omega⟩

theorem pieceSpans_le {limit fuel offset length : Nat} :
    ∀ piece ∈ pieceSpans limit fuel offset length, piece.2 ≤ limit := by
  induction fuel generalizing offset length with
  | zero => exact fun _ h => (List.not_mem_nil h).elim
  | succ fuel ih =>
      rw [pieceSpans]
      split
      · exact fun _ h => (List.not_mem_nil h).elim
      · exact List.forall_mem_cons.mpr ⟨Nat.min_le_left _ _, ih⟩

/-- In a file that an `off_t` can address, a range can be read exactly when it
lies inside the file. -/
theorem ChunkChecksumRecord.readable_iff {record : ChunkChecksumRecord} {content : Bytes}
    (hpos : 0 < record.length) (hcontent : content.length ≤ World.kMaxOffset) :
    record.Readable content ↔ record.offset + record.length ≤ content.length := by
  obtain ⟨hall, hlast⟩ := @pieceSpans_bounds 65536 record.length (by decide) record.offset
    record.length le_rfl
  constructor
  · intro h
    obtain ⟨piece, hpiece, heq⟩ := hlast hpos
    rw [← heq]
    exact (h piece hpiece).2
  · intro hle piece hpiece
    obtain ⟨hpositive, -, hend⟩ := hall piece hpiece
    exact ⟨by omega, by omega⟩

/-! ### Reading back -/

theorem readAtAll_world (w : World) (path : Path) (offset length : Nat) :
    (w.readAtAll path offset length).2 = w ∨
      (w.readAtAll path offset length).2 = w.afterCall := by
  rw [World.readAtAll]
  split
  · exact Or.inl rfl
  · split
    · exact Or.inl rfl
    · refine Or.inr ?_
      cases w.nextOutcome with
      | failure e moved => rfl
      | success =>
          cases w.files path with
          | none => rfl
          | some content =>
              simp only
              split
              · rfl
              · rfl

theorem World.Quiet.readAtAll {w : World} (h : w.Quiet) (path : Path) (offset length : Nat) :
    (w.readAtAll path offset length).2.Quiet := by
  rcases readAtAll_world w path offset length with heq | heq
  · rw [heq]
    exact h
  · rw [heq]
    exact h.afterCall

/-- A read that succeeds begins at an `off_t`. -/
theorem readAtAll_offset {w w' : World} {path : Path} {offset length : Nat} {data : Bytes}
    (h : w.readAtAll path offset length = (.ok data, w')) (hpos : 0 < length) :
    offset ≤ World.kMaxOffset := by
  rw [World.readAtAll, if_neg (by omega)] at h
  split at h
  · simp at h
  · omega

/-- A call that does not fail reads what is there. -/
theorem readAtAll_quiet {w : World} (hquiet : w.Quiet) {path : Path} {content : Bytes}
    (hfile : w.files path = some content) {offset length : Nat} (hpos : 0 < length)
    (hoffset : offset ≤ World.kMaxOffset) (hend : offset + length ≤ content.length) :
    w.readAtAll path offset length = (.ok (World.slice content offset length), w.afterCall) := by
  rw [World.readAtAll, if_neg (by omega), if_neg (by omega)]
  simp only [hquiet.nextOutcome, hfile, if_pos hend]

section Loop

variable {path : Path} {content : Bytes} {spans : List (Nat × Nat)} {computer : ChecksumComputer}
  {w : World}

/-- What the loop has read lies in the file. -/
theorem readChecksumLoop_readable (hpositive : ∀ piece ∈ spans, 0 < piece.2)
    (hfile : w.files path = some content) {computer' : ChecksumComputer} {w' : World}
    (h : readChecksumLoop path spans computer w = (.ok computer', w')) :
    ∀ piece ∈ spans, piece.1 ≤ World.kMaxOffset ∧ piece.1 + piece.2 ≤ content.length := by
  induction spans generalizing computer w with
  | nil => exact fun _ h => (List.not_mem_nil h).elim
  | cons span spans ih =>
      obtain ⟨offset, size⟩ := span
      obtain ⟨hpos, hrest⟩ := List.forall_mem_cons.mp hpositive
      have hframe := w.readAtAll_frame path offset size
      rw [readChecksumLoop] at h
      rcases hread : w.readAtAll path offset size with ⟨e | data, w₁⟩
      · simp [hread] at h
      · rw [hread] at hframe
        simp only [hread] at h
        obtain ⟨content', hfile', hend, -⟩ := readAtAll_ok hread hpos
        obtain rfl := Option.some.inj (hfile.symm.trans hfile')
        refine List.forall_mem_cons.mpr ⟨⟨readAtAll_offset hread hpos, hend⟩, ?_⟩
        exact ih hrest ((hframe.files _ (Set.notMem_empty _)).trans hfile) h

/-- When no call fails, what lies in the file is read. -/
theorem readChecksumLoop_quiet (hpositive : ∀ piece ∈ spans, 0 < piece.2) (hquiet : w.Quiet)
    (hfile : w.files path = some content)
    (hspans : ∀ piece ∈ spans,
      piece.1 ≤ World.kMaxOffset ∧ piece.1 + piece.2 ≤ content.length) :
    ∃ computer' w', readChecksumLoop path spans computer w = (.ok computer', w') := by
  induction spans generalizing computer w with
  | nil => exact ⟨computer, w, rfl⟩
  | cons span spans ih =>
      obtain ⟨hpos, hrest⟩ := List.forall_mem_cons.mp hpositive
      obtain ⟨⟨hoffset, hend⟩, hspans'⟩ := List.forall_mem_cons.mp hspans
      rw [readChecksumLoop, readAtAll_quiet hquiet hfile hpos hoffset hend]
      exact ih hrest hquiet.afterCall hfile hspans'

theorem readChecksumLoop_stays_quiet (hquiet : w.Quiet) :
    (readChecksumLoop path spans computer w).2.Quiet := by
  induction spans generalizing computer w with
  | nil => exact hquiet
  | cons span spans ih =>
      have hafter := hquiet.readAtAll path span.1 span.2
      rw [readChecksumLoop]
      rcases hread : w.readAtAll path span.1 span.2 with ⟨e | data, w'⟩
      · rw [hread] at hafter
        exact hafter
      · rw [hread] at hafter
        exact ih hafter

end Loop

section Record

variable {record : ChunkChecksumRecord} {backend : ChecksumBackend} {path : Path} {w : World}
  {content : Bytes}

/-- A record whose bytes read back to its checksum stands. -/
theorem stands_of_read (hpos : 0 < record.length) (hfile : w.files path = some content)
    {w' : World} (h : readChecksumForRecord w path record backend = (.ok record.checksum, w')) :
    record.Stands content := by
  obtain ⟨content', hfile', -, hvalue⟩ := readChecksumForRecord_ok hpos h
  obtain rfl := Option.some.inj (hfile.symm.trans hfile')
  refine ⟨?_, hvalue.symm⟩
  rw [readChecksumForRecord] at h
  rcases hloop : readChecksumLoop path
      (pieceSpans 65536 record.length record.offset record.length)
      (ChecksumComputer.new w.crc32cHardwareAvailable record.checksum.algorithm backend) w
    with ⟨e | computer, w₁⟩
  · simp [hloop] at h
  · exact readChecksumLoop_readable
      (fun piece hpiece => ((pieceSpans_bounds (by decide) le_rfl).1 piece hpiece).1) hfile hloop

/-- When no call fails, a record that stands is read back to its checksum. -/
theorem read_of_stands (hpos : 0 < record.length) (hquiet : w.Quiet)
    (hfile : w.files path = some content) (h : record.Stands content) :
    ∃ w', readChecksumForRecord w path record backend = (.ok record.checksum, w') := by
  obtain ⟨computer, w', hloop⟩ := @readChecksumLoop_quiet path content _
    (ChecksumComputer.new w.crc32cHardwareAvailable record.checksum.algorithm backend) w
    (fun piece hpiece => ((pieceSpans_bounds (by decide) le_rfl).1 piece hpiece).1) hquiet hfile
    h.1
  have hread : readChecksumForRecord w path record backend = (.ok computer.finalize, w') := by
    simp only [readChecksumForRecord, hloop]
  obtain ⟨content', hfile', -, hvalue⟩ := readChecksumForRecord_ok hpos hread
  obtain rfl := Option.some.inj (hfile.symm.trans hfile')
  rw [hread, hvalue, h.2]
  exact ⟨w', rfl⟩

theorem readChecksumForRecord_stays_quiet (hquiet : w.Quiet) :
    (readChecksumForRecord w path record backend).2.Quiet := by
  have hloop := @readChecksumLoop_stays_quiet path
    (pieceSpans 65536 record.length record.offset record.length)
    (ChecksumComputer.new w.crc32cHardwareAvailable record.checksum.algorithm backend) w hquiet
  rw [readChecksumForRecord]
  rcases h : readChecksumLoop path (pieceSpans 65536 record.length record.offset record.length)
      (ChecksumComputer.new w.crc32cHardwareAvailable record.checksum.algorithm backend) w
    with ⟨e | computer, w'⟩
  · rw [h] at hloop
    exact hloop
  · rw [h] at hloop
    exact hloop

end Record

/-! ### What is kept -/

namespace Session

variable {P : Type} {format : SessionFormat P}

section Records

variable {backend : ChecksumBackend} {path : Path} {w : World} {content : Bytes}
  {records : List ChunkChecksumRecord}

/-- What is kept stands, whatever calls have failed. -/
theorem stands_of_mem_intactRecords (hfile : w.files path = some content)
    (hpos : ∀ r ∈ records, 0 < r.length) :
    ∀ record ∈ intactRecords backend path records w, record.Stands content := by
  induction records generalizing w with
  | nil => exact fun _ h => (List.not_mem_nil h).elim
  | cons record rest ih =>
      obtain ⟨hlength, hrest⟩ := List.forall_mem_cons.mp hpos
      have hframe := readChecksumForRecord_frame w path record backend
      rw [intactRecords]
      rcases h : readChecksumForRecord w path record backend with ⟨e | actual, w'⟩
      · rw [h] at hframe
        exact ih ((hframe.files _ (Set.notMem_empty _)).trans hfile) hrest
      · rw [h] at hframe
        have ih' := ih ((hframe.files _ (Set.notMem_empty _)).trans hfile) hrest
        simp only
        split
        · rename_i heq
          rw [heq] at h
          exact List.forall_mem_cons.mpr ⟨stands_of_read hlength hfile h, ih'⟩
        · exact ih'

/-- **When no call fails, exactly what stands is kept**, in the old order. -/
theorem intactRecords_quiet (hquiet : w.Quiet) (hfile : w.files path = some content)
    (hpos : ∀ r ∈ records, 0 < r.length) :
    intactRecords backend path records w = records.filter fun r => r.Stands content := by
  induction records generalizing w with
  | nil => rfl
  | cons record rest ih =>
      obtain ⟨hlength, hrest⟩ := List.forall_mem_cons.mp hpos
      have hframe := readChecksumForRecord_frame w path record backend
      have hstays := @readChecksumForRecord_stays_quiet record backend path w hquiet
      have ih' := ih hstays ((hframe.files _ (Set.notMem_empty _)).trans hfile) hrest
      rw [intactRecords]
      by_cases hstands : record.Stands content
      · obtain ⟨w', hread⟩ := @read_of_stands record backend path w content hlength hquiet hfile
          hstands
        rw [hread] at ih'
        rw [List.filter_cons, if_pos (decide_eq_true hstands), hread]
        simp only [if_true]
        rw [ih']
      · rw [List.filter_cons, if_neg (by simpa using hstands)]
        rcases h : readChecksumForRecord w path record backend with ⟨e | actual, w'⟩
        · rw [h] at ih'
          exact ih'
        · rw [h] at ih'
          simp only
          rw [if_neg]
          · exact ih'
          · intro heq
            rw [heq] at h
            exact hstands (stands_of_read hlength hfile h)

end Records

/-- Does `verifyTempChunks` look at the temp file? -/
def Checks (s : Session P) : Prop :=
  ¬(s.manifest.checksumAlgorithm = .none ∨ s.records = [])

instance (s : Session P) : Decidable s.Checks := inferInstanceAs (Decidable ¬(_ ∨ _))

/-- A session in which `verifyTempChunks` has found nothing to drop. -/
def afterCheck (format : SessionFormat P) (s : Session P) : Session P :=
  if s.Checks ∨ format.refreshesStats = true then s.refreshStats else s

theorem afterCheck_cases (s : Session P) (format : SessionFormat P) :
    s.afterCheck format = s ∨ s.afterCheck format = s.refreshStats := by
  rw [afterCheck]
  split
  · exact Or.inr rfl
  · exact Or.inl rfl

theorem afterCheck_records (s : Session P) : (s.afterCheck format).records = s.records := by
  rcases s.afterCheck_cases format with h | h
  · rw [h]
  · rw [h]
    rfl

/-- Counters that are up to date stay as they are. -/
theorem afterCheck_eq_self {s : Session P} (h : s.refreshStats = s) :
    s.afterCheck format = s := by
  rcases s.afterCheck_cases format with heq | heq
  · exact heq
  · exact heq.trans h

theorem afterCheck_afterCheck (s : Session P) :
    (s.afterCheck format).afterCheck format = s.afterCheck format := by
  by_cases h : s.Checks ∨ format.refreshesStats = true
  · rw [show s.afterCheck format = s.refreshStats from if_pos h]
    exact afterCheck_eq_self rfl
  · have heq : s.afterCheck format = s := if_neg h
    rw [heq, heq]

/-- **How `verifyTempChunks` ends** on a sound session: either nothing happens,
because it does not look or because all records are intact, or the records that
are not are dropped and the rest is saved. -/
theorem Ok.verifyTempChunks_ends (format : SessionFormat P) {s : Session P} (h : s.Ok)
    (path : Path) (w : World) :
    ((s.manifest.checksumAlgorithm ≠ .none →
        intactRecords s.checksumBackend path s.records w = s.records) ∧ ∃ w',
      s.verifyTempChunks format path w = (.ok (), s.afterCheck format, w') ∧
      World.Frame ∅ w w') ∨
    (intactRecords s.checksumBackend path s.records w ≠ s.records ∧ ∃ v w',
      Change format (.verifyTempChunks path) w s ((s.countRemoved v.removed).replaceRecords v) ∧
      World.Frame ∅ w w' ∧ v.kept = intactRecords s.checksumBackend path s.records w ∧
      s.verifyTempChunks format path w =
        ((s.countRemoved v.removed).replaceRecords v).save format w') := by
  rw [verifyTempChunks, afterCheck]
  split
  · rename_i hguard
    refine Or.inl ⟨fun halgorithm => ?_, w, ?_, World.Frame.refl w⟩
    · rw [show s.records = [] from hguard.resolve_left halgorithm]
      rfl
    · have hnot : ¬s.Checks := not_not.mpr hguard
      cases format.refreshesStats with
      | true => rw [if_pos rfl, if_pos (Or.inr rfl)]
      | false => rw [if_neg Bool.false_ne_true, if_neg (by simp [hnot])]
  · rename_i hguard
    have hchecks : s.Checks := hguard
    obtain ⟨v, hloop, hcount⟩ := @verifyLoop_ok s.checksumBackend path s.manifest.totalSize
      s.records ⟨[], .empty, 0⟩ w rfl h.records
    have hv := @verifyLoop_kept s.checksumBackend path s.manifest.totalSize s.records
      ⟨[], .empty, 0⟩ w rfl h.records
    have hframe := @verifyLoop_frame s.checksumBackend path s.manifest.totalSize s.records
      ⟨[], .empty, 0⟩ w
    rw [hloop] at hv hframe
    have hv' : v.kept = intactRecords s.checksumBackend path s.records w := hv
    simp only [List.length_nil, Nat.zero_add] at hcount
    rw [show s.manifest.verifiedChunks = s.records from rfl, hloop, if_pos (Or.inl hchecks)]
    simp only
    split
    · -- nothing was dropped
      rename_i hremoved
      obtain ⟨hsub, -⟩ := @verifyLoop_kept_sublist P s path w v (by rw [hloop])
      have hall : v.kept = s.records := hsub.eq_of_length (by omega)
      exact Or.inl ⟨fun _ => hv'.symm.trans hall, _, rfl, hframe⟩
    · rename_i hremoved
      refine Or.inr ⟨?_, v, _, .drop path v rfl (not_or.mp hguard).1 (by rw [hloop]) hremoved,
        hframe, hv', rfl⟩
      rw [← hv']
      intro hall
      rw [hall] at hcount
      omega

/-- The session once some records have been dropped and the rest is saved. -/
theorem replaceRecords_saved {s s' : Session P} {v : VerifyState} {w w' : World}
    (h : ((s.countRemoved v.removed).replaceRecords v).save format w = (.ok (), s', w')) :
    s'.records = v.kept ∧ s'.refreshStats = s' := by
  obtain ⟨text, -, rfl, -⟩ := save_ok h
  exact ⟨rfl, rfl⟩

end Session

/-! ### The result -/

/-- What `verifyTempChunks` does in state `s`. -/
structure KeepsIntact {P : Type} (format : SessionFormat P) (s : Session P) : Prop where
  /-- the rebuild of the range list never fails -/
  rebuild : ∀ (path : Path) (w : World), ∃ v w',
    Session.verifyLoop s.checksumBackend path s.manifest.totalSize s.records ⟨[], .empty, 0⟩ w =
      (.ok (), v, w')
  /-- what is left: the records that are read back to their checksum, in the old
  order, and ranges that correspond to them -/
  kept : ∀ {path : Path} {w : World} {s' : Session P} {w' : World},
    s.verifyTempChunks format path w = (.ok (), s', w') →
      s'.records = Session.intactRecords s.checksumBackend path s.records w ∧ Coverage s'
  /-- these stand in the file, and when no call fails they are all that do -/
  stands : ∀ {path : Path} {w : World} {content : Bytes}, w.files path = some content →
    (∀ record ∈ Session.intactRecords s.checksumBackend path s.records w, record.Stands content) ∧
    (w.Quiet → Session.intactRecords s.checksumBackend path s.records w =
      s.records.filter fun r => r.Stands content)
  /-- a second call changes nothing -/
  again : ∀ {path : Path} {w : World} {s' : Session P} {w' : World} {content : Bytes},
    s.verifyTempChunks format path w = (.ok (), s', w') → w.files path = some content →
    ∀ w₂ : World, w₂.Quiet → w₂.files path = some content →
      ∃ w₃, s'.verifyTempChunks format path w₂ = (.ok (), s', w₃) ∧ w₃.files = w₂.files

namespace Session

variable {P : Type} {format : SessionFormat P}

/-- Nothing is dropped from a session whose records all stand. -/
theorem Ok.verifyTempChunks_again {s : Session P} (h : s.Ok) (hcheck : s.afterCheck format = s)
    {path : Path} {w : World} {content : Bytes} (hquiet : w.Quiet)
    (hfile : w.files path = some content) (hstands : ∀ r ∈ s.records, r.Stands content) :
    ∃ w', s.verifyTempChunks format path w = (.ok (), s, w') ∧ w'.files = w.files := by
  have hpos : ∀ r ∈ s.records, 0 < r.length := h.coverage.nonempty
  rcases h.verifyTempChunks_ends format path w with
    ⟨-, w', heq, hframe⟩ | ⟨hne, -⟩
  · rw [hcheck] at heq
    exact ⟨w', heq, funext fun p => hframe.files p (Set.notMem_empty p)⟩
  · refine absurd ?_ hne
    rw [intactRecords_quiet hquiet hfile hpos]
    exact List.filter_eq_self.mpr fun r hr => decide_eq_true (hstands r hr)

theorem Ok.verifyTempChunks_ok {s s' : Session P} (h : s.Ok) {path : Path} {w w' : World}
    (hresult : s.verifyTempChunks format path w = (.ok (), s', w')) : s'.Ok := by
  have hrun : ((SessionOp.verifyTempChunks path).run format s w).2.1.Ok := Ok.run format h _ w
  rwa [show (SessionOp.verifyTempChunks path).run format s w = (.ok (), s', w') from
    hresult] at hrun

/-- **What `verifyTempChunks` keeps**, for every sound session with checksums. -/
theorem Ok.keepsIntact (format : SessionFormat P) {s : Session P} (h : s.Ok)
    (halgorithm : s.manifest.checksumAlgorithm ≠ .none) : KeepsIntact format s where
  rebuild path w := by
    obtain ⟨v, hloop, -⟩ := @verifyLoop_ok s.checksumBackend path s.manifest.totalSize
      s.records ⟨[], .empty, 0⟩ w rfl h.records
    exact ⟨v, _, hloop⟩
  kept {path w s' w'} hresult := by
    refine ⟨?_, (h.verifyTempChunks_ok hresult).coverage⟩
    rcases h.verifyTempChunks_ends format path w with
      ⟨hall, w₁, heq, -⟩ | ⟨-, v, w₁, -, -, hkept, heq⟩
    · rw [heq] at hresult
      simp only [Prod.mk.injEq, true_and] at hresult
      rw [hall halgorithm, ← hresult.1, afterCheck_records]
    · rw [heq] at hresult
      rw [← hkept]
      exact (replaceRecords_saved hresult).1
  stands {path w content} hfile :=
    ⟨stands_of_mem_intactRecords hfile h.coverage.nonempty,
      fun hquiet => intactRecords_quiet hquiet hfile h.coverage.nonempty⟩
  again {path w s' w' content} hresult hfile w₂ hquiet hfile₂ := by
    have hstands : ∀ r ∈ intactRecords s.checksumBackend path s.records w, r.Stands content :=
      stands_of_mem_intactRecords hfile h.coverage.nonempty
    have hok := h.verifyTempChunks_ok hresult
    rcases h.verifyTempChunks_ends format path w with
      ⟨hall, w₁, heq, -⟩ | ⟨-, v, w₁, -, -, hkept, heq⟩
    · rw [heq] at hresult
      simp only [Prod.mk.injEq, true_and] at hresult
      obtain ⟨rfl, -⟩ := hresult
      rw [hall halgorithm] at hstands
      refine hok.verifyTempChunks_again (afterCheck_afterCheck s) hquiet hfile₂ ?_
      rw [afterCheck_records]
      exact hstands
    · rw [heq] at hresult
      obtain ⟨hrecords, hfresh⟩ := replaceRecords_saved hresult
      refine hok.verifyTempChunks_again (afterCheck_eq_self hfresh) hquiet hfile₂ ?_
      rw [hrecords, hkept]
      exact hstands

end Session

/-- **`verifyTempChunks` keeps exactly the intact chunks.**  In every reachable
state of either session class with crc32c, for every content of the temp file:
the rebuild of the range list never fails; after a call that succeeds the
records are those that were read back to their checksum, in their old order,
which are those that stand in the file when no read failed for reasons of its
own; completed and missing ranges correspond to them; and a second call changes
nothing. -/
theorem verifyTempChunks_exact (hardware : Bool) :
    (∀ request s, (transferSystem hardware request).Reachable s →
      s.manifest.checksumAlgorithm = .crc32c → KeepsIntact transferSessionFormat s) ∧
    (∀ request s, (downloadSystem hardware request).Reachable s →
      s.manifest.checksumAlgorithm = .crc32c → KeepsIntact downloadSessionFormat s) := by
  have hne : ∀ {algorithm : ChecksumAlgorithm}, algorithm = .crc32c → algorithm ≠ .none := by
    rintro _ rfl h
    cases h
  exact ⟨fun _ _ h halgorithm => (transfer_sound h).ok.keepsIntact _ (hne halgorithm),
    fun _ _ h halgorithm => (download_sound h).ok.keepsIntact _ (hne halgorithm)⟩

/-- Three chunks, of which the second is corrupt. -/
theorem verifyTempChunks_exact_threeChunks :
    KeepsIntact transferSessionFormat
        (threeChunksAfter [recordZero 2, recordZero 1, recordZero 0]) ∧
      KeepsIntact downloadSessionFormat
        (Session.fresh downloadSessionFormat threeChunksDownload .software 0 1) :=
  ⟨(verifyTempChunks_exact false).1 threeChunks _ (threeChunks_reachable _) (by decide +kernel),
    (verifyTempChunks_exact false).2 threeChunksDownload _ threeChunksDownload_reachable rfl⟩

end GridFlux
