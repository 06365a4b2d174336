/-
GridFlux/CommitCalls.lean

Which system calls decide a commit.  Each step succeeds exactly when the calls
it makes do and no directory is in its way; a step that has succeeded has made
a known number of them, so that the conditions of the steps can be put one after
the other (`publish_ok_iff`, `finalVerify_ok_iff`).
-/
import GridFlux.Commit

namespace GridFlux

open HalfOpen TextCodec

namespace World

/-- Whether calls succeed is a matter of the outcomes alone. -/
theorem CallsSucceed.congr {n : Nat} {w w' : World} (h : w'.outcomes = w.outcomes) :
    w'.CallsSucceed n ↔ w.CallsSucceed n := by
  rw [CallsSucceed, CallsSucceed, h]

theorem afterCalls_congr {n : Nat} {w w' : World} (h : w'.outcomes = w.outcomes) :
    (w'.afterCalls n).outcomes = (w.afterCalls n).outcomes := by
  induction n generalizing w w' with
  | zero => exact h
  | succ n ih => exact ih (congrArg List.tail h)

theorem renamePath_ok_iff {w : World} {source target : Path} :
    ((w.renamePath source target).1 = .ok () ↔ w.CallsSucceed 1 ∧ (w.files source).isSome ∧
      w.isDirectory target = false) ∧
    ((w.renamePath source target).1 = .ok () →
      (w.renamePath source target).2.outcomes = w.afterCall.outcomes ∧
      ((w.renamePath source target).2.files target).isSome) := by
  rw [callsSucceed_succ]
  cases h1 : w.nextOutcome with
  | failure e moved => simp [renamePath, h1]
  | success =>
      cases hfile : w.files source with
      | none => simp [renamePath, h1, hfile]
      | some content =>
          cases hd : w.isDirectory target with
          | true => simp [renamePath, h1, hfile, hd]
          | false =>
              by_cases heq : source = target
              · subst heq
                simp [renamePath, h1, hfile, hd]
              · simp [renamePath, h1, hfile, hd, heq, setFile]

/-- A successful save has made its four calls. -/
theorem saveAtomic_ok_outcomes {w w' : World} {texts : SaveTexts} {path : Path} {text : Bytes}
    {u : Unit} (h : w.saveAtomic texts path text = (.ok u, w')) :
    w'.outcomes = (w.afterCalls 4).outcomes := by
  have hok := saveAtomic_ok_iff.mp (show (w.saveAtomic texts path text).1 = .ok () by rw [h])
  obtain ⟨hcalls, htemp, hpath⟩ := hok
  rw [callsSucceed_succ, callsSucceed_succ, callsSucceed_succ, callsSucceed_succ] at hcalls
  obtain ⟨h1, h2, h3, h4, -⟩ := hcalls
  have hne := w.manifestTempPath_ne path
  simp [saveAtomic, writeTemp, openTruncate, writeAll, close, renamePath, h1, htemp, h2, h3, h4,
    hpath, hne] at h
  rw [← h]
  rfl

theorem pathExists_ok_iff {w : World} {path : Path} :
    ((∃ found, (w.pathExists path).1 = .ok found) ↔ w.CallsSucceed 1) ∧
    ∀ found, (w.pathExists path).1 = .ok found →
      found = ((w.files path).isSome || w.isDirectory path) := by
  rw [callsSucceed_succ, pathExists]
  cases w.nextOutcome with
  | failure e moved => simp
  | success => simp

end World

section Publish

variable {P : Type} {format : SessionFormat P} {output : Path} {s s' : Session P} {w w' : World}

/-! ### After the rename -/

/-- How many system calls a sync policy makes. -/
def syncCalls : CommitSyncPolicy → Nat
  | .none => 0
  | .fsyncFile => 2
  | .fsyncFileAndDir => 4

/-- A sync of an existing file succeeds exactly when its calls do. -/
theorem applyCommitSyncPolicy_ok_iff {policy : CommitSyncPolicy} (hfile : (w.files output).isSome)
    (hdirectory : w.isDirectory output = false) :
    ((applyCommitSyncPolicy w output policy).1 = .ok () ↔ w.CallsSucceed (syncCalls policy)) ∧
      ((applyCommitSyncPolicy w output policy).1 = .ok () →
        (applyCommitSyncPolicy w output policy).2 = w.afterCalls (syncCalls policy)) := by
  have hfsync : ((w.fsyncPath output).1 = .ok () ↔ w.CallsSucceed 2) ∧
      ((w.fsyncPath output).1 = .ok () → (w.fsyncPath output).2 = w.afterCalls 2) := by
    rw [World.callsSucceed_succ, World.callsSucceed_succ]
    cases h1 : w.nextOutcome with
    | failure e moved => simp [World.fsyncPath, World.openReadOnly, World.openExisting, h1]
    | success =>
        cases h2 : w.afterCall.nextOutcome with
        | failure e moved =>
            simp [World.fsyncPath, World.openReadOnly, World.openExisting, World.sync, h1, h2,
              hfile, hdirectory]
        | success =>
            simp [World.fsyncPath, World.openReadOnly, World.openExisting, World.sync, h1, h2,
              hfile, hdirectory, World.afterCalls]
  cases policy with
  | none => simp [applyCommitSyncPolicy, syncCalls, World.afterCalls]
  | fsyncFile => exact hfsync
  | fsyncFileAndDir =>
      show _ ∧ _
      rw [show syncCalls .fsyncFileAndDir = 2 + 2 from rfl, World.callsSucceed_add, ← hfsync.1,
        applyCommitSyncPolicy]
      rcases hresult : w.fsyncPath output with ⟨e | _, w₁⟩
      · simp
      · have hw₁ : w₁ = w.afterCalls 2 := by
          have h := hfsync.2
          rw [hresult] at h
          exact h rfl
        subst hw₁
        simp only [true_and]
        rw [World.callsSucceed_succ, World.callsSucceed_succ, World.fsyncParentDirectory]
        cases h1 : (w.afterCalls 2).nextOutcome with
        | failure e moved => simp
        | success =>
            cases h2 : (w.afterCalls 2).afterCall.nextOutcome with
            | failure e moved => simp
            | success => simp [World.afterCalls]

/-- No directory is in the way of a save. -/
def Session.ManifestWritable (s : Session P) (w : World) : Prop :=
  w.isDirectory (w.manifestTempPath s.manifestPath) = false ∧ w.isDirectory s.manifestPath = false

instance (s : Session P) (w : World) : Decidable (s.ManifestWritable w) :=
  inferInstanceAs (Decidable (_ ∧ _))

theorem Session.ManifestWritable.congr (hpath : s'.manifestPath = s.manifestPath)
    (hdirectory : w'.isDirectory = w.isDirectory) (hpid : w'.pid = w.pid) :
    s'.ManifestWritable w' ↔ s.ManifestWritable w := by
  rw [ManifestWritable, ManifestWritable, World.manifestTempPath, World.manifestTempPath, hpath,
    hdirectory, hpid]

/-- **When a save succeeds.** -/
theorem Session.Serializable.save_ok_iff (h : s.Serializable format) :
    (s.save format w).1 = .ok () ↔ w.CallsSucceed 4 ∧ s.ManifestWritable w := by
  have hcheck : checkSerializable format.toManifestFormat
      (s.prepareSave format w.nowUnixNanos.1).manifest = .ok () := by
    rw [Session.Serializable, checkSerializable_eq_ok] at h
    exact (checkSerializable_eq_ok _).mpr h
  cases hser : serializePreparedManifest format.toManifestFormat
      (s.prepareSave format w.nowUnixNanos.1).manifest with
  | error e =>
      rw [serializePreparedManifest, hcheck] at hser
      cases hser
  | ok text =>
      -- the clock does not touch the calls to come
      have hsave : (w.nowUnixNanos.2.saveAtomic format.saveTexts
          (s.prepareSave format w.nowUnixNanos.1).manifestPath text).1 = .ok () ↔
          w.CallsSucceed 4 ∧ s.ManifestWritable w := World.saveAtomic_ok_iff
      rw [← hsave, Session.save]
      simp only [hser]
      rcases hresult : w.nowUnixNanos.2.saveAtomic format.saveTexts
        (s.prepareSave format w.nowUnixNanos.1).manifestPath text with ⟨e | _, w'⟩
      · simp
      · simp

theorem Session.save_ok_outcomes {u : Unit} (h : s.save format w = (.ok u, s', w')) :
    w'.outcomes = (w.afterCalls 4).outcomes := by
  rw [Session.save] at h
  cases hser : serializePreparedManifest format.toManifestFormat
      (s.prepareSave format w.nowUnixNanos.1).manifest with
  | error e => simp [hser] at h
  | ok text =>
      rcases hsave : w.nowUnixNanos.2.saveAtomic format.saveTexts
        (s.prepareSave format w.nowUnixNanos.1).manifestPath text with ⟨e | _, w₁⟩
      · simp [hser, hsave] at h
      · simp only [hser, hsave, Prod.mk.injEq] at h
        obtain ⟨-, -, rfl⟩ := h
        rw [World.saveAtomic_ok_outcomes hsave]
        exact World.afterCalls_congr rfl

/-- **When the steps after the rename succeed**: none of their system calls
fails, and no directory is in the way of the manifest. -/
theorem Session.Serializable.sealOutput_ok_iff (h : s.Serializable format)
    (options : CommitOptions) (hfile : (w.files options.path).isSome)
    (hdirectory : w.isDirectory options.path = false) :
    (sealOutput format options s w).1 = .ok () ↔
      w.CallsSucceed (syncCalls options.commitSyncPolicy + 4) ∧ s.ManifestWritable w := by
  obtain ⟨hiff, hworld⟩ := @applyCommitSyncPolicy_ok_iff options.path w options.commitSyncPolicy
    hfile hdirectory
  rw [World.callsSucceed_add, and_assoc, ← hiff, GridFlux.sealOutput]
  rcases hresult : applyCommitSyncPolicy w options.path options.commitSyncPolicy with ⟨e | _, w₁⟩
  · simp [Session.fail]
  · rw [hresult] at hworld
    obtain rfl : w₁ = w.afterCalls (syncCalls options.commitSyncPolicy) := hworld rfl
    have hcommitted : ({ s with manifest := { s.manifest with state := .committed } } :
        Session P).Serializable format := by
      rw [Session.Serializable, checkSerializable_eq_ok] at h ⊢
      exact h
    have hmark : (s.markCommitted format
        (w.afterCalls (syncCalls options.commitSyncPolicy))).1 = .ok () ↔
        (w.afterCalls (syncCalls options.commitSyncPolicy)).CallsSucceed 4 ∧
          s.ManifestWritable (w.afterCalls (syncCalls options.commitSyncPolicy)) :=
      hcommitted.save_ok_iff
    rw [Session.ManifestWritable.congr rfl (World.afterCalls_isDirectory _ w)
      (World.afterCalls_pid _ w)] at hmark
    simp only [true_and]
    rw [← hmark]
    rcases s.markCommitted format (w.afterCalls (syncCalls options.commitSyncPolicy))
      with ⟨e | _, s', w'⟩
    · simp
    · simp

theorem Renamed.sealOutput_ok_iff {parse : Bytes → Except Status (Manifest P)} {content : Bytes}
    {options : CommitOptions} (h : Renamed format parse options.path content s w) :
    (sealOutput format options s w).1 = .ok () ↔
      w.CallsSucceed (syncCalls options.commitSyncPolicy + 4) ∧ s.ManifestWritable w :=
  h.serializable.sealOutput_ok_iff options (by rw [h.moved]; rfl) h.notDirectory

/-- The rename and everything after it succeed. -/
def PublishPasses (options : CommitOptions) (s : Session P) (w : World) : Prop :=
  w.CallsSucceed (1 + (syncCalls options.commitSyncPolicy + 4)) ∧
    (w.files s.manifest.tempPath).isSome ∧ w.isDirectory options.path = false ∧
    s.ManifestWritable w

theorem Session.Serializable.publish_ok_iff {options : CommitOptions}
    (h : s.Serializable format) :
    (publish format options s w).1 = .ok () ↔ PublishPasses options s w := by
  obtain ⟨hiff, hworld⟩ := @World.renamePath_ok_iff w s.manifest.tempPath options.path
  have hframe := w.renamePath_frame s.manifest.tempPath options.path
  rw [PublishPasses, World.callsSucceed_add, publish]
  rcases hresult : w.renamePath s.manifest.tempPath options.path with ⟨e | _, w₁⟩
  · rw [hresult] at hiff
    have hnot := mt hiff.mpr (by simp)
    constructor
    · intro h
      simp [Session.fail] at h
    · rintro ⟨⟨hfirst, -⟩, hfile, hdirectory, -⟩
      exact absurd ⟨hfirst, hfile, hdirectory⟩ hnot
  · rw [hresult] at hiff hworld hframe
    obtain ⟨hfirst, hfile, hdirectory⟩ := hiff.mp rfl
    obtain ⟨houtcomes, houtput⟩ := hworld rfl
    have hseal := h.sealOutput_ok_iff options houtput
      ((congrFun hframe.isDirectory _).trans hdirectory)
    rw [Session.ManifestWritable.congr (s := s) rfl hframe.isDirectory hframe.pid,
      World.CallsSucceed.congr houtcomes] at hseal
    show (sealOutput format options s w₁).1 = .ok () ↔ _
    rw [hseal]
    constructor
    · rintro ⟨hrest, hwritable⟩
      exact ⟨⟨hfirst, hrest⟩, hfile, hdirectory, hwritable⟩
    · rintro ⟨⟨-, hrest⟩, -, -, hwritable⟩
      exact ⟨hrest, hwritable⟩

end Publish

/-! ### The final verification -/

namespace Session

variable {P : Type}

/-- With a record less, a range is missing. -/
theorem Ok.missing_of_dropped {s s' : Session P} (h : s.Ok) (h' : s'.Ok)
    (hsize : s'.manifest.totalSize = s.manifest.totalSize)
    (hsub : s'.records.Sublist s.records) (hne : s'.records ≠ s.records) :
    s'.missingRanges ≠ [] := by
  -- a record that has gone
  obtain ⟨record, hmem, hgone⟩ : ∃ r ∈ s.records, r ∉ s'.records := by
    by_contra hall
    push Not at hall
    exact hne (hsub.eq_of_length_le (h.records.nodup.subperm hall).length_le)
  obtain ⟨hlength, hbound⟩ := h.records.bounded _ (List.mem_map_of_mem hmem)
  have hlength' : record.offset < record.offset + record.length := hlength
  have hbound' : record.offset + record.length ≤ s.manifest.totalSize := hbound
  -- its first byte belongs to no other record
  have hmissing : record.offset ∈ covered s'.missingRanges := by
    refine (mem_missingRanges h').mpr ⟨by omega, fun hcovered => ?_⟩
    rw [h'.derived.covered_eq] at hcovered
    obtain ⟨range, hrange, hin⟩ := hcovered
    obtain ⟨other, hother, rfl⟩ := List.mem_map.mp hrange
    refine hgone ?_
    rw [h.records.owner_unique hmem (hsub.subset hother) ⟨le_rfl, hlength'⟩ hin]
    exact hother
  intro hnil
  rw [hnil] at hmissing
  obtain ⟨range, hrange, -⟩ := hmissing
  cases hrange

/-- May the final verification trust the checksums taken while receiving? -/
def trusted (options : CommitOptions) (totalSize : Nat) (s : Session P) : Bool :=
  canUseCurrentSessionVerifiedChunksFinalVerify options.finalVerifyPolicy
    options.checksumAlgorithm totalSize s.bytesCompleted false s.stats.loadedVerifiedChunks
    s.stats.removedCorruptChunks

/-- The final verification passes: the manifest is flushed, or every record is
intact. -/
def VerifyPasses (options : CommitOptions) (totalSize : Nat) (s : Session P) (w : World) : Prop :=
  if s.trusted options totalSize then w.CallsSucceed 4 ∧ s.ManifestWritable w
  else s.manifest.checksumAlgorithm = .none ∨
    intactRecords s.checksumBackend s.manifest.tempPath s.records w = s.records

/-- The world after a final verification, as far as the calls to come go. -/
def afterVerify (options : CommitOptions) (totalSize : Nat) (s : Session P) (w : World) : World :=
  if s.trusted options totalSize then w.afterCalls 4
  else if s.manifest.checksumAlgorithm = .none then w
  else afterReading s.checksumBackend s.manifest.tempPath s.records w

variable {format : SessionFormat P}

@[simp] theorem save_missingRanges (s : Session P) (w : World) :
    (s.save format w).2.1.missingRanges = s.missingRanges := by
  obtain ⟨dirty, stats, h⟩ := s.save_session format w
  rw [h]
  rfl

/-- **When `verifyTempChunks` finds nothing wrong** with a session in which
nothing is missing: when every record is intact. -/
theorem Ok.verifyTempChunks_passes (format : SessionFormat P) {s : Session P} (h : s.Ok)
    (hmissing : s.missingRanges = []) (w : World) :
    ((s.verifyTempChunks format s.manifest.tempPath w).1 = .ok () ∧
      (s.verifyTempChunks format s.manifest.tempPath w).2.1.missingRanges = [] ↔
      s.manifest.checksumAlgorithm = .none ∨
        intactRecords s.checksumBackend s.manifest.tempPath s.records w = s.records) ∧
    ((s.verifyTempChunks format s.manifest.tempPath w).1 = .ok () →
      (s.verifyTempChunks format s.manifest.tempPath w).2.1.missingRanges = [] →
      (s.verifyTempChunks format s.manifest.tempPath w).2.2 =
        if s.manifest.checksumAlgorithm = .none then w
        else afterReading s.checksumBackend s.manifest.tempPath s.records w) := by
  by_cases hguard : s.manifest.checksumAlgorithm = .none ∨ s.manifest.verifiedChunks = []
  · -- there is nothing to check
    have hkept : (if format.refreshesStats then s.refreshStats else s).missingRanges = [] := by
      cases format.refreshesStats with
      | true => exact hmissing
      | false => exact hmissing
    have hintact : s.manifest.checksumAlgorithm = .none ∨
        intactRecords s.checksumBackend s.manifest.tempPath s.records w = s.records :=
      hguard.imp_right fun hnil => by rw [Session.records, hnil]; rfl
    rw [verifyTempChunks]
    simp only [if_pos hguard, hkept, hintact, true_and, forall_const]
    rcases hguard with hnone | hnil
    · rw [if_pos hnone]
    · rw [Session.records, hnil]
      split
      · rfl
      · rfl
  · obtain ⟨halgorithm, -⟩ := not_or.mp hguard
    obtain ⟨v, hloop, hcount⟩ := @verifyLoop_ok s.checksumBackend s.manifest.tempPath
      s.manifest.totalSize s.records ⟨[], .empty, 0⟩ w rfl h.records
    have hkept : v.kept = intactRecords s.checksumBackend s.manifest.tempPath s.records w := by
      have hkept := @verifyLoop_kept s.checksumBackend s.manifest.tempPath s.manifest.totalSize
        s.records ⟨[], .empty, 0⟩ w rfl h.records
      rw [hloop] at hkept
      exact hkept
    obtain ⟨hsub, hinsert⟩ := @verifyLoop_kept_sublist P s s.manifest.tempPath w v (by rw [hloop])
    have hvalue : s.verifyTempChunks format s.manifest.tempPath w =
        if v.removed = 0 then (.ok (), s.refreshStats,
          afterReading s.checksumBackend s.manifest.tempPath s.records w)
        else ((s.countRemoved v.removed).replaceRecords v).save format
          (afterReading s.checksumBackend s.manifest.tempPath s.records w) := by
      rw [verifyTempChunks, if_neg hguard, show s.manifest.verifiedChunks = s.records from rfl,
        hloop]
    rw [hvalue]
    simp only [halgorithm, if_false, false_or, ← hkept]
    simp only [List.length_nil, Nat.zero_add] at hcount
    by_cases hremoved : v.removed = 0
    · have hall : v.kept = s.records := hsub.eq_of_length (by omega)
      simp only [if_pos hremoved, hall, iff_true, implies_true, and_true, true_and]
      exact hmissing
    · -- something was removed, and is missing now
      have hne : v.kept ≠ s.records := fun heq => by
        rw [heq] at hcount
        omega
      have hdropped : (((s.countRemoved v.removed).replaceRecords v).save format
          (afterReading s.checksumBackend s.manifest.tempPath s.records w)).2.1.missingRanges ≠
          [] := by
        rw [save_missingRanges]
        exact h.missing_of_dropped (.of_insertAll hinsert) rfl hsub hne
      simp only [if_neg hremoved, hne, iff_false, not_and]
      exact ⟨fun _ hnil => hdropped hnil, fun _ hnil => absurd hnil hdropped⟩

end Session

section Verify

variable {P : Type} {format : SessionFormat P} {s : Session P}

/-- **When the final verification passes.** -/
theorem Session.Ok.finalVerify_ok_iff (h : s.Ok) (hserializable : s.Serializable format)
    (hmissing : s.missingRanges = []) (options : CommitOptions) (missing : Bytes)
    (totalSize : Nat) (w : World) :
    ((finalVerify format options missing totalSize s w).1 = .ok () ↔
      s.VerifyPasses options totalSize w) ∧
    ((finalVerify format options missing totalSize s w).1 = .ok () →
      (finalVerify format options missing totalSize s w).2.2.outcomes =
        (s.afterVerify options totalSize w).outcomes) := by
  by_cases htrusted : s.trusted options totalSize
  · have hsave := hserializable.save_ok_iff (w := w)
    rw [show finalVerify format options missing totalSize s w = _ from if_pos htrusted,
      Session.VerifyPasses, if_pos htrusted, Session.afterVerify, if_pos htrusted]
    rcases hresult : s.save format w with ⟨e | _, s', w'⟩
    · rw [hresult] at hsave
      rw [← hsave]
      simp [Session.fail]
    · rw [hresult] at hsave
      rw [← hsave]
      exact ⟨⟨fun _ => rfl, fun _ => rfl⟩, fun _ => Session.save_ok_outcomes hresult⟩
  · obtain ⟨hpasses, hworld⟩ := h.verifyTempChunks_passes format hmissing w
    rw [show finalVerify format options missing totalSize s w = _ from if_neg htrusted,
      Session.VerifyPasses, if_neg htrusted, Session.afterVerify, if_neg htrusted, ← hpasses]
    rcases hresult : s.verifyTempChunks format s.manifest.tempPath w with ⟨e | _, s', w'⟩
    · simp [Session.fail]
    · rw [hresult] at hworld
      by_cases hnil : s'.missingRanges = []
      · have hw' := hworld rfl hnil
        simp only at hw'
        simp [hnil, hw']
      · simp [hnil, Session.fail]

/-- What has been verified leaves nothing missing. -/
theorem finalVerify_missing {options : CommitOptions} {missing : Bytes} {totalSize : Nat}
    {s' : Session P} {w w' : World} (hmissing : s.missingRanges = [])
    (h : finalVerify format options missing totalSize s w = (.ok (), s', w')) :
    s'.missingRanges = [] := by
  rw [finalVerify] at h
  split at h
  · have hsave := @Session.save_missingRanges _ format s w
    rcases hresult : s.save format w with ⟨e | _, s₁, w₁⟩
    · simp [hresult, Session.fail] at h
    · rw [hresult] at hsave
      simp only [hresult, Prod.mk.injEq, true_and] at h
      rw [← h.1]
      exact hsave.trans hmissing
  · rcases hresult : s.verifyTempChunks format s.manifest.tempPath w
      with ⟨e | _, s₁, w₁⟩
    · simp [hresult, Session.fail] at h
    · simp only [hresult] at h
      split at h
      · simp [Session.fail] at h
      · rename_i hnil
        obtain ⟨-, rfl, -⟩ := Prod.mk.inj h
        exact not_not.mp hnil

end Verify

end GridFlux
