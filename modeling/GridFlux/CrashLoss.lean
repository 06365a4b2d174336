/-
GridFlux/CrashLoss.lean

What a crash of the process loses: the records that are in memory and not in
the manifest file.

A run is watched together with its manifest file and with the records that
stand: loaded at the opening or accepted by `recordVerifiedChunk`, and not
dropped by `verifyTempChunks` since.  `Ok.outcome` says what an operation does
to the file and to the counter of unsaved records; the counter bounds the loss
(`CrashOk`), and the flush policy bounds the counter (`bounded_loss`).
-/
import GridFlux.SessionDisk
import GridFlux.VerifiedChunks

namespace GridFlux

open Transition

/-! ### What an operation does to the file -/

namespace Session

variable {P : Type}

/-- How an operation on a sound session ends. -/
inductive Outcome (format : SessionFormat P) (op : SessionOp) (s : Session P) (w : World) :
    SessionResult P → Prop
  | refused (e : Status) : Outcome format op s w (.error e, s, w)
  | idle (stats : SessionStats) (w' : World) (hw : World.Frame ∅ w w') :
      Outcome format op s w (.ok (), { s with stats := stats }, w')
  | recorded (record : ChunkChecksumRecord) (completed : RangeList)
      (hop : op.record? = some record)
      (hnot : ¬(s.appendRecord format record completed).flushDue = true) :
      Outcome format op s w (.ok (), s.appendRecord format record completed, w)
  | saved (s₁ : Session P) (w₁ : World) (hchange : Change format op w s s₁)
      (hw : World.Frame ∅ w w₁) : Outcome format op s w (s₁.save format w₁)

variable {format : SessionFormat P} {s : Session P}

theorem recordVerifiedChunk_outcome {op : SessionOp} {chunkId offset length : Nat}
    {value : ChecksumValue} (hop : op.record? = some ⟨chunkId, offset, length, value⟩)
    (w : World) :
    Outcome format op s w (s.recordVerifiedChunk format chunkId offset length value w) := by
  rw [recordVerifiedChunk]
  split
  · exact .refused _
  · rename_i halg
    split
    · exact .refused _
    · cases hfind : s.manifest.verifiedChunks.find? (s.sameIdentity chunkId offset) with
      | some record =>
          simp only
          split
          · exact .idle s.stats w (World.Frame.refl w)
          · exact .refused _
      | none =>
          have hnew : ∀ r ∈ s.records, s.sameIdentity chunkId offset r = false := fun r hr =>
            Bool.eq_false_iff.mpr (List.find?_eq_none.mp hfind r hr)
          cases hinsert : s.completed.insert offset length s.manifest.totalSize with
          | error e => exact .refused e
          | ok completed =>
              simp only
              split
              · exact .saved _ w
                  (.append ⟨chunkId, offset, length, value⟩ completed hop (not_not.mp halg) hnew
                    hinsert) (World.Frame.refl w)
              · rename_i hnot
                exact .recorded ⟨chunkId, offset, length, value⟩ completed hop hnot

/-- **What an operation does**: it refuses, does nothing, appends a record that
need not be saved yet, or ends with a save. -/
theorem Ok.outcome (h : s.Ok) (format : SessionFormat P) (op : SessionOp) (w : World) :
    Outcome format op s w (op.run format s w) := by
  cases op with
  | recordVerifiedChunk chunkId offset length value => exact recordVerifiedChunk_outcome rfl w
  | recordCompletedRange offset length => exact recordVerifiedChunk_outcome rfl w
  | save => exact .saved s w .unchanged (World.Frame.refl w)
  | markFailed => exact .saved _ w (.state .failed) (World.Frame.refl w)
  | markCommitted => exact .saved _ w (.state .committed) (World.Frame.refl w)
  | verifyTempChunks path =>
      show Outcome _ _ _ _ (s.verifyTempChunks format path w)
      rcases h.verifyTempChunks_ends format path w with
        ⟨-, w', heq, hframe⟩ | ⟨-, v, w', hchange, hframe, -, heq⟩
      · rw [heq]
        rcases s.afterCheck_cases format with hcheck | hcheck
        · rw [hcheck]
          exact .idle s.stats w' hframe
        · rw [hcheck]
          exact .idle _ w' hframe
      · rw [heq]
        exact .saved _ w' hchange hframe

end Session

/-- A change makes no record but the one asked for. -/
theorem Change.records {P : Type} {format : SessionFormat P} {op : SessionOp} {w : World}
    {s s₁ : Session P} (h : Change format op w s s₁) :
    ∀ record ∈ s₁.records, record ∈ s.records ∨ op.record? = some record := by
  intro r hr
  cases h with
  | unchanged => exact Or.inl hr
  | state state => exact Or.inl hr
  | append record completed hop halg hnew hinsert =>
      rcases List.mem_append.mp hr with hr | hr
      · exact Or.inl hr
      · rw [List.mem_singleton.mp hr]
        exact Or.inr hop
  | drop tempPath v hop halg hloop hremoved =>
      exact Or.inl ((Session.verifyLoop_kept_sublist hloop).1.subset hr)

/-! ### Runs with their manifest file -/

/-- A save of the operation fails: it returns an error although it has changed
the session, which an operation that refuses its arguments does not. -/
def SessionOp.SaveFails {P : Type} (format : SessionFormat P) (op : SessionOp) (s : Session P)
    (w : World) : Prop :=
  (∃ e, (op.run format s w).1 = .error e) ∧ (op.run format s w).2.1 ≠ s

/-- In a run in which every save succeeds no operation's save fails. -/
theorem Session.Ok.not_saveFails {P : Type} {format : SessionFormat P} {s : Session P}
    (h : s.Ok) {op : SessionOp} {w : World}
    (hsaves : ∀ s₁ w₁, Change format op w s s₁ → World.Frame ∅ w w₁ →
      (s₁.save format w₁).1 = .ok ()) : ¬op.SaveFails format s w := by
  rintro ⟨⟨e, herror⟩, hne⟩
  have houtcome := h.outcome format op w
  generalize op.run format s w = result at houtcome herror hne
  cases houtcome with
  | refused e => exact hne rfl
  | idle stats w' hw => cases herror
  | recorded record completed hop hnot => cases herror
  | saved s₁ w₁ hchange hw =>
      rw [hsaves s₁ w₁ hchange hw] at herror
      cases herror

/-- A session, the world its last operation has left, and the records that
stand. -/
structure Crash (P : Type) where
  session : Session P
  world : World
  standing : Set ChunkChecksumRecord

namespace Crash

variable {P : Type}

/-- A record stands once the operation that asks for it succeeds, until an
operation drops it. -/
def after (format : SessionFormat P) (c : Crash P) (op : SessionOp) (w : World) : Crash P where
  session := (op.run format c.session w).2.1
  world := (op.run format c.session w).2.2
  standing := {record |
    (record ∈ c.standing ∨
      (op.record? = some record ∧ (op.run format c.session w).1 = .ok ())) ∧
    ¬(record ∈ c.session.records ∧ record ∉ (op.run format c.session w).2.1.records)}

end Crash

/-- The runs of a session in which no save fails, from a session and a world in
`initial`.  Between two operations anything may happen to other files, to the
clock and to the fate of the calls to come; the manifest file is left alone. -/
def crashSystem {P : Type} (format : SessionFormat P) (initial : Session P → World → Prop) :
    System (Crash P) (SessionOp × World) where
  initial c := initial c.session c.world ∧ c.standing = {record | record ∈ c.session.records}
  step l c c' :=
    l.2.files c.session.manifestPath = c.world.files c.session.manifestPath ∧
    ¬l.1.SaveFails format c.session l.2 ∧ c' = c.after format l.1 l.2

/-- **The loss is bounded**: the manifest file holds records of the session
only, of those all but fewer than `interval`, and only records that stand. -/
def BoundedLoss {P : Type} (parse : Bytes → Except Status (Manifest P)) (interval : Nat)
    (c : Crash P) : Prop :=
  OnDisk parse c.world c.session.manifestPath fun manifest =>
    manifest.verifiedChunks ⊆ c.session.records ∧
    (c.session.records.filter fun record => record ∉ manifest.verifiedChunks).length < interval ∧
    ∀ record ∈ manifest.verifiedChunks, record ∈ c.standing

/-! ### The invariant -/

/-- The file holds all records but those counted as unsaved, which are fewer
than the policy allows. -/
structure CrashOk {P : Type} (format : SessionFormat P)
    (parse : Bytes → Except Status (Manifest P)) (hardware : Bool) (request : SessionRequest P)
    (c : Crash P) : Prop where
  sound : c.session.Sound format hardware request
  disk : OnDisk parse c.world c.session.manifestPath fun manifest =>
    manifest.verifiedChunks ⊆ c.session.records ∧
    (c.session.records.filter fun record => record ∉ manifest.verifiedChunks).length ≤
      c.session.dirtyVerifiedChunks
  dirty : c.session.dirtyVerifiedChunks < request.manifestFlushIntervalChunks.toNat
  standing : ∀ record ∈ c.session.records, record ∈ c.standing

namespace CrashOk

variable {P : Type} {format : SessionFormat P} {parse : Bytes → Except Status (Manifest P)}
  {hardware : Bool} {request : SessionRequest P} {c : Crash P}

theorem boundedLoss (h : CrashOk format parse hardware request c) :
    BoundedLoss parse request.manifestFlushIntervalChunks.toNat c := by
  obtain ⟨text, manifest, htext, hparse, hsub, hcount⟩ := h.disk
  exact ⟨text, manifest, htext, hparse, hsub, hcount.trans_lt h.dirty,
    fun record hrecord => h.standing record (hsub hrecord)⟩

/-- What the session keeps, or gets by an operation that succeeds, stands. -/
theorem standing_after (h : CrashOk format parse hardware request c) {op : SessionOp} {w : World}
    (hrecords : ∀ record ∈ (op.run format c.session w).2.1.records,
      record ∈ c.session.records ∨
        (op.record? = some record ∧ (op.run format c.session w).1 = .ok ())) :
    ∀ record ∈ (c.after format op w).session.records,
      record ∈ (c.after format op w).standing :=
  fun record hrecord =>
    ⟨(hrecords record hrecord).imp_left (h.standing record), fun hdropped => hdropped.2 hrecord⟩

/-- A manifest with the same records lacks none. -/
theorem unsaved_of_perm {records saved : List ChunkChecksumRecord} (h : saved.Perm records) :
    saved ⊆ records ∧ (records.filter fun record => record ∉ saved).length = 0 := by
  refine ⟨h.subset, List.length_eq_zero_iff.mpr (List.filter_eq_nil_iff.mpr ?_)⟩
  intro record hrecord hnot
  exact of_decide_eq_true hnot (h.mem_iff.mpr hrecord)

/-- **The step lemma.** -/
theorem step (hread : ReadsBack format parse)
    (hpolicy : request.manifestFlushPolicy = .everyNChunks)
    (h : CrashOk format parse hardware request c) {op : SessionOp} {w : World}
    (hfile : w.files c.session.manifestPath = c.world.files c.session.manifestPath)
    (hsave : ¬op.SaveFails format c.session w) :
    CrashOk format parse hardware request (c.after format op w) := by
  have hsound := h.sound.run op w
  have hinterval : 0 < request.manifestFlushIntervalChunks.toNat :=
    (Nat.zero_le _).trans_lt h.dirty
  have hdisk := h.disk.congr hfile
  have houtcome := h.sound.ok.outcome format op w
  have hstanding : (∀ record ∈ (op.run format c.session w).2.1.records,
      record ∈ c.session.records ∨
        (op.record? = some record ∧ (op.run format c.session w).1 = .ok ())) →
      ∀ record ∈ (c.after format op w).session.records,
        record ∈ (c.after format op w).standing := h.standing_after
  rw [SessionOp.SaveFails] at hsave
  rw [Crash.after] at hstanding ⊢
  generalize op.run format c.session w = result at houtcome hsound hstanding hsave ⊢
  cases houtcome with
  | refused e => exact ⟨hsound, hdisk, h.dirty, hstanding fun _ hr => Or.inl hr⟩
  | idle stats w' hw =>
      refine ⟨hsound, ?_, h.dirty, hstanding fun _ hr => Or.inl hr⟩
      exact hdisk.congr (hw.files _ (Set.notMem_empty _))
  | recorded record completed hop hnot =>
      refine ⟨hsound, ?_, ?_, hstanding ?_⟩
      · -- the new record is the only one more that is not saved
        obtain ⟨text, manifest, htext, hparse, hsub, hcount⟩ := hdisk
        refine ⟨text, manifest, htext, hparse, List.Subset.trans hsub (List.subset_append_left _ _),
          ?_⟩
        show ((c.session.records ++ [record]).filter _).length ≤
          c.session.dirtyVerifiedChunks + 1
        rw [List.filter_append, List.length_append]
        exact Nat.add_le_add hcount (List.length_filter_le _ _)
      · apply lt_of_not_ge
        intro hge
        refine hnot (decide_eq_true ⟨h.sound.opened.flushPolicy.trans hpolicy, ?_⟩)
        rw [← h.sound.opened.flushInterval] at hge
        exact hge
      · intro r hr
        rcases List.mem_append.mp hr with hr | hr
        · exact Or.inl hr
        · rw [List.mem_singleton.mp hr]
          exact Or.inr ⟨hop, rfl⟩
  | saved s₁ w₁ hchange hw =>
      rcases hresult : s₁.save format w₁ with ⟨e | u, s', w'⟩
      · -- no save fails, so this one has not changed anything
        rw [hresult] at hsave hstanding hsound
        obtain rfl : s' = c.session :=
          of_not_not fun hne => hsave ⟨⟨e, rfl⟩, hne⟩
        refine ⟨hsound, hdisk.congr ?_, h.dirty, hstanding fun _ hr => Or.inl hr⟩
        exact (Session.save_error hresult).2.trans (hw.files _ (Set.notMem_empty _))
      · rw [hresult] at hstanding hsound
        obtain ⟨text, manifest, htext, hparse, rfl⟩ :=
          (h.sound.change hchange).save_stored hread hresult
        obtain ⟨hsub, hnone⟩ := unsaved_of_perm s'.stored_perm
        have hperm : s'.records.Perm s₁.records := by
          have hsaved := Session.save_records_perm format s₁ w₁
          rwa [hresult] at hsaved
        obtain ⟨-, -, rfl, -⟩ := Session.save_ok hresult
        refine ⟨hsound, ⟨text, _, htext, hparse, hsub, hnone.le⟩, hinterval, hstanding fun r hr => ?_⟩
        exact (hchange.records r (hperm.mem_iff.mp hr)).imp_right fun hop => ⟨hop, rfl⟩

/-- **The run lemma.** -/
theorem of_reachable (hread : ReadsBack format parse)
    (hpolicy : request.manifestFlushPolicy = .everyNChunks)
    {initial : Session P → World → Prop}
    (hinitial : ∀ s w, initial s w → CrashOk format parse hardware request
      ⟨s, w, {record | record ∈ s.records}⟩)
    (hc : (crashSystem format initial).Reachable c) :
    CrashOk format parse hardware request c := by
  apply hc.invariant (I := CrashOk format parse hardware request)
  · rintro ⟨s, w, standing⟩ ⟨hopen, hstanding⟩
    obtain rfl : standing = {record | record ∈ s.records} := hstanding
    exact hinitial s w hopen
  · rintro ⟨op, w⟩ c _ - h ⟨hfile, hsave, rfl⟩
    exact h.step hread hpolicy hfile hsave

/-- A session just saved, with no record yet. -/
theorem of_firstSave (hread : ReadsBack format parse) {s s' : Session P} {w w' : World}
    {u : Unit} (hsound : s.Sound format hardware request)
    (hinterval : request.manifestFlushIntervalChunks ≠ 0)
    (hsave : s.save format w = (.ok u, s', w')) :
    CrashOk format parse hardware request ⟨s', w', {record | record ∈ s'.records}⟩ := by
  obtain ⟨text, manifest, htext, hparse, rfl⟩ := hsound.save_stored hread hsave
  obtain ⟨hsub, hnone⟩ := unsaved_of_perm s'.stored_perm
  have hsound' := (hsound.save_text hsave).1
  obtain ⟨-, -, rfl, -⟩ := Session.save_ok hsave
  refine ⟨hsound', ⟨text, _, htext, hparse, hsub, hnone.le⟩, ?_, fun _ hr => hr⟩
  exact Nat.pos_of_ne_zero fun hzero => hinterval (UInt64.toNat_inj.mp hzero)

/-- A session just resumed from a manifest with its records. -/
theorem of_loaded {s : Session P} {w : World} {text : Bytes} {manifest : Manifest P}
    (hsound : s.Sound format hardware request)
    (hinterval : request.manifestFlushIntervalChunks ≠ 0) (hdirty : s.dirtyVerifiedChunks = 0)
    (hfile : w.files s.manifestPath = some text) (hparse : parse text = .ok manifest)
    (hrecords : manifest.verifiedChunks = s.records) :
    CrashOk format parse hardware request ⟨s, w, {record | record ∈ s.records}⟩ := by
  obtain ⟨hsub, hnone⟩ := unsaved_of_perm (hrecords ▸ List.Perm.refl s.records :
    manifest.verifiedChunks.Perm s.records)
  refine ⟨hsound, ⟨text, manifest, hfile, hparse, hsub, ?_⟩, ?_, fun _ hr => hr⟩
  · exact hnone.le.trans (Nat.zero_le _)
  · show s.dirtyVerifiedChunks < _
    rw [hdirty]
    exact Nat.pos_of_ne_zero fun hzero => hinterval (UInt64.toNat_inj.mp hzero)

end CrashOk

/-! ### Both classes -/

/-- An upload's session at the start of a run: created and saved for the first
time, or resumed from a manifest of the current version. -/
inductive TransferSession.Starts (hardware : Bool) (request : SessionRequest TransferPaths) :
    TransferSession → World → Prop
  | created {w w₁ w₂ w' : World} {s s' : TransferSession}
      (hhardware : w.crc32cHardwareAvailable = hardware)
      (hcreate : createNew request w = (.ok s, w₁))
      (hsave : s.save transferSessionFormat w₂ = (.ok (), s', w')) : Starts hardware request s' w'
  | resumed {w w' : World} {s : TransferSession} {text : Bytes} {manifest : TransferManifest}
      (hhardware : w.crc32cHardwareAvailable = hardware)
      (hresume : resume request w = (.ok s, w'))
      (htext : w.files (manifestPathForOutput request.paths.outputPath) = some text)
      (hparse : parseTransferManifest text = .ok manifest)
      (hversion : manifest.version = kTransferManifestVersion) : Starts hardware request s w'

/-- The same for a download; its parser knows one version only. -/
inductive DownloadSession.Starts (hardware : Bool) (request : SessionRequest DownloadPaths) :
    DownloadSession → World → Prop
  | created {w w₁ w₂ w' : World} {s s' : DownloadSession}
      (hhardware : w.crc32cHardwareAvailable = hardware)
      (hcreate : createNew request w = (.ok s, w₁))
      (hsave : s.save downloadSessionFormat w₂ = (.ok (), s', w')) : Starts hardware request s' w'
  | resumed {w w' : World} {s : DownloadSession}
      (hhardware : w.crc32cHardwareAvailable = hardware)
      (hresume : resume request w = (.ok s, w')) : Starts hardware request s w'

theorem TransferSession.Starts.crashOk {hardware : Bool} {request : SessionRequest TransferPaths}
    {s : TransferSession} {w : World} (h : Starts hardware request s w) :
    CrashOk transferSessionFormat parseTransferManifest hardware request
      ⟨s, w, {record | record ∈ s.records}⟩ := by
  have hinterval : validateSessionInputs request = .ok () →
      request.manifestFlushIntervalChunks ≠ 0 := by
    intro hvalid
    simp only [validateSessionInputs, bind_eq_ok, require_eq_ok] at hvalid
    obtain ⟨-, -, -, -, -, -, hinterval⟩ := hvalid
    exact hinterval
  cases h with
  | created hhardware hcreate hsave =>
      have hopens : Opens hardware request _ := ⟨_, _, hhardware, Or.inl hcreate⟩
      exact .of_firstSave transfer_readsBack hopens.sound.1 (hinterval hopens.valid) hsave
  | resumed hhardware hresume htext hparse hversion =>
      have hopens : Opens hardware request s := ⟨_, _, hhardware, Or.inr hresume⟩
      have hframe := resume_frame hresume
      obtain ⟨backend, now, text', manifest, manifest', completed, -, -, htext', hparse', haccept,
        rfl⟩ := resume_ok hresume
      obtain rfl := Option.some.inj (htext'.symm.trans htext)
      obtain rfl := Except.ok.inj (hparse'.symm.trans hparse)
      have hne : manifest.version ≠ kTransferManifestVersionV1 := by
        rw [hversion]
        decide
      refine .of_loaded hopens.sound.1 (hinterval hopens.valid) rfl
        ((hframe.files _ (Set.notMem_empty _)).trans htext) hparse ?_
      exact (accept_current hne haccept).1.symm

theorem DownloadSession.Starts.crashOk {hardware : Bool} {request : SessionRequest DownloadPaths}
    {s : DownloadSession} {w : World} (h : Starts hardware request s w) :
    CrashOk downloadSessionFormat parseDownloadManifest hardware request
      ⟨s, w, {record | record ∈ s.records}⟩ := by
  have hinterval : validateInputs request = .ok () →
      request.manifestFlushIntervalChunks ≠ 0 := by
    intro hvalid
    simp only [validateInputs, bind_eq_ok, require_eq_ok] at hvalid
    obtain ⟨-, -, -, -, -, -, -, -, hinterval⟩ := hvalid
    exact hinterval
  cases h with
  | created hhardware hcreate hsave =>
      have hopens : Opens hardware request _ := ⟨_, _, hhardware, Or.inl hcreate⟩
      exact .of_firstSave download_readsBack hopens.sound.1 (hinterval hopens.valid) hsave
  | resumed hhardware hresume =>
      have hopens : Opens hardware request s := ⟨_, _, hhardware, Or.inr hresume⟩
      have hframe := resume_frame hresume
      obtain ⟨backend, now, text, manifest, completed, -, -, htext, hparse, -, rfl⟩ :=
        resume_ok hresume
      exact .of_loaded hopens.sound.1 (hinterval hopens.valid) rfl
        ((hframe.files _ (Set.notMem_empty _)).trans htext) hparse rfl

/-- **Bounded loss on a crash.**  With flush policy every N chunks, and no save
failing: in every state of a run of either class the manifest file lists only
records that the session has, lacks fewer than N of them, and lists none that
`recordVerifiedChunk` has not accepted or `verifyTempChunks` has dropped. -/
theorem bounded_loss (hardware : Bool) :
    (∀ request c, request.manifestFlushPolicy = .everyNChunks →
      (crashSystem transferSessionFormat (TransferSession.Starts hardware request)).Reachable c →
      BoundedLoss parseTransferManifest request.manifestFlushIntervalChunks.toNat c) ∧
    (∀ request c, request.manifestFlushPolicy = .everyNChunks →
      (crashSystem downloadSessionFormat (DownloadSession.Starts hardware request)).Reachable c →
      BoundedLoss parseDownloadManifest request.manifestFlushIntervalChunks.toNat c) :=
  ⟨fun _ _ hpolicy h =>
      (CrashOk.of_reachable transfer_readsBack hpolicy (fun _ _ hs => hs.crashOk) h).boundedLoss,
    fun _ _ hpolicy h =>
      (CrashOk.of_reachable download_readsBack hpolicy (fun _ _ hs => hs.crashOk) h).boundedLoss⟩

/-! ### A record that is not saved yet -/

def flushEverySecond : SessionRequest TransferPaths :=
  { threeChunks with manifestFlushPolicy := .everyNChunks, manifestFlushIntervalChunks := 2 }

def flushEverySecondDownload : SessionRequest DownloadPaths :=
  { threeChunksDownload with
    manifestFlushPolicy := .everyNChunks, manifestFlushIntervalChunks := 2 }

/-- The state after the first save of a new session. -/
def firstSaved {P : Type} (format : SessionFormat P) (request : SessionRequest P) : Crash P :=
  let r := (Session.fresh format request .software 0 1).save format (.withFiles fun _ => none)
  ⟨r.2.1, r.2.2, {record | record ∈ r.2.1.records}⟩

theorem firstSaved_reachable :
    (crashSystem transferSessionFormat
        (TransferSession.Starts false flushEverySecond)).Reachable
      (firstSaved transferSessionFormat flushEverySecond) := by
  have hcreate : TransferSession.createNew flushEverySecond (.withFiles fun _ => none) =
      (.ok (Session.fresh transferSessionFormat flushEverySecond .software 0 1), _) := rfl
  have hsave : (Session.fresh transferSessionFormat flushEverySecond .software 0 1).save
      transferSessionFormat (.withFiles fun _ => none) = (.ok (),
        (firstSaved transferSessionFormat flushEverySecond).session,
        (firstSaved transferSessionFormat flushEverySecond).world) :=
    Prod.ext (by decide +kernel) rfl
  exact .initial ⟨.created rfl hcreate hsave, rfl⟩

theorem firstSavedDownload_reachable :
    (crashSystem downloadSessionFormat
        (DownloadSession.Starts false flushEverySecondDownload)).Reachable
      (firstSaved downloadSessionFormat flushEverySecondDownload) := by
  have hcreate : DownloadSession.createNew flushEverySecondDownload (.withFiles fun _ => none) =
      (.ok (Session.fresh downloadSessionFormat flushEverySecondDownload .software 0 1), _) := rfl
  have hsave : (Session.fresh downloadSessionFormat flushEverySecondDownload .software 0 1).save
      downloadSessionFormat (.withFiles fun _ => none) = (.ok (),
        (firstSaved downloadSessionFormat flushEverySecondDownload).session,
        (firstSaved downloadSessionFormat flushEverySecondDownload).world) :=
    Prod.ext (by decide +kernel) rfl
  exact .initial ⟨.created rfl hcreate hsave, rfl⟩

/-- One record is in memory and not in the file. -/
theorem bounded_loss_oneRecord :
    BoundedLoss parseTransferManifest 2
        ((firstSaved transferSessionFormat flushEverySecond).after transferSessionFormat
          (recordZero 0) (firstSaved transferSessionFormat flushEverySecond).world) ∧
      BoundedLoss parseDownloadManifest 2
        (firstSaved downloadSessionFormat flushEverySecondDownload) := by
  refine ⟨(bounded_loss false).1 flushEverySecond _ rfl ?_,
    (bounded_loss false).2 flushEverySecondDownload _ rfl firstSavedDownload_reachable⟩
  refine firstSaved_reachable.step (l := (recordZero 0, _)) ⟨rfl, ?_, rfl⟩
  rintro ⟨⟨e, herror⟩, -⟩
  have hok : ((recordZero 0).run transferSessionFormat
      (firstSaved transferSessionFormat flushEverySecond).session
      (firstSaved transferSessionFormat flushEverySecond).world).1 = .ok () := by
    decide +kernel
  rw [hok] at herror
  cases herror

end GridFlux
