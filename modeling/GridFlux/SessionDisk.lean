/-
GridFlux/SessionDisk.lean

A session and its manifest file.

* An operation touches two files, the manifest and its temporary file
  (`SessionOp.run_frame`).
* It leaves the manifest file as it was, or writes one that reads back as the
  session's own manifest (`Sound.writes`).  Which parser reads it back is a
  parameter, with `ReadsBack` as the round trip it has to meet; both manifest
  formats meet it.
-/
import GridFlux.SessionRuns

namespace GridFlux

open HalfOpen TextCodec

/-! ### Which files an operation touches -/

namespace Session

variable {P : Type} (format : SessionFormat P)

/-- The manifest and the temporary file through which it is written. -/
def diskFiles (s : Session P) (w : World) : Set Path :=
  {s.manifestPath, w.manifestTempPath s.manifestPath}

theorem save_frame (s : Session P) (w : World) :
    World.Frame (s.diskFiles w) w (s.save format w).2.2 := by
  have hclock := World.Frame.nowUnixNanos (s.diskFiles w) w
  cases hser : serializePreparedManifest format.toManifestFormat
      (s.prepareSave format w.nowUnixNanos.1).manifest with
  | error e =>
      simp only [save, hser]
      exact hclock
  | ok text =>
      have hsave : World.Frame (s.diskFiles w) w.nowUnixNanos.2 _ :=
        World.saveAtomic_frame w.nowUnixNanos.2 format.saveTexts
          (s.prepareSave format w.nowUnixNanos.1).manifestPath text
      rcases h : w.nowUnixNanos.2.saveAtomic format.saveTexts
          (s.prepareSave format w.nowUnixNanos.1).manifestPath text with ⟨e | _, w'⟩
      · rw [h] at hsave
        simp only [save, hser, h]
        exact hclock.trans hsave
      · rw [h] at hsave
        simp only [save, hser, h]
        exact hclock.trans hsave

variable {format}

theorem Ends.frame {w : World} {s₁ : Session P} {r : SessionResult P}
    (h : Ends format w s₁ r) : World.Frame (s₁.diskFiles w) w r.2.2 := by
  cases h with
  | kept status stats w₁ hw => exact hw.mono (Set.empty_subset _)
  | saved w₁ hw =>
      have hsave := s₁.save_frame format w₁
      rw [diskFiles, World.manifestTempPath, hw.pid] at hsave
      exact (hw.mono (Set.empty_subset _)).trans hsave

end Session

theorem Change.manifestPath {P : Type} {format : SessionFormat P} {op : SessionOp} {w : World}
    {s s₁ : Session P} (h : Change format op w s s₁) : s₁.manifestPath = s.manifestPath := by
  cases h with
  | unchanged => rfl
  | state state => rfl
  | append record completed hop halg hnew hinsert => rfl
  | drop tempPath v hop halg hloop hremoved => rfl

/-- **An operation touches the manifest and its temporary file only.** -/
theorem SessionOp.run_frame {P : Type} (format : SessionFormat P) (op : SessionOp)
    (s : Session P) (w : World) :
    World.Frame (s.diskFiles w) w (op.run format s w).2.2 := by
  obtain ⟨s₁, hchange, hends⟩ := op.run_cases format s w
  have h := hends.frame
  rwa [Session.diskFiles, hchange.manifestPath] at h

/-! ### The state name -/

namespace Session

variable {P : Type} (format : SessionFormat P)

@[simp] theorem save_state (s : Session P) (w : World) :
    (s.save format w).2.1.manifest.state = s.manifest.state := by
  obtain ⟨dirty, stats, h⟩ := s.save_session format w
  rw [h]
  rfl

@[simp] theorem markFailed_state (s : Session P) (w : World) :
    (s.markFailed format w).2.1.manifest.state = .failed :=
  save_state format _ w

@[simp] theorem markCommitted_state (s : Session P) (w : World) :
    (s.markCommitted format w).2.1.manifest.state = .committed :=
  save_state format _ w

theorem verifyTempChunks_state (s : Session P) (tempPath : Path) (w : World)
    (h : s.manifest.state ≠ .committed) :
    (s.verifyTempChunks format tempPath w).2.1.manifest.state ≠ .committed := by
  rw [verifyTempChunks]
  split
  · cases format.refreshesStats with
    | true => exact h
    | false => exact h
  · rcases verifyLoop s.checksumBackend tempPath s.manifest.totalSize s.manifest.verifiedChunks
      ⟨[], .empty, 0⟩ w with ⟨e | _, v, w'⟩
    · exact h
    · show (if v.removed = 0 then _ else _ : SessionResult P).2.1.manifest.state ≠ _
      split
      · exact h
      · rw [save_state]
        intro heq
        cases heq

end Session

/-! ### Reading the manifest file back -/

/-- Parsing inverts serializing, up to the order of the records. -/
def ReadsBack {P : Type} (format : SessionFormat P)
    (parse : Bytes → Except Status (Manifest P)) : Prop :=
  ∀ manifest : Manifest P, checkSerializable format.toManifestFormat manifest = .ok () →
    manifest.Fits → ManifestOk manifest manifest.completedRanges →
    parse (withBodyChecksum
        (buildManifestBody format.toManifestFormat manifest manifest.completedRanges)) =
      .ok { manifest with verifiedChunks := sortedRecords manifest.verifiedChunks }

theorem transfer_readsBack : ReadsBack transferSessionFormat parseTransferManifest := by
  intro manifest hcheck hfits hok
  obtain ⟨hversion, hid, ⟨hpaths, htemp⟩, hchunk⟩ := (checkSerializable_eq_ok _).mp hcheck
  exact parseTransferManifest_withBodyChecksum manifest manifest.completedRanges hversion hid
    ⟨fun hnil => hpaths (hnil ▸ List.mem_singleton_self _), htemp⟩ hchunk hfits hok

theorem download_readsBack : ReadsBack downloadSessionFormat parseDownloadManifest := by
  intro manifest hcheck hfits hok
  obtain ⟨hversion, hid, ⟨hpaths, htemp⟩, hchunk⟩ := (checkSerializable_eq_ok _).mp hcheck
  refine parseDownloadManifest_withBodyChecksum manifest manifest.completedRanges hversion hid
    ⟨fun hnil => hpaths ?_, fun hnil => hpaths ?_, htemp⟩ hchunk hfits hok
  · exact hnil ▸ List.mem_cons_self ..
  · exact hnil ▸ List.mem_cons_of_mem _ (List.mem_singleton_self _)

/-- The file holds a manifest with the property. -/
def OnDisk {P : Type} (parse : Bytes → Except Status (Manifest P)) (w : World) (path : Path)
    (Q : Manifest P → Prop) : Prop :=
  ∃ text manifest, w.files path = some text ∧ parse text = .ok manifest ∧ Q manifest

namespace OnDisk

variable {P : Type} {parse : Bytes → Except Status (Manifest P)} {path : Path}
  {Q Q' : Manifest P → Prop}

theorem congr {w w' : World} (h : OnDisk parse w path Q) (hfile : w'.files path = w.files path) :
    OnDisk parse w' path Q := by
  obtain ⟨text, manifest, htext, hrest⟩ := h
  exact ⟨text, manifest, hfile.trans htext, hrest⟩

/-- A file holds one manifest at most. -/
theorem unique {w : World} (h : OnDisk parse w path Q) (h' : OnDisk parse w path Q') :
    OnDisk parse w path fun manifest => Q manifest ∧ Q' manifest := by
  obtain ⟨text, manifest, htext, hparse, hq⟩ := h
  obtain ⟨text', manifest', htext', hparse', hq'⟩ := h'
  obtain rfl := Option.some.inj (htext.symm.trans htext')
  obtain rfl := Except.ok.inj (hparse.symm.trans hparse')
  exact ⟨text, manifest, htext, hparse, hq, hq'⟩

end OnDisk

namespace Session

variable {P : Type}

/-- The manifest of a session as its file holds it. -/
def stored (s : Session P) : Manifest P :=
  { s.manifest with verifiedChunks := sortedRecords s.manifest.verifiedChunks }

theorem stored_perm (s : Session P) : s.stored.verifiedChunks.Perm s.records :=
  sortedRecords_perm _

/-- A call that leaves the manifest file as it was, or writes the session's
manifest to it. -/
def WritesManifest (parse : Bytes → Except Status (Manifest P)) (w : World)
    (r : SessionResult P) : Prop :=
  r.2.2.files r.2.1.manifestPath = w.files r.2.1.manifestPath ∨
    OnDisk parse r.2.2 r.2.1.manifestPath fun manifest => manifest = r.2.1.stored

variable {format : SessionFormat P} {parse : Bytes → Except Status (Manifest P)}

/-- A successful save of a sound session reads back. -/
theorem Sound.save_stored (hread : ReadsBack format parse) {hardware : Bool}
    {request : SessionRequest P} {s s' : Session P} {w w' : World} {u : Unit}
    (h : s.Sound format hardware request) (hsave : s.save format w = (.ok u, s', w')) :
    OnDisk parse w' s'.manifestPath fun manifest => manifest = s'.stored := by
  obtain ⟨-, -, -, hfile, hcheck, hfits, hok⟩ := h.save_text hsave
  exact ⟨_, _, hfile, hread s'.manifest hcheck hfits hok, rfl⟩

/-- **What an operation does to the manifest file.** -/
theorem Sound.writes (hread : ReadsBack format parse) {hardware : Bool}
    {request : SessionRequest P} {s : Session P} (h : s.Sound format hardware request)
    (op : SessionOp) (w : World) : WritesManifest parse w (op.run format s w) := by
  obtain ⟨s₁, hchange, hends⟩ := op.run_cases format s w
  have hs₁ := h.change hchange
  generalize op.run format s w = r at hends
  cases hends with
  | kept status stats w₁ hw => exact Or.inl (hw.files _ (Set.notMem_empty _))
  | saved w₁ hw =>
      rcases hsave : s₁.save format w₁ with ⟨e | _, s', w'⟩
      · exact Or.inl ((save_error hsave).2.trans (hw.files _ (Set.notMem_empty _)))
      · exact Or.inr (hs₁.save_stored hread hsave)

/-- What holds of the manifest on disk and of the one in memory holds of the
one on disk after the operation. -/
theorem Sound.onDisk (hread : ReadsBack format parse) {hardware : Bool}
    {request : SessionRequest P} {s : Session P} (h : s.Sound format hardware request)
    (op : SessionOp) {w : World} {Q : Manifest P → Prop} (hdisk : OnDisk parse w s.manifestPath Q)
    (hmemory : Q (op.run format s w).2.1.stored) :
    OnDisk parse (op.run format s w).2.2 (op.run format s w).2.1.manifestPath Q := by
  have hpath : (op.run format s w).2.1.manifestPath = s.manifestPath :=
    (h.run op w).opened.manifestPath.trans h.opened.manifestPath.symm
  rcases h.writes hread op w with hsame | hwritten
  · rw [hpath] at hsame ⊢
    exact hdisk.congr hsame
  · obtain ⟨text, manifest, htext, hparse, rfl⟩ := hwritten
    exact ⟨text, _, htext, hparse, hmemory⟩

end Session

/-! ### Stretches of code -/

/-- What a stretch of code does that changes the session through its operations
only, and of the files it changes by itself only those in `S`. -/
inductive Session.Calls {P : Type} (format : SessionFormat P) (S : Set Path) :
    Session P → World → Session P → World → Prop
  | framed {s : Session P} {w w' : World} (h : World.Frame S w w') : Calls format S s w s w'
  | op {s : Session P} {w : World} (op : SessionOp) :
      Calls format S s w (op.run format s w).2.1 (op.run format s w).2.2
  | trans {s s₁ s' : Session P} {w w₁ w' : World} (h : Calls format S s w s₁ w₁)
      (h' : Calls format S s₁ w₁ s' w') : Calls format S s w s' w'

namespace Session.Calls

variable {P : Type} {format : SessionFormat P} {S T : Set Path} {s s' : Session P} {w w' : World}

theorem mono (h : Calls format S s w s' w') (hST : S ⊆ T) : Calls format T s w s' w' := by
  induction h with
  | framed h => exact .framed (h.mono hST)
  | op op => exact .op op
  | trans _ _ ih ih' => exact .trans ih ih'

/-- What every operation keeps is kept. -/
theorem kept (h : Calls format S s w s' w') {I : Session P → Prop}
    (hI : ∀ (s : Session P) (op : SessionOp) (w : World), I s → I (op.run format s w).2.1)
    (hs : I s) : I s' := by
  induction h with
  | framed _ => exact hs
  | op op => exact hI _ op _ hs
  | trans _ _ ih ih' => exact ih' (ih hs)

theorem sound (h : Calls format S s w s' w') {hardware : Bool} {request : SessionRequest P}
    (hs : s.Sound format hardware request) : s'.Sound format hardware request :=
  h.kept (fun _ op w hsound => hsound.run op w) hs

theorem run_manifestPath (op : SessionOp) (s : Session P) (w : World) :
    (op.run format s w).2.1.manifestPath = s.manifestPath := by
  obtain ⟨s₁, hchange, hends⟩ := op.run_cases format s w
  have hsettled := hends.settled format
  generalize (op.run format s w).2.1 = s' at hsettled
  rw [← hchange.manifestPath]
  cases hsettled with
  | kept stats => rfl
  | saved now hnow dirty stats => rfl

theorem manifestPath (h : Calls format S s w s' w') : s'.manifestPath = s.manifestPath := by
  induction h with
  | framed _ => rfl
  | op op => exact run_manifestPath op _ _
  | trans _ _ ih ih' => exact ih'.trans ih

theorem run_tempPath (op : SessionOp) (s : Session P) (w : World) :
    (op.run format s w).2.1.manifest.tempPath = s.manifest.tempPath := by
  obtain ⟨s₁, hchange, hends⟩ := op.run_cases format s w
  have hsettled := hends.settled format
  generalize (op.run format s w).2.1 = s' at hsettled
  have hs' : s'.manifest.tempPath = s₁.manifest.tempPath := by
    cases hsettled with
    | kept stats => rfl
    | saved now hnow dirty stats => rfl
  rw [hs']
  cases hchange with
  | unchanged => rfl
  | state state => rfl
  | append record completed hop halg hnew hinsert => rfl
  | drop tempPath v hop halg hloop hremoved => rfl

theorem tempPath (h : Calls format S s w s' w') :
    s'.manifest.tempPath = s.manifest.tempPath := by
  induction h with
  | framed _ => rfl
  | op op => exact run_tempPath op _ _
  | trans _ _ ih ih' => exact ih'.trans ih

theorem frame (h : Calls format S s w s' w') : World.Frame (S ∪ s.diskFiles w) w w' := by
  induction h with
  | framed h => exact h.mono Set.subset_union_left
  | op op => exact (op.run_frame format _ _).mono Set.subset_union_right
  | trans h _ ih ih' =>
      rw [diskFiles, World.manifestTempPath, h.manifestPath, ih.pid] at ih'
      exact ih.trans ih'

end Session.Calls

/-! ### What the manifest file may hold -/

/-- Any manifest in the file has the property. -/
def DiskSays {P : Type} (parse : Bytes → Except Status (Manifest P)) (w : World) (path : Path)
    (Q : Manifest P → Prop) : Prop :=
  ∀ text manifest, w.files path = some text → parse text = .ok manifest → Q manifest

theorem DiskSays.congr {P : Type} {parse : Bytes → Except Status (Manifest P)} {path : Path}
    {Q : Manifest P → Prop} {w w' : World} (h : DiskSays parse w path Q)
    (hfile : w'.files path = w.files path) : DiskSays parse w' path Q := by
  intro text manifest htext
  rw [hfile] at htext
  exact h text manifest htext

theorem DiskSays.mono {P : Type} {parse : Bytes → Except Status (Manifest P)} {path : Path}
    {Q Q' : Manifest P → Prop} {w : World} (h : DiskSays parse w path Q)
    (hQ : ∀ manifest, Q manifest → Q' manifest) : DiskSays parse w path Q' :=
  fun text manifest htext hparse => hQ manifest (h text manifest htext hparse)

/-- The manifest that a save of the session writes. -/
structure Session.Stores {P : Type} (format : SessionFormat P) (s : Session P)
    (manifest : Manifest P) : Prop where
  stored : manifest = s.stored
  version : ∃ version, manifest.version = format.saveVersion version

/-- An operation leaves the manifest file as it was, or writes the manifest of
the session it leaves. -/
theorem Session.Sound.run_stored {P : Type} {format : SessionFormat P}
    {parse : Bytes → Except Status (Manifest P)} (hread : ReadsBack format parse) {hardware : Bool}
    {request : SessionRequest P} {s : Session P} (h : s.Sound format hardware request)
    (op : SessionOp) (w : World) :
    (op.run format s w).2.2.files (format.manifestPathFor request.paths) =
        w.files (format.manifestPathFor request.paths) ∨
      OnDisk parse (op.run format s w).2.2 (format.manifestPathFor request.paths)
        ((op.run format s w).2.1.Stores format) := by
  obtain ⟨s₁, hchange, hends⟩ := op.run_cases format s w
  have hs₁ := h.change hchange
  generalize op.run format s w = r at hends
  cases hends with
  | kept status stats w₁ hw => exact Or.inl (hw.files _ (Set.notMem_empty _))
  | saved w₁ hw =>
      rw [← hs₁.opened.manifestPath]
      rcases hsave : s₁.save format w₁ with ⟨e | _, s', w'⟩
      · obtain ⟨rfl, hfile⟩ := Session.save_error hsave
        exact Or.inl (hfile.trans (hw.files _ (Set.notMem_empty _)))
      · obtain ⟨_, -, rfl, -⟩ := Session.save_ok hsave
        obtain ⟨text, _, htext, hparse, rfl⟩ := hs₁.save_stored hread hsave
        exact Or.inr ⟨text, _, htext, hparse, rfl, s₁.manifest.version, rfl⟩

theorem Session.Sound.run_diskSays {P : Type} {format : SessionFormat P}
    {parse : Bytes → Except Status (Manifest P)} (hread : ReadsBack format parse) {hardware : Bool}
    {request : SessionRequest P} {s : Session P} (h : s.Sound format hardware request)
    (op : SessionOp) {w : World} {Q : Manifest P → Prop}
    (hdisk : DiskSays parse w (format.manifestPathFor request.paths) Q)
    (hstored : ∀ manifest, (op.run format s w).2.1.Stores format manifest → Q manifest) :
    DiskSays parse (op.run format s w).2.2 (format.manifestPathFor request.paths) Q := by
  rcases h.run_stored hread op w with hsame | ⟨text, manifest, htext, hparse, hstores⟩
  · exact hdisk.congr hsame
  · intro text' manifest' htext' hparse'
    obtain rfl := Option.some.inj (htext.symm.trans htext')
    obtain rfl := Except.ok.inj (hparse.symm.trans hparse')
    exact hstored manifest hstores

/-- A stretch of code leaves the manifest file as it was, or with a manifest of
the session. -/
theorem Session.Calls.diskSays {P : Type} {format : SessionFormat P} {S : Set Path}
    {s s' : Session P} {w w' : World} (h : Calls format S s w s' w')
    {parse : Bytes → Except Status (Manifest P)} (hread : ReadsBack format parse)
    {hardware : Bool} {request : SessionRequest P} (hs : s.Sound format hardware request)
    (hS : format.manifestPathFor request.paths ∉ S) {Q : Manifest P → Prop}
    (hdisk : DiskSays parse w (format.manifestPathFor request.paths) Q)
    (hstored : ∀ (s₁ : Session P) (manifest : Manifest P), s₁.Sound format hardware request →
      s₁.Stores format manifest → Q manifest) :
    DiskSays parse w' (format.manifestPathFor request.paths) Q := by
  induction h with
  | framed h => exact hdisk.congr (h.files _ hS)
  | op op =>
      exact hs.run_diskSays hread op hdisk fun manifest => hstored _ manifest (hs.run op _)
  | trans h _ ih ih' => exact ih' (h.sound hs) (ih hs hdisk)

/-! ### Stretches that record nothing -/

/-- `Session.Calls` without an operation that asks for a record. -/
inductive Session.QuietCalls {P : Type} (format : SessionFormat P) (S : Set Path) :
    Session P → World → Session P → World → Prop
  | framed {s : Session P} {w w' : World} (h : World.Frame S w w') : QuietCalls format S s w s w'
  | op {s : Session P} {w : World} (op : SessionOp) (h : op.record? = none) :
      QuietCalls format S s w (op.run format s w).2.1 (op.run format s w).2.2
  | trans {s s₁ s' : Session P} {w w₁ w' : World} (h : QuietCalls format S s w s₁ w₁)
      (h' : QuietCalls format S s₁ w₁ s' w') : QuietCalls format S s w s' w'

namespace Session.QuietCalls

variable {P : Type} {format : SessionFormat P} {S T : Set Path} {s s' : Session P} {w w' : World}

theorem calls (h : QuietCalls format S s w s' w') : Calls format S s w s' w' := by
  induction h with
  | framed h => exact .framed h
  | op op h => exact .op op
  | trans _ _ ih ih' => exact ih.trans ih'

theorem mono (h : QuietCalls format S s w s' w') (hST : S ⊆ T) :
    QuietCalls format T s w s' w' := by
  induction h with
  | framed h => exact .framed (h.mono hST)
  | op op h => exact .op op h
  | trans _ _ ih ih' => exact .trans ih ih'

theorem run_records_subset {op : SessionOp} (h : op.record? = none) (s : Session P) (w : World) :
    (op.run format s w).2.1.records ⊆ s.records := by
  obtain ⟨s₁, hchange, hends⟩ := op.run_cases format s w
  have hsettled := hends.settled format
  generalize (op.run format s w).2.1 = s' at hsettled
  have hchanged : s₁.records ⊆ s.records := by
    cases hchange with
    | unchanged => exact List.Subset.refl _
    | state state => exact List.Subset.refl _
    | append record completed hop halg hnew hinsert =>
        rw [h] at hop
        cases hop
    | drop tempPath v hop halg hloop hremoved =>
        exact (Session.verifyLoop_kept_sublist hloop).1.subset
  cases hsettled with
  | kept stats => exact hchanged
  | saved now hnow dirty stats =>
      exact fun r hr => hchanged ((s₁.prepareSave_records_perm format now).mem_iff.mp hr)

theorem records_subset (h : QuietCalls format S s w s' w') : s'.records ⊆ s.records := by
  induction h with
  | framed _ => exact List.Subset.refl _
  | op op h => exact run_records_subset h _ _
  | trans _ _ ih ih' => exact List.Subset.trans ih' ih

/-- **What the manifest file may hold afterwards**: what it held before, or
something with some of the records there were. -/
theorem diskSays {parse : Bytes → Except Status (Manifest P)} (hread : ReadsBack format parse)
    {hardware : Bool} {request : SessionRequest P} (h : QuietCalls format S s w s' w')
    (hs : s.Sound format hardware request) (hS : format.manifestPathFor request.paths ∉ S)
    {Q : Manifest P → Prop} (hdisk : DiskSays parse w (format.manifestPathFor request.paths) Q)
    (hstored : ∀ (s₁ : Session P) (manifest : Manifest P), s₁.Sound format hardware request →
      s₁.records ⊆ s.records → s₁.Stores format manifest → Q manifest) :
    DiskSays parse w' (format.manifestPathFor request.paths) Q := by
  induction h with
  | framed h => exact hdisk.congr (h.files _ hS)
  | op op h =>
      exact hs.run_diskSays hread op hdisk fun manifest =>
        hstored _ manifest (hs.run op _) (run_records_subset h _ _)
  | trans h _ ih ih' =>
      refine ih' (h.calls.sound hs) (ih hs hdisk hstored) fun s₁ manifest hs₁ hsub => ?_
      exact hstored s₁ manifest hs₁ (List.Subset.trans hsub h.records_subset)

end Session.QuietCalls

/-! ### The files of one transfer -/

/-- The files of one transfer are different files. -/
structure FilesApart (w : World) (output temp manifest : Path) : Prop where
  output_temp : output ≠ temp
  output_manifest : output ≠ manifest
  output_manifestTemp : output ≠ w.manifestTempPath manifest
  temp_manifest : temp ≠ manifest
  temp_manifestTemp : temp ≠ w.manifestTempPath manifest

/-- Names made of the output's by appending something with different first
letters after the dot. -/
theorem filesApart_of_append (w : World) {output temp manifest rest : Bytes} {c : UInt8}
    (htemp : temp = output ++ ascii ".part." ++ rest)
    (hmanifest : ∃ more, manifest = output ++ (46 :: c :: more)) (hc : c ≠ 112) :
    FilesApart w output temp manifest := by
  obtain ⟨more, rfl⟩ := hmanifest
  subst htemp
  have hdot : ascii ".part." = [46, 112, 97, 114, 116, 46] := by decide
  rw [hdot, List.append_assoc]
  have hself : ∀ {tail : Bytes}, tail ≠ [] → output ≠ output ++ tail := fun htail h =>
    htail (List.append_cancel_left (h.symm.trans (List.append_nil output).symm))
  refine ⟨hself (by simp), hself (by simp), ?_, ?_, ?_⟩
  · rw [World.manifestTempPath, List.append_assoc, List.append_assoc]
    exact hself (by simp)
  · intro h
    have htail := List.append_cancel_left h
    simp only [List.cons_append, List.cons.injEq, true_and] at htail
    exact hc htail.1.symm
  · rw [World.manifestTempPath, List.append_assoc, List.append_assoc]
    intro h
    have htail := List.append_cancel_left h
    simp only [List.cons_append, List.cons.injEq, true_and] at htail
    exact hc htail.1.symm

theorem transfer_filesApart (w : World) (outputPath transferId : Bytes) :
    FilesApart w outputPath (tempPathForOutput outputPath transferId)
      (manifestPathForOutput outputPath) :=
  filesApart_of_append w rfl ⟨_, congrArg (outputPath ++ ·)
    (show ascii ".gridflux.manifest" = 46 :: 103 :: (ascii "ridflux.manifest") by decide)⟩
    (by decide)

theorem download_filesApart (w : World) (targetPath transferId : Bytes) :
    FilesApart w targetPath (downloadTempPathForOutput targetPath transferId)
      (downloadManifestPathForOutput targetPath) :=
  filesApart_of_append w rfl ⟨_, congrArg (targetPath ++ ·)
    (show ascii ".gridflux.download.manifest" = 46 :: 103 :: (ascii "ridflux.download.manifest")
      by decide)⟩ (by decide)

end GridFlux
