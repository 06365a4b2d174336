/-
GridFlux/TreePhases.lean

The order in which a worker of the tree client goes through one file, and what a
run of the scheduler can therefore do to the records.

A job reads its record once (`Job.InOrder`).  If the record is completed, the
worker starts nothing and the record can only become `Changed`; if it is not,
it becomes completed only after a transfer was started and the server has
acknowledged it.  As a worker changes no record but its own, this carries over to
all interleavings (`scheduler_order`).
-/
import GridFlux.TreeScheduler
import GridFlux.UploadPreflight

namespace GridFlux

open Transition

/-! ### The phases of a job -/

/-- How far a worker is with its file. -/
inductive FilePhase
  | unread
  | completed
  | unfinished
  | started
  | acknowledged
deriving DecidableEq

/-- Which status the record may get in a phase. -/
def FilePhase.Permits : FilePhase → TreeFileStatus → Prop
  | .unread, _ => False
  | .completed, status => status = .changed
  | .unfinished, status => status ≠ .completed
  | .started, status => status ≠ .completed
  | .acknowledged, _ => True

/-- Which calls may come in a phase. -/
def Call.Allowed (index : Nat) (phase : FilePhase) {β : Type} (c : Call β) : Prop :=
  match c with
  | .readRecord i => i = index ∧ phase = .unread
  | .updateRecord i status _ => i = index ∧ phase.Permits status
  | .updateRecordForTransfer i _ => i = index ∧ phase = .started
  | .startTransfer _ _ => phase = .unfinished
  | .waitTransferComplete => phase = .started
  | _ => True

def Call.filePhaseAfter {β : Type} (c : Call β) (answer : β) (phase : FilePhase) : FilePhase :=
  match c with
  | .readRecord _ => if answer.status = .completed then .completed else .unfinished
  | .startTransfer _ _ => .started
  | .waitTransferComplete =>
      match answer with
      | .ok _ => .acknowledged
      | .error _ => phase
  | _ => phase

/-- Every call of the job comes in a phase that allows it, whatever the calls
before it have answered. -/
def Job.InOrder (index : Nat) : FilePhase → Job → Prop
  | _, .finished _ => True
  | phase, .call c next =>
      c.Allowed index phase ∧
        ∀ answer, InOrder index (c.filePhaseAfter answer phase) (next answer)

section InOrder

open Job

variable {index : Nat} {phase : FilePhase}

theorem markChanged_inOrder (message : Bytes) (hpermits : phase.Permits .changed) :
    (markChanged index message).InOrder index phase :=
  ⟨⟨rfl, hpermits⟩, fun _ => ⟨trivial, fun _ => trivial⟩⟩

theorem orFail_inOrder {β : Type} {c : Call (Except Status β)} {next : β → Job}
    (hallowed : c.Allowed index phase)
    (hnext : ∀ answer, (next answer).InOrder index (c.filePhaseAfter (.ok answer) phase)) :
    (orFail c next).InOrder index phase := by
  refine ⟨hallowed, fun answer => ?_⟩
  cases answer with
  | error e => exact trivial
  | ok answer => exact hnext answer

theorem orMarkFailed_inOrder {β : Type} {c : Call (Except Status β)} {next : β → Job}
    (hallowed : c.Allowed index phase)
    (hfailed : ∀ e, (c.filePhaseAfter (.error e) phase).Permits .failed)
    (hnext : ∀ answer, (next answer).InOrder index (c.filePhaseAfter (.ok answer) phase)) :
    (orMarkFailed index c next).InOrder index phase := by
  refine ⟨hallowed, fun answer => ?_⟩
  cases answer with
  | error e => exact ⟨⟨rfl, hfailed e⟩, fun _ => trivial⟩
  | ok answer => exact hnext answer

theorem completeRecord_inOrder (record : TreeFileRecord) :
    (completeRecord index record).InOrder index .acknowledged :=
  orFail_inOrder ⟨rfl, trivial⟩ fun _ => ⟨trivial, fun _ => trivial⟩

theorem startFile_inOrder {record : TreeFileRecord} {verb : TreeVerb} {remotePath : Bytes}
    {resumeFile : Bool} {next : Bytes → Job}
    (hnext : ∀ transferId, (next transferId).InOrder index .started) :
    (startFile index record verb remotePath resumeFile next).InOrder index .unfinished := by
  refine orMarkFailed_inOrder rfl (fun _ h => ?_) fun transferId => ?_
  · cases h
  · exact orFail_inOrder ⟨rfl, rfl⟩ fun _ => hnext _

theorem beginTransfer_inOrder {options : TreeTransferOptions} {record : TreeFileRecord}
    {verb : TreeVerb} {remotePath : Bytes} {next : Nat → Bytes → Bool → Job}
    (hnext : ∀ port transferId resume, (next port transferId resume).InOrder index .started) :
    (beginTransfer options index record verb remotePath next).InOrder index .unfinished := by
  refine orFail_inOrder trivial fun port => ?_
  show Job.InOrder index .unfinished (if _ then _ else _)
  split
  · exact orFail_inOrder trivial fun _ => startFile_inOrder fun transferId => hnext _ _ _
  · exact startFile_inOrder fun transferId => hnext _ _ _

/-- What both programs do once the transfer is on its way; `next` is what comes
after the acknowledgement. -/
theorem transfer_inOrder {port : Nat} {path transferId : Bytes} {resume : Bool}
    {next : Unit → Job} (hnext : ∀ u, (next u).InOrder index .acknowledged) :
    (orMarkFailed index (.runTransfer port path transferId resume) fun _ =>
      orMarkFailed index .waitTransferComplete next).InOrder index .started := by
  have hfailed : FilePhase.Permits .started .failed := by
    intro h
    cases h
  exact orMarkFailed_inOrder trivial (fun _ => hfailed) fun _ =>
    orMarkFailed_inOrder rfl (fun _ => hfailed) hnext

theorem processUploadFile_inOrder (options : TreeTransferOptions) (index : Nat) :
    (processUploadFile options index).InOrder index .unread := by
  refine ⟨⟨rfl, rfl⟩, fun record => ?_⟩
  show Job.InOrder index (if record.status = .completed then .completed else .unfinished) _
  -- whether the record is completed decides the phase and, later, the branch
  by_cases hcompleted : record.status = .completed
  · simp only [if_pos hcompleted]
    refine ⟨trivial, fun answer => ?_⟩
    rcases answer with e | metadata
    · exact markChanged_inOrder _ rfl
    show Job.InOrder index .completed (if _ then _ else _)
    split
    · exact markChanged_inOrder _ rfl
    refine orFail_inOrder trivial fun u => ⟨trivial, fun answer => ?_⟩
    rcases answer with e | size
    · exact markChanged_inOrder _ rfl
    show Job.InOrder index .completed (if _ then _ else _)
    split
    · exact markChanged_inOrder _ rfl
    · exact ⟨trivial, fun _ => trivial⟩
  · simp only [if_neg hcompleted]
    have hchanged : FilePhase.Permits .unfinished .changed := by
      intro h
      cases h
    refine ⟨trivial, fun answer => ?_⟩
    rcases answer with e | metadata
    · exact markChanged_inOrder _ hchanged
    show Job.InOrder index .unfinished (if _ then _ else _)
    split
    · exact markChanged_inOrder _ hchanged
    refine orFail_inOrder trivial fun u => ⟨trivial, fun acquired => ?_⟩
    show Job.InOrder index .unfinished (if _ then _ else _)
    split
    · trivial
    · exact beginTransfer_inOrder fun _ _ _ => transfer_inOrder fun _ => completeRecord_inOrder _

theorem processDownloadFile_inOrder (options : TreeTransferOptions) (index : Nat) :
    (processDownloadFile options index).InOrder index .unread := by
  refine ⟨⟨rfl, rfl⟩, fun record => ?_⟩
  show Job.InOrder index (if record.status = .completed then .completed else .unfinished) _
  refine orFail_inOrder trivial fun u => ?_
  by_cases hcompleted : record.status = .completed
  · simp only [if_pos hcompleted]
    refine ⟨trivial, fun answer => ?_⟩
    rcases answer with e | metadata
    · exact markChanged_inOrder _ rfl
    show Job.InOrder index .completed (if _ then _ else _)
    split
    · exact markChanged_inOrder _ rfl
    · exact ⟨trivial, fun _ => trivial⟩
  · simp only [if_neg hcompleted]
    have hchanged : FilePhase.Permits .unfinished .changed := by
      intro h
      cases h
    refine orFail_inOrder trivial fun remoteSize => orFail_inOrder trivial fun remoteMtime => ?_
    show Job.InOrder index .unfinished (if _ then _ else _)
    split
    · exact markChanged_inOrder _ hchanged
    refine ⟨trivial, fun acquired => ?_⟩
    show Job.InOrder index .unfinished (if _ then _ else _)
    split
    · trivial
    · exact orFail_inOrder trivial fun _ => beginTransfer_inOrder fun _ _ _ =>
        transfer_inOrder fun _ =>
          orMarkFailed_inOrder trivial (fun _ => trivial) fun _ => completeRecord_inOrder _

theorem processFile_inOrder (mode : TreeTransferMode) (options : TreeTransferOptions)
    (index : Nat) : (processFile mode options index).InOrder index .unread := by
  cases mode with
  | upload => exact processUploadFile_inOrder options index
  | download => exact processDownloadFile_inOrder options index

end InOrder

/-! ### What one call does to the records -/

namespace SchedulerState

variable {s s' : SchedulerState} {index : Nat} {phase : FilePhase}

theorem setFirstErrorLocked_eq (s : SchedulerState) (status : Except Status Unit) :
    ∃ firstError stop, s.setFirstErrorLocked status =
      { s with firstError := firstError, stop := stop } := by
  rcases status with e | u
  · obtain ⟨e', herror⟩ := setFirstErrorLocked_error s e
    exact ⟨.error e', true, herror⟩
  · exact ⟨s.firstError, s.stop, rfl⟩

/-- A save puts the time into the manifest in memory, whether or not it is
written. -/
theorem saveManifest_eq (s : SchedulerState) (saving : Saving) :
    (∃ e, s.saveManifest saving = (.error e, { s with
        manifest := { s.manifest with updatedAtUnixNanos := saving.now }, saveFailed := true })) ∨
      ∃ text,
        serializeTreeManifest { s.manifest with updatedAtUnixNanos := saving.now } = .ok text ∧
        s.saveManifest saving = (.ok (), { s with
          manifest := { s.manifest with updatedAtUnixNanos := saving.now }, disk := text }) := by
  rcases htext : serializeTreeManifest { s.manifest with updatedAtUnixNanos := saving.now }
    with e | text
  · exact .inl ⟨e, by simp only [saveManifest, htext]⟩
  · rcases hwritten : saving.written with e | u
    · exact .inl ⟨e, by simp only [saveManifest, htext, hwritten]⟩
    · exact .inr ⟨text, rfl, by simp only [saveManifest, htext, hwritten]⟩

/-- The manifest with one record changed at a certain time. -/
def recordChanged (s : SchedulerState) (index : Nat) (change : TreeFileRecord → TreeFileRecord)
    (now : Nat) : TreeManifest :=
  { s.manifest with
    files := s.manifest.files.modify index change
    updatedAtUnixNanos := now }

theorem changeRecord_eq (s : SchedulerState) (index : Nat)
    (change : TreeFileRecord → TreeFileRecord) (saving : Saving) :
    (∃ e, s.changeRecord index change saving = (.error e,
        { s with manifest := s.recordChanged index change saving.now,
                 saveFailed := true }.setFirstErrorLocked (.error e))) ∨
      ∃ text, serializeTreeManifest (s.recordChanged index change saving.now) = .ok text ∧
        s.changeRecord index change saving = (.ok (),
          { s with manifest := s.recordChanged index change saving.now, disk := text }) := by
  rcases saveManifest_eq { s with manifest :=
    { s.manifest with files := s.manifest.files.modify index change } } saving
    with ⟨e, hsave⟩ | ⟨text, htext, hsave⟩
  · exact .inl ⟨e, by rw [changeRecord, hsave]; rfl⟩
  · exact .inr ⟨text, htext, by rw [changeRecord, hsave]; rfl⟩

/-- What a call that comes in its phase does to the records and the transfers. -/
structure CallEffect (index : Nat) (phase : FilePhase) (s s' : SchedulerState) : Prop where
  manifest : s'.manifest = s.manifest ∨ ∃ change now,
    (∀ record : TreeFileRecord, (change record).sourceKey = record.sourceKey ∧
      phase.Permits (change record).status) ∧
    s'.manifest = s.recordChanged index change now
  disk : serializeTreeManifest s'.manifest = .ok s'.disk ∨ (s'.disk = s.disk ∧
    (s'.saveFailed = false → s.saveFailed = false ∧ s'.manifest = s.manifest))
  saveFailed : (s.saveFailed = true → s.Failed) → s'.saveFailed = true → s'.Failed
  kept : ∀ j ∈ s.transfers, j ∈ s'.transfers
  added : ∀ j ∈ s'.transfers, j ∈ s.transfers ∨ (j = index ∧ phase = .unfinished)

theorem CallEffect.of_same (hmanifest : s'.manifest = s.manifest) (hdisk : s'.disk = s.disk)
    (hsave : s'.saveFailed = s.saveFailed) (hfailed : s.Failed → s'.Failed)
    (htransfers : s'.transfers = s.transfers) : CallEffect index phase s s' where
  manifest := .inl hmanifest
  disk := .inr ⟨hdisk, fun hs => ⟨hsave ▸ hs, hmanifest⟩⟩
  saveFailed hs hs' := hfailed (hs (hsave ▸ hs'))
  kept _ hj := htransfers ▸ hj
  added _ hj := .inl (htransfers ▸ hj)

theorem callEffect_changeRecord (s : SchedulerState) (change : TreeFileRecord → TreeFileRecord)
    (hchange : ∀ record : TreeFileRecord, (change record).sourceKey = record.sourceKey ∧
      phase.Permits (change record).status) (saving : Saving) :
    CallEffect index phase s (s.changeRecord index change saving).2 := by
  rcases changeRecord_eq s index change saving with ⟨e, hrun⟩ | ⟨text, htext, hrun⟩
  · obtain ⟨e', herror⟩ := setFirstErrorLocked_error
      { s with manifest := s.recordChanged index change saving.now, saveFailed := true } e
    rw [hrun, herror]
    exact ⟨.inr ⟨change, saving.now, hchange, rfl⟩, .inr ⟨rfl, fun hs => (by cases hs)⟩,
      fun _ _ => ⟨e', rfl⟩, fun _ hj => hj, fun _ hj => .inl hj⟩
  · rw [hrun]
    exact ⟨.inr ⟨change, saving.now, hchange, rfl⟩, .inl htext, fun hs hs' => hs hs',
      fun _ hj => hj, fun _ hj => .inl hj⟩

theorem callEffect_of_runs {maxFiles : Nat} {β : Type} {c : Call β} {answer : β}
    (hallowed : c.Allowed index phase) (hrun : c.Runs maxFiles index s answer s') :
    CallEffect index phase s s' := by
  cases c with
  | readRecord i =>
      obtain ⟨-, rfl⟩ := hrun
      exact .of_same rfl rfl rfl id rfl
  | updateRecord i status error =>
      obtain ⟨rfl, hpermits⟩ := hallowed
      obtain ⟨saving, hrun⟩ := hrun
      obtain ⟨-, rfl⟩ := Prod.mk.inj hrun
      exact callEffect_changeRecord s
        (fun record => { record with status := status, error := error })
        (fun _ => ⟨rfl, hpermits⟩) saving
  | updateRecordForTransfer i transferId =>
      obtain ⟨rfl, rfl⟩ := hallowed
      obtain ⟨saving, hrun⟩ := hrun
      obtain ⟨-, rfl⟩ := Prod.mk.inj hrun
      have hpermits : FilePhase.Permits .started .transferring := by
        intro hcompleted
        cases hcompleted
      exact callEffect_changeRecord s (fun record =>
        { record with transferId := transferId, status := .transferring, error := [] })
        (fun _ => ⟨rfl, hpermits⟩) saving
  | acquireTransferSlot =>
      obtain ⟨-, rfl⟩ := Prod.mk.inj hrun
      show CallEffect index phase s (s.acquireTransferSlot maxFiles index).2
      rw [SchedulerState.acquireTransferSlot]
      split
      · exact .of_same rfl rfl rfl id rfl
      · split
        · exact .of_same rfl rfl rfl id rfl
        · exact .of_same rfl rfl rfl id rfl
  | setFirstError status =>
      obtain rfl := hrun
      have hfailed := (frame_setFirstError (s := s) index status).failed
      obtain ⟨firstError, stop, herror⟩ := setFirstErrorLocked_eq s status
      rw [herror] at hfailed ⊢
      exact .of_same rfl rfl rfl hfailed rfl
  | startTransfer verb path =>
      obtain rfl := hrun
      refine ⟨.inl rfl, .inr ⟨rfl, fun hs => ⟨hs, rfl⟩⟩, fun hs hs' => hs hs',
        fun j hj => List.mem_cons_of_mem _ hj, fun j hj => ?_⟩
      rcases List.mem_cons.mp hj with rfl | hj
      · exact .inr ⟨rfl, hallowed⟩
      · exact .inl hj
  | countSkipped =>
      obtain rfl := hrun
      exact .of_same rfl rfl rfl id rfl
  | countCompleted bytes =>
      obtain rfl := hrun
      exact .of_same rfl rfl rfl id rfl
  | _ =>
      -- the calls outside
      obtain rfl := hrun
      exact .of_same rfl rfl rfl id rfl

end SchedulerState

/-! ### The records against those at the start -/

/-- A manifest that a run which began with `begun` may have, after these indices
have been acknowledged. -/
structure TreeManifest.Follows (begun : TreeManifest) (acknowledged : List Nat)
    (manifest : TreeManifest) : Prop where
  header : manifest = { begun with
    files := manifest.files, updatedAtUnixNanos := manifest.updatedAtUnixNanos }
  sources : manifest.files.map TreeFileRecord.sourceKey = begun.files.map TreeFileRecord.sourceKey
  completed : ∀ (i : Nat) (record : TreeFileRecord), manifest.files[i]? = some record →
    record.status = .completed → i ∈ acknowledged ∨ begun.files[i]? = some record
  settled : ∀ (i : Nat) (record : TreeFileRecord), begun.files[i]? = some record →
    record.status = .completed → manifest.files[i]? = some record ∨
      ∃ other : TreeFileRecord, manifest.files[i]? = some other ∧ other.status = .changed

/-- What a worker in a phase of its file may rely on. -/
structure FilePhaseOk (begun : TreeManifest) (acknowledged : List Nat) (index : Nat)
    (s : SchedulerState) (phase : FilePhase) : Prop where
  unread : phase = .unread → s.manifest.files[index]? = begun.files[index]?
  unfinished : phase ≠ .unread → phase ≠ .completed →
    ∀ record : TreeFileRecord, begun.files[index]? = some record → record.status ≠ .completed
  started : phase = .started → index ∈ s.transfers
  acknowledged : phase = .acknowledged → index ∈ acknowledged

section Follows

variable {begun manifest : TreeManifest} {acknowledged : List Nat} {index : Nat}
  {s s' : SchedulerState} {phase : FilePhase}

theorem follows_refl (begun : TreeManifest) : begun.Follows [] begun :=
  ⟨rfl, rfl, fun _ _ hrecord _ => .inr hrecord, fun _ _ hrecord _ => .inl hrecord⟩

theorem TreeManifest.Follows.mono (h : begun.Follows acknowledged manifest)
    {acknowledged' : List Nat} (hsub : ∀ i ∈ acknowledged, i ∈ acknowledged') :
    begun.Follows acknowledged' manifest :=
  { h with completed := fun i record hrecord hstatus =>
      (h.completed i record hrecord hstatus).imp_left (hsub i) }

theorem map_modify_of_eq {α β : Type*} {f : α → β} {change : α → α}
    (h : ∀ a, f (change a) = f a) (l : List α) (index : Nat) :
    (l.modify index change).map f = l.map f := by
  apply List.ext_getElem?
  intro j
  rw [List.getElem?_map, List.getElem?_map, List.getElem?_modify]
  cases l[j]? with
  | none => rfl
  | some a =>
      show some (f (if index = j then change a else a)) = some (f a)
      split
      · rw [h]
      · rfl

/-- A change that the phase permits. -/
theorem TreeManifest.Follows.recordChanged (h : begun.Follows acknowledged s.manifest)
    (hfile : FilePhaseOk begun acknowledged index s phase) {change : TreeFileRecord → TreeFileRecord}
    (hchange : ∀ record : TreeFileRecord, (change record).sourceKey = record.sourceKey ∧
      phase.Permits (change record).status) (now : Nat) :
    begun.Follows acknowledged (s.recordChanged index change now) := by
  have hread : phase ≠ .unread := by
    rintro rfl
    exact (hchange ⟨[], 0, 0, [], .pending, []⟩).2
  have hown : ∀ record, s.manifest.files[index]? = some record →
      (s.recordChanged index change now).files[index]? = some (change record) := by
    intro record hrecord
    show (s.manifest.files.modify index change)[index]? = _
    rw [List.getElem?_modify_eq, hrecord]
    rfl
  have hother : ∀ i, i ≠ index →
      (s.recordChanged index change now).files[i]? = s.manifest.files[i]? := by
    intro i hi
    show (s.manifest.files.modify index change)[i]? = _
    rw [List.getElem?_modify_ne _ _ (Ne.symm hi)]
  refine ⟨?_, ?_, fun i record hrecord hstatus => ?_, fun i record hrecord hstatus => ?_⟩
  · have hheader := h.header
    rw [SchedulerState.recordChanged, hheader]
  · exact (map_modify_of_eq (fun record => (hchange record).1) _ _).trans h.sources
  · by_cases hi : i = index
    · subst hi
      left
      apply hfile.acknowledged
      rcases hold : s.manifest.files[i]? with - | old
      · have hnone : (s.manifest.files.modify i change)[i]? = none := by
          rw [List.getElem?_modify_eq, hold]
          rfl
        rw [show (s.recordChanged i change now).files[i]? = none from hnone] at hrecord
        cases hrecord
      · rw [hown old hold] at hrecord
        obtain rfl := Option.some.inj hrecord
        have hpermits := (hchange old).2
        rw [hstatus] at hpermits
        cases phase with
        | unread => exact hpermits.elim
        | completed => cases hpermits
        | unfinished => exact absurd rfl hpermits
        | started => exact absurd rfl hpermits
        | acknowledged => rfl
    · rw [hother i hi] at hrecord
      exact h.completed i record hrecord hstatus
  · by_cases hi : i = index
    · subst hi
      right
      -- only a worker in phase `completed` can have a record that was completed
      have hphase : phase = .completed := by
        by_contra hnot
        exact hfile.unfinished hread hnot record hrecord hstatus
      subst hphase
      obtain ⟨old, hold⟩ : ∃ old, s.manifest.files[i]? = some old := by
        rcases h.settled i record hrecord hstatus with hold | ⟨old, hold, -⟩
        · exact ⟨record, hold⟩
        · exact ⟨old, hold⟩
      exact ⟨change old, hown old hold, (hchange old).2⟩
    · rw [hother i hi]
      exact h.settled i record hrecord hstatus

theorem TreeManifest.Follows.of_effect (h : begun.Follows acknowledged s.manifest)
    (hfile : FilePhaseOk begun acknowledged index s phase)
    (heffect : SchedulerState.CallEffect index phase s s') :
    begun.Follows acknowledged s'.manifest := by
  rcases heffect.manifest with hsame | ⟨change, now, hchange, hmanifest⟩
  · rw [hsame]
    exact h
  · rw [hmanifest]
    exact h.recordChanged hfile hchange now

end Follows

/-! ### Runs with the acknowledgements -/

/-- The indices that the server has acknowledged, after a call for this index. -/
def Call.acknowledgedAfter {β : Type} (index : Nat) (c : Call β) (answer : β)
    (acknowledged : List Nat) : List Nat :=
  match c with
  | .waitTransferComplete =>
      match answer with
      | .ok _ => index :: acknowledged
      | .error _ => acknowledged
  | _ => acknowledged

/-- A step of a worker's thread, and what it adds to the acknowledgements. -/
inductive ObservedStep (maxFiles : Nat) (process : Nat → Job) (worker : Nat) :
    SchedulerState → Worker → List Nat → SchedulerState → Worker → List Nat → Prop
  | call {s s' : SchedulerState} {index : Nat} {β : Type} {c : Call β} {answer : β}
      {next : β → Job} {acknowledged : List Nat} (h : c.Runs maxFiles index s answer s') :
      ObservedStep maxFiles process worker s (.busy index (.call c next)) acknowledged s'
        (.busy index (next answer)) (c.acknowledgedAfter index answer acknowledged)
  | other {s s' : SchedulerState} {before after : Worker} {acknowledged : List Nat}
      (h : WorkerStep maxFiles process worker s before s' after)
      (hcall : ∀ (index : Nat) (β : Type) (c : Call β) (next : β → Job),
        before ≠ .busy index (.call c next)) :
      ObservedStep maxFiles process worker s before acknowledged s' after acknowledged

/-- `treeScheduler` with the indices that have been acknowledged in this run. -/
def observedScheduler (options : TreeTransferOptions) (mode : TreeTransferMode)
    (manifest : TreeManifest) :
    System (TreeScheduler (workerCount options manifest.files.length) × List Nat)
      (Fin (workerCount options manifest.files.length)) where
  initial run := (treeScheduler options mode manifest).initial run.1 ∧ run.2 = []
  step w run run' := ∃ shared worker acknowledged,
    ObservedStep options.maxFiles (processFile mode options) w run.1.shared (run.1.workers w)
      run.2 shared worker acknowledged ∧
    run' = (⟨shared, Function.update run.1.workers w worker⟩, acknowledged)

section Acknowledged

variable {begun : TreeManifest} {acknowledged : List Nat} {index maxFiles : Nat}
  {s s' : SchedulerState} {phase : FilePhase} {β : Type} {c : Call β} {answer : β}

theorem mem_acknowledgedAfter {i : Nat} (hi : i ∈ acknowledged) :
    i ∈ c.acknowledgedAfter index answer acknowledged := by
  cases c with
  | waitTransferComplete =>
      cases answer with
      | ok u => exact List.mem_cons_of_mem _ hi
      | error e => exact hi
  | _ => exact hi

theorem of_mem_acknowledgedAfter (hallowed : c.Allowed index phase) {i : Nat}
    (hi : i ∈ c.acknowledgedAfter index answer acknowledged) :
    i ∈ acknowledged ∨ (i = index ∧ phase = .started) := by
  cases c with
  | waitTransferComplete =>
      cases answer with
      | ok u => exact (List.mem_cons.mp hi).elim (fun heq => .inr ⟨heq, hallowed⟩) .inl
      | error e => exact .inl hi
  | _ => exact .inl hi

/-- The worker that calls keeps what it relies on, in the same phase. -/
theorem FilePhaseOk.of_effect (h : FilePhaseOk begun acknowledged index s phase)
    (heffect : SchedulerState.CallEffect index phase s s') :
    FilePhaseOk begun acknowledged index s' phase where
  unread hp := by
    rcases heffect.manifest with hsame | ⟨change, now, hchange, -⟩
    · rw [hsame]
      exact h.unread hp
    · subst hp
      exact ((hchange ⟨[], 0, 0, [], .pending, []⟩).2).elim
  unfinished := h.unfinished
  started hp := heffect.kept _ (h.started hp)
  acknowledged := h.acknowledged

/-- The others do not notice the call. -/
theorem FilePhaseOk.other {i : Nat} {phase' : FilePhase} (h : FilePhaseOk begun acknowledged i s phase')
    (hne : i ≠ index) (heffect : SchedulerState.CallEffect index phase s s')
    {acknowledged' : List Nat} (hsub : ∀ j ∈ acknowledged, j ∈ acknowledged') :
    FilePhaseOk begun acknowledged' i s' phase' where
  unread hp := by
    rcases heffect.manifest with hsame | ⟨change, now, -, hmanifest⟩
    · rw [hsame]
      exact h.unread hp
    · rw [hmanifest, ← h.unread hp]
      exact List.getElem?_modify_ne _ _ hne.symm
  unfinished := h.unfinished
  started hp := heffect.kept _ (h.started hp)
  acknowledged hp := hsub _ (h.acknowledged hp)

/-- After the call the worker is in the next phase. -/
theorem FilePhaseOk.call (h : FilePhaseOk begun acknowledged index s phase)
    (hallowed : c.Allowed index phase) (hrun : c.Runs maxFiles index s answer s') :
    FilePhaseOk begun (c.acknowledgedAfter index answer acknowledged) index s'
      (c.filePhaseAfter answer phase) := by
  have hsame := h.of_effect (SchedulerState.callEffect_of_runs hallowed hrun)
  cases c with
  | readRecord i =>
      obtain ⟨rfl, rfl⟩ := hallowed
      obtain ⟨hrecord, rfl⟩ := hrun
      rw [h.unread rfl] at hrecord
      show FilePhaseOk begun acknowledged i s' (if _ then _ else _)
      split
      · exact ⟨fun hp => (by cases hp), fun _ hp => absurd rfl hp, fun hp => (by cases hp),
          fun hp => (by cases hp)⟩
      · rename_i hstatus
        refine ⟨fun hp => (by cases hp), fun _ _ record hbegun => ?_, fun hp => (by cases hp),
          fun hp => (by cases hp)⟩
        rw [hrecord] at hbegun
        obtain rfl := Option.some.inj hbegun
        exact hstatus
  | startTransfer verb path =>
      obtain rfl : phase = .unfinished := hallowed
      obtain rfl := hrun
      exact ⟨fun hp => (by cases hp), fun _ _ => h.unfinished (by decide) (by decide),
        fun _ => List.mem_cons_self, fun hp => (by cases hp)⟩
  | waitTransferComplete =>
      obtain rfl : phase = .started := hallowed
      obtain rfl := hrun
      cases answer with
      | ok u =>
          exact ⟨fun hp => (by cases hp), fun _ _ => h.unfinished (by decide) (by decide),
            fun hp => (by cases hp), fun _ => List.mem_cons_self⟩
      | error e => exact h
  | _ => exact hsame

end Acknowledged

section Observed

variable {maxFiles : Nat} {process : Nat → Job} {worker : Nat} {s s' : SchedulerState}
  {before after : Worker} {acknowledged acknowledged' : List Nat}

theorem ObservedStep.workerStep
    (h : ObservedStep maxFiles process worker s before acknowledged s' after acknowledged') :
    WorkerStep maxFiles process worker s before s' after := by
  cases h with
  | call h => exact .call h
  | other h hcall => exact h

theorem ObservedStep.subset
    (h : ObservedStep maxFiles process worker s before acknowledged s' after acknowledged') :
    ∀ i ∈ acknowledged, i ∈ acknowledged' := by
  intro i hi
  cases h with
  | call h => exact mem_acknowledgedAfter hi
  | other h hcall => exact hi

theorem WorkerStep.observed (h : WorkerStep maxFiles process worker s before s' after)
    (acknowledged : List Nat) : ∃ acknowledged',
      ObservedStep maxFiles process worker s before acknowledged s' after acknowledged' := by
  cases h with
  | leave h => exact ⟨_, .other (.leave h) fun _ _ _ _ heq => (by cases heq)⟩
  | take hstop hnext => exact ⟨_, .other (.take hstop hnext) fun _ _ _ _ heq => (by cases heq)⟩
  | call h => exact ⟨_, .call h⟩
  | succeed => exact ⟨_, .other .succeed fun _ _ _ _ heq => (by cases heq)⟩
  | fail => exact ⟨_, .other .fail fun _ _ _ _ heq => (by cases heq)⟩

variable {options : TreeTransferOptions} {mode : TreeTransferMode} {manifest : TreeManifest}
  {scheduler : TreeScheduler (workerCount options manifest.files.length)}

/-- What is observed is a run of the scheduler. -/
theorem reachable_of_observed
    (h : (observedScheduler options mode manifest).Reachable (scheduler, acknowledged)) :
    (treeScheduler options mode manifest).Reachable scheduler := by
  refine System.Reachable.invariant
    (I := fun run => (treeScheduler options mode manifest).Reachable run.1) ?_ ?_ h
  · rintro run ⟨hinitial, -⟩
    exact .initial hinitial
  · rintro w run run' - hrun ⟨shared, worker, acknowledged, hstep, rfl⟩
    exact hrun.step (l := w) ⟨shared, worker, hstep.workerStep, rfl⟩

/-- Every run of the scheduler can be observed. -/
theorem observed_of_reachable (h : (treeScheduler options mode manifest).Reachable scheduler) :
    ∃ acknowledged,
      (observedScheduler options mode manifest).Reachable (scheduler, acknowledged) := by
  refine System.Reachable.invariant (I := fun scheduler => ∃ acknowledged,
    (observedScheduler options mode manifest).Reachable (scheduler, acknowledged)) ?_ ?_ h
  · intro scheduler hinitial
    exact ⟨[], .initial ⟨hinitial, rfl⟩⟩
  · rintro w scheduler scheduler' - ⟨acknowledged, hrun⟩ ⟨shared, worker, hstep, rfl⟩
    obtain ⟨acknowledged', hobserved⟩ := hstep.observed acknowledged
    exact ⟨acknowledged', hrun.step (l := w) ⟨shared, worker, acknowledged', hobserved, rfl⟩⟩

end Observed

/-! ### The invariant of an observed run -/

namespace TreeScheduler

open SchedulerState

variable {n maxFiles size : Nat} {begun : TreeManifest} {acknowledged : List Nat}
  {s : TreeScheduler n}

structure InOrder (begun : TreeManifest) (acknowledged : List Nat) (s : TreeScheduler n) :
    Prop where
  follows : begun.Follows acknowledged s.shared.manifest
  waiting : ∀ i, s.shared.nextIndex ≤ i → s.shared.manifest.files[i]? = begun.files[i]?
  transfers : ∀ i ∈ s.shared.transfers, ∀ record : TreeFileRecord,
    begun.files[i]? = some record → record.status ≠ .completed
  onlyStarted : ∀ i ∈ acknowledged, i ∈ s.shared.transfers
  saveFailed : s.shared.saveFailed = true → s.shared.Failed
  busy : ∀ w index job, s.workers w = .busy index job →
    ∃ phase, job.InOrder index phase ∧ FilePhaseOk begun acknowledged index s.shared phase

/-- A step that leaves the records and the transfers alone, and every file that a
worker has with its phase. -/
theorem InOrder.of_same (h : s.InOrder begun acknowledged) {w : Fin n} {shared : SchedulerState}
    {worker : Worker} (hmanifest : shared.manifest = s.shared.manifest)
    (htransfers : shared.transfers = s.shared.transfers)
    (hsave : shared.saveFailed = s.shared.saveFailed) (hfailed : s.shared.Failed → shared.Failed)
    (hnext : s.shared.nextIndex ≤ shared.nextIndex)
    (hown : ∀ index job, worker = .busy index job →
      ∃ phase, job.InOrder index phase ∧ FilePhaseOk begun acknowledged index shared phase) :
    InOrder begun acknowledged ⟨shared, Function.update s.workers w worker⟩ where
  follows := by
    show begun.Follows acknowledged shared.manifest
    rw [hmanifest]
    exact h.follows
  waiting i hi := by
    show shared.manifest.files[i]? = _
    rw [hmanifest]
    exact h.waiting i (hnext.trans hi)
  transfers i hi := h.transfers i (htransfers ▸ hi)
  onlyStarted i hi := htransfers.symm ▸ h.onlyStarted i hi
  saveFailed hs := hfailed (h.saveFailed (hsave ▸ hs))
  busy w' index job hw' := by
    change Function.update s.workers w worker w' = _ at hw'
    by_cases heq : w' = w
    · subst heq
      rw [Function.update_self] at hw'
      exact hown index job hw'
    · rw [Function.update_of_ne heq] at hw'
      obtain ⟨phase, hjob, hfile⟩ := h.busy w' index job hw'
      refine ⟨phase, hjob, fun hp => ?_, hfile.unfinished, fun hp => ?_, hfile.acknowledged⟩
      · show shared.manifest.files[index]? = _
        rw [hmanifest]
        exact hfile.unread hp
      · show index ∈ shared.transfers
        rw [htransfers]
        exact hfile.started hp

/-- A call of one worker. -/
theorem InOrder.call (h : s.InOrder begun acknowledged) (hok : s.Ok maxFiles size) {w : Fin n}
    {index : Nat} {β : Type} {c : Call β} {answer : β} {next : β → Job} {shared : SchedulerState}
    (hw : s.workers w = .busy index (.call c next))
    (hrun : c.Runs maxFiles index s.shared answer shared) :
    InOrder begun (c.acknowledgedAfter index answer acknowledged)
      ⟨shared, Function.update s.workers w (.busy index (next answer))⟩ := by
  obtain ⟨phase, ⟨hallowed, hnext⟩, hfile⟩ := h.busy w index _ hw
  have heffect := callEffect_of_runs hallowed hrun
  have hsub : ∀ i ∈ acknowledged, i ∈ c.acknowledgedAfter index answer acknowledged :=
    fun i hi => mem_acknowledgedAfter hi
  -- the frame comes from the other invariant
  have hbusy := hok.busy w index _ hw
  obtain ⟨completed, slot, ⟨hbefore, -⟩, howned⟩ := hbusy.owned
  have hlt := hok.shared.lt_of_handed hbusy.handed
  obtain ⟨-, -, hframe⟩ := hok.shared.call hbusy.unprocessed hlt howned hbefore hrun
  refine ⟨(h.follows.of_effect hfile heffect).mono hsub, fun i hi => ?_, fun i hi => ?_,
    fun i hi => ?_, heffect.saveFailed h.saveFailed, fun w' i job hw' => ?_⟩
  · have hi : s.shared.nextIndex ≤ i := hframe.nextIndex ▸ hi
    exact (hframe.others i (Nat.ne_of_gt (Nat.lt_of_lt_of_le hlt hi))).trans (h.waiting i hi)
  · rcases heffect.added i hi with hold | ⟨rfl, rfl⟩
    · exact h.transfers i hold
    · exact hfile.unfinished (by decide) (by decide)
  · rcases of_mem_acknowledgedAfter hallowed hi with hold | ⟨rfl, rfl⟩
    · exact heffect.kept i (h.onlyStarted i hold)
    · exact heffect.kept i (hfile.started rfl)
  · change Function.update s.workers w _ w' = _ at hw'
    by_cases heq : w' = w
    · subst heq
      rw [Function.update_self] at hw'
      cases hw'
      exact ⟨_, hnext answer, hfile.call hallowed hrun⟩
    · rw [Function.update_of_ne heq] at hw'
      obtain ⟨phase', hjob, hfile'⟩ := h.busy w' i job hw'
      exact ⟨phase', hjob, hfile'.other (hok.index_ne heq hw hw') heffect hsub⟩

/-- **One step** of a worker keeps the records in order. -/
theorem InOrder.step (h : s.InOrder begun acknowledged) (hok : s.Ok maxFiles size)
    {process : Nat → Job} (hprocess : ∀ index, (process index).InOrder index .unread) {w : Fin n}
    {shared : SchedulerState} {worker worker₀ : Worker} {acknowledged' : List Nat}
    (hw : s.workers w = worker₀)
    (hstep : ObservedStep maxFiles process w s.shared worker₀ acknowledged shared worker
      acknowledged') :
    InOrder begun acknowledged' ⟨shared, Function.update s.workers w worker⟩ := by
  cases hstep with
  | call hrun => exact h.call hok hw hrun
  | other hother hcall =>
      cases hother with
      | leave hleave => exact h.of_same rfl rfl rfl id le_rfl fun _ _ hb => (by cases hb)
      | take hstop hnext =>
          refine h.of_same rfl rfl rfl id (Nat.le_succ _) fun index job hb => ?_
          cases hb
          refine ⟨.unread, hprocess _, fun _ => h.waiting _ le_rfl, fun hp => absurd rfl hp,
            fun hp => (by cases hp), fun hp => (by cases hp)⟩
      | call hrun => exact absurd rfl (hcall _ _ _ _)
      | succeed => exact h.of_same rfl rfl rfl id le_rfl fun _ _ hb => (by cases hb)
      | @fail index e =>
          have hfailed := setFirstErrorLocked_failed s.shared e
          obtain ⟨firstError, stop, herror⟩ := setFirstErrorLocked_eq s.shared (.error e)
          rw [herror] at hfailed ⊢
          exact h.of_same rfl rfl rfl (fun _ => hfailed) le_rfl fun _ _ hb => (by cases hb)

/-- The manifest has been written with the records it has now, or the file is as
it was, and then no save has succeeded in the step. -/
theorem InOrder.disk (h : s.InOrder begun acknowledged) {process : Nat → Job} {w : Fin n}
    {shared : SchedulerState} {worker worker₀ : Worker} {acknowledged' : List Nat}
    (hw : s.workers w = worker₀)
    (hstep : ObservedStep maxFiles process w s.shared worker₀ acknowledged shared worker
      acknowledged') :
    serializeTreeManifest shared.manifest = .ok shared.disk ∨ (shared.disk = s.shared.disk ∧
      (shared.saveFailed = false →
        s.shared.saveFailed = false ∧ shared.manifest = s.shared.manifest)) := by
  cases hstep with
  | call hrun =>
      obtain ⟨phase, ⟨hallowed, -⟩, -⟩ := h.busy w _ _ hw
      exact (callEffect_of_runs hallowed hrun).disk
  | other hother hcall =>
      right
      cases hother with
      | leave hleave => exact ⟨rfl, fun hs => ⟨hs, rfl⟩⟩
      | take hstop hnext => exact ⟨rfl, fun hs => ⟨hs, rfl⟩⟩
      | call hrun => exact absurd rfl (hcall _ _ _ _)
      | succeed => exact ⟨rfl, fun hs => ⟨hs, rfl⟩⟩
      | @fail index e =>
          obtain ⟨firstError, stop, herror⟩ := setFirstErrorLocked_eq s.shared (.error e)
          rw [herror]
          exact ⟨rfl, fun hs => ⟨hs, rfl⟩⟩

/-- The records are in order in every run. -/
theorem inOrder_of_observed {options : TreeTransferOptions} {mode : TreeTransferMode}
    {manifest : TreeManifest} {s : TreeScheduler (workerCount options manifest.files.length)}
    (h : (observedScheduler options mode manifest).Reachable (s, acknowledged)) :
    s.InOrder manifest acknowledged := by
  refine System.Reachable.invariant (I := fun run => run.1.InOrder manifest run.2) ?_ ?_ h
  · rintro ⟨s, acknowledged⟩ ⟨⟨disk, -, rfl⟩, rfl⟩
    exact ⟨follows_refl manifest, fun _ _ => rfl, fun _ hi => (by cases hi),
      fun _ hi => (by cases hi), fun hs => (by cases hs), fun _ _ _ hb => (by cases hb)⟩
  · rintro w run run' hreach hrun ⟨shared, worker, acknowledged', hstep, rfl⟩
    have hok := ok_of_reachable (reachable_of_observed hreach)
    exact hrun.step hok (processFile_inOrder mode options) rfl hstep

end TreeScheduler

/-- **What a run does to the records**, in any interleaving of the workers and
whatever the calls answer: no file appears, vanishes or gets another size or
time; a transfer is started only for a file that was not completed when the run
began, and a record is completed only if it was then or its transfer has been
acknowledged since; and a completed record stays as it is or becomes
`Changed`. -/
theorem scheduler_order (options : TreeTransferOptions) (mode : TreeTransferMode)
    (manifest : TreeManifest) {s : TreeScheduler (workerCount options manifest.files.length)}
    {acknowledged : List Nat}
    (h : (observedScheduler options mode manifest).Reachable (s, acknowledged)) :
    s.shared.manifest.files.map TreeFileRecord.sourceKey =
        manifest.files.map TreeFileRecord.sourceKey ∧
      (∀ i ∈ acknowledged, i ∈ s.shared.transfers) ∧
      (∀ i ∈ s.shared.transfers, ∀ record : TreeFileRecord,
        manifest.files[i]? = some record → record.status ≠ .completed) ∧
      (∀ (i : Nat) (record : TreeFileRecord), s.shared.manifest.files[i]? = some record →
        record.status = .completed → i ∈ acknowledged ∨ manifest.files[i]? = some record) ∧
      (∀ (i : Nat) (record : TreeFileRecord), manifest.files[i]? = some record →
        record.status = .completed → s.shared.manifest.files[i]? = some record ∨
          ∃ other : TreeFileRecord, s.shared.manifest.files[i]? = some other ∧
            other.status = .changed) := by
  have horder := TreeScheduler.inOrder_of_observed h
  exact ⟨horder.follows.sources, horder.onlyStarted, horder.transfers, horder.follows.completed,
    horder.follows.settled⟩

/-- Of the two files one is transferred and acknowledged. -/
theorem scheduler_order_twoFiles :
    ∃ workers acknowledged, (observedScheduler twoWorkers .upload twoFiles).Reachable
        (⟨twoFilesDone, workers⟩, acknowledged) ∧
      0 ∈ acknowledged ∧ 1 ∉ acknowledged := by
  obtain ⟨workers, -, hreach⟩ := twoFiles_joined
  obtain ⟨acknowledged, hobserved⟩ := observed_of_reachable hreach
  obtain ⟨-, hstarted, htransfers, hcompleted, -⟩ :=
    scheduler_order twoWorkers .upload twoFiles hobserved
  refine ⟨workers, acknowledged, hobserved, ?_, fun hmem => ?_⟩
  · have hdone : twoFilesDone.manifest.files[0]? =
        some ⟨ascii "a", 3, 5, ascii "t0", .completed, []⟩ := by decide +kernel
    refine (hcompleted 0 _ hdone rfl).resolve_right fun hbegun => ?_
    cases hbegun
  · exact htransfers 1 (hstarted 1 hmem) ⟨ascii "b", 4, 6, ascii "t1", .completed, []⟩ rfl rfl

end GridFlux
