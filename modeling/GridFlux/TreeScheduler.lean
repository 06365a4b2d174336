/-
GridFlux/TreeScheduler.lean

`runTreeScheduler` of `tree_transfer_client.cpp`: any number of workers over one
tree manifest, in any interleaving, with any outcome of every call.

A worker owns the index it was handed until the job for it ends, and its job
touches no other record (`Job.Proper`); so what holds of the shared state and of
every worker's own file survives each step.  `scheduler_accounts` reads the
result off when all workers have left.
-/
import GridFlux.Transition
import GridFlux.TreeJobs
import Mathlib.Data.List.Perm.Subperm

namespace GridFlux

open TextCodec Transition

/-! ### The workers -/

inductive Worker : Type 1
  | looking
  | busy (index : Nat) (job : Job)
  | done

/-- The next index goes to a worker. -/
def SchedulerState.take (s : SchedulerState) (worker : Nat) : SchedulerState :=
  { s with nextIndex := s.nextIndex + 1, handed := s.handed ++ [(worker, s.nextIndex)] }

/-- One step of a worker's thread. -/
inductive WorkerStep (maxFiles : Nat) (process : Nat → Job) (worker : Nat) :
    SchedulerState → Worker → SchedulerState → Worker → Prop
  | leave {s : SchedulerState} (h : s.stop = true ∨ s.manifest.files.length ≤ s.nextIndex) :
      WorkerStep maxFiles process worker s .looking s .done
  | take {s : SchedulerState} (hstop : s.stop = false)
      (hnext : s.nextIndex < s.manifest.files.length) :
      WorkerStep maxFiles process worker s .looking (s.take worker)
        (.busy s.nextIndex (process s.nextIndex))
  | call {s s' : SchedulerState} {index : Nat} {β : Type} {c : Call β} {answer : β}
      {next : β → Job} (h : c.Runs maxFiles index s answer s') :
      WorkerStep maxFiles process worker s (.busy index (.call c next)) s'
        (.busy index (next answer))
  | succeed {s : SchedulerState} {index : Nat} {u : Unit} :
      WorkerStep maxFiles process worker s (.busy index (.finished (.ok u)))
        { s with processed := index :: s.processed } .looking
  | fail {s : SchedulerState} {index : Nat} {e : Status} :
      WorkerStep maxFiles process worker s (.busy index (.finished (.error e)))
        (s.setFirstErrorLocked (.error e)) .done

structure TreeScheduler (n : Nat) where
  shared : SchedulerState
  workers : Fin n → Worker

/-- The conversion to 32 bits is the source's. -/
def workerCount (options : TreeTransferOptions) (files : Nat) : Nat :=
  max 1 (min options.fileParallelism (max 1 files % 2 ^ 32))

/-- The text holds these records: it was written for them or reads as them. -/
def TreeOnDisk (text : Bytes) (files : List TreeFileRecord) : Prop :=
  ∃ manifest : TreeManifest, manifest.files = files ∧
    (serializeTreeManifest manifest = .ok text ∨ parseTreeManifest text = .ok manifest)

/-- The scheduler for a manifest that its caller has just saved or loaded. -/
def treeScheduler (options : TreeTransferOptions) (mode : TreeTransferMode)
    (manifest : TreeManifest) :
    System (TreeScheduler (workerCount options manifest.files.length))
      (Fin (workerCount options manifest.files.length)) where
  initial s := ∃ disk, TreeOnDisk disk manifest.files ∧
    s = ⟨{ manifest := manifest, disk := disk }, fun _ => .looking⟩
  step w s s' := ∃ shared worker,
    WorkerStep options.maxFiles (processFile mode options) w s.shared (s.workers w) shared worker ∧
      s' = ⟨shared, Function.update s.workers w worker⟩

/-- All threads have been joined. -/
def TreeScheduler.Joined {n : Nat} (s : TreeScheduler n) : Prop := ∀ w, s.workers w = .done

/-- What `runTreeScheduler` returns then. -/
def SchedulerState.result (s : SchedulerState) : Except Status Unit :=
  if s.stoppedByMaxFiles then .error (.runtimeError (ascii "tree transfer stopped after --max-files"))
  else s.firstError

/-! ### What a job may do -/

/-- How far a job is with its transfer slot. -/
inductive SlotPhase
  | fresh
  | held
  | used
deriving DecidableEq

/-- What has to hold before a call of the worker with this index: the record is
its own, and a transfer has a slot. -/
def Call.Before (index : Nat) (phase : SlotPhase) {β : Type} (c : Call β) : Prop :=
  match c with
  | .readRecord i => i = index
  | .updateRecord i _ _ => i = index
  | .updateRecordForTransfer i _ => i = index
  | .acquireTransferSlot => phase = .fresh
  | .startTransfer _ _ => phase = .held
  | _ => True

/-- Whether the record is known to be completed after a call. -/
def Call.completedAfter {β : Type} (c : Call β) (answer : β) (completed : Bool) : Bool :=
  match c with
  | .readRecord _ => answer.status = .completed
  | .updateRecord _ status _ => status = .completed
  | .updateRecordForTransfer _ _ => false
  | _ => completed

def Call.phaseAfter {β : Type} (c : Call β) (answer : β) (phase : SlotPhase) : SlotPhase :=
  match c with
  | .acquireTransferSlot => if answer then .held else phase
  | .startTransfer _ _ => .used
  | _ => phase

/-- The job changes no record but its own, starts one transfer at most, with a
slot, and succeeds only on a completed record.  `completed` and `phase` say how
far it is. -/
def Job.Proper (index : Nat) : Bool → SlotPhase → Job → Prop
  | completed, _, .finished status => status = .ok () → completed = true
  | completed, phase, .call c next =>
      c.Before index phase ∧
        ∀ answer, Proper index (c.completedAfter answer completed) (c.phaseAfter answer phase)
          (next answer)

section Proper

open Job

variable {index : Nat} {completed : Bool} {phase : SlotPhase}

theorem Job.proper_error (e : Status) : (Job.finished (.error e)).Proper index completed phase := by
  intro h
  cases h

theorem Job.markChanged_proper (message : Bytes) :
    (markChanged index message).Proper index completed phase :=
  ⟨rfl, fun _ => ⟨trivial, fun _ => Job.proper_error _⟩⟩

/-- A call whose error ends the job. -/
theorem Job.orFail_proper {β : Type} {c : Call (Except Status β)} {next : β → Job}
    (hbefore : c.Before index phase)
    (hnext : ∀ answer, (next answer).Proper index (c.completedAfter (.ok answer) completed)
      (c.phaseAfter (.ok answer) phase)) :
    (orFail c next).Proper index completed phase := by
  refine ⟨hbefore, fun answer => ?_⟩
  cases answer with
  | error e => exact Job.proper_error e
  | ok answer => exact hnext answer

/-- A call whose error is noted in the record. -/
theorem Job.orMarkFailed_proper {β : Type} {c : Call (Except Status β)} {next : β → Job}
    (hbefore : c.Before index phase)
    (hnext : ∀ answer, (next answer).Proper index (c.completedAfter (.ok answer) completed)
      (c.phaseAfter (.ok answer) phase)) :
    (orMarkFailed index c next).Proper index completed phase := by
  refine ⟨hbefore, fun answer => ?_⟩
  cases answer with
  | error e => exact ⟨rfl, fun _ => Job.proper_error e⟩
  | ok answer => exact hnext answer

theorem completeRecord_proper (record : TreeFileRecord) :
    (completeRecord index record).Proper index completed phase :=
  Job.orFail_proper rfl fun _ => ⟨trivial, fun _ _ => rfl⟩

theorem startFile_proper {record : TreeFileRecord} {verb : TreeVerb} {remotePath : Bytes}
    {resumeFile : Bool} {next : Bytes → Job}
    (hnext : ∀ transferId, (next transferId).Proper index false .used) :
    (startFile index record verb remotePath resumeFile next).Proper index completed .held :=
  Job.orMarkFailed_proper rfl fun _ => Job.orFail_proper rfl fun _ => hnext _

theorem beginTransfer_proper {options : TreeTransferOptions} {record : TreeFileRecord}
    {verb : TreeVerb} {remotePath : Bytes} {next : Nat → Bytes → Bool → Job}
    (hnext : ∀ port transferId resume, (next port transferId resume).Proper index false .used) :
    (beginTransfer options index record verb remotePath next).Proper index completed .held := by
  refine Job.orFail_proper trivial fun port => ?_
  simp only
  split
  · exact Job.orFail_proper trivial fun _ => startFile_proper fun transferId =>
      hnext port transferId _
  · exact startFile_proper fun transferId => hnext port transferId _

theorem processUploadFile_proper (options : TreeTransferOptions) (index : Nat) :
    (processUploadFile options index).Proper index false .fresh := by
  refine ⟨rfl, fun record => ⟨trivial, fun answer => ?_⟩⟩
  cases answer with
  | error e => exact Job.markChanged_proper _
  | ok metadata =>
      simp only
      split
      · exact Job.markChanged_proper _
      refine Job.orFail_proper trivial fun u => ?_
      split
      · -- the record is completed: what the server has is compared with it
        rename_i hcompleted
        refine ⟨trivial, fun answer => ?_⟩
        cases answer with
        | error e => exact Job.markChanged_proper _
        | ok size =>
            simp only
            split
            · exact Job.markChanged_proper _
            · exact ⟨trivial, fun _ _ => decide_eq_true hcompleted⟩
      · refine ⟨rfl, fun acquired => ?_⟩
        cases acquired with
        | false => exact Job.proper_error _
        | true =>
            simp only [Bool.true_eq_false, if_false]
            apply beginTransfer_proper
            intro port transferId resume
            exact Job.orMarkFailed_proper trivial fun _ => Job.orMarkFailed_proper trivial fun _ =>
              completeRecord_proper record

theorem processDownloadFile_proper (options : TreeTransferOptions) (index : Nat) :
    (processDownloadFile options index).Proper index false .fresh := by
  refine ⟨rfl, fun record => ?_⟩
  refine Job.orFail_proper trivial fun u => ?_
  split
  · -- the record is completed: the local file is compared with it
    rename_i hcompleted
    refine ⟨trivial, fun answer => ?_⟩
    cases answer with
    | error e => exact Job.markChanged_proper _
    | ok metadata =>
        simp only
        split
        · exact Job.markChanged_proper _
        · exact ⟨trivial, fun _ _ => decide_eq_true hcompleted⟩
  · refine Job.orFail_proper trivial fun size => Job.orFail_proper trivial fun mtime => ?_
    simp only
    split
    · exact Job.markChanged_proper _
    refine ⟨rfl, fun acquired => ?_⟩
    cases acquired with
    | false => exact Job.proper_error _
    | true =>
        simp only [Bool.true_eq_false, if_false]
        refine Job.orFail_proper trivial fun u => ?_
        apply beginTransfer_proper
        intro port transferId resume
        exact Job.orMarkFailed_proper trivial fun _ => Job.orMarkFailed_proper trivial fun _ =>
          Job.orMarkFailed_proper trivial fun _ => completeRecord_proper record

theorem processFile_proper (mode : TreeTransferMode) (options : TreeTransferOptions)
    (index : Nat) : (processFile mode options index).Proper index false .fresh := by
  cases mode with
  | upload => exact processUploadFile_proper options index
  | download => exact processDownloadFile_proper options index

end Proper

/-! ### What the critical sections do -/

namespace SchedulerState

variable {s s' : SchedulerState} {index : Nat}

/-- An error has been noted. -/
def Failed (s : SchedulerState) : Prop := ∃ e, s.firstError = .error e

theorem saveManifest_cases (s : SchedulerState) (saving : Saving) :
    ∃ manifest : TreeManifest, manifest.files = s.manifest.files ∧
      ((∃ e, s.saveManifest saving =
          (.error e, { s with manifest := manifest, saveFailed := true })) ∨
        ∃ text, serializeTreeManifest manifest = .ok text ∧
          s.saveManifest saving = (.ok (), { s with manifest := manifest, disk := text })) := by
  refine ⟨{ s.manifest with updatedAtUnixNanos := saving.now }, rfl, ?_⟩
  rcases htext : serializeTreeManifest { s.manifest with updatedAtUnixNanos := saving.now }
    with e | text
  · exact .inl ⟨e, by simp only [saveManifest, htext]⟩
  · rcases hwritten : saving.written with e | u
    · exact .inl ⟨e, by simp only [saveManifest, htext, hwritten]⟩
    · exact .inr ⟨text, rfl, by simp only [saveManifest, htext, hwritten]⟩

/-- A section that changes one record: it is written out, or the save has failed
and the workers are told to stop. -/
theorem changeRecord_cases (s : SchedulerState) (index : Nat)
    (change : TreeFileRecord → TreeFileRecord) (saving : Saving) :
    ∃ manifest : TreeManifest, manifest.files = s.manifest.files.modify index change ∧
      ((∃ e, s.changeRecord index change saving =
          (.error e, { s with manifest := manifest, saveFailed := true }.setFirstErrorLocked
            (.error e))) ∨
        ∃ text, serializeTreeManifest manifest = .ok text ∧
          s.changeRecord index change saving =
            (.ok (), { s with manifest := manifest, disk := text })) := by
  obtain ⟨manifest, hfiles, hsave⟩ := saveManifest_cases { s with manifest :=
    { s.manifest with files := s.manifest.files.modify index change } } saving
  refine ⟨manifest, hfiles, ?_⟩
  rcases hsave with ⟨e, hsave⟩ | ⟨text, htext, hsave⟩
  · exact .inl ⟨e, by simp only [changeRecord, hsave]⟩
  · exact .inr ⟨text, htext, by simp only [changeRecord, hsave, setFirstErrorLocked]⟩

/-- What a call for one index leaves alone, and what it may only add to. -/
structure Frame (index : Nat) (s s' : SchedulerState) : Prop where
  nextIndex : s'.nextIndex = s.nextIndex
  handed : s'.handed = s.handed
  processed : s'.processed = s.processed
  length : s'.manifest.files.length = s.manifest.files.length
  others : ∀ j : Nat, j ≠ index → s'.manifest.files[j]? = s.manifest.files[j]?
  failed : s.Failed → s'.Failed
  stop : s.stop = true → s'.stop = true
  transfers : ∀ j, j ≠ index → j ∈ s'.transfers → j ∈ s.transfers
  slots : ∀ j ∈ s.slots, j ∈ s'.slots

/-- An error is noted, the one at hand or an earlier one. -/
theorem setFirstErrorLocked_error (s : SchedulerState) (e : Status) :
    ∃ e', s.setFirstErrorLocked (.error e) = { s with firstError := .error e', stop := true } := by
  rcases hfirst : s.firstError with e' | u
  · refine ⟨e', ?_⟩
    simp only [setFirstErrorLocked, hfirst]
  · exact ⟨e, by simp only [setFirstErrorLocked, hfirst]⟩

theorem setFirstErrorLocked_failed (s : SchedulerState) (e : Status) :
    (s.setFirstErrorLocked (.error e)).Failed := by
  obtain ⟨e', herror⟩ := setFirstErrorLocked_error s e
  exact ⟨e', by rw [herror]⟩

theorem frame_setFirstError (index : Nat) (status : Except Status Unit) :
    Frame index s (s.setFirstErrorLocked status) := by
  rcases status with e | u
  · obtain ⟨e', herror⟩ := setFirstErrorLocked_error s e
    rw [herror]
    exact ⟨rfl, rfl, rfl, rfl, fun _ _ => rfl, fun _ => ⟨e', rfl⟩, fun _ => rfl, fun _ _ => id,
      fun _ => id⟩
  · exact ⟨rfl, rfl, rfl, rfl, fun _ _ => rfl, id, id, fun _ _ => id, fun _ => id⟩

theorem Frame.trans {s'' : SchedulerState} (h : Frame index s s') (h' : Frame index s' s'') :
    Frame index s s'' where
  nextIndex := h'.nextIndex.trans h.nextIndex
  handed := h'.handed.trans h.handed
  processed := h'.processed.trans h.processed
  length := h'.length.trans h.length
  others j hj := (h'.others j hj).trans (h.others j hj)
  failed hs := h'.failed (h.failed hs)
  stop hs := h'.stop (h.stop hs)
  transfers j hj hmem := h.transfers j hj (h'.transfers j hj hmem)
  slots j hj := h'.slots j (h.slots j hj)

theorem frame_modify {change : TreeFileRecord → TreeFileRecord} {manifest : TreeManifest}
    (hfiles : manifest.files = s.manifest.files.modify index change) (disk : Bytes)
    (saveFailed : Bool) :
    Frame index s { s with manifest := manifest, disk := disk, saveFailed := saveFailed } where
  nextIndex := rfl
  handed := rfl
  processed := rfl
  length := by
    show manifest.files.length = _
    rw [hfiles, List.length_modify]
  others j hj := by
    show manifest.files[j]? = _
    rw [hfiles, List.getElem?_modify_ne _ _ hj.symm]
  failed := id
  stop := id
  transfers _ _ := id
  slots _ := id

theorem frame_changeRecord (s : SchedulerState) (index : Nat)
    (change : TreeFileRecord → TreeFileRecord) (saving : Saving) :
    Frame index s (s.changeRecord index change saving).2 := by
  obtain ⟨manifest, hfiles, ⟨e, h⟩ | ⟨text, -, h⟩⟩ := changeRecord_cases s index change saving
  · rw [h]
    exact (frame_modify hfiles s.disk true).trans (frame_setFirstError index (.error e))
  · rw [h]
    exact frame_modify hfiles text s.saveFailed

theorem frame_acquire (s : SchedulerState) (maxFiles index : Nat) :
    Frame index s (s.acquireTransferSlot maxFiles index).2 := by
  rw [acquireTransferSlot]
  split
  · exact ⟨rfl, rfl, rfl, rfl, fun _ _ => rfl, id, id, fun _ _ => id, fun _ => id⟩
  · split
    · exact ⟨rfl, rfl, rfl, rfl, fun _ _ => rfl, id, fun _ => rfl, fun _ _ => id, fun _ => id⟩
    · exact ⟨rfl, rfl, rfl, rfl, fun _ _ => rfl, id, id, fun _ _ => id,
        fun _ => List.mem_cons_of_mem _⟩

/-! ### The invariant of the shared state -/

/-- The record with this index is completed. -/
def CompletedAt (s : SchedulerState) (index : Nat) : Prop :=
  ∃ record, s.manifest.files[index]? = some record ∧ record.status = .completed

/-- What holds of the shared state, whatever the workers are doing. -/
structure Sound (maxFiles size : Nat) (s : SchedulerState) : Prop where
  length : s.manifest.files.length = size
  handed : s.handed.map Prod.snd = List.range s.nextIndex
  nextIndex : s.nextIndex ≤ size
  processed : ∀ i ∈ s.processed, i < s.nextIndex ∧ s.CompletedAt i
  stopped : s.stop = true → s.stoppedByMaxFiles = true ∨ s.Failed
  transfersNodup : s.transfers.Nodup
  transfersHanded : ∀ i ∈ s.transfers, i < s.nextIndex
  slotCount : maxFiles ≠ 0 → s.slots.length = s.startedTransfers ∧ s.startedTransfers ≤ maxFiles
  slotted : maxFiles ≠ 0 → ∀ i ∈ s.transfers, i ∈ s.slots
  disk : s.saveFailed = false → TreeOnDisk s.disk s.manifest.files

/-- The slot of the worker that has this index. -/
structure PhaseOk (maxFiles index : Nat) (phase : SlotPhase) (s : SchedulerState) : Prop where
  unused : phase ≠ .used → index ∉ s.transfers
  held : phase = .held → maxFiles ≠ 0 → index ∈ s.slots

/-- What holds of a worker's own file. -/
structure Owned (maxFiles index : Nat) (completed : Bool) (phase : SlotPhase)
    (s : SchedulerState) : Prop where
  completed : completed = true → s.CompletedAt index
  phase : PhaseOk maxFiles index phase s

/-- What holds for a worker with a file. -/
structure BusyOk (maxFiles worker index : Nat) (job : Job) (s : SchedulerState) : Prop where
  handed : (worker, index) ∈ s.handed
  unprocessed : index ∉ s.processed
  owned : ∃ completed phase, job.Proper index completed phase ∧
    Owned maxFiles index completed phase s

variable {maxFiles size worker : Nat} {job : Job}

/-- A handed index is below the next one. -/
theorem Sound.lt_of_handed (h : Sound maxFiles size s) {worker i : Nat}
    (hmem : (worker, i) ∈ s.handed) : i < s.nextIndex := by
  have hi : i ∈ s.handed.map Prod.snd := List.mem_map_of_mem hmem
  rwa [h.handed, List.mem_range] at hi

/-- An index has one owner. -/
theorem Sound.owner (h : Sound maxFiles size s) {worker worker' i : Nat}
    (hmem : (worker, i) ∈ s.handed) (hmem' : (worker', i) ∈ s.handed) : worker = worker' := by
  have hnodup : (s.handed.map Prod.snd).Nodup := by
    rw [h.handed]
    exact List.nodup_range
  have heq := List.inj_on_of_nodup_map hnodup hmem hmem' rfl
  exact congrArg Prod.fst heq

theorem CompletedAt.of_eq {i : Nat} (h : s.CompletedAt i)
    (heq : s'.manifest.files[i]? = s.manifest.files[i]?) : s'.CompletedAt i := by
  obtain ⟨record, hrecord, hstatus⟩ := h
  exact ⟨record, heq.trans hrecord, hstatus⟩

/-- A worker with another file notices nothing of a call. -/
theorem BusyOk.frame {i : Nat} (h : BusyOk maxFiles worker i job s) (hne : i ≠ index)
    (hframe : Frame index s s') : BusyOk maxFiles worker i job s' := by
  obtain ⟨completed, phase, hproper, howned⟩ := h.owned
  refine ⟨hframe.handed ▸ h.handed, hframe.processed ▸ h.unprocessed, completed, phase, hproper,
    fun hc => (howned.completed hc).of_eq (hframe.others i hne), fun hp hmem => ?_,
    fun hp hmax => hframe.slots i (howned.phase.held hp hmax)⟩
  exact howned.phase.unused hp (hframe.transfers i hne hmem)

/-- The parts of `Sound` that a call keeps in any case; the rest is about the
fields it changes. -/
theorem Sound.of_frame (h : Sound maxFiles size s) (hframe : Frame index s s')
    (hunprocessed : index ∉ s.processed)
    (hstopped : s'.stop = true → s'.stoppedByMaxFiles = true ∨ s'.Failed)
    (htransfers : s'.transfers.Nodup) (hhanded : ∀ i ∈ s'.transfers, i < s.nextIndex)
    (hcount : maxFiles ≠ 0 →
      s'.slots.length = s'.startedTransfers ∧ s'.startedTransfers ≤ maxFiles)
    (hslotted : maxFiles ≠ 0 → ∀ i ∈ s'.transfers, i ∈ s'.slots)
    (hdisk : s'.saveFailed = false → TreeOnDisk s'.disk s'.manifest.files) :
    Sound maxFiles size s' where
  length := hframe.length.trans h.length
  handed := by rw [hframe.handed, hframe.nextIndex, h.handed]
  nextIndex := by
    rw [hframe.nextIndex]
    exact h.nextIndex
  processed i hi := by
    rw [hframe.processed] at hi
    obtain ⟨hlt, hcompleted⟩ := h.processed i hi
    have hne : i ≠ index := fun heq => hunprocessed (heq ▸ hi)
    exact ⟨hframe.nextIndex ▸ hlt, hcompleted.of_eq (hframe.others i hne)⟩
  stopped := hstopped
  transfersNodup := htransfers
  transfersHanded i hi := by
    rw [hframe.nextIndex]
    exact hhanded i hi
  slotCount := hcount
  slotted := hslotted
  disk := hdisk

/-! ### One call keeps everything -/

theorem Sound.setFirstError (h : Sound maxFiles size s) (status : Except Status Unit) :
    Sound maxFiles size (s.setFirstErrorLocked status) := by
  rcases status with e | u
  · obtain ⟨e', herror⟩ := setFirstErrorLocked_error s e
    rw [herror]
    exact { h with stopped := fun _ => .inr ⟨e', rfl⟩ }
  · exact h

/-- A changed record leaves a sound state and shows in the records; what
concerns the slots is as it was. -/
theorem Sound.changeRecord (h : Sound maxFiles size s) (hunprocessed : index ∉ s.processed)
    (change : TreeFileRecord → TreeFileRecord) (saving : Saving) :
    Sound maxFiles size (s.changeRecord index change saving).2 ∧
      (s.changeRecord index change saving).2.manifest.files =
        s.manifest.files.modify index change ∧
      (s.changeRecord index change saving).2.transfers = s.transfers ∧
      (s.changeRecord index change saving).2.slots = s.slots := by
  have hframe := frame_changeRecord s index change saving
  obtain ⟨manifest, hfiles, ⟨e, hrun⟩ | ⟨text, htext, hrun⟩⟩ :=
    changeRecord_cases s index change saving
  · obtain ⟨e', herror⟩ :=
      setFirstErrorLocked_error { s with manifest := manifest, saveFailed := true } e
    rw [hrun, herror] at hframe
    rw [hrun, herror]
    refine ⟨h.of_frame hframe hunprocessed (fun _ => .inr ⟨e', rfl⟩) h.transfersNodup
      h.transfersHanded h.slotCount h.slotted (fun hsaved => ?_), hfiles, rfl, rfl⟩
    cases hsaved
  · rw [hrun] at hframe
    rw [hrun]
    exact ⟨h.of_frame hframe hunprocessed h.stopped h.transfersNodup h.transfersHanded
      h.slotCount h.slotted (fun _ => ⟨manifest, rfl, .inl htext⟩), hfiles, rfl, rfl⟩

theorem Owned.of_same {completed : Bool} {phase : SlotPhase}
    (h : Owned maxFiles index completed phase s) (hmanifest : s'.manifest = s.manifest)
    (htransfers : s'.transfers = s.transfers) (hslots : s'.slots = s.slots) :
    Owned maxFiles index completed phase s' where
  completed hc := (h.completed hc).of_eq (by rw [hmanifest])
  phase := ⟨fun hp => htransfers ▸ h.phase.unused hp, fun hp hmax => hslots ▸ h.phase.held hp hmax⟩

theorem Sound.owned_changeRecord (h : Sound maxFiles size s) (hunprocessed : index ∉ s.processed)
    (hlt : index < size) {phase : SlotPhase} (hphase : PhaseOk maxFiles index phase s)
    {change : TreeFileRecord → TreeFileRecord} {completed : Bool} (saving : Saving)
    (hchange : ∀ record : TreeFileRecord, completed = true →
      (change record).status = .completed) :
    Owned maxFiles index completed phase (s.changeRecord index change saving).2 := by
  obtain ⟨-, hfiles, htransfers, hslots⟩ := h.changeRecord hunprocessed change saving
  refine ⟨fun hc => ?_, fun hp => ?_, fun hp hmax => ?_⟩
  · have hindex : index < s.manifest.files.length := h.length ▸ hlt
    refine ⟨change s.manifest.files[index], ?_, hchange _ hc⟩
    rw [hfiles, List.getElem?_modify_eq, List.getElem?_eq_getElem hindex]
    rfl
  · rw [htransfers]
    exact hphase.unused hp
  · rw [hslots]
    exact hphase.held hp hmax

/-- A slot is taken or refused. -/
theorem Sound.acquire (h : Sound maxFiles size s) (hunprocessed : index ∉ s.processed)
    {completed : Bool} (howned : Owned maxFiles index completed .fresh s) :
    Sound maxFiles size (s.acquireTransferSlot maxFiles index).2 ∧
      Owned maxFiles index completed
        (Call.acquireTransferSlot.phaseAfter (s.acquireTransferSlot maxFiles index).1 .fresh)
        (s.acquireTransferSlot maxFiles index).2 := by
  have hframe := frame_acquire s maxFiles index
  have hunused : index ∉ s.transfers := howned.phase.unused (by decide)
  rw [acquireTransferSlot] at hframe ⊢
  by_cases hmax : maxFiles = 0
  · rw [if_pos hmax]
    exact ⟨h, howned.completed, fun _ => hunused, fun _ hne => absurd hmax hne⟩
  rw [if_neg hmax] at hframe ⊢
  by_cases hfull : s.startedTransfers ≥ maxFiles
  · rw [if_pos hfull]
    exact ⟨{ h with stopped := fun _ => .inl rfl }, howned.of_same rfl rfl rfl⟩
  rw [if_neg hfull] at hframe ⊢
  obtain ⟨hlength, hle⟩ := h.slotCount hmax
  refine ⟨h.of_frame hframe hunprocessed h.stopped h.transfersNodup h.transfersHanded
    (fun _ => ⟨congrArg (· + 1) hlength, Nat.lt_of_not_ge hfull⟩)
    (fun hne i hi => List.mem_cons_of_mem _ (h.slotted hne i hi)) h.disk,
    howned.completed, fun _ => hunused, fun _ _ => List.mem_cons_self⟩

/-- A transfer that starts is one of those that have a slot. -/
theorem Sound.startTransfer (h : Sound maxFiles size s) (hunprocessed : index ∉ s.processed)
    (hlt : index < s.nextIndex) (hphase : PhaseOk maxFiles index .held s) :
    Sound maxFiles size { s with transfers := index :: s.transfers } ∧
      Frame index s { s with transfers := index :: s.transfers } := by
  have hframe : Frame index s { s with transfers := index :: s.transfers } := by
    refine ⟨rfl, rfl, rfl, rfl, fun _ _ => rfl, id, id, fun j hj hmem => ?_, fun _ => id⟩
    exact (List.mem_cons.mp hmem).resolve_left hj
  refine ⟨h.of_frame hframe hunprocessed h.stopped ?_ ?_ h.slotCount ?_ h.disk, hframe⟩
  · exact List.nodup_cons.mpr ⟨hphase.unused (by decide), h.transfersNodup⟩
  · intro i hi
    rcases List.mem_cons.mp hi with rfl | hi
    · exact hlt
    · exact h.transfersHanded i hi
  · intro hmax i hi
    rcases List.mem_cons.mp hi with rfl | hi
    · exact hphase.held rfl hmax
    · exact h.slotted hmax i hi

/-- **One call**: the shared state stays sound, the worker that calls keeps its
file in order, and no other worker notices. -/
theorem Sound.call (h : Sound maxFiles size s) (hunprocessed : index ∉ s.processed)
    (hlt : index < s.nextIndex) {completed : Bool} {phase : SlotPhase}
    (howned : Owned maxFiles index completed phase s) {β : Type} {c : Call β} {answer : β}
    (hbefore : c.Before index phase) (hrun : c.Runs maxFiles index s answer s') :
    Sound maxFiles size s' ∧
      Owned maxFiles index (c.completedAfter answer completed) (c.phaseAfter answer phase) s' ∧
      Frame index s s' := by
  have hrefl : Frame index s s := ⟨rfl, rfl, rfl, rfl, fun _ _ => rfl, id, id, fun _ _ => id,
    fun _ => id⟩
  have hsize : index < size := Nat.lt_of_lt_of_le hlt h.nextIndex
  cases c with
  | readRecord i =>
      obtain rfl : i = index := hbefore
      obtain ⟨hrecord, rfl⟩ := hrun
      exact ⟨h, ⟨fun hc => ⟨answer, hrecord, of_decide_eq_true hc⟩, howned.phase⟩, hrefl⟩
  | updateRecord i status error =>
      obtain rfl : i = index := hbefore
      obtain ⟨saving, hrun⟩ := hrun
      obtain ⟨rfl, rfl⟩ := Prod.mk.inj hrun
      exact ⟨(h.changeRecord hunprocessed _ saving).1,
        h.owned_changeRecord hunprocessed hsize howned.phase saving
          fun _ hc => of_decide_eq_true hc, frame_changeRecord s i _ saving⟩
  | updateRecordForTransfer i transferId =>
      obtain rfl : i = index := hbefore
      obtain ⟨saving, hrun⟩ := hrun
      obtain ⟨rfl, rfl⟩ := Prod.mk.inj hrun
      exact ⟨(h.changeRecord hunprocessed _ saving).1,
        h.owned_changeRecord hunprocessed hsize howned.phase saving fun _ hc => (by cases hc),
        frame_changeRecord s i _ saving⟩
  | acquireTransferSlot =>
      obtain rfl : phase = .fresh := hbefore
      obtain ⟨rfl, rfl⟩ := Prod.mk.inj hrun
      obtain ⟨hsound, howned⟩ := h.acquire hunprocessed howned
      exact ⟨hsound, howned, frame_acquire s maxFiles index⟩
  | setFirstError status =>
      obtain rfl := hrun
      refine ⟨h.setFirstError status, ?_, frame_setFirstError index status⟩
      rcases status with e | u
      · obtain ⟨e', herror⟩ := setFirstErrorLocked_error s e
        rw [herror]
        exact howned.of_same rfl rfl rfl
      · exact howned
  | startTransfer verb path =>
      obtain rfl : phase = .held := hbefore
      obtain rfl := hrun
      obtain ⟨hsound, hframe⟩ := h.startTransfer hunprocessed hlt howned.phase
      exact ⟨hsound, ⟨howned.completed, fun hp => absurd rfl hp, fun hp => (by cases hp)⟩, hframe⟩
  | countSkipped =>
      obtain rfl := hrun
      exact ⟨{ h with }, howned.of_same rfl rfl rfl, { hrefl with }⟩
  | countCompleted bytes =>
      obtain rfl := hrun
      exact ⟨{ h with }, howned.of_same rfl rfl rfl, { hrefl with }⟩
  | _ =>
      -- the calls outside
      obtain rfl := hrun
      exact ⟨h, howned, hrefl⟩

/-! ### Taking an index and ending a job -/

theorem Sound.take (h : Sound maxFiles size s) (worker : Nat)
    (hnext : s.nextIndex < s.manifest.files.length) : Sound maxFiles size (s.take worker) where
  length := h.length
  handed := by
    show (s.handed ++ [(worker, s.nextIndex)]).map Prod.snd = List.range (s.nextIndex + 1)
    rw [List.map_append, h.handed, List.range_succ]
    rfl
  nextIndex := h.length ▸ hnext
  processed i hi := ⟨Nat.lt_succ_of_lt (h.processed i hi).1, (h.processed i hi).2⟩
  stopped := h.stopped
  transfersNodup := h.transfersNodup
  transfersHanded i hi := Nat.lt_succ_of_lt (h.transfersHanded i hi)
  slotCount := h.slotCount
  slotted := h.slotted
  disk := h.disk

theorem BusyOk.take {i : Nat} (h : BusyOk maxFiles worker i job s) (worker' : Nat) :
    BusyOk maxFiles worker i job (s.take worker') := by
  obtain ⟨completed, phase, hproper, howned⟩ := h.owned
  exact ⟨List.mem_append_left _ h.handed, h.unprocessed, completed, phase, hproper,
    howned.of_same rfl rfl rfl⟩

/-- The worker that took the index starts with nothing done for it. -/
theorem Sound.busy_take (h : Sound maxFiles size s) (worker : Nat)
    (hproper : job.Proper s.nextIndex false .fresh) :
    BusyOk maxFiles worker s.nextIndex job (s.take worker) := by
  refine ⟨List.mem_append_right _ (List.mem_singleton_self _), fun hmem => ?_, false, .fresh,
    hproper, fun hc => (by cases hc), fun _ hmem => ?_, fun hp => (by cases hp)⟩
  · exact absurd (h.processed _ hmem).1 (Nat.lt_irrefl _)
  · exact absurd (h.transfersHanded _ hmem) (Nat.lt_irrefl _)

theorem Sound.succeed (h : Sound maxFiles size s) (hlt : index < s.nextIndex)
    (hcompleted : s.CompletedAt index) :
    Sound maxFiles size { s with processed := index :: s.processed } := by
  refine { h with processed := fun i hi => ?_ }
  rcases List.mem_cons.mp hi with rfl | hi
  · exact ⟨hlt, hcompleted⟩
  · exact h.processed i hi

theorem BusyOk.succeed {i : Nat} (h : BusyOk maxFiles worker i job s) (hne : i ≠ index) :
    BusyOk maxFiles worker i job { s with processed := index :: s.processed } := by
  obtain ⟨completed, phase, hproper, howned⟩ := h.owned
  refine ⟨h.handed, fun hmem => ?_, completed, phase, hproper, howned.of_same rfl rfl rfl⟩
  exact (List.mem_cons.mp hmem).elim hne h.unprocessed

end SchedulerState

/-! ### The invariant of the system -/

namespace TreeScheduler

open SchedulerState

variable {n maxFiles size : Nat} {s : TreeScheduler n}

structure Ok (maxFiles size : Nat) (s : TreeScheduler n) : Prop where
  shared : s.shared.Sound maxFiles size
  busy : ∀ w index job, s.workers w = .busy index job → BusyOk maxFiles w index job s.shared
  left : ∀ w, s.workers w = .done → s.shared.stop = true ∨ size ≤ s.shared.nextIndex
  accounted : ∀ i < s.shared.nextIndex,
    i ∈ s.shared.processed ∨ (∃ w job, s.workers w = .busy i job) ∨ s.shared.Failed

/-- Two workers never have one file. -/
theorem Ok.index_ne (h : s.Ok maxFiles size) {w w' : Fin n} (hne : w' ≠ w) {index index' : Nat}
    {job job' : Job} (hw : s.workers w = .busy index job)
    (hw' : s.workers w' = .busy index' job') : index' ≠ index := by
  rintro rfl
  have howner := h.shared.owner (h.busy w' _ _ hw').handed (h.busy w _ _ hw).handed
  exact hne (Fin.ext howner)

/-- What the other workers and the accounts have to satisfy after a step of one
worker. -/
theorem Ok.of_step (h : s.Ok maxFiles size) {w : Fin n} {shared : SchedulerState}
    {worker : Worker} (hshared : shared.Sound maxFiles size)
    (hown : ∀ index job, worker = .busy index job → BusyOk maxFiles w index job shared)
    (hothers : ∀ w' index job, w' ≠ w → s.workers w' = .busy index job →
      BusyOk maxFiles w' index job shared)
    (hdone : worker = .done → shared.stop = true ∨ size ≤ shared.nextIndex)
    (hstop : s.shared.stop = true → shared.stop = true)
    (hnext : s.shared.nextIndex ≤ shared.nextIndex)
    (haccounted : ∀ i < shared.nextIndex, i ∈ shared.processed ∨
      (∃ job, worker = .busy i job) ∨ (∃ w' job, w' ≠ w ∧ s.workers w' = .busy i job) ∨
        shared.Failed) :
    Ok maxFiles size ⟨shared, Function.update s.workers w worker⟩ where
  shared := hshared
  busy w' index job hw' := by
    change Function.update s.workers w worker w' = _ at hw'
    by_cases heq : w' = w
    · subst heq
      rw [Function.update_self] at hw'
      exact hown index job hw'
    · rw [Function.update_of_ne heq] at hw'
      exact hothers w' index job heq hw'
  left w' hw' := by
    change Function.update s.workers w worker w' = _ at hw'
    by_cases heq : w' = w
    · subst heq
      rw [Function.update_self] at hw'
      exact hdone hw'
    · rw [Function.update_of_ne heq] at hw'
      exact (h.left w' hw').imp hstop fun hle => hle.trans hnext
  accounted i hi := by
    rcases haccounted i hi with hmem | ⟨job, hjob⟩ | ⟨w', job, hne, hw'⟩ | hfailed
    · exact .inl hmem
    · refine .inr (.inl ⟨w, job, ?_⟩)
      show Function.update s.workers w worker w = _
      rw [Function.update_self]
      exact hjob
    · refine .inr (.inl ⟨w', job, ?_⟩)
      show Function.update s.workers w worker w' = _
      rw [Function.update_of_ne hne]
      exact hw'
    · exact .inr (.inr hfailed)

/-- What was accounted for by another worker or in the shared state still is. -/
theorem Ok.accounted_others (h : s.Ok maxFiles size) {w : Fin n} {i : Nat}
    (hi : i < s.shared.nextIndex) (hnot : ∀ job, s.workers w ≠ .busy i job) :
    i ∈ s.shared.processed ∨ (∃ w' job, w' ≠ w ∧ s.workers w' = .busy i job) ∨
      s.shared.Failed := by
  rcases h.accounted i hi with hmem | ⟨w', job, hw'⟩ | hfailed
  · exact .inl hmem
  · refine .inr (.inl ⟨w', job, fun heq => ?_, hw'⟩)
    exact hnot job (heq ▸ hw')
  · exact .inr (.inr hfailed)

/-- **One step of any worker** keeps the invariant. -/
theorem Ok.step (h : s.Ok maxFiles size) {process : Nat → Job}
    (hprocess : ∀ index, (process index).Proper index false .fresh) {w : Fin n}
    {shared : SchedulerState} {worker worker₀ : Worker} (hworker : s.workers w = worker₀)
    (hstep : WorkerStep maxFiles process w s.shared worker₀ shared worker) :
    Ok maxFiles size ⟨shared, Function.update s.workers w worker⟩ := by
  obtain ⟨s₀, workers⟩ := s
  dsimp only at hworker hstep
  cases hstep with
  | leave hleave =>
      refine h.of_step h.shared (fun _ _ hb => (by cases hb))
        (fun w' index job _ hw' => h.busy w' index job hw') (fun _ => ?_) id le_rfl fun i hi => ?_
      · rwa [h.shared.length] at hleave
      · have hnot : ∀ job, workers w ≠ .busy i job := fun job hb => by
          rw [hworker] at hb
          cases hb
        exact (h.accounted_others hi hnot).imp_right .inr
  | take hstop hnext =>
      refine h.of_step (h.shared.take w hnext) (fun index job hb => ?_)
        (fun w' index job _ hw' => (h.busy w' index job hw').take w) (fun hd => (by cases hd)) id
        (Nat.le_succ _) fun i hi => ?_
      · cases hb
        exact h.shared.busy_take w (hprocess _)
      · rcases Nat.lt_succ_iff_lt_or_eq.mp hi with hi | rfl
        · have hnot : ∀ job, workers w ≠ .busy i job := fun job hb => by
            rw [hworker] at hb
            cases hb
          exact (h.accounted_others hi hnot).imp_right .inr
        · exact .inr (.inl ⟨_, rfl⟩)
  | @call _ index β c answer next hrun =>
      have hbusy := h.busy w index _ hworker
      obtain ⟨completed, phase, ⟨hbefore, hnext⟩, howned⟩ := hbusy.owned
      have hlt := h.shared.lt_of_handed hbusy.handed
      obtain ⟨hsound, howned, hframe⟩ :=
        h.shared.call hbusy.unprocessed hlt howned hbefore hrun
      refine h.of_step hsound (fun i job hb => ?_)
        (fun w' i job hne hw' => (h.busy w' i job hw').frame (h.index_ne hne hworker hw') hframe)
        (fun hd => (by cases hd)) hframe.stop hframe.nextIndex.ge fun i hi => ?_
      · cases hb
        exact ⟨hframe.handed ▸ hbusy.handed, hframe.processed ▸ hbusy.unprocessed, _, _,
          hnext answer, howned⟩
      · by_cases heq : i = index
        · exact .inr (.inl ⟨_, by rw [heq]⟩)
        · have hnot : ∀ job, workers w ≠ .busy i job := fun job hb => by
            rw [hworker] at hb
            injection hb with hindex
            exact heq hindex.symm
          rw [hframe.nextIndex] at hi
          rw [hframe.processed]
          rcases h.accounted_others hi hnot with hmem | hother | hfailed
          · exact .inl hmem
          · exact .inr (.inr (.inl hother))
          · exact .inr (.inr (.inr (hframe.failed hfailed)))
  | @succeed index u =>
      have hbusy := h.busy w index _ hworker
      obtain ⟨completed, phase, hproper, howned⟩ := hbusy.owned
      have hlt := h.shared.lt_of_handed hbusy.handed
      refine h.of_step (h.shared.succeed hlt (howned.completed (hproper rfl)))
        (fun _ _ hb => (by cases hb))
        (fun w' i job hne hw' => (h.busy w' i job hw').succeed (h.index_ne hne hworker hw'))
        (fun hd => (by cases hd)) id le_rfl fun i hi => ?_
      by_cases heq : i = index
      · exact .inl (heq ▸ List.mem_cons_self)
      · have hnot : ∀ job, workers w ≠ .busy i job := fun job hb => by
          rw [hworker] at hb
          injection hb with hindex
          exact heq hindex.symm
        rcases h.accounted_others hi hnot with hmem | hother
        · exact .inl (List.mem_cons_of_mem _ hmem)
        · exact .inr (.inr hother)
  | @fail index e =>
      have hframe := frame_setFirstError (s := s₀) index (.error e)
      have hfailed := setFirstErrorLocked_failed s₀ e
      refine h.of_step (h.shared.setFirstError _) (fun _ _ hb => (by cases hb))
        (fun w' i job hne hw' => (h.busy w' i job hw').frame (h.index_ne hne hworker hw') hframe)
        (fun _ => ?_) hframe.stop hframe.nextIndex.ge fun i hi => .inr (.inr (.inr hfailed))
      obtain ⟨e', herror⟩ := setFirstErrorLocked_error s₀ e
      rw [herror]
      exact .inl rfl

theorem workerCount_pos (options : TreeTransferOptions) (files : Nat) :
    0 < workerCount options files := Nat.lt_of_lt_of_le Nat.one_pos (Nat.le_max_left _ _)

/-- **The invariant** of every run of the scheduler. -/
theorem ok_of_reachable {options : TreeTransferOptions} {mode : TreeTransferMode}
    {manifest : TreeManifest} {s : TreeScheduler (workerCount options manifest.files.length)}
    (h : (treeScheduler options mode manifest).Reachable s) :
    s.Ok options.maxFiles manifest.files.length := by
  refine System.Reachable.invariant (I := fun s => s.Ok options.maxFiles manifest.files.length)
    ?_ ?_ h
  · rintro s ⟨disk, hdisk, rfl⟩
    refine ⟨⟨rfl, rfl, Nat.zero_le _, fun i hi => (by cases hi), fun hs => (by cases hs),
      List.nodup_nil, fun i hi => (by cases hi), fun _ => ⟨rfl, Nat.zero_le _⟩,
      fun _ i hi => (by cases hi), fun _ => hdisk⟩, fun _ _ _ hb => (by cases hb),
      fun _ hd => (by cases hd), fun i hi => absurd hi (Nat.not_lt_zero i)⟩
  · rintro w s s' - hs ⟨shared, worker, hstep, rfl⟩
    exact hs.step (processFile_proper mode options) rfl hstep

/-- After a result without an error nothing has been left out. -/
theorem Ok.processed_of_result (h : s.Ok maxFiles size) (hn : 0 < n) (hjoined : s.Joined)
    (hresult : s.shared.result = .ok ()) : ∀ i < size, i ∈ s.shared.processed := by
  have hmax : s.shared.stoppedByMaxFiles = false := by
    by_contra hmax
    rw [SchedulerState.result, if_pos (Bool.eq_true_of_not_eq_false hmax)] at hresult
    cases hresult
  have hfailed : ¬s.shared.Failed := by
    rintro ⟨e, he⟩
    rw [SchedulerState.result, hmax, he] at hresult
    cases hresult
  have hstop : s.shared.stop ≠ true := fun hstop => by
    rcases h.shared.stopped hstop with h' | h'
    · rw [hmax] at h'
      cases h'
    · exact hfailed h'
  have hnext : size ≤ s.shared.nextIndex :=
    (h.left ⟨0, hn⟩ (hjoined _)).resolve_left hstop
  intro i hi
  rcases h.accounted i (Nat.lt_of_lt_of_le hi hnext) with hmem | ⟨w, job, hw⟩ | hf
  · exact hmem
  · rw [hjoined w] at hw
    cases hw
  · exact absurd hf hfailed

theorem Ok.complete (h : s.Ok maxFiles size)
    (hall : ∀ i < size, i ∈ s.shared.processed) :
    isTreeTransferComplete s.shared.manifest = true := by
  rw [isTreeTransferComplete, List.all_eq_true]
  intro record hmem
  obtain ⟨i, hi, rfl⟩ := List.mem_iff_getElem.mp hmem
  obtain ⟨record, hrecord, hstatus⟩ :=
    (h.shared.processed i (hall i (h.shared.length ▸ hi))).2
  rw [List.getElem?_eq_getElem hi] at hrecord
  rw [Option.some.inj hrecord]
  exact decide_eq_true hstatus

/-- Transfers have slots, and no more slots are given than files allowed. -/
theorem Ok.length_transfers (h : s.Ok maxFiles size) (hmax : maxFiles ≠ 0) :
    s.shared.transfers.length ≤ maxFiles := by
  obtain ⟨hlength, hle⟩ := h.shared.slotCount hmax
  calc s.shared.transfers.length ≤ s.shared.slots.length :=
        (h.shared.transfersNodup.subperm (h.shared.slotted hmax)).length_le
    _ = s.shared.startedTransfers := hlength
    _ ≤ maxFiles := hle

end TreeScheduler

/-- **The scheduler accounts for every file**: no index is handed out twice; a
result without an error means that every file was processed and every record is
completed; no more transfers start than allowed; and as long as the saves
succeed, the saved manifest has the records of the one in memory. -/
theorem scheduler_accounts (options : TreeTransferOptions) (mode : TreeTransferMode)
    (manifest : TreeManifest) {s : TreeScheduler (workerCount options manifest.files.length)}
    (h : (treeScheduler options mode manifest).Reachable s) :
    (s.shared.handed.map Prod.snd).Nodup ∧
      (s.Joined → s.shared.result = .ok () →
        (∀ i < manifest.files.length, i ∈ s.shared.processed) ∧
          isTreeTransferComplete s.shared.manifest = true) ∧
      (options.maxFiles ≠ 0 → s.shared.transfers.length ≤ options.maxFiles) ∧
      (s.shared.saveFailed = false →
        TreeOnDisk s.shared.disk s.shared.manifest.files) := by
  have hok := TreeScheduler.ok_of_reachable h
  refine ⟨?_, fun hjoined hresult => ?_, hok.length_transfers, hok.shared.disk⟩
  · rw [hok.shared.handed]
    exact List.nodup_range
  · have hall := hok.processed_of_result (TreeScheduler.workerCount_pos _ _) hjoined hresult
    exact ⟨hall, hok.complete hall⟩

/-! ### Jobs from their beginning to their end -/

/-- The job ends with this status, no other worker moving meanwhile. -/
inductive Job.Ends (maxFiles index : Nat) :
    SchedulerState → Job → Except Status Unit → SchedulerState → Prop
  | finished {s : SchedulerState} {status : Except Status Unit} :
      Ends maxFiles index s (.finished status) status s
  | call {s s' s'' : SchedulerState} {β : Type} {c : Call β} (answer : β) {next : β → Job}
      {status : Except Status Unit} (h : c.Runs maxFiles index s answer s')
      (hrest : Ends maxFiles index s' (next answer) status s'') :
      Ends maxFiles index s (.call c next) status s''

namespace TreeScheduler

section Runs

variable {options : TreeTransferOptions} {mode : TreeTransferMode} {manifest : TreeManifest}
  {workers : Fin (workerCount options manifest.files.length) → Worker}
  {w : Fin (workerCount options manifest.files.length)} {s s' : SchedulerState}

theorem reachable_step (h : (treeScheduler options mode manifest).Reachable ⟨s, workers⟩)
    {worker worker' : Worker} (hw : workers w = worker)
    (hstep : WorkerStep options.maxFiles (processFile mode options) w s worker s' worker') :
    (treeScheduler options mode manifest).Reachable
      ⟨s', Function.update workers w worker'⟩ := by
  refine h.step (l := w) ⟨s', worker', ?_, rfl⟩
  show WorkerStep _ _ _ s (workers w) s' worker'
  rw [hw]
  exact hstep

/-- A job that runs to its end is a run of the scheduler. -/
theorem reachable_ends {index : Nat} {job : Job} {status : Except Status Unit}
    (hends : job.Ends options.maxFiles index s status s')
    (h : (treeScheduler options mode manifest).Reachable ⟨s, workers⟩)
    (hw : workers w = .busy index job) :
    (treeScheduler options mode manifest).Reachable
      ⟨s', Function.update workers w (.busy index (.finished status))⟩ := by
  induction hends generalizing workers with
  | finished =>
      rw [← hw, Function.update_eq_self]
      exact h
  | @call s _ _ _ c answer next _ hrun hrest ih =>
      have hreach := reachable_step h hw (.call hrun)
      have hrest := ih hreach (Function.update_self w _ _)
      rwa [Function.update_idem] at hrest

end Runs

end TreeScheduler

/-! ### A run of two workers -/

/-- A tree of two files, one of them completed in an earlier run. -/
def twoFiles : TreeManifest where
  version := 1
  mode := .upload
  rootLogicalPath := ascii "s"
  checksumAlgorithm := .crc32c
  createdAtUnixNanos := 1
  updatedAtUnixNanos := 1
  files :=
    [⟨ascii "a", 3, 5, ascii "t0", .pending, []⟩, ⟨ascii "b", 4, 6, ascii "t1", .completed, []⟩]

def twoWorkers : TreeTransferOptions where
  sourceDir := ascii "s"
  destDir := ascii "d"
  fileParallelism := 2
  maxFiles := 1

/-- The scheduler when it starts. -/
def twoFilesStart : SchedulerState where
  manifest := twoFiles
  disk := withBodyChecksum (bodyWithoutChecksum twoFiles)

/-- Both indices are taken before a job begins. -/
def twoFilesTaken : SchedulerState := (twoFilesStart.take 0).take 1

/-- The second worker finds its file completed. -/
def twoFilesSkipped : SchedulerState :=
  { twoFilesTaken with skippedFiles := 1, processed := [1] }

/-- The first worker has a slot and has started its transfer. -/
def twoFilesStarted : SchedulerState :=
  { twoFilesSkipped with startedTransfers := 1, slots := [0], transfers := [0] }

def twoFilesTransferring : SchedulerState :=
  (twoFilesStarted.updateRecordForTransfer 0 (ascii "t0") ⟨2, .ok ()⟩).2

def twoFilesCompleted : SchedulerState :=
  (twoFilesTransferring.updateRecord 0 .completed [] ⟨3, .ok ()⟩).2

/-- Both files are processed. -/
def twoFilesDone : SchedulerState :=
  { twoFilesCompleted with completedThisRun := 1, transferredBytes := 3, processed := [0, 1] }

theorem twoFiles_secondJob :
    (processFile .upload twoWorkers 1).Ends 1 1 twoFilesTaken (.ok ())
      { twoFilesTaken with skippedFiles := 1 } := by
  refine .call ⟨ascii "b", 4, 6, ascii "t1", .completed, []⟩ ⟨rfl, rfl⟩ ?_
  refine .call (.ok ⟨4, 6⟩) rfl ?_
  refine .call (.ok ()) rfl ?_
  refine .call (.ok 4) rfl ?_
  exact .call () rfl .finished

theorem twoFiles_firstJob :
    (processFile .upload twoWorkers 0).Ends 1 0 twoFilesSkipped (.ok ())
      { twoFilesCompleted with completedThisRun := 1, transferredBytes := 3 } := by
  refine .call ⟨ascii "a", 3, 5, ascii "t0", .pending, []⟩ ⟨rfl, rfl⟩ ?_
  refine .call (.ok ⟨3, 5⟩) rfl ?_
  refine .call (.ok ()) rfl ?_
  refine .call true rfl ?_
  refine .call (.ok 20200) rfl ?_
  refine .call (.ok (ascii "t0")) rfl ?_
  refine .call (.ok ()) ⟨⟨2, .ok ()⟩, Prod.ext (by decide +kernel) rfl⟩ ?_
  refine .call (.ok ()) rfl ?_
  refine .call (.ok ()) rfl ?_
  refine .call (.ok ()) ⟨⟨3, .ok ()⟩, Prod.ext (by decide +kernel) rfl⟩ ?_
  exact .call () rfl .finished

/-- What the first of the two workers has taken, the second has skipped. -/
theorem twoFiles_joined :
    ∃ workers, (∀ w, workers w = .done) ∧ (treeScheduler twoWorkers .upload twoFiles).Reachable
      ⟨twoFilesDone, workers⟩ := by
  have hdisk : TreeOnDisk twoFilesStart.disk twoFiles.files :=
    ⟨twoFiles, rfl, .inl (by decide +kernel)⟩
  have hstart : (treeScheduler twoWorkers .upload twoFiles).Reachable
      ⟨twoFilesStart, fun _ => .looking⟩ := .initial ⟨_, hdisk, rfl⟩
  let first : Fin (workerCount twoWorkers twoFiles.files.length) := ⟨0, by decide⟩
  let second : Fin (workerCount twoWorkers twoFiles.files.length) := ⟨1, by decide⟩
  have htaken := TreeScheduler.reachable_step (w := second)
    (TreeScheduler.reachable_step (w := first) hstart rfl (.take rfl (by decide))) rfl
    (.take rfl (by decide))
  have hskipped := TreeScheduler.reachable_step (w := second)
    (TreeScheduler.reachable_ends (w := second) twoFiles_secondJob htaken rfl) rfl .succeed
  have hcompleted := TreeScheduler.reachable_step (w := first)
    (TreeScheduler.reachable_ends (w := first) twoFiles_firstJob hskipped rfl) rfl .succeed
  have hleft := TreeScheduler.reachable_step (w := second)
    (TreeScheduler.reachable_step (w := first) hcompleted rfl (.leave (.inr (by decide +kernel))))
    rfl (.leave (.inr (by decide +kernel)))
  refine ⟨_, fun w => ?_, hleft⟩
  have hw : w = first ∨ w = second := by
    obtain ⟨i, hi⟩ := w
    have hi : i < 2 := hi
    interval_cases i
    · exact .inl rfl
    · exact .inr rfl
  rcases hw with rfl | rfl
  · rfl
  · rfl

theorem scheduler_accounts_twoFiles :
    isTreeTransferComplete twoFilesCompleted.manifest = true ∧
      TreeOnDisk twoFilesCompleted.disk twoFilesCompleted.manifest.files := by
  obtain ⟨workers, hjoined, hreach⟩ := twoFiles_joined
  obtain ⟨-, hcomplete, -, hdisk⟩ := scheduler_accounts twoWorkers .upload twoFiles hreach
  have hresult : twoFilesDone.result = .ok () := by decide +kernel
  have hsaved : twoFilesDone.saveFailed = false := by decide +kernel
  exact ⟨(hcomplete hjoined hresult).2, hdisk hsaved⟩

end GridFlux
