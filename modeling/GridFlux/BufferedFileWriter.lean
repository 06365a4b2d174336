/-
GridFlux/BufferedFileWriter.lean

`storage::BufferedFileWriter` (`storage/file_io.cpp`): consecutive small writes
are collected in a buffer and written together.

`write` and `flush` return the `pwrite`s they make, in order, together with the
writer once all of them are done; the transfer ends at the first one that
fails.  `World.runWrites` makes them one after the other.  Keeping the two
apart lets a receiver with several threads make them piece by piece.

`Holds` says what a writer has buffered of a segment that arrives in order;
`Holds.write` and `Holds.flush` are the two ways it changes.  For calls in any
order, the file with the pending buffer laid over it is at every point what
direct writes would have made of it (`bufferedFileWriter_refines`).
-/
import GridFlux.SharedFile
import GridFlux.World

namespace GridFlux

open SharedFile

inductive PosixWriteStrategy
  | auto
  | direct
  | coalesced
deriving DecidableEq, Repr

inductive FileIoAdvice
  | off
  | sequential
  | noreuse
  | dontNeed
  | sequentialDontNeed
deriving DecidableEq, Repr

/-- `FileIoConfig`, for the POSIX backend. -/
structure FileIoConfig where
  bufferSize : Nat := 0
  queueDepth : Nat := 1
  batchSize : Nat := 1
  advice : FileIoAdvice := .off
  posixWriteStrategy : PosixWriteStrategy := .auto
deriving DecidableEq, Repr

def validateFileIoConfig (config : FileIoConfig) : Except Status Unit := do
  require (¬(config.queueDepth = 0 ∨ config.queueDepth > 256))
    (.invalidArgument (ascii "file IO queue depth must be in range 1..256"))
  require (¬(config.batchSize = 0 ∨ config.batchSize > 256))
    (.invalidArgument (ascii "file IO batch size must be in range 1..256"))
  require (¬(config.posixWriteStrategy = .coalesced ∧ config.bufferSize = 0))
    (.invalidArgument (ascii "posix write strategy coalesced requires --file-io-buffer-size > 0"))

/-- One `posix_fadvise`. -/
def World.posixFadvise (w : World) : Effect Unit :=
  match w.nextOutcome with
  | .failure e _ => (.error (.systemError (ascii "posix_fadvise") e), w.afterCall)
  | .success => (.ok (), w.afterCall)

/-- `applyFileIoAdvice` for the range `[0, length)` of an open file. -/
def World.applyFileIoAdvice (w : World) (advice : FileIoAdvice) (length : Nat) : Effect Unit :=
  if advice = .off then (.ok (), w)
  else if length > World.kMaxOffset then
    (.error (.invalidArgument (ascii "file IO advice range exceeds off_t range")), w)
  else
    match w.posixFadvise with
    | (.error e, w) => (.error e, w)
    | (.ok _, w) => if advice = .sequentialDontNeed then w.posixFadvise else (.ok (), w)

theorem World.posixFadvise_frame (w : World) : World.Frame ∅ w w.posixFadvise.2 := by
  rw [World.posixFadvise]
  cases w.nextOutcome with
  | failure e moved => exact World.Frame.afterCall _ w
  | success => exact World.Frame.afterCall _ w

theorem World.applyFileIoAdvice_frame (w : World) (advice : FileIoAdvice) (length : Nat) :
    World.Frame ∅ w (w.applyFileIoAdvice advice length).2 := by
  rw [World.applyFileIoAdvice]
  split
  · exact World.Frame.refl w
  · split
    · exact World.Frame.refl w
    · have hfirst := w.posixFadvise_frame
      rcases h : w.posixFadvise with ⟨e | _, w'⟩
      · rw [h] at hfirst
        exact hfirst
      · rw [h] at hfirst
        show World.Frame ∅ w (if _ then _ else _ : Effect Unit).2
        split
        · exact hfirst.trans w'.posixFadvise_frame
        · exact hfirst

/-- `effectivePosixWriteStrategy`. -/
def effectivePosixWriteStrategy (config : FileIoConfig) : PosixWriteStrategy :=
  match config.posixWriteStrategy with
  | .direct => .direct
  | .coalesced => .coalesced
  | .auto => if config.bufferSize > 0 then .coalesced else .direct

/-- One `writeAtAll`. -/
structure WriteJob where
  offset : Nat
  data : Bytes
deriving DecidableEq, Repr

/-- The writer: the size of its buffer, and the bytes in it with their
offset. -/
structure BufferedFileWriter where
  bufferSize : Nat
  bufferOffset : Nat
  buffered : Bytes
deriving DecidableEq, Repr

namespace BufferedFileWriter

/-- The constructor. -/
def new (config : FileIoConfig) : BufferedFileWriter where
  bufferSize := if effectivePosixWriteStrategy config = .coalesced then config.bufferSize else 0
  bufferOffset := 0
  buffered := []

def canAppend (b : BufferedFileWriter) (offset length : Nat) : Bool :=
  b.bufferSize ≠ 0 ∧ b.buffered ≠ [] ∧ offset = b.bufferOffset + b.buffered.length ∧
    b.buffered.length + length ≤ b.bufferSize

/-- The `writeAtAll` a flush makes, if there is anything to write. -/
def flushJobs (b : BufferedFileWriter) : List WriteJob :=
  if b.buffered = [] then [] else [⟨b.bufferOffset, b.buffered⟩]

def flushed (b : BufferedFileWriter) : BufferedFileWriter := { b with buffered := [] }

def flush (b : BufferedFileWriter) : List WriteJob × BufferedFileWriter :=
  (b.flushJobs, b.flushed)

/-- The buffer with the new bytes behind the old ones, written out if full. -/
def fill (b : BufferedFileWriter) (data : Bytes) : List WriteJob × BufferedFileWriter :=
  let b' : BufferedFileWriter := { b with buffered := b.buffered ++ data }
  if b'.buffered.length = b'.bufferSize then b'.flush else ([], b')

def write (b : BufferedFileWriter) (offset : Nat) (data : Bytes) :
    List WriteJob × BufferedFileWriter :=
  if data = [] then ([], b)
  else if b.bufferSize = 0 ∨ data.length > b.bufferSize then
    (b.flushJobs ++ [⟨offset, data⟩], b.flushed)
  else if b.canAppend offset data.length then b.fill data
  else
    let r := { b.flushed with bufferOffset := offset }.fill data
    (b.flushJobs ++ r.1, r.2)

/-! ### A segment that arrives in order -/

/-- `jobs` write the segment from position `a` up to position `b`, each job a
part of it. -/
inductive Writes (seg : Segment UInt8) : List WriteJob → Nat → Nat → Prop
  | nil {a : Nat} : Writes seg [] a a
  | cons {job : WriteJob} {jobs : List WriteJob} {b : Nat} (hpart : seg.Part job.offset job.data)
      (h : Writes seg jobs (job.offset + job.data.length) b) :
      Writes seg (job :: jobs) job.offset b

theorem Writes.append {seg : Segment UInt8} {jobs jobs' : List WriteJob} {a b c : Nat}
    (h : Writes seg jobs a b) (h' : Writes seg jobs' b c) : Writes seg (jobs ++ jobs') a c := by
  induction h with
  | nil => exact h'
  | cons hpart _ ih => exact .cons hpart (ih h')

theorem Writes.le {seg : Segment UInt8} {jobs : List WriteJob} {a b : Nat}
    (h : Writes seg jobs a b) : a ≤ b := by
  induction h with
  | nil => exact le_rfl
  | cons _ _ ih => omega

/-- Every position on the way is written by one of the jobs. -/
theorem Writes.exists_job {seg : Segment UInt8} {jobs : List WriteJob} {a b x : Nat}
    (h : Writes seg jobs a b) (hx : x ∈ Set.Ico a b) :
    ∃ job ∈ jobs, x ∈ Set.Ico job.offset (job.offset + job.data.length) := by
  induction h with
  | nil => exact absurd hx.1 (Nat.not_le.mpr hx.2)
  | @cons job jobs b _ _ ih =>
      by_cases hlt : x < job.offset + job.data.length
      · exact ⟨job, List.mem_cons_self .., hx.1, hlt⟩
      · obtain ⟨job', hjob', hmem⟩ := ih ⟨Nat.not_lt.mp hlt, hx.2⟩
        exact ⟨job', List.mem_cons_of_mem _ hjob', hmem⟩

theorem Writes.parts {seg : Segment UInt8} {jobs : List WriteJob} {a b : Nat}
    (h : Writes seg jobs a b) : ∀ job ∈ jobs, seg.Part job.offset job.data := by
  induction h with
  | nil => exact fun _ hjob => (List.not_mem_nil hjob).elim
  | cons hpart _ ih => exact List.forall_mem_cons.mpr ⟨hpart, ih⟩

/-- The first job is made up to `moved` bytes of it; the rest goes on from there. -/
theorem Writes.advance {seg : Segment UInt8} {job : WriteJob} {jobs : List WriteJob} {a b : Nat}
    (h : Writes seg (job :: jobs) a b) (moved : Nat) :
    ∃ mid, Writes seg [⟨job.offset, job.data.take moved⟩] a mid ∧
      Writes seg (if moved < job.data.length then ⟨job.offset + moved, job.data.drop moved⟩ :: jobs
        else jobs) mid b := by
  cases h with
  | cons hpart hrest =>
      have hfirst := @Writes.cons seg ⟨job.offset, job.data.take moved⟩ [] _ (hpart.take moved) .nil
      refine ⟨_, hfirst, ?_⟩
      show Writes seg _ (job.offset + (job.data.take moved).length) b
      rw [List.length_take]
      split
      · rename_i hlt
        rw [Nat.min_eq_left hlt.le]
        apply Writes.cons (hpart.drop moved hlt.le)
        show Writes seg jobs (job.offset + moved + (job.data.drop moved).length) b
        rw [List.length_drop, Nat.add_assoc, Nat.add_sub_of_le hlt.le]
        exact hrest
      · rename_i hge
        rw [Nat.min_eq_right (Nat.not_lt.mp hge)]
        exact hrest

/-- The writer has buffered the segment from `written` to its end, and nothing
else. -/
structure Holds (b : BufferedFileWriter) (seg : Segment UInt8) (written : Nat) : Prop where
  ends : written + b.buffered.length = seg.end
  part : seg.Part written b.buffered
  offset : b.buffered ≠ [] → b.bufferOffset = written

/-- With an empty buffer the whole segment has been written. -/
theorem holds_end {b : BufferedFileWriter} (h : b.buffered = []) (seg : Segment UInt8) :
    b.Holds seg seg.end :=
  ⟨by rw [h]; rfl, by rw [h]; exact seg.part_nil, fun hne => (hne h).elim⟩

theorem Holds.flushJobs {b : BufferedFileWriter} {seg : Segment UInt8} {written : Nat}
    (h : b.Holds seg written) : Writes seg b.flushJobs written seg.end := by
  rw [BufferedFileWriter.flushJobs]
  split
  · rename_i hnil
    rw [← h.ends, hnil]
    exact .nil
  · rename_i hne
    have hpart := h.part
    rw [← h.offset hne] at hpart
    have hcons := @Writes.cons _ ⟨b.bufferOffset, b.buffered⟩ _ _ hpart .nil
    rw [h.offset hne] at hcons ⊢
    rw [← h.ends]
    exact hcons

/-- **`flush`** writes the rest of the segment. -/
theorem Holds.flush {b : BufferedFileWriter} {seg : Segment UInt8} {written : Nat}
    (h : b.Holds seg written) :
    Writes seg b.flush.1 written seg.end ∧ b.flush.2.buffered = [] :=
  ⟨h.flushJobs, rfl⟩

/-- Filling the buffer with what comes next. -/
theorem Holds.fill {b : BufferedFileWriter} {offset : Nat} {sofar data : Bytes} {written : Nat}
    (h : b.Holds ⟨offset, sofar⟩ written) (hoffset : b.bufferOffset = written) :
    ∃ written', Writes ⟨offset, sofar ++ data⟩ (b.fill data).1 written written' ∧
      (b.fill data).2.Holds ⟨offset, sofar ++ data⟩ written' := by
  have hends : written + b.buffered.length = offset + sofar.length := h.ends
  have hfull : ({ b with buffered := b.buffered ++ data } : BufferedFileWriter).Holds
      ⟨offset, sofar ++ data⟩ written := by
    refine ⟨?_, ?_, fun _ => hoffset⟩
    · show written + (b.buffered ++ data).length = offset + (sofar ++ data).length
      rw [List.length_append, List.length_append]
      omega
    · have hle : offset ≤ written := h.part.le
      refine ⟨hle, ?_, fun x hx hx' => ?_⟩
      · show written + (b.buffered ++ data).length ≤ offset + (sofar ++ data).length
        rw [List.length_append, List.length_append]
        omega
      · by_cases hold : x < written + b.buffered.length
        · show (b.buffered ++ data)[x - written]? = _
          rw [List.getElem?_append_left (by omega)]
          exact (Segment.Part.append h.part).agrees x hx hold
        · show (b.buffered ++ data)[x - written]? = _
          have hnew := (Segment.part_append_right offset sofar data).agrees x (by omega)
            (by
              rw [List.length_append] at hx'
              omega)
          rw [List.getElem?_append_right (by omega), ← hnew]
          congr 1
          omega
  rw [BufferedFileWriter.fill]
  dsimp only
  split
  · obtain ⟨hwrites, hempty⟩ := hfull.flush
    exact ⟨_, hwrites, holds_end hempty _⟩
  · exact ⟨written, .nil, hfull⟩

/-- **`write`** of the next bytes of a segment: what it writes continues the
segment, and the writer holds the rest. -/
theorem Holds.write {b : BufferedFileWriter} {offset : Nat} {sofar data : Bytes} {written : Nat}
    (h : b.Holds ⟨offset, sofar⟩ written) :
    ∃ written', Writes ⟨offset, sofar ++ data⟩ (b.write (offset + sofar.length) data).1
        written written' ∧
      (b.write (offset + sofar.length) data).2.Holds ⟨offset, sofar ++ data⟩ written' := by
  -- what the old buffer still has to write is a part of the longer segment too
  have hflush : Writes ⟨offset, sofar ++ data⟩ b.flushJobs written (offset + sofar.length) := by
    have hold := h.flushJobs
    rw [BufferedFileWriter.flushJobs] at hold ⊢
    split
    · rename_i hnil
      rw [if_pos hnil] at hold
      have hends := h.ends
      rw [hnil] at hends
      rw [show offset + sofar.length = written from hends.symm]
      exact .nil
    · rename_i hne
      have hpart := (h.part.append : (Segment.mk offset (sofar ++ data)).Part written b.buffered)
      rw [← h.offset hne] at hpart
      have hcons := @Writes.cons _ ⟨b.bufferOffset, b.buffered⟩ _ _ hpart .nil
      have hends : written + b.buffered.length = offset + sofar.length := h.ends
      rw [h.offset hne] at hcons ⊢
      rw [← hends]
      exact hcons
  rw [BufferedFileWriter.write]
  split
  · rename_i hnil
    subst hnil
    rw [List.append_nil]
    exact ⟨written, .nil, h⟩
  · split
    · -- the bytes go straight to the file, behind the old buffer
      have hpart := Segment.part_append_right offset sofar data
      have hcons := @Writes.cons _ ⟨offset + sofar.length, data⟩ _ _ hpart .nil
      refine ⟨offset + (sofar ++ data).length, hflush.append ?_, holds_end rfl _⟩
      rw [List.length_append, ← Nat.add_assoc]
      exact hcons
    · split
      · rename_i happend
        simp only [canAppend, decide_eq_true_eq] at happend
        exact h.fill (h.offset happend.2.1)
      · -- a new buffer begins at the new bytes
        have hempty : ({ b.flushed with bufferOffset := offset + sofar.length } :
            BufferedFileWriter).Holds ⟨offset, sofar⟩ (offset + sofar.length) := holds_end rfl _
        obtain ⟨written', hwrites, hholds⟩ := hempty.fill rfl
        exact ⟨written', hflush.append hwrites, hholds⟩

end BufferedFileWriter

/-! ### Making the writes -/

namespace World

/-- The `writeAtAll`s of a list of jobs, up to the first that fails. -/
def runWrites (w : World) (path : Path) : List WriteJob → Effect Unit
  | [] => (.ok (), w)
  | job :: jobs =>
      match w.writeAtAll path job.offset job.data with
      | (.error e, w) => (.error e, w)
      | (.ok _, w) => w.runWrites path jobs

theorem runWrites_frame (w : World) (path : Path) (jobs : List WriteJob) :
    Frame {path} w (w.runWrites path jobs).2 := by
  induction jobs generalizing w with
  | nil => exact (Frame.refl w).mono (Set.empty_subset _)
  | cons job jobs ih =>
      have hwrite := w.writeAtAll_frame path job.offset job.data
      rw [runWrites]
      rcases h : w.writeAtAll path job.offset job.data with ⟨e | _, w'⟩
      · rw [h] at hwrite
        exact hwrite
      · rw [h] at hwrite
        exact hwrite.trans (ih w')

theorem patch_eq_overwrite (content : Bytes) (offset : Nat) (data : Bytes) :
    patch content offset data = overwrite 0 content offset data := rfl

/-- A write leaves the file patched with the data, or with a first part of it
when it fails. -/
theorem writeAtAll_files {w : World} {path : Path} {offset : Nat} {data content : Bytes}
    (hfile : w.files path = some content) :
    ∃ moved, (w.writeAtAll path offset data).2.files path =
        some (if data.take moved = [] then content else patch content offset (data.take moved)) ∧
      ((w.writeAtAll path offset data).1 = .ok () → data.length ≤ moved) := by
  rw [writeAtAll]
  split
  · rename_i hnil
    exact ⟨0, by simp [hfile], fun _ => by simp [hnil]⟩
  · rename_i hne
    split
    · exact ⟨0, by simp [hfile], fun h => by cases h⟩
    · cases w.nextOutcome with
      | failure e moved => exact ⟨moved, by simp [hfile], fun h => by cases h⟩
      | success => exact ⟨data.length, by simp [hfile, hne], fun _ => le_rfl⟩

/-- **Writing parts of segments** rewrites the file with them, even when it fails
half way, and covers what it has been asked to write when it succeeds. -/
theorem runWrites_rewritten {w : World} {path : Path} {jobs : List WriteJob} {content : Bytes}
    {segs : Set (Segment UInt8)} {bound : Nat} (hfile : w.files path = some content)
    (hparts : ∀ job ∈ jobs, ∃ seg ∈ segs, seg.Part job.offset job.data ∧
      job.offset + job.data.length ≤ bound) :
    ∃ content', (w.runWrites path jobs).2.files path = some content' ∧
      Rewritten 0 segs bound content content' ∧
      ((w.runWrites path jobs).1 = .ok () → ∀ job ∈ jobs,
        Covered segs (Set.Ico job.offset (job.offset + job.data.length)) content') := by
  induction jobs generalizing w content with
  | nil => exact ⟨content, hfile, .refl, fun _ _ hjob => (List.not_mem_nil hjob).elim⟩
  | cons job jobs ih =>
      obtain ⟨⟨seg, hseg, hpart, hbound⟩, hrest⟩ := List.forall_mem_cons.mp hparts
      obtain ⟨moved, hfiles, hall⟩ := @writeAtAll_files w path job.offset job.data content hfile
      have hlen := List.length_take_le' moved job.data
      have hstep : Rewritten 0 segs bound content (if job.data.take moved = [] then content
          else patch content job.offset (job.data.take moved)) := by
        split
        · exact .refl
        · exact Rewritten.refl.overwrite hseg (hpart.take moved) (by omega)
      rw [runWrites]
      rcases h : w.writeAtAll path job.offset job.data with ⟨e | _, w₁⟩
      · rw [h] at hfiles
        exact ⟨_, hfiles, hstep, fun h => by cases h⟩
      · rw [h] at hfiles hall
        obtain ⟨content', hfile', hrewritten, hok⟩ := ih hfiles hrest
        refine ⟨content', hfile', hstep.trans hrewritten, fun hr => ?_⟩
        refine List.forall_mem_cons.mpr ⟨?_, hok hr⟩
        -- the whole of the first job has been written, and stays covered
        apply hrewritten.covered subset_rfl
        rw [List.take_of_length_le (hall rfl)]
        split
        · rename_i hnil
          rw [hnil]
          intro x hx
          exact absurd hx.1 (Nat.not_le.mpr hx.2)
        · intro x hx
          exact (covered_empty segs content).overwrite 0 hseg hpart x (Or.inr hx)

/-- Writing a stretch of a segment. -/
theorem runWrites_of_writes {w : World} {path : Path} {jobs : List WriteJob} {content : Bytes}
    {seg : Segment UInt8} {a b : Nat} (hfile : w.files path = some content)
    (h : BufferedFileWriter.Writes seg jobs a b) :
    ∃ content', (w.runWrites path jobs).2.files path = some content' ∧
      Rewritten 0 {seg} seg.end content content' ∧
      ((w.runWrites path jobs).1 = .ok () → Covered {seg} (Set.Ico a b) content') := by
  obtain ⟨content', hfile', hrewritten, hok⟩ := @runWrites_rewritten w path jobs content {seg}
    seg.end hfile fun job hjob => ⟨seg, rfl, h.parts job hjob, (h.parts job hjob).le_end⟩
  refine ⟨content', hfile', hrewritten, fun hr x hx => ?_⟩
  obtain ⟨job, hjob, hmem⟩ := h.exists_job hx
  exact hok hr job hjob x hmem

end World

/-! ### The writer against direct writes -/

/-- The content after one `writeAtAll` that succeeds; an empty one touches
nothing. -/
def directWrite (content : Bytes) (job : WriteJob) : Bytes :=
  if job.data = [] then content else World.patch content job.offset job.data

/-- The content after several, in order. -/
def directWrites (content : Bytes) (jobs : List WriteJob) : Bytes := jobs.foldl directWrite content

@[simp] theorem directWrites_nil (content : Bytes) : directWrites content [] = content := rfl

@[simp] theorem directWrites_cons (content : Bytes) (job : WriteJob) (jobs : List WriteJob) :
    directWrites content (job :: jobs) = directWrites (directWrite content job) jobs := rfl

theorem directWrites_append (content : Bytes) (jobs jobs' : List WriteJob) :
    directWrites content (jobs ++ jobs') = directWrites (directWrites content jobs) jobs' :=
  List.foldl_append

/-- Writes that succeed are direct writes. -/
theorem World.runWrites_direct {w w' : World} {path : Path} {jobs : List WriteJob}
    {content : Bytes} (hfile : w.files path = some content)
    (h : w.runWrites path jobs = (.ok (), w')) :
    w'.files path = some (directWrites content jobs) := by
  induction jobs generalizing w content with
  | nil =>
      obtain ⟨-, rfl⟩ := Prod.mk.inj h
      exact hfile
  | cons job jobs ih =>
      obtain ⟨moved, hfiles, hall⟩ := @World.writeAtAll_files w path job.offset job.data content hfile
      rw [World.runWrites] at h
      rcases hwrite : w.writeAtAll path job.offset job.data with ⟨e | _, w₁⟩
      · rw [hwrite] at h
        cases h
      · rw [hwrite] at h hfiles hall
        rw [List.take_of_length_le (hall rfl)] at hfiles
        exact ih hfiles h

namespace BufferedFileWriter

/-- The file with the pending bytes of the writer laid over it. -/
def overlay (b : BufferedFileWriter) (content : Bytes) : Bytes := directWrites content b.flushJobs

/-- With an empty buffer there is nothing to lay over. -/
theorem overlay_empty {b : BufferedFileWriter} (h : b.buffered = []) (content : Bytes) :
    b.overlay content = content := by
  rw [overlay, BufferedFileWriter.flushJobs, if_pos h]
  rfl

theorem overlay_pending {b : BufferedFileWriter} (h : b.buffered ≠ []) (content : Bytes) :
    b.overlay content = World.patch content b.bufferOffset b.buffered := by
  rw [overlay, BufferedFileWriter.flushJobs, if_neg h]
  show directWrite content ⟨b.bufferOffset, b.buffered⟩ = _
  rw [directWrite, if_neg h]

/-- A flush puts the overlay into the file. -/
theorem overlay_flush (b : BufferedFileWriter) (content : Bytes) :
    directWrites content b.flush.1 = b.overlay content ∧
      b.flush.2.overlay (directWrites content b.flush.1) = b.overlay content :=
  ⟨rfl, overlay_empty rfl _⟩

/-- Whether the buffer is written out when it is full makes no difference. -/
theorem overlay_fill (b : BufferedFileWriter) {data : Bytes} (hdata : data ≠ [])
    (content : Bytes) :
    (b.fill data).2.overlay (directWrites content (b.fill data).1) =
      World.patch content b.bufferOffset (b.buffered ++ data) := by
  have hpending : ({ b with buffered := b.buffered ++ data } : BufferedFileWriter).overlay content =
      World.patch content b.bufferOffset (b.buffered ++ data) := by
    apply overlay_pending
    exact fun hnil => hdata (List.append_eq_nil_iff.mp hnil).2
  rw [fill]
  dsimp only
  split
  · exact (overlay_flush _ content).2.trans hpending
  · exact hpending

/-- **One `write`**, seen through the overlay, is a direct write. -/
theorem overlay_write (b : BufferedFileWriter) (offset : Nat) (data content : Bytes) :
    (b.write offset data).2.overlay (directWrites content (b.write offset data).1) =
      directWrite (b.overlay content) ⟨offset, data⟩ := by
  rw [write, directWrite]
  split
  · rfl
  · rename_i hdata
    split
    · -- past the buffer, behind what it held
      rw [directWrites_append]
      show b.flushed.overlay (directWrite (b.overlay content) ⟨offset, data⟩) = _
      rw [overlay_empty rfl, directWrite, if_neg hdata]
    · split
      · rename_i happend
        simp only [canAppend, decide_eq_true_eq] at happend
        obtain ⟨-, hheld, hoffset, -⟩ := happend
        rw [overlay_fill b hdata, overlay_pending hheld, hoffset]
        exact (SharedFile.overwrite_overwrite_append 0 content b.buffered b.bufferOffset data).symm
      · -- the old buffer goes to the file, a new one begins
        dsimp only
        rw [directWrites_append, overlay_fill _ hdata]
        rfl

end BufferedFileWriter

/-- `write` calls one after the other, up to the first that fails. -/
def World.writeCalls (w : World) (path : Path) (b : BufferedFileWriter) :
    List WriteJob → Except Status Unit × BufferedFileWriter × World
  | [] => (.ok (), b, w)
  | call :: calls =>
      match w.runWrites path (b.write call.offset call.data).1 with
      | (.error e, w) => (.error e, b, w)
      | (.ok _, w) => w.writeCalls path (b.write call.offset call.data).2 calls

/-- **All calls.**  The file with the overlay is the file after direct writes. -/
theorem World.writeCalls_overlay {w w' : World} {path : Path} {b b' : BufferedFileWriter}
    {calls : List WriteJob} {content : Bytes} (hfile : w.files path = some content)
    (h : w.writeCalls path b calls = (.ok (), b', w')) :
    ∃ content', w'.files path = some content' ∧
      b'.overlay content' = directWrites (b.overlay content) calls := by
  induction calls generalizing w b content with
  | nil =>
      simp only [World.writeCalls, Prod.mk.injEq, true_and] at h
      obtain ⟨rfl, rfl⟩ := h
      exact ⟨content, hfile, rfl⟩
  | cons call calls ih =>
      rw [World.writeCalls] at h
      rcases hrun : w.runWrites path (b.write call.offset call.data).1 with ⟨e | _, w₁⟩
      · rw [hrun] at h
        cases h
      · rw [hrun] at h
        obtain ⟨content', hfile', hoverlay⟩ := ih (World.runWrites_direct hfile hrun) h
        refine ⟨content', hfile', ?_⟩
        rw [hoverlay, b.overlay_write]
        rfl

/-- There is one content that the calls make when they are performed directly,
wherever they are; that stands in the file with the pending buffer laid over it;
and that a flush leaves in the file. -/
def AgreesWithDirect (path : Path) (content : Bytes) (calls : List WriteJob)
    (b : BufferedFileWriter) (w : World) : Prop :=
  ∃ reference : Bytes,
    (∀ v v' : World, v.files path = some content → v.runWrites path calls = (.ok (), v') →
      v'.files path = some reference) ∧
    (∃ content', w.files path = some content' ∧ b.overlay content' = reference) ∧
    (∀ w' : World, w.runWrites path b.flush.1 = (.ok (), w') → w'.files path = some reference)

/-- **The writer refines direct writes**, whatever the configuration, the file
and the calls are, as long as the writes underneath succeed. -/
theorem bufferedFileWriter_refines (config : FileIoConfig) {path : Path} {content : Bytes}
    {w w' : World} (hfile : w.files path = some content) {calls : List WriteJob}
    {b : BufferedFileWriter}
    (h : w.writeCalls path (BufferedFileWriter.new config) calls = (.ok (), b, w')) :
    AgreesWithDirect path content calls b w' := by
  obtain ⟨content', hfile', hoverlay⟩ := World.writeCalls_overlay hfile h
  have hempty : (BufferedFileWriter.new config).buffered = [] := rfl
  rw [BufferedFileWriter.overlay_empty hempty] at hoverlay
  refine ⟨directWrites content calls, ?_, ⟨content', hfile', hoverlay⟩, ?_⟩
  · intro v v' hv hrun
    exact World.runWrites_direct hv hrun
  · intro w'' hflush
    rw [World.runWrites_direct hfile' hflush, (b.overlay_flush content').1, hoverlay]

/-- A file `f` of two bytes. -/
def twoByteFile : World := .withFiles fun path => if path = ascii "f" then some [7, 7] else none

/-- Contiguous, then back over what is buffered, then past a gap. -/
def scatteredCalls : List WriteJob :=
  [⟨1, [1, 2]⟩, ⟨3, [3]⟩, ⟨0, [9]⟩, ⟨5, []⟩, ⟨6, [4, 4, 4, 4, 4]⟩, ⟨2, [8]⟩]

theorem bufferedFileWriter_refines_scattered :
    AgreesWithDirect (ascii "f") [7, 7] scatteredCalls
      (twoByteFile.writeCalls (ascii "f") (.new { bufferSize := 4 }) scatteredCalls).2.1
      (twoByteFile.writeCalls (ascii "f") (.new { bufferSize := 4 }) scatteredCalls).2.2 :=
  @bufferedFileWriter_refines { bufferSize := 4 } _ _ twoByteFile _ rfl _ _ rfl

end GridFlux
