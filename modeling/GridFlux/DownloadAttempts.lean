/-
GridFlux/DownloadAttempts.lean

A download over several attempts, client and server together.

Every thread of the client has a connection, and on it a stream of the server
with a queue of what it has still to send: its SESSION_INIT, and once it has been
answered, its frames and the FIN.  The threads take their steps in any order; an
attempt may be cut anywhere, and the next one, which may come from another sender
of the same source, finds the manifest as it was left.  The answers are not
followed: a stream may be answered with any missing ranges.

The client is then served the source (`DownloadState.Ok`).  What is known of
clients of arbitrary servers and of this one is put together in
`download_integrity`.
-/
import GridFlux.HonestDownload

namespace GridFlux

open HalfOpen TextCodec Transition SharedFile

namespace FileDownloadClient

/-! ### Streams -/

/-- A thread that reads a frame next. -/
def Client.reads (c : Client) (index : Nat) : Bool :=
  match c.phase, c.tasks[index]? with
  | .streaming, some .connect => true
  | .streaming, some (.receive _) => true
  | _, _ => false

theorem Client.reads_streaming {c : Client} {index : Nat} (h : c.reads index = true) :
    c.phase = .streaming := by
  rw [reads] at h
  split at h
  · assumption
  · assumption
  · cases h

/-- What is not a frame. -/
def Event.isOwn : Event → Bool
  | .frame _ _ _ => false
  | _ => true

theorem Event.takes_of_isOwn {event : Event} (h : event.isOwn = true) (c : Client) :
    c.takes event = none := by
  cases event with
  | frame index encoded bytes => cases h
  | lost index status => rfl
  | advance index moved => rfl
  | proceed => rfl

/-- A stream of the server; `answered` when it has read the missing ranges. -/
structure ServerStream where
  streamId : Nat
  answered : Bool
  toSend : List (FrameHeader × Bytes)

/-- A download, the sender of its attempt, and the stream on the connection of
each thread. -/
structure DownloadState where
  run : DownloadRun
  sender : Option DownloadSender
  streams : Nat → Option ServerStream

inductive ServedEvent
  | attempt (options : FileDownloadOptions) (sender : DownloadSender) (w : World)
  | connected (index streamId : Nat) (resume : Bool)
  | delivered (index : Nat)
  | answered (index : Nat) (missingRanges : List CompletedRange)
  | client (event : Event)

/-- The downloads of one source, with checksums, to one output path. -/
def servedDownloads (source : Bytes) (path : Path) : System DownloadState ServedEvent where
  initial st := st.run.client = none ∧ st.sender = none ∧ (∀ index, st.streams index = none) ∧
    st.run.world.files (downloadManifestPathForOutput path) = none
  step event st st' :=
    match event with
    | .attempt options sender w =>
        options.path = path ∧ options.checksumAlgorithm = .crc32c ∧ sender.source = source ∧
          (w.files (downloadManifestPathForOutput path) =
              st.run.world.files (downloadManifestPathForOutput path) ∨
            w.files (downloadManifestPathForOutput path) = none) ∧
          st' = ⟨⟨some (.start options w), w, fun _ => [], ∅⟩, some sender, fun _ => none⟩
    | .connected index streamId resume =>
        ∃ sender frame, st.sender = some sender ∧ st.streams index = none ∧
          streamId < sender.connections ∧
          (∀ i s, st.streams i = some s → s.streamId ≠ streamId) ∧
          sender.sessionInitFrame resume streamId = .ok frame ∧
          st' = ⟨st.run, st.sender,
            Function.update st.streams index (some ⟨streamId, false, [frame]⟩)⟩
    | .delivered index =>
        ∃ c s frame rest, st.run.client = some c ∧ c.reads index = true ∧
          st.streams index = some s ∧ s.toSend = frame :: rest ∧
          st' = ⟨st.run.receive c (.frame index (encodeFrameHeader frame.1) frame.2), st.sender,
            Function.update st.streams index (some { s with toSend := rest })⟩
    | .answered index missingRanges =>
        ∃ sender s, st.sender = some sender ∧ st.streams index = some s ∧ s.answered = false ∧
          s.toSend = [] ∧
          st' = ⟨st.run, st.sender, Function.update st.streams index (some { s with
            answered := true
            toSend := sender.streamFrames s.streamId missingRanges })⟩
    | .client event =>
        event.isOwn = true ∧ ∃ c, st.run.client = some c ∧
          st' = ⟨st.run.receive c event, st.sender, st.streams⟩

/-! ### Whole downloads -/

namespace DownloadState

/-- Everything that is still to be sent serves the source. -/
def StreamsServe (source : Bytes) (streams : Nat → Option ServerStream) : Prop :=
  ∀ i s, streams i = some s → ∀ frame ∈ s.toSend, ServedFrom source frame.1 frame.2

theorem StreamsServe.update {source : Bytes} {streams : Nat → Option ServerStream}
    (h : StreamsServe source streams) {index : Nat} {s : ServerStream}
    (hs : ∀ frame ∈ s.toSend, ServedFrom source frame.1 frame.2) :
    StreamsServe source (Function.update streams index (some s)) := by
  intro i s' hs'
  by_cases hi : i = index
  · subst hi
    rw [Function.update_self] at hs'
    rw [← Option.some.inj hs']
    exact hs
  · rw [Function.update_of_ne hi] at hs'
    exact h i s' hs'

/-- What holds of a download. -/
structure Ok (source : Bytes) (path : Path) (st : DownloadState) : Prop where
  run : (downloadAttempts path).Reachable st.run
  sender : ∀ sender, st.sender = some sender → sender.source = source
  streams : StreamsServe source st.streams
  disk : DiskSays parseDownloadManifest st.run.world (downloadManifestPathForOutput path)
    (Manifest.RecordsAre (SourceRecord source))
  client : ∀ c, st.run.client = some c → HonestClient source st.run.gathered c st.run.world
  output : ∀ c, st.run.client = some c → NoCollision (st.run.contents ∪ sourceSegments source) →
    c.phase.afterRename = true →
      st.run.world.files path = some source ∧ ∃ s, c.shared.session = some s

variable {source : Bytes} {path : Path} {st st' : DownloadState} {c : Client} {event : Event}

/-- An event of the client. -/
theorem Ok.receive (h : st.Ok source path) (hc : st.run.client = some c)
    (hserves : Serves source event) (harrives : c.phase ≠ .streaming → c.takes event = none)
    {streams : Nat → Option ServerStream} (hstreams : StreamsServe source streams) :
    Ok source path ⟨st.run.receive c event, st.sender, streams⟩ := by
  have hok := DownloadRun.ok_of_reachable h.run c hc
  have hhonest := (h.client c hc).step hok hserves harrives
  have hpath : (c.step event st.run.world).1.options.path = path := (hok.step event).path
  have hstep : (downloadAttempts path).step (.received event) st.run (st.run.receive c event) :=
    ⟨c, hc, rfl⟩
  refine ⟨h.run.step hstep, h.sender, hstreams, ?_, ?_, ?_⟩
  · rw [← hpath]
    exact hhonest.session.disk
  · rintro _ ⟨⟩
    exact hhonest
  · rintro _ ⟨⟩ hcollision hafter
    have hbefore : NoCollision (st.run.contents ∪ sourceSegments source) :=
      NoCollision.mono hcollision (Set.union_subset_union_left _ (st.run.subset_receive c event))
    exact hok.renamed_source (h.client c hc) hbefore (h.output c hc hbefore) hafter

/-- **A new attempt.** -/
theorem Ok.attempt (h : st.Ok source path) {options : FileDownloadOptions}
    {sender : DownloadSender} {w : World}
    (hstep : (servedDownloads source path).step (.attempt options sender w) st st') :
    st'.Ok source path := by
  obtain ⟨hpath, hcrc, hsource, hmanifest, rfl⟩ := hstep
  have hrun : (downloadAttempts path).step (.attempt options w) st.run
      ⟨some (.start options w), w, fun _ => [], ∅⟩ := ⟨hpath, hcrc, hmanifest, rfl⟩
  have hdisk : DiskSays parseDownloadManifest w (downloadManifestPathForOutput path)
      (Manifest.RecordsAre (SourceRecord source)) := by
    rcases hmanifest with hsame | hnone
    · exact h.disk.congr hsame
    · intro text manifest htext
      rw [hnone] at htext
      cases htext
  obtain ⟨backend, phase, hstart, hphase⟩ := Client.start_eq options w
  refine ⟨h.run.step hrun, ?_, fun i s hs => (by cases hs), hdisk, ?_, ?_⟩
  · rintro _ ⟨⟩
    exact hsource
  · rintro _ ⟨⟩
    rw [hstart]
    refine ⟨fun i task htask => ?_, ?_, fun s hs => (by cases hs)⟩
    · obtain rfl := List.eq_of_mem_replicate (List.mem_of_getElem? htask)
      trivial
    · rw [hpath]
      exact hdisk
  · rintro _ ⟨⟩ - hafter
    rw [hstart] at hafter
    have hafter' : phase.afterRename = true := hafter
    rcases hphase with rfl | ⟨e, rfl⟩
    · cases hafter'
    · cases hafter'

/-- **One step.** -/
theorem Ok.step (h : st.Ok source path) {event : ServedEvent}
    (hstep : (servedDownloads source path).step event st st') : st'.Ok source path := by
  cases event with
  | attempt options sender w => exact h.attempt hstep
  | connected index streamId resume =>
      obtain ⟨sender, frame, hsender, -, -, -, hframe, rfl⟩ := hstep
      refine ⟨h.run, h.sender, h.streams.update fun frame' hframe' => ?_, h.disk, h.client, h.output⟩
      rw [List.mem_singleton.mp hframe', ← h.sender sender hsender]
      exact DownloadSender.sessionInitFrame_served hframe
  | delivered index =>
      obtain ⟨c, s, frame, rest, hc, hreads, hs, hsend, rfl⟩ := hstep
      have hserved := h.streams index s hs
      rw [hsend] at hserved
      obtain ⟨hframe, hrest⟩ := List.forall_mem_cons.mp hserved
      refine h.receive hc ?_ (fun hphase => absurd (Client.reads_streaming hreads) hphase)
        (h.streams.update hrest)
      rintro i encoded bytes header ⟨⟩ hheader
      obtain rfl := Except.ok.inj ((decodeFrameHeader_encode frame.1).symm.trans hheader)
      exact hframe
  | answered index missingRanges =>
      obtain ⟨sender, s, hsender, hs, -, -, rfl⟩ := hstep
      refine ⟨h.run, h.sender, h.streams.update fun frame hframe => ?_, h.disk, h.client, h.output⟩
      rw [← h.sender sender hsender]
      exact DownloadSender.streamFrames_served _ _ frame hframe
  | client event =>
      obtain ⟨hown, c, hc, rfl⟩ := hstep
      refine h.receive hc ?_ (fun _ => Event.takes_of_isOwn hown c) h.streams
      rintro i encoded bytes header rfl
      cases hown

theorem ok_of_reachable (h : (servedDownloads source path).Reachable st) : st.Ok source path := by
  refine h.invariant ?_ ?_
  · rintro st ⟨hclient, hsender, hstreams, hmanifest⟩
    refine ⟨.initial ⟨hclient, hmanifest⟩, fun s hs => ?_, fun i s hs => ?_, ?_, ?_, ?_⟩
    · rw [hsender] at hs
      cases hs
    · rw [hstreams] at hs
      cases hs
    · intro text manifest htext
      rw [hmanifest] at htext
      cases htext
    · intro c hc
      rw [hclient] at hc
      cases hc
    · intro c hc
      rw [hclient] at hc
      cases hc
  · intro event st st' _ hok hstep
    exact hok.step hstep

end DownloadState

/-- **Download integrity.**  Whatever a server sends, a client that comes to the
rename has records that cut the file into disjoint ranges, and a temp file in
which each of them has the checksum recorded.  When the server sends a source,
over any number of attempts, the output is that source after the rename. -/
theorem download_integrity (path : Path) :
    (∀ run, (downloadAttempts path).Reachable run → NoCollision run.contents →
      ∀ c, run.client = some c → c.phase = .freed → ∃ s content, c.Downloaded run.world s content) ∧
    (∀ source st, (servedDownloads source path).Reachable st →
      NoCollision (st.run.contents ∪ sourceSegments source) →
      ∀ c, st.run.client = some c → c.phase.afterRename = true →
        st.run.world.files path = some source ∧
          ∃ s, c.shared.session = some s ∧ s.manifest.totalSize = source.length) := by
  constructor
  · intro run hrun hcollision c hc hphase
    exact (DownloadRun.ok_of_reachable hrun c hc).downloaded hcollision hphase
  · intro source st hst hcollision c hc hafter
    have hok := DownloadState.ok_of_reachable hst
    obtain ⟨hfile, s, hs⟩ := hok.output c hc hcollision hafter
    exact ⟨hfile, s, hs, ((hok.client c hc).session.session s hs).1⟩

/-! ### A download of one byte -/

/-- The segment of a chunk that a thread is about to record. -/
def DownloadRun.endedSegments (run : DownloadRun) (c : Client) : Event → List (Segment UInt8)
  | .advance index _ =>
      match c.tasks[index]? with
      | some (.write stream [] (some _)) => [⟨stream.activeChunkOffset, run.gathered index⟩]
      | _ => []
  | _ => []

/-- The segments a session finds when the event opens it. -/
def DownloadRun.foundSegments (c c' : Client) (w : World) : List (Segment UInt8) :=
  match c.shared.sessionReady, c'.shared.session with
  | false, some s => s.records.map fun record =>
      ⟨record.offset, World.slice ((w.files s.manifest.tempPath).getD []) record.offset record.length⟩
  | _, _ => []

theorem DownloadRun.receive_contents (run : DownloadRun) (c : Client) (event : Event) :
    (run.receive c event).contents ⊆ run.contents ∪ { seg | seg ∈ run.endedSegments c event ++
      foundSegments c (c.step event run.world).1 (c.step event run.world).2 } := by
  rintro seg ((hold | hended) | hfound)
  · exact Or.inl hold
  · obtain ⟨index, moved, stream, payload, rfl, htask, rfl⟩ := hended
    refine Or.inr (List.mem_append_left _ ?_)
    rw [endedSegments, htask]
    exact List.mem_singleton_self _
  · obtain ⟨hbefore, -, s, content, hs, hfile, record, hrecord, rfl⟩ := hfound
    refine Or.inr (List.mem_append_right _ ?_)
    rw [foundSegments, hbefore, hs]
    refine List.mem_map.mpr ⟨record, hrecord, ?_⟩
    rw [hfile]
    rfl

namespace DownloadState

/-- The client takes an event. -/
def take (st : DownloadState × List (Segment UInt8)) (event : Event)
    (streams : Nat → Option ServerStream) : DownloadState × List (Segment UInt8) :=
  match st.1.run.client with
  | none => st
  | some c =>
      let (c', w') := c.step event st.1.run.world
      (⟨st.1.run.receive c event, st.1.sender, streams⟩,
        st.2 ++ (st.1.run.endedSegments c event ++ DownloadRun.foundSegments c c' w'))

/-- A download with one connection after an event, with the segments of its run
so far; an attempt starts on the files there are, and an event that cannot
happen is left out. -/
def follow (source : Bytes) (path : Path) (st : DownloadState × List (Segment UInt8)) :
    ServedEvent → DownloadState × List (Segment UInt8)
  | .attempt options sender _ =>
      if options.path = path ∧ options.checksumAlgorithm = .crc32c ∧ sender.source = source then
        (⟨⟨some (.start options st.1.run.world), st.1.run.world, fun _ => [], ∅⟩, some sender,
          fun _ => none⟩, [])
      else st
  | .connected index streamId resume =>
      match st.1.sender, st.1.streams 0 with
      | some sender, none =>
          match sender.sessionInitFrame resume streamId with
          | .error _ => st
          | .ok frame =>
              if index = 0 ∧ streamId < sender.connections then
                (⟨st.1.run, st.1.sender,
                  Function.update st.1.streams index (some ⟨streamId, false, [frame]⟩)⟩, st.2)
              else st
      | _, _ => st
  | .delivered index =>
      match st.1.run.client, st.1.streams index with
      | some c, some s =>
          match s.toSend with
          | [] => st
          | frame :: rest =>
              if c.reads index then
                take st (.frame index (encodeFrameHeader frame.1) frame.2)
                  (Function.update st.1.streams index (some { s with toSend := rest }))
              else st
      | _, _ => st
  | .answered index missingRanges =>
      match st.1.sender, st.1.streams index with
      | some sender, some s =>
          if s.answered = false ∧ s.toSend = [] then
            (⟨st.1.run, st.1.sender, Function.update st.1.streams index (some { s with
              answered := true
              toSend := sender.streamFrames s.streamId missingRanges })⟩, st.2)
          else st
      | _, _ => st
  | .client event => if event.isOwn then take st event st.1.streams else st

/-- A download that has been followed. -/
structure Followed (source : Bytes) (path : Path) (st : DownloadState × List (Segment UInt8)) :
    Prop where
  reachable : (servedDownloads source path).Reachable st.1
  contents : st.1.run.contents ⊆ { seg | seg ∈ st.2 }
  single : ∀ i, i ≠ 0 → st.1.streams i = none

section Follow

variable {source : Bytes} {path : Path} {st : DownloadState × List (Segment UInt8)}

theorem Followed.take (h : Followed source path st) {c : Client} (hc : st.1.run.client = some c)
    {event : Event} {streams : Nat → Option ServerStream}
    (hreachable : (servedDownloads source path).Reachable
      ⟨st.1.run.receive c event, st.1.sender, streams⟩)
    (hsingle : ∀ i, i ≠ 0 → streams i = none) : Followed source path (take st event streams) := by
  rw [DownloadState.take, hc]
  refine ⟨hreachable, fun seg hseg => ?_, hsingle⟩
  rcases st.1.run.receive_contents c event hseg with hold | hnew
  · exact List.mem_append_left _ (h.contents hold)
  · exact List.mem_append_right _ hnew

theorem Followed.update (h : Followed source path st) {index : Nat} {s s' : ServerStream}
    (hs : st.1.streams index = some s) :
    ∀ i, i ≠ 0 → Function.update st.1.streams index (some s') i = none := by
  intro i hi
  have hindex : index = 0 := by
    by_contra hne
    rw [h.single index hne] at hs
    cases hs
  rw [hindex, Function.update_of_ne hi]
  exact h.single i hi

theorem Followed.follow (h : Followed source path st) (event : ServedEvent) :
    Followed source path (follow source path st event) := by
  cases event with
  | attempt options sender w =>
      rw [DownloadState.follow]
      split
      · rename_i hguard
        obtain ⟨hpath, hcrc, hsource⟩ := hguard
        have hstep : (servedDownloads source path).step (.attempt options sender st.1.run.world)
            st.1 ⟨⟨some (.start options st.1.run.world), st.1.run.world, fun _ => [], ∅⟩,
              some sender, fun _ => none⟩ := ⟨hpath, hcrc, hsource, Or.inl rfl, rfl⟩
        exact ⟨h.reachable.step hstep, Set.empty_subset _, fun _ _ => rfl⟩
      · exact h
  | connected index streamId resume =>
      rw [DownloadState.follow]
      split
      · rename_i sender hsender hnone
        split
        · exact h
        · rename_i frame hframe
          split
          · rename_i hguard
            obtain ⟨rfl, hlt⟩ := hguard
            have hfree : ∀ i s, st.1.streams i = some s → s.streamId ≠ streamId := by
              intro i s hs
              by_cases hi : i = 0
              · rw [hi, hnone] at hs
                cases hs
              · rw [h.single i hi] at hs
                cases hs
            have hstep : (servedDownloads source path).step (.connected 0 streamId resume) st.1
                ⟨st.1.run, st.1.sender,
                  Function.update st.1.streams 0 (some ⟨streamId, false, [frame]⟩)⟩ :=
              ⟨sender, frame, hsender, hnone, hlt, hfree, hframe, rfl⟩
            refine ⟨h.reachable.step hstep, h.contents, fun i hi => ?_⟩
            show Function.update st.1.streams 0 _ i = none
            rw [Function.update_of_ne hi]
            exact h.single i hi
          · exact h
      · exact h
  | delivered index =>
      rw [DownloadState.follow]
      split
      · rename_i c s hc hs
        split
        · exact h
        · rename_i frame rest hsend
          split
          · rename_i hreads
            have hstep : (servedDownloads source path).step (.delivered index) st.1
                ⟨st.1.run.receive c (.frame index (encodeFrameHeader frame.1) frame.2),
                  st.1.sender, Function.update st.1.streams index (some { s with toSend := rest })⟩ :=
              ⟨c, s, frame, rest, hc, hreads, hs, hsend, rfl⟩
            exact h.take hc (h.reachable.step hstep) (h.update hs)
          · exact h
      · exact h
  | answered index missingRanges =>
      rw [DownloadState.follow]
      split
      · rename_i sender s hsender hs
        split
        · rename_i hguard
          have hstep : (servedDownloads source path).step (.answered index missingRanges) st.1
              ⟨st.1.run, st.1.sender, Function.update st.1.streams index (some { s with
                answered := true
                toSend := sender.streamFrames s.streamId missingRanges })⟩ :=
            ⟨sender, s, hsender, hs, hguard.1, hguard.2, rfl⟩
          exact ⟨h.reachable.step hstep, h.contents, h.update hs⟩
        · exact h
      · exact h
  | client event =>
      rw [DownloadState.follow]
      split
      · rename_i hown
        cases hc : st.1.run.client with
        | none =>
            rw [DownloadState.take, hc]
            exact h
        | some c =>
            have hstep : (servedDownloads source path).step (.client event) st.1
                ⟨st.1.run.receive c event, st.1.sender, st.1.streams⟩ := ⟨hown, c, hc, rfl⟩
            exact h.take hc (h.reachable.step hstep) h.single
      · exact h

end Follow

end DownloadState

/-- A sender of the byte `66`. -/
def oneByteSender : DownloadSender where
  transferId := ascii "t"
  source := [66]
  chunkSize := 1
  connections := 1
  bufferSize := 32
  checksumBackend := .software
  hardware := false
  addressable := by decide
  buffered := by decide
  sourcePath := ascii "s"

/-- The client that replaces an old output takes the byte, up to the rename. -/
def oneByteDownload : List ServedEvent :=
  [.attempt replacing oneByteSender oldOutput, .connected 0 0 false, .delivered 0] ++
    List.replicate 2 (.client (.advance 0 1)) ++ [.answered 0 [⟨0, 1⟩], .delivered 0] ++
    List.replicate 2 (.client (.advance 0 1)) ++ [.delivered 0, .client (.advance 0 1),
      .delivered 0, .client .proceed, .client .proceed]

def oneByteBefore : DownloadState :=
  ⟨⟨none, oldOutput, fun _ => [], ∅⟩, none, fun _ => none⟩

def oneByteAfter (events : List ServedEvent) : DownloadState × List (Segment UInt8) :=
  events.foldl (DownloadState.follow [66] (ascii "o")) (oneByteBefore, [])

theorem oneByteAfter_followed (events : List ServedEvent) :
    DownloadState.Followed [66] (ascii "o") (oneByteAfter events) := by
  have hstart : DownloadState.Followed [66] (ascii "o") (oneByteBefore, []) :=
    ⟨.initial ⟨rfl, rfl, fun _ => rfl, by decide +kernel⟩, Set.empty_subset _, fun _ _ => rfl⟩
  rw [oneByteAfter]
  generalize (oneByteBefore, []) = st at hstart
  induction events generalizing st with
  | nil => exact hstart
  | cons event events ih => exact ih _ (hstart.follow event)

/-- The contents of such a download do not collide. -/
theorem oneByteAfter_noCollision {events : List ServedEvent}
    (hsegments : (oneByteAfter events).2 = [⟨0, [66]⟩]) :
    NoCollision ((oneByteAfter events).1.run.contents ∪ sourceSegments [66]) := by
  have hone : ∀ seg ∈ (oneByteAfter events).1.run.contents ∪ sourceSegments [66],
      seg.data = [] ∨ seg.data = [66] := by
    rintro seg (hseg | ⟨hend, hdata⟩)
    · have hmem := (oneByteAfter_followed events).contents hseg
      rw [Set.mem_ofPred_eq, hsegments, List.mem_singleton] at hmem
      rw [hmem]
      exact Or.inr rfl
    · have hle : seg.offset + seg.data.length ≤ 1 := hend
      by_cases hnil : seg.data = []
      · exact Or.inl hnil
      · have hpos := List.length_pos_iff.mpr hnil
        refine Or.inr ?_
        rw [hdata, show seg.offset = 0 by omega, show seg.data.length = 1 by omega]
        rfl
  intro a ha b hb _ hlength _
  rcases hone a ha with ha' | ha'
  · rw [ha', List.length_nil] at hlength
    rw [ha', List.length_eq_zero_iff.mp hlength.symm]
  · rcases hone b hb with hb' | hb'
    · rw [ha', hb'] at hlength
      cases hlength
    · rw [ha', hb']

/-- How far the client is. -/
def DownloadRun.inPhase (run : DownloadRun) (test : Phase → Bool) : Bool :=
  run.client.any fun c => test c.phase

theorem DownloadRun.inPhase_iff {run : DownloadRun} {test : Phase → Bool} :
    run.inPhase test = true ↔ ∃ c, run.client = some c ∧ test c.phase = true := by
  rw [inPhase, Option.any_eq_true]

/-- Is the client about to rename? -/
def Phase.isFreed : Phase → Bool
  | .freed => true
  | _ => false

theorem Phase.isFreed_iff {phase : Phase} : phase.isFreed = true ↔ phase = .freed := by
  cases phase with
  | freed => exact ⟨fun _ => rfl, fun _ => rfl⟩
  | streaming => exact ⟨fun h => (by cases h), fun h => (by cases h)⟩
  | checked => exact ⟨fun h => (by cases h), fun h => (by cases h)⟩
  | renamed => exact ⟨fun h => (by cases h), fun h => (by cases h)⟩
  | returned status afterRename => exact ⟨fun h => (by cases h), fun h => (by cases h)⟩

/-- The byte is in the temp file when the client comes to the rename, and then
in the output. -/
theorem download_integrity_oneByte :
    (∃ c s content, (oneByteAfter oneByteDownload).1.run.client = some c ∧
      c.Downloaded (oneByteAfter oneByteDownload).1.run.world s content) ∧
    (oneByteAfter (oneByteDownload ++ [.client .proceed])).1.run.world.files (ascii "o") =
      some [66] := by
  have hfreed : (oneByteAfter oneByteDownload).1.run.inPhase Phase.isFreed = true ∧
      (oneByteAfter oneByteDownload).2 = [⟨0, [66]⟩] := by
    decide +kernel
  have hrenamed : (oneByteAfter (oneByteDownload ++ [.client .proceed])).1.run.inPhase
        Phase.afterRename = true ∧
      (oneByteAfter (oneByteDownload ++ [.client .proceed])).2 = [⟨0, [66]⟩] := by
    decide +kernel
  obtain ⟨hany, hserved⟩ := download_integrity (ascii "o")
  constructor
  · obtain ⟨c, hc, hphase⟩ := DownloadRun.inPhase_iff.mp hfreed.1
    have hok := DownloadState.ok_of_reachable (oneByteAfter_followed oneByteDownload).reachable
    obtain ⟨s, content, hdownloaded⟩ := hany _ hok.run
      (NoCollision.mono (oneByteAfter_noCollision hfreed.2) Set.subset_union_left) c hc
      (Phase.isFreed_iff.mp hphase)
    exact ⟨c, s, content, hc, hdownloaded⟩
  · obtain ⟨c, hc, hafter⟩ := DownloadRun.inPhase_iff.mp hrenamed.1
    exact (hserved [66] _ (oneByteAfter_followed _).reachable
      (oneByteAfter_noCollision hrenamed.2) c hc hafter).1

end FileDownloadClient

end GridFlux
