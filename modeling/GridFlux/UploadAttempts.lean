/-
GridFlux/UploadAttempts.lean

An upload over several attempts, client and server together.

Each stream of the client has a connection and a queue of what it has still to
send: the header and payload of its SESSION_INIT, and once it has read the
answer, its frames for the missing ranges and the FIN.  The receiver takes the
queues in any interleaving; an attempt may be cut anywhere, and the next one
finds the manifest and the temp file as they are.

The receiver then only takes payloads of this client (`UploadState.delivers`), so
whenever it comes to the rename, the temp file is the source
(`upload_resumes`).  This takes that the first attempt finds no temp file of the
transfer that is longer than the source: a session that is resumed does not cut
it to size (`upload_resumes_longer`).
-/
import GridFlux.HonestUpload

namespace GridFlux

open HalfOpen TextCodec Transition SharedFile

open FileTransferServer

/-! ### Streams -/

/-- A frame on connection `index`, as its header and its payload arrive. -/
def arrivals (index : Nat) (frame : FrameHeader × Bytes) : List Event :=
  .header index (encodeFrameHeader frame.1) ::
    if frame.2 = [] then [] else [.payload index frame.2]

/-- A stream of the client; `answered` when it has read the missing ranges, and
`toSend` is still to arrive at the server. -/
structure ClientStream where
  streamId : Nat
  answered : Bool
  toSend : List Event

/-- What `sendSessionInitAndReadMissingRanges` takes for an answer on connection
`index`. -/
def ResumeAnswer (sent : List SentFrame) (index : Nat) (missingRanges : List CompletedRange) : Prop :=
  ∃ f ∈ sent, f.connection = index ∧ f.header.type = .resumeResponse ∧
    decodeResumeResponsePayload f.payload = .ok ⟨.ok, missingRanges⟩

structure UploadState where
  run : UploadRun
  streams : List ClientStream

inductive ClientEvent
  | attempt (options : FileTransferOptions) (w : World)
  | connected (streamId : Nat) (resume : Bool)
  | delivered (index : Nat)
  | answered (index : Nat) (missingRanges : List CompletedRange)
  | server (event : Event)

/-- The attempts of a client at one output path, when the first one finds `temp`
as the temp file of the transfer. -/
def uploadAttempts (client : UploadClient) (path : Path) (temp : Option Bytes) :
    System UploadState ClientEvent where
  initial st := st.streams = [] ∧ st.run.receiver = none ∧
    st.run.world.files (manifestPathForOutput path) = none ∧
    st.run.world.files (tempPathForOutput path client.transferId) = temp
  step event st st' :=
    match event with
    | .attempt options w =>
        options.path = path ∧ options.checksumAlgorithm = .crc32c ∧
          options.connections = client.connections ∧
          w.files (manifestPathForOutput path) =
            st.run.world.files (manifestPathForOutput path) ∧
          w.files (tempPathForOutput path client.transferId) =
            st.run.world.files (tempPathForOutput path client.transferId) ∧
          ∃ r w', Receiver.start options w = (.ok r, w') ∧
            st' = ⟨⟨some r, w', fun _ => [], ∅, false⟩, []⟩
    | .connected streamId resume =>
        ∃ r frame, st.run.receiver = some r ∧ r.phase = .receiving ∧
          r.connections.length < r.options.connections ∧ streamId < client.connections ∧
          (∀ s ∈ st.streams, s.streamId ≠ streamId) ∧
          client.sessionInitFrame resume streamId = .ok frame ∧
          st' = ⟨st.run.receive r .accepted,
            st.streams ++ [⟨streamId, false, arrivals st.streams.length frame⟩]⟩
    | .delivered index =>
        ∃ r s event rest, st.run.receiver = some r ∧ st.streams[index]? = some s ∧
          s.toSend = event :: rest ∧
          st' = ⟨st.run.receive r event, st.streams.set index { s with toSend := rest }⟩
    | .answered index missingRanges =>
        ∃ r s, st.run.receiver = some r ∧ st.streams[index]? = some s ∧ s.answered = false ∧
          s.toSend = [] ∧ ResumeAnswer r.transfer.sent index missingRanges ∧
          st' = ⟨st.run, st.streams.set index { s with
            answered := true
            toSend := (client.streamFrames s.streamId missingRanges).flatMap
              (arrivals index) }⟩
    | .server event =>
        (event = .proceed ∨ ∃ status, event = .lost status) ∧
          ∃ r, st.run.receiver = some r ∧ st' = ⟨st.run.receive r event, st.streams⟩

/-! ### What arrives -/

/-- Header and payload of frames on connection `i`. -/
def FileTransferServer.Event.On (i : Nat) : Event → Prop
  | .header j _ => j = i
  | .payload j _ => j = i
  | _ => False

theorem on_of_mem_arrivals {i : Nat} {frames : List (FrameHeader × Bytes)} :
    ∀ event ∈ frames.flatMap (arrivals i), event.On i := by
  intro event hevent
  obtain ⟨frame, -, hmem⟩ := List.mem_flatMap.mp hevent
  rw [arrivals] at hmem
  rcases List.mem_cons.mp hmem with rfl | hmem
  · rfl
  · split at hmem
    · cases hmem
    · rw [List.mem_singleton.mp hmem]
      rfl

/-- A frame that waits for a payload has one. -/
theorem validateFrameHeader_payload {header : FrameHeader} {maxPayloadSize : UInt32} {u : Unit}
    (h : validateFrameHeader header maxPayloadSize = .ok u)
    (htype : header.type = .sessionInit ∨ header.type = .data ∨ header.type = .chunkComplete) :
    header.payloadSize ≠ 0 := by
  rw [validateFrameHeader] at h
  simp only [bind_eq_ok, require_eq_ok] at h
  obtain ⟨_, -, _, -, _, -, _, -, _, -, h⟩ := h
  rcases htype with htype | htype | htype
  · simp only [htype, bind_eq_ok, require_eq_ok] at h
    exact h.choose_spec.1
  · simp only [htype, bind_eq_ok, require_eq_ok] at h
    obtain ⟨_, -, _, hsize, -⟩ := h
    exact hsize
  · simp only [htype, bind_eq_ok, require_eq_ok] at h
    exact h.choose_spec.1

namespace UploadClient

variable (client : UploadClient)

/-- A connection and what is still to arrive on it: honest frames, after the
payload of the frame the connection is in. -/
inductive Aligned (i : Nat) (c : FileServerConnection) : List Event → Prop
  | header (hstate : c.readState = .header) (frames : List (FrameHeader × Bytes))
      (hframes : ∀ frame ∈ frames, client.Honest frame.1 frame.2) :
      Aligned i c (frames.flatMap (arrivals i))
  | payload (hstate : c.readState = .payload) (bytes : Bytes)
      (hhonest : client.Honest c.currentHeader bytes) (frames : List (FrameHeader × Bytes))
      (hframes : ∀ frame ∈ frames, client.Honest frame.1 frame.2) :
      Aligned i c (.payload i bytes :: frames.flatMap (arrivals i))
  | done (hstate : c.readState = .done) (events : List Event)
      (hon : ∀ event ∈ events, event.On i) : Aligned i c events

variable {client} {i : Nat} {c : FileServerConnection} {event : Event} {rest : List Event}

theorem Aligned.on {events : List Event} (h : client.Aligned i c events) :
    ∀ event ∈ events, event.On i := by
  cases h with
  | header hstate frames hframes => exact on_of_mem_arrivals
  | payload hstate bytes hhonest frames hframes =>
      exact List.forall_mem_cons.mpr ⟨rfl, on_of_mem_arrivals⟩
  | done hstate events hon => exact hon

/-- The payload that arrives is one of the client's. -/
theorem Aligned.delivers (h : client.Aligned i c (event :: rest)) {r : Receiver}
    (hc : r.connections[i]? = some c) : client.Delivers r event := by
  intro j d bytes htakes
  obtain ⟨rfl, hd, hstate, -⟩ := Receiver.takes_ok htakes
  obtain rfl : j = i := h.on _ List.mem_cons_self
  obtain rfl := Option.some.inj (hc.symm.trans hd)
  generalize hevents : Event.payload j bytes :: rest = events at h
  cases h with
  | header hstate' frames hframes =>
      rw [hstate] at hstate'
      cases hstate'
  | payload hstate' bytes' hhonest frames hframes =>
      obtain ⟨hbytes, -⟩ := List.cons.inj hevents
      obtain ⟨-, rfl⟩ := Event.payload.inj hbytes
      exact hhonest
  | done hstate' events hon =>
      rw [hstate] at hstate'
      cases hstate'

/-- **What arrives on a connection leaves it in line** with what comes after. -/
theorem Aligned.deliver (h : client.Aligned i c (event :: rest)) {r : Receiver} {w : World}
    (hconnections : r.ConnectionsOk) (hphase : r.phase = .receiving)
    (hc : r.connections[i]? = some c)
    (hphase' : (r.step event w).1.phase = .receiving) :
    ∃ c', (r.step event w).1.connections = r.connections.set i c' ∧ client.Aligned i c' rest := by
  have hstep : r.step event w = r.receive event w := by
    unfold Receiver.step
    rw [hphase]
  rw [hstep] at hphase' ⊢
  have habort : ∀ (r : Receiver) (e : TransferError) (w' : World),
      (r.abort e w').1.phase ≠ .receiving := by
    intro r e w' hreceiving
    rw [(r.abort_returned e w').1] at hreceiving
    cases hreceiving
  rw [Receiver.receive.eq_def] at hphase' ⊢
  have hon := h.on
  generalize hevents : event :: rest = events at h hon
  cases h with
  | header hstate frames hframes =>
      cases frames with
      | nil => cases hevents
      | cons frame frames =>
          obtain ⟨hframe, hframes⟩ := List.forall_mem_cons.mp hframes
          rw [List.flatMap_cons, arrivals, List.cons_append] at hevents
          obtain ⟨rfl, rfl⟩ := List.cons.inj hevents
          simp only [hc, if_pos hstate] at hphase' ⊢
          cases hheader : processCompletedHeader r.options c r.transfer
            (encodeFrameHeader frame.1) with
          | error e =>
              simp only [hheader] at hphase'
              exact absurd hphase' (habort r e w)
          | ok result =>
              obtain ⟨c', t⟩ := result
              refine ⟨c', rfl, ?_⟩
              obtain ⟨header, c₁, t₁, hdecode, hvalid, -, hstream, htaken⟩ :=
                processCompletedHeader_ok hheader
              obtain rfl := Except.ok.inj ((decodeFrameHeader_encode frame.1).symm.trans hdecode)
              have hwaits : frame.1.type = .sessionInit ∨ frame.1.type = .data ∨
                  frame.1.type = .chunkComplete → frame.2 ≠ [] := by
                intro htype hnil
                apply validateFrameHeader_payload hvalid htype
                rw [← UInt32.toNat_inj, ← hframe.length, hnil]
                rfl
              cases htaken with
              | sessionInit htype =>
                  rw [if_neg (hwaits (Or.inl htype))]
                  exact .payload rfl frame.2 hframe frames hframes
              | fin htype hready hidle =>
                  exact .done rfl _ fun e he => hon e (List.mem_cons_of_mem _ he)
              | chunk htype hready =>
                  rw [if_neg (hwaits (Or.inr htype))]
                  exact .payload rfl frame.2 hframe frames hframes
  | payload hstate bytes hhonest frames hframes =>
      obtain ⟨rfl, rfl⟩ := List.cons.inj hevents
      have hlength := hhonest.length
      simp only [hc, if_pos (And.intro hstate hlength)] at hphase' ⊢
      rcases hresult : processCompletedPayload r.options i c r.transfer bytes w
        with ⟨e | _, c', t, w'⟩
      · simp only [hresult] at hphase'
        exact absurd hphase' (habort _ e w')
      · refine ⟨c', rfl, .header ?_ frames hframes⟩
        cases processCompletedPayload_taken hresult (hconnections.ok i c hc) hstate with
        | sessionInit htype hinit hframe hactive => rfl
        | data htype hactive hb hnext hrun => rfl
        | chunkComplete htype hactive hcheck hrun hchecksum hrecord => rfl
  | done hstate events hon' =>
      subst hevents
      -- a connection that has sent its FIN reads nothing any more
      refine ⟨c, ?_, .done hstate rest fun e he => hon e (List.mem_cons_of_mem _ he)⟩
      have hself : r.connections = r.connections.set i c := by
        obtain ⟨hlt, hget⟩ := List.getElem?_eq_some_iff.mp hc
        rw [← hget, List.set_getElem_self]
      have hevent := hon event List.mem_cons_self
      cases event with
      | header j encoded =>
          obtain rfl : j = i := hevent
          simp only [hc, hstate, reduceCtorEq, if_false]
          exact hself
      | payload j bytes =>
          obtain rfl : j = i := hevent
          simp only [hc, hstate, reduceCtorEq, false_and, if_false]
          exact hself
      | accepted => cases hevent
      | lost status => cases hevent
      | proceed => cases hevent

/-- Every connection is in line with its stream. -/
structure InLine (client : UploadClient) (r : Receiver) (streams : List ClientStream) : Prop where
  length : streams.length = r.connections.length
  aligned : ∀ i c s, r.connections[i]? = some c → streams[i]? = some s →
    client.Aligned i c s.toSend

namespace InLine

variable {r : Receiver} {w : World} {streams : List ClientStream} {s : ClientStream}

theorem exists_connection (h : client.InLine r streams) (hs : streams[i]? = some s) :
    ∃ c, r.connections[i]? = some c ∧ client.Aligned i c s.toSend := by
  obtain ⟨hlt, -⟩ := List.getElem?_eq_some_iff.mp hs
  rw [h.length] at hlt
  have hc := List.getElem?_eq_getElem hlt
  exact ⟨_, hc, h.aligned i _ s hc hs⟩

/-- What is at the head of a stream is the client's. -/
theorem delivers (h : client.InLine r streams) (hs : streams[i]? = some s)
    (hsend : s.toSend = event :: rest) : client.Delivers r event := by
  obtain ⟨c, hc, haligned⟩ := h.exists_connection hs
  rw [hsend] at haligned
  exact haligned.delivers hc

/-- The event at the head of a stream. -/
theorem deliver (h : client.InLine r streams) (hs : streams[i]? = some s)
    (hsend : s.toSend = event :: rest) (hconnections : r.ConnectionsOk)
    (hphase : r.phase = .receiving) (hphase' : (r.step event w).1.phase = .receiving) :
    client.InLine (r.step event w).1 (streams.set i { s with toSend := rest }) := by
  obtain ⟨hlt, -⟩ := List.getElem?_eq_some_iff.mp hs
  obtain ⟨c, hc, haligned⟩ := h.exists_connection hs
  rw [hsend] at haligned
  obtain ⟨c', hset, haligned'⟩ := haligned.deliver hconnections hphase hc hphase'
  refine ⟨?_, fun j d s' hd hs' => ?_⟩
  · rw [hset, List.length_set, List.length_set]
    exact h.length
  · rw [hset] at hd
    by_cases hij : i = j
    · subst hij
      rw [List.getElem?_set_self hlt] at hs'
      rw [h.length] at hlt
      rw [List.getElem?_set_self hlt] at hd
      rw [← Option.some.inj hd, ← Option.some.inj hs']
      exact haligned'
    · rw [List.getElem?_set_ne hij] at hd hs'
      exact h.aligned j d s' hd hs'

/-- A stream gets its connection. -/
theorem connect (h : client.InLine r streams) (hphase : r.phase = .receiving)
    (hroom : r.connections.length < r.options.connections) {streamId : Nat} {resume : Bool}
    {frame : FrameHeader × Bytes} (hframe : client.sessionInitFrame resume streamId = .ok frame) :
    client.InLine (r.step .accepted w).1
      (streams ++ [⟨streamId, false, arrivals streams.length frame⟩]) := by
  have hlength := h.length
  have hconnections : (r.step .accepted w).1.connections = r.connections ++ [.new r.options] := by
    unfold Receiver.step
    simp only [hphase]
    rw [Receiver.receive.eq_def]
    simp only [if_pos hroom]
  refine ⟨?_, fun i c s hc hs => ?_⟩
  · rw [hconnections, List.length_append, List.length_append, hlength]
    rfl
  rw [hconnections] at hc
  by_cases hlt : i < r.connections.length
  · rw [List.getElem?_append_left hlt] at hc
    rw [List.getElem?_append_left (by rw [hlength]; exact hlt)] at hs
    exact h.aligned i c s hc hs
  · have hge := Nat.le_of_not_lt hlt
    rw [List.getElem?_append_right hge] at hc
    rw [List.getElem?_append_right (by rw [hlength]; exact hge)] at hs
    obtain ⟨hone, hc⟩ := List.getElem?_eq_some_iff.mp hc
    rw [List.length_singleton] at hone
    have hi : i = streams.length := by omega
    subst hi
    rw [Nat.sub_self, List.getElem?_cons_zero] at hs
    simp only [List.getElem_singleton] at hc
    rw [← Option.some.inj hs, ← hc]
    have hone := UploadClient.sessionInitFrame_honest hframe
    have haligned := @UploadClient.Aligned.header client streams.length
      (.new r.options) rfl [frame] (List.forall_mem_singleton.mpr hone)
    rw [List.flatMap_singleton] at haligned
    exact haligned

/-- A stream has read its answer. -/
theorem answer (h : client.InLine r streams) (hs : streams[i]? = some s) (hsent : s.toSend = [])
    (missingRanges : List CompletedRange) :
    client.InLine r (streams.set i { s with
      answered := true
      toSend := (client.streamFrames s.streamId missingRanges).flatMap (arrivals i) }) := by
  obtain ⟨hlt, -⟩ := List.getElem?_eq_some_iff.mp hs
  refine ⟨?_, fun j c s' hc hs' => ?_⟩
  · rw [List.length_set]
    exact h.length
  · by_cases hij : i = j
    · subst hij
      have haligned := h.aligned i c s hc hs
      rw [List.getElem?_set_self hlt] at hs'
      rw [← Option.some.inj hs']
      have hhonest := @UploadClient.streamFrames_honest client s.streamId missingRanges
      generalize hevents : s.toSend = events at haligned
      cases haligned with
      | header hstate frames hframes => exact .header hstate _ hhonest
      | payload hstate bytes hh frames hframes =>
          rw [hsent] at hevents
          cases hevents
      | done hstate events hon => exact .done hstate _ on_of_mem_arrivals
    · rw [List.getElem?_set_ne hij] at hs'
      exact h.aligned j c s' hc hs'

/-- While frames come in, an event that brings nothing from a client changes no
connection. -/
theorem server (h : client.InLine r streams) (hphase : r.phase = .receiving)
    (hevent : event = .proceed ∨ ∃ status, event = .lost status)
    (hphase' : (r.step event w).1.phase = .receiving) :
    client.InLine (r.step event w).1 streams := by
  have htakes : r.takes event = none := by
    rcases hevent with rfl | ⟨status, rfl⟩
    · rfl
    · rfl
  have hsame : (r.step event w).1.connections = r.connections := by
    have hstep : r.step event w = r.receive event w := by
      unfold Receiver.step
      rw [hphase]
    have hends := r.receive_ends event w
    rw [hstep] at hphase' ⊢
    generalize r.receive event w = result at hends hphase' ⊢
    cases hends with
    | kept _ => rfl
    | accepted heq hlt =>
        subst heq
        rcases hevent with heq | ⟨status, heq⟩
        · cases heq
        · cases heq
    | header heq hc hstate hresult =>
        subst heq
        rcases hevent with heq | ⟨status, heq⟩
        · cases heq
        · cases heq
    | payload htakes' hc hstate hlength hresult =>
        rw [htakes] at htakes'
        cases htakes'
    | verified heq hactive hcomplete hcheck => cases hphase'
    | returned hreturned hsent =>
        rw [hreturned] at hphase'
        cases hphase'
  refine ⟨?_, fun i c s hc hs => ?_⟩
  · rw [hsame]
    exact h.length
  · rw [hsame] at hc
    exact h.aligned i c s hc hs

end InLine

end UploadClient

/-! ### Whole uploads -/

namespace UploadState

/-- What holds of an upload: its run is honest, and every connection is in line
with its stream. -/
structure Ok (client : UploadClient) (path : Path) (st : UploadState) : Prop where
  run : (uploadRuns path).Reachable st.run
  honest : client.HonestRun path st.run
  length : ∀ r, st.run.receiver = some r → r.phase = .receiving →
    st.streams.length = r.connections.length
  aligned : ∀ r, st.run.receiver = some r → r.phase = .receiving → ∀ i c s,
    r.connections[i]? = some c → st.streams[i]? = some s → client.Aligned i c s.toSend

variable {client : UploadClient} {path : Path} {st : UploadState} {r : Receiver}

theorem Ok.inLine (h : st.Ok client path) (hr : st.run.receiver = some r)
    (hphase : r.phase = .receiving) : client.InLine r st.streams :=
  ⟨h.length r hr hphase, h.aligned r hr hphase⟩

/-- An event of the receiver that keeps to what may be delivered. -/
theorem Ok.receive (h : st.Ok client path) (hr : st.run.receiver = some r) {event : Event}
    (hdelivers : r.phase = .receiving → client.Delivers r event) {streams : List ClientStream}
    (hstreams : (r.step event st.run.world).1.phase = .receiving → r.phase = .receiving →
      r.ConnectionsOk → client.InLine (r.step event st.run.world).1 streams) :
    Ok client path ⟨st.run.receive r event, streams⟩ := by
  have hok := (UploadRun.ok_of_reachable h.run).receiver r hr
  have hlast : ∀ r', (st.run.receive r event).receiver = some r' → r'.phase = .receiving →
      client.InLine r' streams := by
    intro r' hr' hphase'
    obtain rfl := Option.some.inj hr'
    have hphase := r.receiving_of_step hphase'
    exact hstreams hphase' hphase (hok.receiving hphase).1
  have hstep : (uploadRuns path).step (.received event) st.run (st.run.receive r event) :=
    ⟨r, hr, rfl⟩
  exact ⟨h.run.step hstep, h.honest.receive hok hr hdelivers,
    fun r' hr' hphase' => (hlast r' hr' hphase').length,
    fun r' hr' hphase' => (hlast r' hr' hphase').aligned⟩

/-- The event at the head of a stream. -/
theorem Ok.deliver (h : st.Ok client path) (hr : st.run.receiver = some r) {i : Nat}
    {s : ClientStream} (hs : st.streams[i]? = some s) {event : Event} {rest : List Event}
    (hsend : s.toSend = event :: rest) :
    Ok client path
      ⟨st.run.receive r event, st.streams.set i { s with toSend := rest }⟩ :=
  h.receive hr (fun hphase => (h.inLine hr hphase).delivers hs hsend)
    fun hphase' hphase hconnections =>
      (h.inLine hr hphase).deliver hs hsend hconnections hphase hphase'

/-- A stream gets its connection. -/
theorem Ok.connect (h : st.Ok client path) (hr : st.run.receiver = some r)
    (hphase : r.phase = .receiving) (hroom : r.connections.length < r.options.connections)
    {streamId : Nat} {resume : Bool} {frame : FrameHeader × Bytes}
    (hframe : client.sessionInitFrame resume streamId = .ok frame) :
    Ok client path ⟨st.run.receive r .accepted,
      st.streams ++ [⟨streamId, false, arrivals st.streams.length frame⟩]⟩ :=
  h.receive hr (fun _ i c bytes htakes => (by cases htakes)) fun _ _ _ =>
    (h.inLine hr hphase).connect hphase hroom hframe

/-- A stream has read its answer. -/
theorem Ok.answer (h : st.Ok client path) {i : Nat} {s : ClientStream}
    (hs : st.streams[i]? = some s) (hsent : s.toSend = []) (missingRanges : List CompletedRange) :
    Ok client path ⟨st.run, st.streams.set i { s with
      answered := true
      toSend := (client.streamFrames s.streamId missingRanges).flatMap (arrivals i) }⟩ := by
  have hinLine : ∀ r, st.run.receiver = some r → r.phase = .receiving → client.InLine r _ :=
    fun r hr hphase => (h.inLine hr hphase).answer hs hsent missingRanges
  exact ⟨h.run, h.honest, fun r hr hphase => (hinLine r hr hphase).length,
    fun r hr hphase => (hinLine r hr hphase).aligned⟩

/-- An event that brings nothing from a client. -/
theorem Ok.server (h : st.Ok client path) (hr : st.run.receiver = some r) {event : Event}
    (hevent : event = .proceed ∨ ∃ status, event = .lost status) :
    Ok client path ⟨st.run.receive r event, st.streams⟩ := by
  refine h.receive hr (fun _ i c bytes htakes => ?_) fun hphase' hphase _ =>
    (h.inLine hr hphase).server hphase hevent hphase'
  rcases hevent with rfl | ⟨status, rfl⟩
  · cases htakes
  · cases htakes

/-- **Every upload** whose first attempt finds no longer temp file. -/
theorem ok_of_reachable {temp : Option Bytes}
    (htemp : ∀ content, temp = some content → content.length ≤ client.source.length)
    (h : (uploadAttempts client path temp).Reachable st) : st.Ok client path := by
  apply h.invariant
  · rintro st ⟨-, hnone, hmanifest, hfound⟩
    refine ⟨.initial ⟨hnone, hmanifest⟩, ⟨fun content hcontent => ?_, fun text _ htext => ?_,
      fun r hr => ?_⟩, fun r hr => ?_, fun r hr => ?_⟩
    · exact htemp content (hfound.symm.trans hcontent)
    · rw [hmanifest] at htext
      cases htext
    all_goals
      rw [hnone] at hr
      cases hr
  · intro event st st' _ hok hstep
    cases event with
    | attempt options w =>
        obtain ⟨hpath, hcrc, -, hmanifest, hkept, r, w', hstart, rfl⟩ := hstep
        have hrun : (uploadRuns path).step (.attempt options w) st.run
            ⟨some r, w', fun _ => [], ∅, false⟩ :=
          ⟨hpath, hcrc, Or.inl hmanifest, r, w', hstart, rfl⟩
        refine ⟨hok.run.step hrun, hok.honest.attempt hpath hmanifest hkept hstart,
          fun r' hr' _ => ?_, fun r' hr' _ i c s hc hs => (by cases hs)⟩
        obtain ⟨rfl, -⟩ := Receiver.start_ok hstart
        rw [← Option.some.inj hr']
        rfl
    | connected streamId resume =>
        obtain ⟨r, frame, hr, hphase, hroom, -, -, hframe, rfl⟩ := hstep
        exact hok.connect hr hphase hroom hframe
    | delivered index =>
        obtain ⟨r, s, event, rest, hr, hs, hsend, rfl⟩ := hstep
        exact hok.deliver hr hs hsend
    | answered index missingRanges =>
        obtain ⟨r, s, -, hs, -, hsent, -, rfl⟩ := hstep
        exact hok.answer hs hsent missingRanges
    | server event =>
        obtain ⟨hevent, r, hr, rfl⟩ := hstep
        exact hok.server hr hevent

end UploadState

/-- **Resumable uploads.**  When the first attempt finds no temp file of the
transfer that is longer than the source, then whatever the interleaving and
wherever the attempts are cut, the file that a receiver moves to the output is
the source. -/
theorem upload_resumes (client : UploadClient) (path : Path) {temp : Option Bytes}
    (htemp : ∀ content, temp = some content → content.length ≤ client.source.length)
    {st : UploadState} (h : (uploadAttempts client path temp).Reachable st)
    (hcollision : NoCollision (st.run.contents ∪ client.chunks)) {r : Receiver}
    (hr : st.run.receiver = some r) (hphase : r.phase = .verified) :
    ∃ active, r.transfer.active = some active ∧
      st.run.world.files active.session.manifest.tempPath = some client.source ∧
      ∀ w', st.run.world.renamePath active.session.manifest.tempPath path = (.ok (), w') →
        w'.files path = some client.source := by
  have hst := UploadState.ok_of_reachable htemp h
  have hok := (UploadRun.ok_of_reachable hst.run).receiver r hr
  obtain ⟨active, content, hcomplete⟩ := hok.verified hphase
  obtain rfl := hst.honest.source hok hr hcomplete hcollision
  refine ⟨active, hcomplete.active', hcomplete.file, fun w' hrename => ?_⟩
  have hsound := hok.invariant.sound active hcomplete.active'
  have hapart := transfer_filesApart st.run.world r.options.path active.init.transferId
  obtain ⟨moved, hsource, htarget, -⟩ := World.renamePath_ok hrename (by
    rw [hsound.tempPath, ← hok.path]
    exact hapart.output_temp.symm)
  rw [htarget, ← hsource]
  exact hcomplete.file

/-! ### A source of one byte -/

/-- Would the receiver take another connection? -/
def FileTransferServer.UploadRun.accepts (run : UploadRun) : Bool :=
  match run.receiver with
  | none => false
  | some r =>
      match r.phase with
      | .receiving => decide (r.connections.length < r.options.connections)
      | _ => false

theorem FileTransferServer.UploadRun.accepts_iff {run : UploadRun} : run.accepts = true ↔
    ∃ r, run.receiver = some r ∧ r.phase = .receiving ∧
      r.connections.length < r.options.connections := by
  rw [accepts]
  cases run.receiver with
  | none => simp
  | some r => cases hphase : r.phase <;> simp [hphase]

/-- The temp file of the transfer that runs. -/
def FileTransferServer.UploadRun.tempFile (run : UploadRun) : Option Bytes :=
  run.receiver.bind fun r => r.transfer.active.bind fun active =>
    run.world.files active.session.manifest.tempPath

namespace UploadState

/-- The receiver takes an event, and the streams become `streams`. -/
def take (st : UploadState × List (Segment UInt8)) (event : Event) (streams : List ClientStream) :
    UploadState × List (Segment UInt8) :=
  (⟨(UploadRun.follow (st.1.run, st.2) event).1, streams⟩,
    (UploadRun.follow (st.1.run, st.2) event).2)

/-- Has the answer been sent to connection `index`? -/
def hasAnswer (st : UploadState) (index : Nat) (missingRanges : List CompletedRange) : Bool :=
  match st.run.receiver with
  | none => false
  | some r => r.transfer.sent.any fun f =>
      decide (f.connection = index ∧ f.header.type = .resumeResponse ∧
        decodeResumeResponsePayload f.payload = .ok ⟨.ok, missingRanges⟩)

/-- The upload after an event, with the segments of its run so far; an attempt
starts on the files there are, and an event that cannot happen is left out. -/
def follow (client : UploadClient) (path : Path) (st : UploadState × List (Segment UInt8)) :
    ClientEvent → UploadState × List (Segment UInt8)
  | .attempt options _ =>
      match Receiver.start options st.1.run.world with
      | (.error _, _) => st
      | (.ok r, w) =>
          if options.path = path ∧ options.checksumAlgorithm = .crc32c ∧
              options.connections = client.connections then
            (⟨⟨some r, w, fun _ => [], ∅, false⟩, []⟩, [])
          else st
  | .connected streamId resume =>
      match client.sessionInitFrame resume streamId with
      | .error _ => st
      | .ok frame =>
          if st.1.run.accepts = true ∧ streamId < client.connections ∧
              ∀ s ∈ st.1.streams, s.streamId ≠ streamId then
            take st .accepted
              (st.1.streams ++ [⟨streamId, false, arrivals st.1.streams.length frame⟩])
          else st
  | .delivered index =>
      match st.1.streams[index]? with
      | none => st
      | some s =>
          match s.toSend with
          | [] => st
          | event :: rest => take st event (st.1.streams.set index { s with toSend := rest })
  | .answered index missingRanges =>
      match st.1.streams[index]? with
      | none => st
      | some s =>
          if s.answered = false ∧ s.toSend = [] ∧ st.1.hasAnswer index missingRanges = true then
            (⟨st.1.run, st.1.streams.set index { s with
              answered := true
              toSend := (client.streamFrames s.streamId missingRanges).flatMap
                (arrivals index) }⟩, st.2)
          else st
  | .server event =>
      match event with
      | .proceed => take st .proceed st.1.streams
      | _ => st

/-- What following an event comes to: nothing, a new attempt, an event of the
receiver, or an answer that is read. -/
inductive FollowEnds (client : UploadClient) (path : Path) (st : UploadState × List (Segment UInt8)) :
    ClientEvent → UploadState × List (Segment UInt8) → Prop
  | idle (label : ClientEvent) : FollowEnds client path st label st
  | attempt {options : FileTransferOptions} {w₀ w : World} {r : Receiver}
      (hpath : options.path = path) (hcrc : options.checksumAlgorithm = .crc32c)
      (hconnections : options.connections = client.connections)
      (hstart : Receiver.start options st.1.run.world = (.ok r, w)) :
      FollowEnds client path st (.attempt options w₀) (⟨⟨some r, w, fun _ => [], ∅, false⟩, []⟩, [])
  | taken {label : ClientEvent} {r : Receiver} {event : Event} {streams : List ClientStream}
      (hr : st.1.run.receiver = some r) (hlabel : ∀ options w, label ≠ .attempt options w)
      (hstep : ∀ temp, (uploadAttempts client path temp).step label st.1
        ⟨st.1.run.receive r event, streams⟩) :
      FollowEnds client path st label (take st event streams)
  | answered {index : Nat} {missingRanges : List CompletedRange} {r : Receiver}
      {streams : List ClientStream} (hr : st.1.run.receiver = some r)
      (hstep : ∀ temp, (uploadAttempts client path temp).step (.answered index missingRanges) st.1
        ⟨st.1.run, streams⟩) :
      FollowEnds client path st (.answered index missingRanges) (⟨st.1.run, streams⟩, st.2)

section Follow

variable {client : UploadClient} {path : Path} {temp : Option Bytes}
  {st : UploadState × List (Segment UInt8)}

theorem follow_ends (hreceiver : st.1.streams ≠ [] → st.1.run.receiver ≠ none)
    (label : ClientEvent) : FollowEnds client path st label (follow client path st label) := by
  have hstream : ∀ {index : Nat} {s : ClientStream}, st.1.streams[index]? = some s →
      ∃ r, st.1.run.receiver = some r := by
    intro index s hs
    refine Option.ne_none_iff_exists'.mp (hreceiver fun hnil => ?_)
    rw [hnil] at hs
    cases hs
  cases label with
  | attempt options w₀ =>
      rw [UploadState.follow]
      rcases hstart : Receiver.start options st.1.run.world with ⟨e | r, w⟩
      · exact .idle _
      · simp only
        split
        · rename_i hoptions
          obtain ⟨hpath, hcrc, hconnections⟩ := hoptions
          exact .attempt hpath hcrc hconnections hstart
        · exact .idle _
  | connected streamId resume =>
      rw [UploadState.follow]
      cases hframe : client.sessionInitFrame resume streamId with
      | error e => exact .idle _
      | ok frame =>
          simp only
          split
          · rename_i hguard
            obtain ⟨haccepts, hlt, hdistinct⟩ := hguard
            obtain ⟨r, hr, hphase, hroom⟩ := UploadRun.accepts_iff.mp haccepts
            exact .taken hr (fun _ _ h => by cases h) fun temp =>
              ⟨r, frame, hr, hphase, hroom, hlt, hdistinct, hframe, rfl⟩
          · exact .idle _
  | delivered index =>
      rw [UploadState.follow]
      cases hs : st.1.streams[index]? with
      | none => exact .idle _
      | some s =>
          obtain ⟨r, hr⟩ := hstream hs
          simp only
          cases hsend : s.toSend with
          | nil => exact .idle _
          | cons event rest =>
              exact .taken hr (fun _ _ h => by cases h) fun temp =>
                ⟨r, s, event, rest, hr, hs, hsend, rfl⟩
  | answered index missingRanges =>
      rw [UploadState.follow]
      cases hs : st.1.streams[index]? with
      | none => exact .idle _
      | some s =>
          obtain ⟨r, hr⟩ := hstream hs
          simp only
          split
          · rename_i hguard
            obtain ⟨hanswered, hsent, hanswer⟩ := hguard
            have hsays : ResumeAnswer r.transfer.sent index missingRanges := by
              rw [hasAnswer, hr] at hanswer
              obtain ⟨f, hf, hsays⟩ := List.any_eq_true.mp hanswer
              exact ⟨f, hf, of_decide_eq_true hsays⟩
            exact .answered hr fun temp => ⟨r, s, hr, hs, hanswered, hsent, hsays, rfl⟩
          · exact .idle _
  | server event =>
      cases event with
      | proceed =>
          rw [UploadState.follow]
          cases hr : st.1.run.receiver with
          | none =>
              rw [UploadState.take, UploadRun.follow]
              simp only [hr]
              exact .idle _
          | some r =>
              exact .taken hr (fun _ _ h => by cases h) fun temp => ⟨Or.inl rfl, r, hr, rfl⟩
      | accepted => exact .idle _
      | header index encoded => exact .idle _
      | payload index bytes => exact .idle _
      | lost status => exact .idle _

/-- The upload a receiver leaves that is followed through an event. -/
theorem take_fst {r : Receiver} (hr : st.1.run.receiver = some r) (event : Event)
    (streams : List ClientStream) : (take st event streams).1 = ⟨st.1.run.receive r event, streams⟩ := by
  rw [take, UploadRun.follow]
  simp only [hr]

end Follow

/-- An upload that has been followed. -/
structure Followed (client : UploadClient) (path : Path) (temp : Option Bytes)
    (st : UploadState × List (Segment UInt8)) : Prop where
  reachable : (uploadAttempts client path temp).Reachable st.1
  contents : st.1.run.contents ⊆ { seg | seg ∈ st.2 }
  receiver : st.1.streams ≠ [] → st.1.run.receiver ≠ none

theorem Followed.follow {client : UploadClient} {path : Path} {temp : Option Bytes}
    {st : UploadState × List (Segment UInt8)} (h : Followed client path temp st)
    (label : ClientEvent) : Followed client path temp (follow client path st label) := by
  have hends := @follow_ends client path st h.receiver label
  generalize UploadState.follow client path st label = st' at hends
  cases hends with
  | idle _ => exact h
  | @attempt options w₀ w r hpath hcrc hconnections hstart =>
      have hstep : (uploadAttempts client path temp).step (.attempt options st.1.run.world)
          st.1 ⟨⟨some r, w, fun _ => [], ∅, false⟩, []⟩ :=
        ⟨hpath, hcrc, hconnections, rfl, rfl, r, w, hstart, rfl⟩
      exact ⟨h.reachable.step hstep, Set.empty_subset _, fun hne => absurd rfl hne⟩
  | @taken _ r event streams hr hlabel hstep =>
      have hfollow : UploadRun.follow (st.1.run, st.2) event = (st.1.run.receive r event, st.2 ++
          (st.1.run.endedSegments r event ++ UploadRun.foundSegments r
            (r.step event st.1.run.world).1 (r.step event st.1.run.world).2)) := by
        rw [UploadRun.follow, hr]
      rw [UploadState.take, hfollow]
      refine ⟨h.reachable.step (hstep temp), fun seg hseg => ?_, fun _ hnone => (by cases hnone)⟩
      rcases st.1.run.receive_contents r event hseg with hold | hnew
      · exact List.mem_append_left _ (h.contents hold)
      · exact List.mem_append_right _ hnew
  | @answered index missingRanges r streams hr hstep =>
      refine ⟨h.reachable.step (hstep temp), h.contents, fun _ hnone => ?_⟩
      rw [hr] at hnone
      cases hnone

end UploadState

/-- A client with the byte `65`. -/
def oneByteClient : UploadClient where
  transferId := ascii "t"
  source := [65]
  chunkSize := 1
  connections := 1
  bufferSize := 64
  checksumBackend := .software
  hardware := false
  addressable := by decide
  buffered := by decide

/-- Everything a stream sends, up to its FIN. -/
def oneByteStream (resume : Bool) : List ClientEvent :=
  [.connected 0 resume, .delivered 0, .delivered 0, .answered 0 [⟨0, 1⟩]] ++
    List.replicate 5 (.delivered 0) ++ [.server .proceed]

def oneByteBefore (temp : Option Bytes) : UploadState :=
  ⟨⟨none, .withFiles fun path => if path = tempPathForOutput (ascii "o") (ascii "t") then temp
    else none, fun _ => [], ∅, false⟩, []⟩

def oneByteAttempts (temp : Option Bytes) (events : List ClientEvent) :
    UploadState × List (Segment UInt8) :=
  events.foldl (UploadState.follow oneByteClient (ascii "o")) (oneByteBefore temp, [])

/-- One attempt. -/
def oneByteUpload : List ClientEvent :=
  .attempt oneByteOptions (.withFiles fun _ => none) :: oneByteStream false

/-- An attempt that fails, as it finds a temp file, and one that resumes it. -/
def oneByteResumed : List ClientEvent :=
  [.attempt oneByteOptions (.withFiles fun _ => none), .connected 0 false, .delivered 0,
    .delivered 0, .attempt { oneByteOptions with resume := true } (.withFiles fun _ => none)] ++
    oneByteStream true

theorem oneByteAttempts_followed (temp : Option Bytes) (events : List ClientEvent) :
    UploadState.Followed oneByteClient (ascii "o") temp (oneByteAttempts temp events) := by
  have hstart : UploadState.Followed oneByteClient (ascii "o") temp (oneByteBefore temp, []) :=
    ⟨.initial ⟨rfl, rfl, rfl, rfl⟩, Set.empty_subset _, fun hne => absurd rfl hne⟩
  rw [oneByteAttempts]
  generalize (oneByteBefore temp, []) = st at hstart
  induction events generalizing st with
  | nil => exact hstart
  | cons event events ih => exact ih _ (hstart.follow event)

/-- The contents of such an upload do not collide. -/
theorem oneByteAttempts_noCollision {temp : Option Bytes} {events : List ClientEvent}
    (hsegments : (oneByteAttempts temp events).2 = [⟨0, [65]⟩]) :
    NoCollision ((oneByteAttempts temp events).1.run.contents ∪ oneByteClient.chunks) := by
  have hone : ∀ seg ∈ (oneByteAttempts temp events).1.run.contents ∪ oneByteClient.chunks,
      seg.data = [65] := by
    rintro seg (hseg | ⟨id, hid, rfl⟩)
    · have hmem := (oneByteAttempts_followed temp events).contents hseg
      rw [Set.mem_ofPred_eq, hsegments, List.mem_singleton] at hmem
      rw [hmem]
    · have hzero : id = 0 := by
        have hlt : id * 1 < 1 := hid
        omega
      rw [hzero]
      rfl
  intro a ha b hb _ _ _
  rw [hone a ha, hone b hb]

/-- Without a temp file, one attempt brings the byte to the rename. -/
theorem upload_resumes_oneByte : ∃ r active,
    (oneByteAttempts none oneByteUpload).1.run.receiver = some r ∧
      r.transfer.active = some active ∧
      (oneByteAttempts none oneByteUpload).1.run.world.files active.session.manifest.tempPath =
        some [65] := by
  have hrun : (oneByteAttempts none oneByteUpload).1.run.atRename = true ∧
      (oneByteAttempts none oneByteUpload).2 = [⟨0, [65]⟩] := by
    decide +kernel
  obtain ⟨r, hr, hphase⟩ := UploadRun.atRename_iff.mp hrun.1
  obtain ⟨active, hactive, hfile, -⟩ := upload_resumes oneByteClient (ascii "o") (by simp)
    (oneByteAttempts_followed none oneByteUpload).reachable
    (oneByteAttempts_noCollision hrun.2) hr hphase
  exact ⟨r, active, hr, hactive, hfile⟩

/-- **A longer temp file stays longer**: the first attempt does not get it, but
leaves a manifest, and the next one fills the temp file it finds and moves it to
the output with the old bytes behind the source. -/
theorem upload_resumes_longer : ¬∀ (client : UploadClient) (path : Path) (temp : Option Bytes)
    (st : UploadState), (uploadAttempts client path temp).Reachable st →
      NoCollision (st.run.contents ∪ client.chunks) → ∀ r, st.run.receiver = some r →
        r.phase = .verified → ∃ active, r.transfer.active = some active ∧
          st.run.world.files active.session.manifest.tempPath = some client.source := by
  intro hall
  have hrun : (oneByteAttempts (some [1, 2]) oneByteResumed).1.run.atRename = true ∧
      (oneByteAttempts (some [1, 2]) oneByteResumed).2 = [⟨0, [65]⟩] ∧
      (oneByteAttempts (some [1, 2]) oneByteResumed).1.run.tempFile = some [65, 2] := by
    decide +kernel
  obtain ⟨hrename, hsegments, htemp⟩ := hrun
  obtain ⟨r, hr, hphase⟩ := UploadRun.atRename_iff.mp hrename
  obtain ⟨active, hactive, hfile⟩ := hall oneByteClient (ascii "o") (some [1, 2]) _
    (oneByteAttempts_followed (some [1, 2]) oneByteResumed).reachable
    (oneByteAttempts_noCollision hsegments) r hr hphase
  rw [UploadRun.tempFile, hr, Option.bind_some, hactive, Option.bind_some, hfile] at htemp
  cases htemp

end GridFlux
