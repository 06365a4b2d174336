/-
GridFlux/SendPlan.lean

Which ranges the streams of a transfer send: `sendStream` of the upload client
(`core/io/file_transfer_client.cpp`) and of the download sender
(`core/io/file_download_sender.cpp`).  Every stream has the whole plan, goes
through the chunks that are its own, and looks them up in the missing ranges
its SessionInit was answered with.  The options that make a sender stop early
or send a chunk badly, which are there for tests, are off.

The streams ask at different moments, and the receiver goes on storing what
the other streams send (`sendSystem`).  A stream's answer is still right about
the stream's own chunks, because nobody else sends these (`SendInvariant`); so
the streams together send exactly what was missing at the beginning
(`sendPlan_partition`).
-/
import GridFlux.Planner
import GridFlux.SessionRuns

namespace GridFlux

open HalfOpen Transition

/-- What `sendChunkRange` is called with, and with the whole chunk
`sendChunk`. -/
structure SentRange where
  chunk : ChunkRange
  range : CompletedRange
deriving DecidableEq, Repr

/-! ### The two senders -/

namespace FileTransferClient

/-- `intersects`, with the range it leaves in `begin` and `end`. -/
def intersects (chunk : ChunkRange) (range : CompletedRange) : Option CompletedRange :=
  let chunkEnd := chunk.offset + chunk.length
  let begin' := max chunk.offset range.begin
  let end' := min chunkEnd range.end
  if begin' < end' then some ⟨begin', end'⟩ else none

/-- The loop of `sendStream`. -/
def sendStream (chunks : List ChunkRange) (streamId : Nat)
    (missingRanges : List CompletedRange) : List SentRange :=
  (chunks.filter fun chunk => chunk.streamId = streamId).flatMap fun chunk =>
    missingRanges.filterMap fun range => (intersects chunk range).map (SentRange.mk chunk)

end FileTransferClient

namespace FileDownloadSender

def rangesIntersect (leftBegin leftEnd rightBegin rightEnd : Nat) : Bool :=
  leftBegin < rightEnd ∧ rightBegin < leftEnd

def shouldSendChunk (chunk : ChunkRange) (missingRanges : List CompletedRange) : Bool :=
  let chunkEnd := chunk.offset + chunk.length
  missingRanges.any fun missing =>
    rangesIntersect chunk.offset chunkEnd missing.begin missing.end

/-- The loop of `sendStream`. -/
def sendStream (chunks : List ChunkRange) (streamId : Nat)
    (missingRanges : List CompletedRange) : List SentRange :=
  (chunks.filter fun chunk =>
    chunk.streamId = streamId ∧ shouldSendChunk chunk missingRanges).map fun chunk =>
      ⟨chunk, chunk.range⟩

end FileDownloadSender

/-! ### Streams that ask at different moments -/

/-- A session, and the missing ranges each stream has received. -/
structure SendState (P : Type) where
  session : Session P
  received : Nat → Option (List CompletedRange)

namespace SendState

variable {P : Type}

/-- The SessionInit of a stream is answered. -/
def answer (st : SendState P) (streamId : Nat) : SendState P :=
  { st with
    received := Function.update st.received streamId (some st.session.missingRanges) }

@[simp] theorem answer_session (st : SendState P) (streamId : Nat) :
    (st.answer streamId).session = st.session := rfl

@[simp] theorem answer_received_self (st : SendState P) (streamId : Nat) :
    (st.answer streamId).received streamId = some st.session.missingRanges :=
  Function.update_self _ _ _

theorem answer_received_of_ne (st : SendState P) {streamId other : Nat} (h : other ≠ streamId) :
    (st.answer streamId).received other = st.received other :=
  Function.update_of_ne h _ _

/-- The operation asks the session to record something that a stream sends. -/
def Sends (st : SendState P) (sends : Nat → List CompletedRange → List SentRange)
    (streamId : Nat) (sent : SentRange) (op : SessionOp) : Prop :=
  (∃ missing, st.received streamId = some missing ∧ sent ∈ sends streamId missing) ∧
    ∃ checksum, op.record? = some ⟨sent.chunk.chunkId, sent.range.begin,
      sent.range.end - sent.range.begin, checksum⟩

end SendState

/-- The events that matter to a sender: the SessionInit of a stream is
answered, or the receiver takes in a range that a stream has sent. -/
inductive SendEvent
  | answered (streamId : Nat)
  | completed (streamId : Nat) (sent : SentRange) (op : SessionOp) (w : World)

/-- A transfer from the state `start` of the receiver on; `sends` is the loop
of the sender.  The receiver may record a range or fail to. -/
def sendSystem {P : Type} (format : SessionFormat P)
    (sends : Nat → List CompletedRange → List SentRange) (start : Session P) :
    System (SendState P) SendEvent where
  initial st := st = ⟨start, fun _ => none⟩
  step event st st' :=
    match event with
    | .answered streamId => st.received streamId = none ∧ st' = st.answer streamId
    | .completed streamId sent op w =>
        st.Sends sends streamId sent op ∧
          st' = { st with session := (op.run format st.session w).2.1 }

namespace SendState

variable {P : Type}

/-- Every stream has been answered. -/
def AllAnswered (st : SendState P) (connections : Nat) : Prop :=
  ∀ streamId < connections, (st.received streamId).isSome

/-- What all the streams send, each by the answer it has received. -/
def sent (st : SendState P) (sends : Nat → List CompletedRange → List SentRange)
    (connections : Nat) : List SentRange :=
  (List.range connections).flatMap fun streamId =>
    (st.received streamId).elim [] (sends streamId)

end SendState

/-! ### What each stream sends -/

/-- A sender's streams keep to their own chunks. -/
def KeepsToOwn (chunks : List ChunkRange)
    (sends : Nat → List CompletedRange → List SentRange) : Prop :=
  ∀ streamId missing, ∀ sent ∈ sends streamId missing,
    sent.chunk ∈ chunks ∧ sent.chunk.streamId = streamId ∧ sent.range.begin < sent.range.end ∧
      sent.chunk.range.begin ≤ sent.range.begin ∧ sent.range.end ≤ sent.chunk.range.end

namespace FileTransferClient

theorem intersects_eq_meet? (chunk : ChunkRange) : intersects chunk = meet? chunk.range := by
  funext range
  rfl

theorem mem_sendStream {chunks : List ChunkRange} {streamId : Nat}
    {missing : List CompletedRange} {sent : SentRange} :
    sent ∈ sendStream chunks streamId missing ↔
      (sent.chunk ∈ chunks ∧ sent.chunk.streamId = streamId) ∧
        sent.range ∈ meets sent.chunk.range missing := by
  simp only [sendStream, intersects_eq_meet?, meets, List.mem_flatMap, List.mem_filter,
    List.mem_filterMap, decide_eq_true_eq, Option.map_eq_some_iff]
  constructor
  · rintro ⟨chunk, hchunk, range, hrange, cut, hcut, rfl⟩
    exact ⟨hchunk, range, hrange, hcut⟩
  · rintro ⟨hchunk, range, hrange, hcut⟩
    exact ⟨sent.chunk, hchunk, range, hrange, sent.range, hcut, rfl⟩

theorem keepsToOwn (chunks : List ChunkRange) : KeepsToOwn chunks (sendStream chunks) := by
  intro streamId missing sent hsent
  obtain ⟨⟨hchunk, hstream⟩, hrange⟩ := mem_sendStream.mp hsent
  exact ⟨hchunk, hstream, mem_meets hrange⟩

end FileTransferClient

namespace FileDownloadSender

theorem mem_sendStream {chunks : List ChunkRange} {streamId : Nat}
    {missing : List CompletedRange} {sent : SentRange} :
    sent ∈ sendStream chunks streamId missing ↔
      (sent.chunk ∈ chunks ∧ sent.chunk.streamId = streamId) ∧
        shouldSendChunk sent.chunk missing = true ∧ sent = ⟨sent.chunk, sent.chunk.range⟩ := by
  simp only [sendStream, List.mem_map, List.mem_filter, decide_eq_true_eq]
  constructor
  · rintro ⟨chunk, ⟨hchunk, hstream, hsend⟩, rfl⟩
    exact ⟨⟨hchunk, hstream⟩, hsend, rfl⟩
  · rintro ⟨⟨hchunk, hstream⟩, hsend, heq⟩
    exact ⟨sent.chunk, ⟨hchunk, hstream, hsend⟩, heq.symm⟩

/-- A chunk is sent exactly when a byte of it is missing. -/
theorem shouldSendChunk_iff {chunk : ChunkRange} {missing : List CompletedRange}
    (hchunk : chunk.range.begin < chunk.range.end) (hmissing : ∀ r ∈ missing, r.begin < r.end) :
    shouldSendChunk chunk missing = true ↔
      ∃ x, x ∈ Set.Ico chunk.range.begin chunk.range.end ∧ x ∈ covered missing := by
  simp only [shouldSendChunk, rangesIntersect, List.any_eq_true, decide_eq_true_eq]
  constructor
  · rintro ⟨r, hr, hleft, hright⟩
    have hr' := hmissing r hr
    have hlt : max chunk.range.begin r.begin < min chunk.range.end r.end :=
      max_lt (lt_min hchunk hleft) (lt_min hright hr')
    rw [lt_min_iff] at hlt
    exact ⟨max chunk.range.begin r.begin, ⟨le_max_left _ _, hlt.1⟩, r, hr, le_max_right _ _, hlt.2⟩
  · rintro ⟨x, ⟨hb, he⟩, r, hr, hrb, hre⟩
    exact ⟨r, hr, hb.trans_lt hre, hrb.trans_lt he⟩

theorem keepsToOwn {fileSize chunkSize connections : Nat} {chunks : List ChunkRange}
    (hplan : planChunks fileSize chunkSize connections = .ok chunks) :
    KeepsToOwn chunks (sendStream chunks) := by
  intro streamId missing sent hsent
  obtain ⟨⟨hchunk, hstream⟩, -, heq⟩ := mem_sendStream.mp hsent
  rw [heq]
  exact ⟨hchunk, hstream, (planChunks_bounds hplan hchunk).1, le_refl _, le_refl _⟩

end FileDownloadSender

/-! ### A stream's answer stays right about its own chunks -/

/-- Two lists of missing ranges say the same about the chunks of a stream. -/
def AgreeOn (chunks : List ChunkRange) (streamId : Nat) (l l' : List CompletedRange) : Prop :=
  ∀ c ∈ chunks, c.streamId = streamId → ∀ x, x ∈ Set.Ico c.range.begin c.range.end →
    (x ∈ covered l ↔ x ∈ covered l')

theorem AgreeOn.trans {chunks : List ChunkRange} {streamId : Nat} {l l' l'' : List CompletedRange}
    (h : AgreeOn chunks streamId l l') (h' : AgreeOn chunks streamId l' l'') :
    AgreeOn chunks streamId l l'' := fun c hc hstream x hx =>
  (h c hc hstream x hx).trans (h' c hc hstream x hx)

/-- What holds while the streams ask and send: an answered stream was told the
truth about its chunks, and nobody has touched the chunks of the others. -/
structure SendInvariant {P : Type} (chunks : List ChunkRange) (start : Session P)
    (st : SendState P) : Prop where
  ok : st.session.Ok
  size : st.session.manifest.totalSize = start.manifest.totalSize
  received : ∀ streamId missing, st.received streamId = some missing →
    Canonical missing ∧ AgreeOn chunks streamId missing start.missingRanges
  waiting : ∀ streamId, st.received streamId = none →
    AgreeOn chunks streamId st.session.missingRanges start.missingRanges

theorem SendInvariant.step {P : Type} {format : SessionFormat P} {chunks : List ChunkRange}
    {sends : Nat → List CompletedRange → List SentRange} {start : Session P}
    (hown : KeepsToOwn chunks sends)
    (hunique : ∀ c ∈ chunks, ∀ c' ∈ chunks, ∀ x, x ∈ Set.Ico c.range.begin c.range.end →
      x ∈ Set.Ico c'.range.begin c'.range.end → c = c')
    {event : SendEvent} {st st' : SendState P} (h : SendInvariant chunks start st)
    (hstep : (sendSystem format sends start).step event st st') :
    SendInvariant chunks start st' := by
  cases event with
  | answered streamId =>
      obtain ⟨hnone, rfl⟩ := hstep
      refine ⟨h.ok, h.size, fun other missing hother => ?_, fun other hother => ?_⟩
      · by_cases heq : other = streamId
        · subst heq
          rw [SendState.answer_received_self] at hother
          obtain rfl := Option.some.inj hother
          exact ⟨canonical_missingRanges h.ok, h.waiting other hnone⟩
        · rw [SendState.answer_received_of_ne _ heq] at hother
          exact h.received other missing hother
      · by_cases heq : other = streamId
        · subst heq
          rw [SendState.answer_received_self] at hother
          cases hother
        · rw [SendState.answer_received_of_ne _ heq] at hother
          exact h.waiting other hother
  | completed streamId sent op w =>
      obtain ⟨⟨⟨missing, hmissing, hsent⟩, checksum, hop⟩, rfl⟩ := hstep
      obtain ⟨hchunk, hstream, hne, hbegin, hend⟩ := hown streamId missing sent hsent
      obtain ⟨hok, hsize, hcompleted⟩ := op.run_record format hop h.ok w
      refine ⟨hok, hsize.trans h.size, h.received, fun other hother => ?_⟩
      -- the range stored is in a chunk of `streamId`, which `other` is not
      refine AgreeOn.trans (fun c hc hcstream x hx => ?_) (h.waiting other hother)
      rw [mem_missingRanges hok, mem_missingRanges h.ok, hsize]
      have hout : x ∉ Set.Ico sent.range.begin
          (sent.range.begin + (sent.range.end - sent.range.begin)) := by
        rintro ⟨hxb, hxe⟩
        obtain rfl := hunique c hc sent.chunk hchunk x hx
          ⟨hbegin.trans hxb, by omega⟩
        rw [← hcstream, hstream] at hother
        rw [hother] at hmissing
        cases hmissing
      rcases hcompleted with hcompleted | hcompleted
      · rw [hcompleted]
      · rw [hcompleted, Set.mem_union, or_iff_left hout]

theorem SendInvariant.of_reachable {P : Type} {format : SessionFormat P}
    {chunks : List ChunkRange} {sends : Nat → List CompletedRange → List SentRange}
    {start : Session P} (hstart : start.Ok) (hown : KeepsToOwn chunks sends)
    (hunique : ∀ c ∈ chunks, ∀ c' ∈ chunks, ∀ x, x ∈ Set.Ico c.range.begin c.range.end →
      x ∈ Set.Ico c'.range.begin c'.range.end → c = c') {st : SendState P}
    (h : (sendSystem format sends start).Reachable st) : SendInvariant chunks start st := by
  apply h.invariant
  · intro st hst
    obtain rfl := hst
    refine ⟨hstart, rfl, fun streamId missing hnone => ?_, fun streamId _ c _ _ x _ => Iff.rfl⟩
    cases hnone
  · intro event st st' _ hinv hstep
    exact hinv.step hown hunique hstep

/-! ### What all the streams send -/

theorem mem_sent {P : Type} {sends : Nat → List CompletedRange → List SentRange}
    {st : SendState P} {connections : Nat} {sent : SentRange} :
    sent ∈ st.sent sends connections ↔ ∃ streamId < connections, ∃ missing,
      st.received streamId = some missing ∧ sent ∈ sends streamId missing := by
  simp only [SendState.sent, List.mem_flatMap, List.mem_range]
  constructor
  · rintro ⟨streamId, hlt, hsent⟩
    cases hreceived : st.received streamId with
    | none =>
        rw [hreceived] at hsent
        cases hsent
    | some missing =>
        rw [hreceived] at hsent
        exact ⟨streamId, hlt, missing, hreceived, hsent⟩
  · rintro ⟨streamId, hlt, missing, hreceived, hsent⟩
    refine ⟨streamId, hlt, ?_⟩
    rw [hreceived]
    exact hsent

/-- What holds between any two things one stream sends, and between what two
different streams send, holds between any two things sent. -/
theorem pairwise_sent {P : Type} {sends : Nat → List CompletedRange → List SentRange}
    {st : SendState P} {connections : Nat} {R : SentRange → SentRange → Prop}
    (hone : ∀ streamId missing, st.received streamId = some missing →
      (sends streamId missing).Pairwise R)
    (htwo : ∀ i missing, ∀ sent ∈ sends i missing, ∀ j missing', ∀ sent' ∈ sends j missing',
      i ≠ j → R sent sent') :
    (st.sent sends connections).Pairwise R := by
  rw [SendState.sent, List.pairwise_flatMap]
  constructor
  · intro streamId _
    cases hreceived : st.received streamId with
    | none => exact List.Pairwise.nil
    | some missing => exact hone streamId missing hreceived
  · refine List.Pairwise.imp (fun {i j} (hij : i < j) sent hsent sent' hsent' => ?_)
      List.pairwise_lt_range
    cases hi : st.received i with
    | none =>
        rw [hi] at hsent
        cases hsent
    | some missing =>
        cases hj : st.received j with
        | none =>
            rw [hj] at hsent'
            cases hsent'
        | some missing' =>
            rw [hi] at hsent
            rw [hj] at hsent'
            exact htwo i missing sent hsent j missing' sent' hsent' hij.ne

/-- The ranges sent cut `missing` up along the plan. -/
structure Partitions (chunks : List ChunkRange) (sent : List SentRange)
    (missing : List CompletedRange) : Prop where
  separated : Separated (sent.map SentRange.range)
  inside : ∀ s ∈ sent, s.chunk ∈ chunks ∧ s.range.begin < s.range.end ∧
    s.chunk.offset ≤ s.range.begin ∧ s.range.end ≤ s.chunk.offset + s.chunk.length
  covers : covered (sent.map SentRange.range) = covered missing

/-- What one upload stream sends is disjoint. -/
theorem FileTransferClient.pairwise_sendStream {fileSize chunkSize connections : Nat}
    {chunks : List ChunkRange} (hplan : planChunks fileSize chunkSize connections = .ok chunks)
    {missing : List CompletedRange} (hmissing : Canonical missing) (streamId : Nat) :
    (sendStream chunks streamId missing).Pairwise fun a b =>
      a.range.end ≤ b.range.begin ∨ b.range.end ≤ a.range.begin := by
  rw [sendStream, List.pairwise_flatMap]
  constructor
  · intro c _
    rw [intersects_eq_meet?]
    have hmeets := hmissing.separated.meets c.range
    rw [Separated, meets, List.pairwise_filterMap] at hmeets
    rw [List.pairwise_filterMap]
    refine hmeets.imp fun {r r'} hrr' s hs s' hs' => ?_
    obtain ⟨cut, hcut, rfl⟩ := Option.map_eq_some_iff.mp hs
    obtain ⟨cut', hcut', rfl⟩ := Option.map_eq_some_iff.mp hs'
    exact hrr' cut hcut cut' hcut'
  · have hsep := separated_planChunks hplan
    rw [Separated, List.pairwise_map] at hsep
    refine (hsep.filter _).imp fun {c c'} hcc' s hs s' hs' => ?_
    simp only [List.mem_filterMap, Option.map_eq_some_iff, intersects_eq_meet?] at hs hs'
    obtain ⟨r, hr, cut, hcut, rfl⟩ := hs
    obtain ⟨r', hr', cut', hcut', rfl⟩ := hs'
    have hin := mem_meets (List.mem_filterMap.mpr ⟨r, hr, hcut⟩)
    have hin' := mem_meets (List.mem_filterMap.mpr ⟨r', hr', hcut'⟩)
    rcases hcc' with hcc' | hcc'
    · exact Or.inl (hin.2.2.trans (hcc'.trans hin'.2.1))
    · exact Or.inr (hin'.2.2.trans (hcc'.trans hin.2.1))

/-- Ranges of two different streams are disjoint. -/
theorem KeepsToOwn.apart {fileSize chunkSize connections : Nat} {chunks : List ChunkRange}
    (hplan : planChunks fileSize chunkSize connections = .ok chunks)
    {sends : Nat → List CompletedRange → List SentRange} (hown : KeepsToOwn chunks sends)
    {i j : Nat} (hij : i ≠ j) {missing missing' : List CompletedRange} {s s' : SentRange}
    (hs : s ∈ sends i missing) (hs' : s' ∈ sends j missing') :
    s.range.end ≤ s'.range.begin ∨ s'.range.end ≤ s.range.begin := by
  obtain ⟨hc, hi, hne, hb, he⟩ := hown i missing s hs
  obtain ⟨hc', hj, hne', hb', he'⟩ := hown j missing' s' hs'
  by_contra hover
  rw [not_or, not_le, not_le] at hover
  -- the larger of the two begins would be in both chunks
  have hlt := max_lt hne hover.1
  have hlt' := max_lt hover.2 hne'
  have heq := planChunks_unique hplan hc hc'
    ⟨hb.trans (le_max_left _ _), hlt.trans_le he⟩ ⟨hb'.trans (le_max_right _ _), hlt'.trans_le he'⟩
  rw [heq, hj] at hi
  exact hij hi.symm

/-- A byte is missing exactly when it is in a chunk of the plan that is missing
there. -/
theorem missing_in_chunk {P : Type} {start : Session P} (hstart : start.Ok)
    {chunkSize connections : Nat} {chunks : List ChunkRange}
    (hplan : planChunks start.manifest.totalSize chunkSize connections = .ok chunks) {x : Nat}
    (hx : x ∈ covered start.missingRanges) :
    ∃ c ∈ chunks, x ∈ Set.Ico c.range.begin c.range.end := by
  have hin : x ∈ covered (chunks.map ChunkRange.range) := by
    rw [covered_planChunks hplan]
    exact ⟨Nat.zero_le _, ((mem_missingRanges hstart).mp hx).1⟩
  obtain ⟨r, hr, hxr⟩ := hin
  obtain ⟨c, hc, rfl⟩ := List.mem_map.mp hr
  exact ⟨c, hc, hxr⟩

/-- The upload streams cut up what was missing. -/
theorem FileTransferClient.sent_partitions {P : Type} {format : SessionFormat P}
    {start : Session P} (hstart : start.Ok) {chunkSize connections : Nat}
    {chunks : List ChunkRange}
    (hplan : planChunks start.manifest.totalSize chunkSize connections = .ok chunks)
    {st : SendState P}
    (h : (sendSystem format (FileTransferClient.sendStream chunks) start).Reachable st)
    (hall : st.AllAnswered connections) :
    Partitions chunks (st.sent (FileTransferClient.sendStream chunks) connections)
      start.missingRanges := by
  have hown := FileTransferClient.keepsToOwn chunks
  have hinv := SendInvariant.of_reachable hstart hown
    (fun c hc c' hc' x => planChunks_unique hplan hc hc') h
  refine ⟨?_, fun s hs => ?_, ?_⟩
  · rw [Separated, List.pairwise_map]
    apply pairwise_sent
    · intro streamId missing hreceived
      exact FileTransferClient.pairwise_sendStream hplan
        (hinv.received streamId missing hreceived).1 streamId
    · intro i missing s hs j missing' s' hs' hij
      exact hown.apart hplan hij hs hs'
  · obtain ⟨streamId, -, missing, -, hs⟩ := mem_sent.mp hs
    obtain ⟨hchunk, -, hne, hb, he⟩ := hown streamId missing s hs
    exact ⟨hchunk, hne, hb, he⟩
  · ext x
    constructor
    · rintro ⟨r, hr, hxr⟩
      obtain ⟨s, hs, rfl⟩ := List.mem_map.mp hr
      obtain ⟨streamId, -, missing, hreceived, hs⟩ := mem_sent.mp hs
      obtain ⟨⟨hchunk, hstream⟩, hrange⟩ := FileTransferClient.mem_sendStream.mp hs
      have hx : x ∈ covered (meets s.chunk.range missing) := ⟨s.range, hrange, hxr⟩
      rw [covered_meets] at hx
      exact ((hinv.received streamId missing hreceived).2 s.chunk hchunk hstream x hx.1).mp hx.2
    · intro hx
      -- the byte is in a chunk, and the stream of that chunk was told it is missing
      obtain ⟨c, hc, hxc⟩ := missing_in_chunk hstart hplan hx
      have hlt := (planChunks_bounds hplan hc).2.2
      obtain ⟨missing, hreceived⟩ := Option.isSome_iff_exists.mp (hall c.streamId hlt)
      have hmissing := ((hinv.received c.streamId missing hreceived).2 c hc rfl x hxc).mpr hx
      have hcut : x ∈ covered (meets c.range missing) := by
        rw [covered_meets]
        exact ⟨hxc, hmissing⟩
      obtain ⟨r, hr, hxr⟩ := hcut
      refine ⟨r, List.mem_map.mpr ⟨⟨c, r⟩, mem_sent.mpr ⟨c.streamId, hlt, missing, hreceived, ?_⟩,
        rfl⟩, hxr⟩
      exact FileTransferClient.mem_sendStream.mpr ⟨⟨hc, rfl⟩, hr⟩

/-- The bytes of the chunks `inside`. -/
def unionOf (inside : List ChunkRange) : Set Nat :=
  covered (inside.map ChunkRange.range)

/-- The chunks sent are those inside `missing`, each once. -/
structure SendsInside (chunks : List ChunkRange) (sent : List SentRange)
    (missing : List CompletedRange) : Prop where
  nodup : sent.Nodup
  mem_iff : ∀ s : SentRange, s ∈ sent ↔ s.chunk ∈ chunks ∧ s.range = s.chunk.range ∧
    Set.Ico s.chunk.range.begin s.chunk.range.end ⊆ covered missing

/-- The download streams send the chunks that are missing, if only whole chunks
are. -/
theorem FileDownloadSender.sent_inside {P : Type} {format : SessionFormat P}
    {start : Session P} (hstart : start.Ok) {chunkSize connections : Nat}
    {chunks : List ChunkRange}
    (hplan : planChunks start.manifest.totalSize chunkSize connections = .ok chunks)
    {inside : List ChunkRange} (hsub : inside ⊆ chunks)
    (hunion : covered start.missingRanges = unionOf inside) {st : SendState P}
    (h : (sendSystem format (FileDownloadSender.sendStream chunks) start).Reachable st)
    (hall : st.AllAnswered connections) :
    SendsInside chunks (st.sent (FileDownloadSender.sendStream chunks) connections)
      start.missingRanges := by
  have hown := FileDownloadSender.keepsToOwn hplan
  have hinv := SendInvariant.of_reachable hstart hown
    (fun c hc c' hc' x => planChunks_unique hplan hc hc') h
  -- a chunk with one missing byte is missing as a whole
  have hwhole : ∀ c ∈ chunks, ∀ x, x ∈ Set.Ico c.range.begin c.range.end →
      x ∈ covered start.missingRanges →
      Set.Ico c.range.begin c.range.end ⊆ covered start.missingRanges := by
    intro c hc x hxc hx
    rw [hunion] at hx ⊢
    obtain ⟨r, hr, hxr⟩ := hx
    obtain ⟨c', hc', rfl⟩ := List.mem_map.mp hr
    obtain rfl := planChunks_unique hplan hc (hsub hc') hxc hxr
    exact fun y hy => ⟨c.range, hr, hy⟩
  have hsends : ∀ streamId missing, st.received streamId = some missing → ∀ c ∈ chunks,
      c.streamId = streamId → (FileDownloadSender.shouldSendChunk c missing = true ↔
        Set.Ico c.range.begin c.range.end ⊆ covered start.missingRanges) := by
    intro streamId missing hreceived c hc hstream
    obtain ⟨hcanonical, hagree⟩ := hinv.received streamId missing hreceived
    have hne := (planChunks_bounds hplan hc).1
    rw [FileDownloadSender.shouldSendChunk_iff hne hcanonical.nonempty]
    constructor
    · rintro ⟨x, hxc, hx⟩
      exact hwhole c hc x hxc ((hagree c hc hstream x hxc).mp hx)
    · intro hall
      have hfirst : c.range.begin ∈ Set.Ico c.range.begin c.range.end := ⟨le_refl _, hne⟩
      exact ⟨c.range.begin, hfirst, (hagree c hc hstream _ hfirst).mpr (hall hfirst)⟩
  refine ⟨?_, fun s => ?_⟩
  · apply pairwise_sent
    · intro streamId missing _
      refine List.Nodup.map (fun c c' hcc' => congrArg SentRange.chunk hcc') ?_
      exact (nodup_planChunks hplan).filter _
    · rintro i missing s hs j missing' s' hs' hij rfl
      obtain ⟨-, hi, -⟩ := hown i missing s hs
      obtain ⟨-, hj, -⟩ := hown j missing' s hs'
      exact hij (hi.symm.trans hj)
  · rw [mem_sent]
    constructor
    · rintro ⟨streamId, -, missing, hreceived, hs⟩
      obtain ⟨⟨hc, hstream⟩, hsend, heq⟩ := FileDownloadSender.mem_sendStream.mp hs
      exact ⟨hc, congrArg SentRange.range heq,
        (hsends streamId missing hreceived s.chunk hc hstream).mp hsend⟩
    · rintro ⟨hc, hrange, hin⟩
      have hlt := (planChunks_bounds hplan hc).2.2
      obtain ⟨missing, hreceived⟩ := Option.isSome_iff_exists.mp (hall s.chunk.streamId hlt)
      refine ⟨s.chunk.streamId, hlt, missing, hreceived,
        FileDownloadSender.mem_sendStream.mpr ⟨⟨hc, rfl⟩, ?_, ?_⟩⟩
      · exact (hsends s.chunk.streamId missing hreceived s.chunk hc rfl).mpr hin
      · rw [← hrange]

/-- **The send plan.**  Whatever the receiver has when the transfer begins, and
whenever each stream is answered: the upload streams cut exactly what is missing
into disjoint ranges along the plan, and if whole chunks are missing the
download streams send just these, each once. -/
theorem sendPlan_partition {totalSize : UInt64} {chunkSize connections : Nat}
    {chunks : List ChunkRange}
    (hplan : planChunks totalSize.toNat chunkSize connections = .ok chunks) (hardware : Bool) :
    (∀ request start st, request.totalSize = totalSize →
      (transferSystem hardware request).Reachable start →
      (sendSystem transferSessionFormat (FileTransferClient.sendStream chunks) start).Reachable st →
      st.AllAnswered connections →
      Partitions chunks (st.sent (FileTransferClient.sendStream chunks) connections)
        start.missingRanges) ∧
    (∀ request start st, request.totalSize = totalSize →
      (downloadSystem hardware request).Reachable start →
      (∃ inside ⊆ chunks, covered start.missingRanges = unionOf inside) →
      (sendSystem downloadSessionFormat (FileDownloadSender.sendStream chunks) start).Reachable st →
      st.AllAnswered connections →
      SendsInside chunks (st.sent (FileDownloadSender.sendStream chunks) connections)
        start.missingRanges) := by
  constructor
  · intro request start st hsize hstart hst hall
    have hsound := transfer_sound hstart
    rw [← hsize, ← hsound.opened.totalSize] at hplan
    exact FileTransferClient.sent_partitions hsound.ok hplan hst hall
  · rintro request start st hsize hstart ⟨inside, hsub, hunion⟩ hst hall
    have hsound := download_sound hstart
    rw [← hsize, ← hsound.opened.totalSize] at hplan
    exact FileDownloadSender.sent_inside hsound.ok hplan hsub hunion hst hall

/-- Two streams; the second is answered after a range of the first has been
recorded. -/
def answeredLate {P : Type} (format : SessionFormat P) (op : SessionOp) (w : World)
    (start : Session P) : SendState P :=
  let later := (op.run format start w).2.1
  ⟨later, Function.update (Function.update (fun _ => none) 0 (some start.missingRanges)) 1
    (some later.missingRanges)⟩

theorem answeredLate_reachable {P : Type} {format : SessionFormat P}
    {sends : Nat → List CompletedRange → List SentRange} {op : SessionOp} {w : World}
    {start : Session P} {sent : SentRange} {checksum : ChecksumValue}
    (hop : op.record? = some ⟨sent.chunk.chunkId, sent.range.begin,
      sent.range.end - sent.range.begin, checksum⟩)
    (hsent : sent ∈ sends 0 start.missingRanges) :
    (sendSystem format sends start).Reachable (answeredLate format op w start) := by
  let asked : Nat → Option (List CompletedRange) :=
    Function.update (fun _ => none) 0 (some start.missingRanges)
  let later := (op.run format start w).2.1
  have hfirst : (sendSystem format sends start).step (.answered 0) ⟨start, fun _ => none⟩
      ⟨start, asked⟩ := ⟨rfl, rfl⟩
  have hstored : (sendSystem format sends start).step (.completed 0 sent op w) ⟨start, asked⟩
      ⟨later, asked⟩ := ⟨⟨⟨start.missingRanges, rfl, hsent⟩, checksum, hop⟩, rfl⟩
  have hsecond : (sendSystem format sends start).step (.answered 1) ⟨later, asked⟩
      (answeredLate format op w start) := ⟨rfl, rfl⟩
  exact .step (.step (.step (.initial rfl) hfirst) hstored) hsecond

theorem answeredLate_allAnswered {P : Type} (format : SessionFormat P) (op : SessionOp) (w : World)
    (start : Session P) : (answeredLate format op w start).AllAnswered 2 := by
  intro streamId hlt
  interval_cases streamId
  · rfl
  · rfl

def threeChunksPlan : List ChunkRange :=
  [⟨0, 0, 1, 0⟩, ⟨1, 1, 1, 1⟩, ⟨2, 2, 1, 0⟩]

theorem sendPlan_partition_of_answeredLate :
    Partitions threeChunksPlan
        ((answeredLate transferSessionFormat (recordZero 0) corruptSecondByte
          (threeChunksAfter [])).sent (FileTransferClient.sendStream threeChunksPlan) 2)
        (threeChunksAfter []).missingRanges ∧
      SendsInside threeChunksPlan
        ((answeredLate downloadSessionFormat (recordZero 0) corruptSecondByte
          (.fresh downloadSessionFormat threeChunksDownload .software 0 1)).sent
            (FileDownloadSender.sendStream threeChunksPlan) 2)
        (Session.fresh downloadSessionFormat threeChunksDownload .software 0 1).missingRanges := by
  have hplan : planChunks (3 : UInt64).toNat 1 2 = .ok threeChunksPlan := by decide
  obtain ⟨hupload, hdownload⟩ := sendPlan_partition hplan false
  constructor
  · refine hupload threeChunks _ _ rfl (threeChunks_reachable []) ?_
      (answeredLate_allAnswered _ _ _ _)
    exact @answeredLate_reachable _ _ _ _ _ _ ⟨⟨0, 0, 1, 0⟩, ⟨0, 1⟩⟩ (checksumOf .crc32c [0]) rfl
      (by decide)
  · refine hdownload threeChunksDownload _ _ rfl threeChunksDownload_reachable
      ⟨threeChunksPlan, fun c hc => hc, ?_⟩ ?_ (answeredLate_allAnswered _ _ _ _)
    · rw [unionOf, covered_planChunks hplan]
      show covered [⟨0, 3⟩] = Set.Ico 0 3
      rw [covered_cons, covered_nil, Set.union_empty]
    · exact @answeredLate_reachable _ _ _ _ _ _ ⟨⟨0, 0, 1, 0⟩, ⟨0, 1⟩⟩ (checksumOf .crc32c [0])
        rfl (by decide)

end GridFlux
