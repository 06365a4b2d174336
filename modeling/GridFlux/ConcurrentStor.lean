/-
GridFlux/ConcurrentStor.lean

Two control connections that run STOR on one path.

The control server checks the output before the 150 reply, the receiver when it
starts and once more before the rename, and a thread of the server runs each
connection: between any two of these steps the other connection may take its own.
The manifest, and the name under which it is saved, are those of the output, so
both transfers write them; each transfer has a temp file of its own.

No check and the rename are one step, and the rename replaces what it finds: both
connections can come to 226, and the output is then the later source
(`stor_concurrent_race`).  When each rename finds the path free, and the transfers
are different ones, at most one connection comes to 226, and the output is what
its client has sent (`stor_concurrent`).
-/
import GridFlux.ControlConnection
import GridFlux.StorReceiver
import GridFlux.UploadAttempts

namespace GridFlux

open HalfOpen TextCodec Transition SharedFile

open FileTransferServer

/-! ### The connections -/

/-- `validateOutputBeforeStor`, on the files there are. -/
def World.validateOutputBeforeStor (w : World) (outputPath : Path) (resume : Bool) : Effect Unit :=
  match w.pathExists outputPath with
  | (.error e, w) => (.error e, w)
  | (.ok outputExists, w) =>
      if outputExists then (.error (.invalidArgument (ascii "output file already exists")), w)
      else
        match w.pathExists (manifestPathForOutput outputPath) with
        | (.error e, w) => (.error e, w)
        | (.ok manifestExists, w) =>
            if resume ∧ ¬manifestExists then
              (.error (.invalidArgument (ascii "manifest is required for REST resume")), w)
            else if ¬resume ∧ manifestExists then
              (.error (.invalidArgument (ascii "manifest already exists; use REST GFID token")), w)
            else (.ok (), w)

/-- It decides as the control connection does that sees these files. -/
theorem World.validateOutputBeforeStor_eq (env : Circumstances) {w : World} {outputPath : Path}
    (houtput : env.pathExists outputPath = (w.pathExists outputPath).1)
    (hmanifest : env.pathExists (manifestPathForOutput outputPath) =
      ((w.pathExists outputPath).2.pathExists (manifestPathForOutput outputPath)).1)
    (resume : Bool) :
    (w.validateOutputBeforeStor outputPath resume).1 =
      env.validateOutputBeforeStor outputPath resume := by
  rw [validateOutputBeforeStor, Circumstances.validateOutputBeforeStor, houtput, hmanifest]
  rcases w.pathExists outputPath with ⟨e | outputExists, w₁⟩
  · rfl
  · cases outputExists with
    | true => rfl
    | false =>
        rcases h : w₁.pathExists (manifestPathForOutput outputPath) with ⟨e | manifestExists, w₂⟩
        · simp only [h]
          rfl
        · simp only [h]
          cases resume <;> cases manifestExists <;> rfl

theorem World.validateOutputBeforeStor_frame (w : World) (outputPath : Path) (resume : Bool) :
    World.Frame ∅ w (w.validateOutputBeforeStor outputPath resume).2 := by
  have hout := w.pathExists_frame outputPath
  rw [validateOutputBeforeStor]
  rcases h : w.pathExists outputPath with ⟨e | outputExists, w₁⟩
  · rw [h] at hout
    exact hout
  · rw [h] at hout
    simp only
    split
    · exact hout
    · have hmanifest := w₁.pathExists_frame (manifestPathForOutput outputPath)
      rcases h' : w₁.pathExists (manifestPathForOutput outputPath) with ⟨e | manifestExists, w₂⟩
      · rw [h'] at hmanifest
        exact hout.trans hmanifest
      · rw [h'] at hmanifest
        simp only
        split
        · exact hout.trans hmanifest
        · split
          · exact hout.trans hmanifest
          · exact hout.trans hmanifest

/-- The two control connections. -/
inductive StorSide
  | first
  | second
deriving DecidableEq, Repr

/-- A receiver that runs, with its client; the files are shared. -/
structure StorUpload where
  receiver : Receiver
  gathered : Nat → Bytes
  contents : Set (Segment UInt8)
  committed : Bool
  streams : List ClientStream

/-- The upload on the files there are. -/
def StorUpload.on (u : StorUpload) (w : World) : UploadState :=
  ⟨⟨some u.receiver, w, u.gathered, u.contents, u.committed⟩, u.streams⟩

/-- A receiver that has just started. -/
def StorUpload.start (r : Receiver) : StorUpload := ⟨r, fun _ => [], ∅, false, []⟩

/-- How far a connection has come with its STOR. -/
inductive StorStage
  | waiting
  /-- the output has been checked, and the 150 reply is out -/
  | opening (resume : Bool)
  | running (u : StorUpload)
  | replied (code : Nat)

structure StorState where
  world : World
  sides : StorSide → StorStage

inductive StorEvent
  | stor (side : StorSide) (resume : Bool)
  | start (side : StorSide) (options : FileTransferOptions)
  | upload (side : StorSide) (event : ClientEvent)
  | reply (side : StorSide)
  | torn (manifest temp : Option Bytes)

/-- The session may still be opened. -/
def StorStage.Unopened : StorStage → Prop
  | .waiting => True
  | .opening _ => True
  | .running u => u.receiver.phase = .receiving ∧ u.receiver.transfer.active = none
  | .replied _ => False

/-- The options that `runStor` gives to the receiver. -/
structure StorOptions (client : UploadClient) (path : Path) (resume : Bool)
    (options : FileTransferOptions) : Prop where
  output : options.path = path
  crc : options.checksumAlgorithm = .crc32c
  connections : options.connections = client.connections
  transferId : options.transferId = client.transferId
  resumes : options.resume = resume
  overwrite : options.overwrite = false

namespace StorState

/-- One connection comes to `stage`, and the files to `w`. -/
def move (st : StorState) (side : StorSide) (stage : StorStage) (w : World) : StorState :=
  ⟨w, Function.update st.sides side stage⟩

/-- The check of the control server. -/
def stor (st : StorState) (path : Path) (side : StorSide) (resume : Bool) : StorState :=
  match st.world.validateOutputBeforeStor path resume with
  | (.error _, w) => st.move side (.replied 550) w
  | (.ok _, w) => st.move side (.opening resume) w

/-- The receiver starts, or refuses to. -/
def start (st : StorState) (side : StorSide) (options : FileTransferOptions) : StorState :=
  match Receiver.start options st.world with
  | (.error _, w) => st.move side (.replied 550) w
  | (.ok r, w) => st.move side (.running (.start r)) w

/-- The reply after a transfer. -/
def reply (st : StorState) (side : StorSide) : Except Status Unit → StorState
  | .error _ => st.move side (.replied 550) st.world
  | .ok _ => st.move side (.replied 226) st.world

/-- What the manifest and the file it is saved through may become when both
connections save at once. -/
def torn (st : StorState) (path : Path) (manifest temp : Option Bytes) : StorState :=
  ⟨(st.world.setFile (manifestPathForOutput path) manifest).setFile
    (st.world.manifestTempPath (manifestPathForOutput path)) temp, st.sides⟩

end StorState

/-- Two connections that run STOR on one path, each for one client. -/
def concurrentStors (clients : StorSide → UploadClient) (path : Path) :
    System StorState StorEvent where
  initial st := ∀ side, st.sides side = .waiting ∧ (clients side).Left path st.world
  step event st st' :=
    match event with
    | .stor side resume => st.sides side = .waiting ∧ st' = st.stor path side resume
    | .start side options => ∃ resume, st.sides side = .opening resume ∧
        StorOptions (clients side) path resume options ∧ st' = st.start side options
    | .upload side event => ∃ u u' w, st.sides side = .running u ∧
        (∀ options w, event ≠ .attempt options w) ∧
        (uploadAttempts (clients side) path none).step event (u.on st.world) (u'.on w) ∧
        st' = st.move side (.running u') w
    | .reply side => ∃ u status, st.sides side = .running u ∧
        u.receiver.phase = .returned status ∧ st' = st.reply side status
    | .torn manifest temp => (∀ side, ¬(st.sides side).Unopened) ∧
        st' = st.torn path manifest temp

/-! ### What holds of them -/

/-- The transfer of the connection is a success, or has been reported as one. -/
def StorStage.Succeeded : StorStage → Prop
  | .running u => u.receiver.Succeeded
  | .replied code => code = 226
  | _ => False

/-- What holds of an upload on the files there are. -/
structure StorUpload.Ok (client : UploadClient) (path : Path) (u : StorUpload) (w : World) :
    Prop where
  stor : client.StorOk path (u.on w).run u.receiver
  inLine : u.receiver.phase = .receiving → client.InLine u.receiver u.streams
  queued : ∀ s ∈ u.streams, ∀ event ∈ s.toSend, event ≠ .proceed

/-- What holds of the two connections: a success is what the output holds, and
there is one at most. -/
structure StorState.Ok (clients : StorSide → UploadClient) (path : Path) (st : StorState) :
    Prop where
  left : ∀ side, (st.sides side).Unopened → (clients side).Left path st.world
  running : ∀ side u, st.sides side = .running u → u.Ok (clients side) path st.world
  output : ∀ side, (st.sides side).Succeeded → st.world.files path = some (clients side).source
  single : ∀ a b, (st.sides a).Succeeded → (st.sides b).Succeeded → a = b

section Uploads

variable {client : UploadClient} {path : Path} {u u' : StorUpload} {w w' : World} {event : Event}
  {streams : List ClientStream}

theorem arrivals_ne_proceed {index : Nat} {frames : List (FrameHeader × Bytes)} :
    ∀ event ∈ frames.flatMap (arrivals index), event ≠ .proceed := by
  rintro event hevent rfl
  exact on_of_mem_arrivals _ hevent

/-- What happens elsewhere does not matter. -/
theorem StorUpload.Ok.elsewhere (h : u.Ok client path w)
    (hfile : w'.files (tempPathForOutput path client.transferId) =
      w.files (tempPathForOutput path client.transferId)) : u.Ok client path w' :=
  ⟨h.stor.elsewhere hfile, h.inLine, h.queued⟩

/-- A receiver that has just started. -/
theorem StorUpload.Ok.start {options : FileTransferOptions} {resume : Bool} {r : Receiver}
    (hleft : client.Left path w) (hoptions : StorOptions client path resume options)
    (hstart : Receiver.start options w = (.ok r, w')) :
    (StorUpload.start r).Ok client path w' := by
  refine ⟨UploadClient.StorOk.start hleft hoptions.output hoptions.crc hstart, fun _ => ⟨?_, ?_⟩,
    fun s hs => (by cases hs)⟩
  · obtain ⟨rfl, -⟩ := Receiver.start_ok hstart
    rfl
  · intro i c s hc hs
    cases hs

/-- **An event of the receiver.** -/
theorem StorUpload.Ok.receive (h : u.Ok client path w)
    (hleft : u.receiver.phase = .receiving → u.receiver.transfer.active = none →
      client.Left path w)
    (heq : u'.on w' = ⟨(u.on w).run.receive u.receiver event, streams⟩)
    (hdelivers : u.receiver.phase = .receiving → client.Delivers u.receiver event)
    (hinLine : (u.receiver.step event w).1.phase = .receiving → u.receiver.phase = .receiving →
      u.receiver.ConnectionsOk → client.InLine (u.receiver.step event w).1 streams)
    (hqueued : ∀ s ∈ streams, ∀ event ∈ s.toSend, event ≠ .proceed) : u'.Ok client path w' := by
  obtain ⟨hrun, hstreams⟩ := UploadState.mk.inj heq
  have hreceiver : u'.receiver = (u.receiver.step event w).1 :=
    Option.some.inj (congrArg UploadRun.receiver hrun)
  have hstor := h.stor.step hleft hdelivers
  refine ⟨?_, fun hphase' => ?_, ?_⟩
  · show client.StorOk path (u'.on w').run u'.receiver
    rw [show (u'.on w').run = _ from hrun, hreceiver]
    exact hstor
  · rw [hreceiver] at hphase' ⊢
    rw [hstreams]
    have hphase := u.receiver.receiving_of_step hphase'
    exact hinLine hphase' hphase (h.stor.receiving hphase).connections
  · rw [hstreams]
    exact hqueued

end Uploads

namespace StorState

variable {clients : StorSide → UploadClient} {path : Path} {st : StorState} {side : StorSide}
  {stage : StorStage} {w : World}

theorem move_self : (st.move side stage w).sides side = stage := Function.update_self ..

theorem move_of_ne {other : StorSide} (h : other ≠ side) :
    (st.move side stage w).sides other = st.sides other := Function.update_of_ne h ..

/-- **A step of one connection**: what it leaves of its own, that it does not
matter to the other, and that it changes the output only where there is none. -/
theorem Ok.move (h : st.Ok clients path)
    (hleft : stage.Unopened → (clients side).Left path w)
    (hupload : ∀ u, stage = .running u → u.Ok (clients side) path w)
    (hothers : ∀ other, other ≠ side →
      ((clients other).Left path st.world → (clients other).Left path w) ∧
      w.files (tempPathForOutput path (clients other).transferId) =
        st.world.files (tempPathForOutput path (clients other).transferId))
    (houtput : w.files path = st.world.files path ∧
        (stage.Succeeded → (st.sides side).Succeeded) ∨
      st.world.files path = none ∧
        (stage.Succeeded → w.files path = some (clients side).source)) :
    (st.move side stage w).Ok clients path := by
  refine ⟨fun other hunopened => ?_, fun other u hrunning => ?_, fun other hsucceeded => ?_,
    fun a b ha hb => ?_⟩
  · by_cases hother : other = side
    · subst hother
      rw [move_self] at hunopened
      exact hleft hunopened
    · rw [move_of_ne hother] at hunopened
      exact (hothers other hother).1 (h.left other hunopened)
  · by_cases hother : other = side
    · subst hother
      rw [move_self] at hrunning
      exact hupload u hrunning
    · rw [move_of_ne hother] at hrunning
      exact (h.running other u hrunning).elsewhere (hothers other hother).2
  · show w.files path = _
    by_cases hother : other = side
    · subst hother
      rw [move_self] at hsucceeded
      rcases houtput with ⟨hsame, hbefore⟩ | ⟨-, hafter⟩
      · rw [hsame]
        exact h.output other (hbefore hsucceeded)
      · exact hafter hsucceeded
    · rw [move_of_ne hother] at hsucceeded
      have hsource := h.output other hsucceeded
      rcases houtput with ⟨hsame, -⟩ | ⟨hnone, -⟩
      · rw [hsame]
        exact hsource
      · rw [hnone] at hsource
        cases hsource
  · -- a success of one that was none before, or of both
    have hold : ∀ other, ((st.move side stage w).sides other).Succeeded →
        (st.sides other).Succeeded ∨ (st.world.files path = none ∧ other = side) := by
      intro other hsucceeded
      by_cases hother : other = side
      · subst hother
        rw [move_self] at hsucceeded
        rcases houtput with ⟨-, hbefore⟩ | ⟨hnone, -⟩
        · exact Or.inl (hbefore hsucceeded)
        · exact Or.inr ⟨hnone, rfl⟩
      · rw [move_of_ne hother] at hsucceeded
        exact Or.inl hsucceeded
    have hfree : ∀ other, (st.sides other).Succeeded → st.world.files path ≠ none := by
      intro other hsucceeded hnone
      rw [h.output other hsucceeded] at hnone
      cases hnone
    rcases hold a ha with ha' | ⟨hnone, rfl⟩
    · rcases hold b hb with hb' | ⟨hnone, -⟩
      · exact h.single a b ha' hb'
      · exact absurd hnone (hfree a ha')
    · rcases hold b hb with hb' | ⟨-, rfl⟩
      · exact absurd hnone (hfree b hb')
      · rfl

/-- A step that changes no file and makes no success. -/
theorem Ok.framed (h : st.Ok clients path) (hframe : World.Frame ∅ st.world w)
    (hleft : stage.Unopened → (clients side).Left path st.world)
    (hupload : ∀ u, stage = .running u → u.Ok (clients side) path w)
    (hsucceeded : stage.Succeeded → (st.sides side).Succeeded) :
    (st.move side stage w).Ok clients path := by
  have hsame : ∀ p, w.files p = st.world.files p :=
    fun p => hframe.files p (Set.notMem_empty p)
  exact h.move (fun hunopened => (hleft hunopened).congr (hsame _) (hsame _)) hupload
    (fun other _ => ⟨fun hother => hother.congr (hsame _) (hsame _), hsame _⟩)
    (Or.inl ⟨hsame path, hsucceeded⟩)

/-- **The check of the control server.** -/
theorem Ok.stor (h : st.Ok clients path) (hwaiting : st.sides side = .waiting) (resume : Bool) :
    (st.stor path side resume).Ok clients path := by
  have hframe := st.world.validateOutputBeforeStor_frame path resume
  have hunopened : (st.sides side).Unopened := by
    rw [hwaiting]
    exact True.intro
  rw [StorState.stor]
  rcases hcheck : st.world.validateOutputBeforeStor path resume with ⟨e | _, w⟩
  · rw [hcheck] at hframe
    exact h.framed hframe (fun hnone => hnone.elim) (fun u hu => (by cases hu))
      fun hcode => (by cases hcode)
  · rw [hcheck] at hframe
    exact h.framed hframe (fun _ => h.left side hunopened) (fun u hu => (by cases hu))
      fun hnone => hnone.elim

theorem start_frame (options : FileTransferOptions) (w : World) :
    World.Frame ∅ w (Receiver.start options w).2 := by
  have hframe := Receiver.validateServerOutputState_frame options w
  rw [Receiver.start]
  rcases hvalid : validateServerOutputState options w with ⟨e | _, w₁⟩
  · rw [hvalid] at hframe
    exact hframe
  · rw [hvalid] at hframe
    cases validateFileIoConfig options.fileIo with
    | error e => exact hframe
    | ok _ => exact hframe

/-- **The receiver starts**, or refuses to. -/
theorem Ok.start (h : st.Ok clients path) {resume : Bool}
    (hopening : st.sides side = .opening resume) {options : FileTransferOptions}
    (hoptions : StorOptions (clients side) path resume options) :
    (st.start side options).Ok clients path := by
  have hframe := start_frame options st.world
  have hleft : (clients side).Left path st.world := by
    apply h.left side
    rw [hopening]
    exact True.intro
  rw [StorState.start]
  rcases hstart : Receiver.start options st.world with ⟨e | r, w⟩
  · rw [hstart] at hframe
    exact h.framed hframe (fun hnone => hnone.elim) (fun u hu => (by cases hu))
      fun hcode => (by cases hcode)
  · rw [hstart] at hframe
    refine h.framed hframe (fun _ => hleft) (fun u hu => ?_) fun hsucceeded => ?_
    · obtain rfl := StorStage.running.inj hu
      exact .start hleft hoptions hstart
    · obtain ⟨rfl, -⟩ := Receiver.start_ok hstart
      rcases hsucceeded with hphase | hphase
      · cases hphase
      · cases hphase

/-- **An event of a receiver**, whose rename finds the output path free. -/
theorem Ok.receive (h : st.Ok clients path)
    (hids : ∀ other, other ≠ side → (clients other).transferId ≠ (clients side).transferId)
    {u u' : StorUpload} (hrunning : st.sides side = .running u) {event : Event}
    {streams : List ClientStream}
    (heq : u'.on w = ⟨(u.on st.world).run.receive u.receiver event, streams⟩)
    (hfree : u.receiver.phase = .verified → event = .proceed → st.world.files path = none)
    (hdelivers : u.receiver.phase = .receiving → (clients side).Delivers u.receiver event)
    (hinLine : (u.receiver.step event st.world).1.phase = .receiving →
      u.receiver.phase = .receiving → u.receiver.ConnectionsOk →
      (clients side).InLine (u.receiver.step event st.world).1 streams)
    (hqueued : ∀ s ∈ streams, ∀ event ∈ s.toSend, event ≠ .proceed) :
    (st.move side (.running u') w).Ok clients path := by
  have hu := h.running side u hrunning
  have hstor := hu.stor
  have hleft : u.receiver.phase = .receiving → u.receiver.transfer.active = none →
      (clients side).Left path st.world := by
    intro hphase hnone
    apply h.left side
    rw [hrunning]
    exact ⟨hphase, hnone⟩
  have hu' : u'.Ok (clients side) path w := hu.receive hleft heq hdelivers hinLine hqueued
  -- the files and the session of the step
  obtain ⟨hrun, -⟩ := UploadState.mk.inj heq
  have hreceiver : u'.receiver = (u.receiver.step event st.world).1 :=
    Option.some.inj (congrArg UploadRun.receiver hrun)
  have hworld : w = (u.receiver.step event st.world).2 := congrArg UploadRun.world hrun
  have hid : ∀ a, u'.receiver.transfer.active = some a →
      a.init.transferId = (clients side).transferId := by
    intro a ha
    obtain ⟨resume, hinit⟩ := hu'.stor.inits a ha
    rw [hinit]
    rfl
  have hpath : u.receiver.options.path = path := hstor.samePath
  have hsession : SessionStep {path} u.receiver.options st.world u.receiver.transfer.active
      u'.receiver.transfer.active w := by
    rw [hreceiver, hworld]
    exact u.receiver.step_session_of st.world fun _ _ => hpath
  have hframe := hsession.frame hstor.invariant.sound hid
  refine h.move (fun hunopened => ?_) (fun u'' hu'' => ?_) (fun other hother => ?_) ?_
  · obtain ⟨hphase', hnone'⟩ := hunopened
    rw [hreceiver] at hphase'
    have hphase := u.receiver.receiving_of_step hphase'
    rw [hnone'] at hsession
    generalize hbefore : u.receiver.transfer.active = before at hsession
    cases hsession with
    | idle hidle =>
        exact (hleft hphase hbefore).congr (hidle.files _ (Set.notMem_empty _))
          (hidle.files _ (Set.notMem_empty _))
  · obtain rfl := StorStage.running.inj hu''
    exact hu'
  · have hne := hids other hother
    refine ⟨fun hother => hother.elsewhere hne hpath hsession hstor.invariant.sound hid, ?_⟩
    rw [hpath] at hframe
    exact hframe.files _ (tempPath_notMem_transferFiles hne path st.world)
  · by_cases hrename : u.receiver.phase = .verified ∧ event = .proceed
    · -- the rename
      obtain ⟨hphase, hevent⟩ := hrename
      refine Or.inr ⟨hfree hphase hevent, fun hsucceeded => ?_⟩
      have hsucceeded' : (u.receiver.step event st.world).1.Succeeded := hreceiver ▸ hsucceeded
      rcases hstor.succeeds hsucceeded' with hbefore | ⟨-, -, houtput⟩
      · rcases hbefore with hbefore | hbefore
        · rw [hphase] at hbefore
          cases hbefore
        · rw [hphase] at hbefore
          cases hbefore
      · rw [hworld]
        exact houtput
    · -- any other step
      refine Or.inl ⟨?_, fun hsucceeded => ?_⟩
      · have hquiet : SessionStep ∅ u.receiver.options st.world u.receiver.transfer.active
            u'.receiver.transfer.active w := by
          rw [hreceiver, hworld]
          exact u.receiver.step_session_of st.world fun hphase hevent =>
            absurd ⟨hphase, hevent⟩ hrename
        have hkept := hquiet.frame hstor.invariant.sound hid
        rw [hpath, Set.union_empty] at hkept
        exact hkept.files _ (output_notMem_transferFiles _ _ _)
      · rw [hrunning]
        have hsucceeded' : (u.receiver.step event st.world).1.Succeeded := hreceiver ▸ hsucceeded
        rcases hstor.succeeds hsucceeded' with hbefore | ⟨hphase, hevent, -⟩
        · exact hbefore
        · exact absurd ⟨hphase, hevent⟩ hrename

/-- The connection's next step is the rename, and something is in its way. -/
def Overwrites (path : Path) (st : StorState) (side : StorSide) : Prop :=
  ∃ u, st.sides side = .running u ∧ u.receiver.phase = .verified ∧ st.world.files path ≠ none

/-- **A step of the transfer**, whose rename finds the output path free. -/
theorem Ok.upload (h : st.Ok clients path)
    (hids : ∀ other, other ≠ side → (clients other).transferId ≠ (clients side).transferId)
    {u u' : StorUpload} (hrunning : st.sides side = .running u) {event : ClientEvent}
    (hfree : event = .server .proceed → ¬st.Overwrites path side)
    (hattempt : ∀ options w, event ≠ .attempt options w)
    (hstep : (uploadAttempts (clients side) path none).step event (u.on st.world) (u'.on w)) :
    (st.move side (.running u') w).Ok clients path := by
  have hu := h.running side u hrunning
  have hreceiver : ∀ {r : Receiver}, (u.on st.world).run.receiver = some r → r = u.receiver :=
    fun hr => (Option.some.inj hr).symm
  cases event with
  | attempt options w₀ => exact absurd rfl (hattempt options w₀)
  | connected streamId resume =>
      obtain ⟨r, frame, hr, hphase, hroom, -, -, hframe, heq⟩ := hstep
      obtain rfl := hreceiver hr
      refine h.receive hids hrunning heq (fun _ hevent => (by cases hevent))
        (fun _ i c bytes htakes => (by cases htakes))
        (fun _ _ _ => (hu.inLine hphase).connect hphase hroom hframe) fun s hs event hevent => ?_
      rcases List.mem_append.mp hs with hs | hs
      · exact hu.queued s hs event hevent
      · obtain rfl := List.mem_singleton.mp hs
        refine @arrivals_ne_proceed u.streams.length [frame] event ?_
        rw [List.flatMap_singleton]
        exact hevent
  | delivered index =>
      obtain ⟨r, s, event, rest, hr, hs, hsend, heq⟩ := hstep
      obtain rfl := hreceiver hr
      have hqueue := hu.queued s (List.mem_of_getElem? hs)
      rw [hsend] at hqueue
      obtain ⟨hhead, hrest⟩ := List.forall_mem_cons.mp hqueue
      refine h.receive hids hrunning heq (fun _ hevent => absurd hevent hhead)
        (fun hphase => (hu.inLine hphase).delivers hs hsend)
        (fun hphase' hphase hconnections =>
          (hu.inLine hphase).deliver hs hsend hconnections hphase hphase')
        fun s' hs' => ?_
      rcases List.mem_or_eq_of_mem_set hs' with hs' | rfl
      · exact hu.queued s' hs'
      · exact hrest
  | answered index missingRanges =>
      obtain ⟨r, s, hr, hs, -, hsent, -, heq⟩ := hstep
      obtain ⟨hrun, hstreams⟩ := UploadState.mk.inj heq
      obtain ⟨hsame, hworld, hgathered, hcontents, hcommitted⟩ := UploadRun.mk.inj hrun
      have hu' : u' = { u with streams := u'.streams } := by
        obtain ⟨r', gathered, contents, committed, streams⟩ := u'
        obtain rfl := Option.some.inj hsame
        subst hgathered hcontents hcommitted
        rfl
      subst hworld
      refine h.framed (World.Frame.refl _) (fun hunopened => ?_) (fun u'' hu'' => ?_)
        fun hsucceeded => ?_
      · apply h.left side
        rw [hrunning]
        rw [hu'] at hunopened
        exact hunopened
      · obtain rfl := StorStage.running.inj hu''
        rw [hu', show u'.streams = _ from hstreams]
        refine ⟨hu.stor, fun hphase => (hu.inLine hphase).answer hs hsent missingRanges,
          fun s' hs' => ?_⟩
        rcases List.mem_or_eq_of_mem_set hs' with hs' | rfl
        · exact hu.queued s' hs'
        · exact arrivals_ne_proceed
      · rw [hrunning]
        rw [hu'] at hsucceeded
        exact hsucceeded
  | server event =>
      obtain ⟨hevent, r, hr, heq⟩ := hstep
      obtain rfl := hreceiver hr
      refine h.receive hids hrunning heq (fun hphase hproceed => ?_) (fun _ i c bytes htakes => ?_)
        (fun hphase' hphase _ => (hu.inLine hphase).server hphase hevent hphase') hu.queued
      · by_contra hbusy
        exact hfree (congrArg ClientEvent.server hproceed) ⟨u, hrunning, hphase, hbusy⟩
      · rcases hevent with rfl | ⟨status, rfl⟩
        · cases htakes
        · cases htakes

/-- **The reply** after the transfer. -/
theorem Ok.reply (h : st.Ok clients path) {u : StorUpload} (hrunning : st.sides side = .running u)
    {status : Except Status Unit} (hreturned : u.receiver.phase = .returned status) :
    (st.reply side status).Ok clients path := by
  cases status with
  | error e =>
      exact h.framed (World.Frame.refl _) (fun hnone => hnone.elim) (fun u hu => (by cases hu))
        fun hcode => (by cases hcode)
  | ok _ =>
      refine h.framed (World.Frame.refl _) (fun hnone => hnone.elim) (fun u hu => (by cases hu))
        fun _ => ?_
      rw [hrunning]
      exact Or.inr hreturned

/-- **Two saves at once** do no harm once both sessions are open: nobody reads
the manifest any more. -/
theorem Ok.torn (h : st.Ok clients path) (hopened : ∀ side, ¬(st.sides side).Unopened)
    (manifest temp : Option Bytes) : (st.torn path manifest temp).Ok clients path := by
  have hkept : ∀ {p : Path}, p ≠ manifestPathForOutput path →
      p ≠ st.world.manifestTempPath (manifestPathForOutput path) →
      (st.torn path manifest temp).world.files p = st.world.files p := by
    intro p hmanifest htemp
    exact (World.setFile_files_of_ne _ _ htemp).trans (World.setFile_files_of_ne _ _ hmanifest)
  refine ⟨fun other hunopened => absurd hunopened (hopened other), fun other u hrunning => ?_,
    fun other hsucceeded => ?_, h.single⟩
  · have hapart := transfer_filesApart st.world path (clients other).transferId
    exact (h.running other u hrunning).elsewhere
      (hkept hapart.temp_manifest hapart.temp_manifestTemp)
  · have hapart := transfer_filesApart st.world path (clients other).transferId
    rw [hkept hapart.output_manifest hapart.output_manifestTemp]
    exact h.output other hsucceeded

end StorState

/-- No rename is made where something is in its way. -/
def FindsFree (path : Path) : StorEvent → StorState → Prop
  | .upload side (.server .proceed), st => ¬st.Overwrites path side
  | _, _ => True

theorem StorState.ok_of_reachable {clients : StorSide → UploadClient} {path : Path}
    (hids : (clients .first).transferId ≠ (clients .second).transferId) {st : StorState}
    (h : ((concurrentStors clients path).restrict (FindsFree path)).Reachable st) :
    st.Ok clients path := by
  have hothers : ∀ side other : StorSide, other ≠ side →
      (clients other).transferId ≠ (clients side).transferId := by
    intro side other hne
    cases side with
    | first =>
        cases other with
        | first => exact absurd rfl hne
        | second => exact hids.symm
    | second =>
        cases other with
        | first => exact hids
        | second => exact absurd rfl hne
  apply h.invariant
  · intro st hinitial
    have hwaiting : ∀ side, st.sides side = .waiting := fun side => (hinitial side).1
    refine ⟨fun side _ => (hinitial side).2, fun side u hrunning => ?_, fun side hsucceeded => ?_,
      fun a b hsucceeded => ?_⟩
    · rw [hwaiting side] at hrunning
      cases hrunning
    · rw [hwaiting side] at hsucceeded
      exact hsucceeded.elim
    · rw [hwaiting a] at hsucceeded
      exact hsucceeded.elim
  · rintro event st st' - hok ⟨hfree, hstep⟩
    cases event with
    | stor side resume =>
        obtain ⟨hwaiting, rfl⟩ := hstep
        exact hok.stor hwaiting resume
    | start side options =>
        obtain ⟨resume, hopening, hoptions, rfl⟩ := hstep
        exact hok.start hopening hoptions
    | upload side event =>
        obtain ⟨u, u', w, hrunning, hattempt, hstep, rfl⟩ := hstep
        refine hok.upload (hothers side) hrunning (fun hevent => ?_) hattempt hstep
        subst hevent
        exact hfree
    | reply side =>
        obtain ⟨u, status, hrunning, hreturned, rfl⟩ := hstep
        exact hok.reply hrunning hreturned
    | torn manifest temp =>
        obtain ⟨hopened, rfl⟩ := hstep
        exact hok.torn hopened manifest temp

/-- What two clients that upload to one path may rely on. -/
def StorState.Honoured (clients : StorSide → UploadClient) (path : Path) (st : StorState) : Prop :=
  (∀ side, st.sides side = .replied 226 → st.world.files path = some (clients side).source) ∧
    ¬∀ side, st.sides side = .replied 226

/-- **Two STORs on one path**, of different transfers: as long as no rename
replaces a file, one connection at most comes to 226, and the output is then what
its client has sent. -/
theorem stor_concurrent (clients : StorSide → UploadClient) (path : Path)
    (hids : (clients .first).transferId ≠ (clients .second).transferId) {st : StorState}
    (h : ((concurrentStors clients path).restrict (FindsFree path)).Reachable st) :
    st.Honoured clients path := by
  have hok := StorState.ok_of_reachable hids h
  have hsucceeded : ∀ side, st.sides side = .replied 226 → (st.sides side).Succeeded := by
    intro side hreplied
    rw [hreplied]
    rfl
  refine ⟨fun side hreplied => hok.output side (hsucceeded side hreplied), fun hall => ?_⟩
  have hsame := hok.single .first .second (hsucceeded _ (hall _)) (hsucceeded _ (hall _))
  cases hsame

/-! ### Two sources of one byte -/

/-- The event starts another attempt. -/
def ClientEvent.startsAttempt : ClientEvent → Bool
  | .attempt _ _ => true
  | _ => false

namespace StorState

/-- The connections after an event; one that cannot happen is left out. -/
def follow (clients : StorSide → UploadClient) (path : Path) (st : StorState) :
    StorEvent → StorState
  | .stor side resume =>
      match st.sides side with
      | .waiting => st.stor path side resume
      | _ => st
  | .start side options =>
      match st.sides side with
      | .opening resume =>
          if options.path = path ∧ options.checksumAlgorithm = .crc32c ∧
              options.connections = (clients side).connections ∧
              options.transferId = (clients side).transferId ∧ options.resume = resume ∧
              options.overwrite = false then
            st.start side options
          else st
      | _ => st
  | .upload side event =>
      match st.sides side with
      | .running u =>
          if event.startsAttempt then st
          else
            let upload := (UploadState.follow (clients side) path (u.on st.world, []) event).1
            match upload.run.receiver with
            | none => st
            | some r => st.move side (.running ⟨r, upload.run.gathered, upload.run.contents,
                upload.run.committed, upload.streams⟩) upload.run.world
      | _ => st
  | .reply side =>
      match st.sides side with
      | .running u =>
          match u.receiver.phase with
          | .returned status => st.reply side status
          | _ => st
      | _ => st
  | .torn _ _ => st

/-- Does the event find the output path free, if it is a rename? -/
def findsFree (path : Path) (st : StorState) : StorEvent → Bool
  | .upload side (.server .proceed) =>
      match st.sides side with
      | .running u =>
          match u.receiver.phase with
          | .verified => (st.world.files path).isNone
          | _ => true
      | _ => true
  | _ => true

/-- Do all of the events? -/
def allFindFree (clients : StorSide → UploadClient) (path : Path) :
    StorState → List StorEvent → Bool
  | _, [] => true
  | st, event :: events =>
      st.findsFree path event && allFindFree clients path (st.follow clients path event) events

/-- The code a connection has replied. -/
def code (st : StorState) (side : StorSide) : Option Nat :=
  match st.sides side with
  | .replied code => some code
  | _ => none

variable {clients : StorSide → UploadClient} {path : Path} {st : StorState}

theorem code_eq {side : StorSide} {code : Nat} (h : st.code side = some code) :
    st.sides side = .replied code := by
  rw [StorState.code] at h
  split at h
  · rename_i code' hreplied
    rw [hreplied, Option.some.inj h]
  · cases h

theorem findsFree_sound {event : StorEvent} (h : st.findsFree path event = true) :
    FindsFree path event st := by
  cases event with
  | upload side event =>
      cases event with
      | server event =>
          cases event with
          | proceed =>
              rintro ⟨u, hrunning, hphase, hbusy⟩
              rw [findsFree, hrunning] at h
              simp only [hphase] at h
              rw [Option.isNone_iff_eq_none] at h
              exact hbusy h
          | accepted => exact True.intro
          | header index encoded => exact True.intro
          | payload index bytes => exact True.intro
          | lost status => exact True.intro
      | attempt options w => exact True.intro
      | connected streamId resume => exact True.intro
      | delivered index => exact True.intro
      | answered index missingRanges => exact True.intro
  | stor side resume => exact True.intro
  | start side options => exact True.intro
  | reply side => exact True.intro
  | torn manifest temp => exact True.intro

/-- **Following an event** is a step, or nothing. -/
theorem follow_step (st : StorState) (event : StorEvent) :
    st.follow clients path event = st ∨
      (concurrentStors clients path).step event st (st.follow clients path event) := by
  cases event with
  | stor side resume =>
      rw [follow]
      split
      · rename_i hwaiting
        exact Or.inr ⟨hwaiting, rfl⟩
      · exact Or.inl rfl
  | start side options =>
      rw [follow]
      split
      · rename_i resume hopening
        split
        · rename_i hguard
          obtain ⟨hpath, hcrc, hconnections, hid, hresume, hoverwrite⟩ := hguard
          exact Or.inr ⟨resume, hopening, ⟨hpath, hcrc, hconnections, hid, hresume, hoverwrite⟩,
            rfl⟩
        · exact Or.inl rfl
      · exact Or.inl rfl
  | upload side event =>
      rw [follow]
      split
      · rename_i u hrunning
        split
        · exact Or.inl rfl
        · rename_i hnew
          have hattempt : ∀ options w, event ≠ .attempt options w := by
            rintro options w rfl
            exact hnew rfl
          have hends := @UploadState.follow_ends (clients side) path (u.on st.world, [])
            (fun _ hnone => (by cases hnone)) event
          generalize UploadState.follow (clients side) path (u.on st.world, []) event = result
            at hends ⊢
          cases hends with
          | idle label =>
              refine Or.inl ?_
              show (⟨st.world, Function.update st.sides side (.running u)⟩ : StorState) = st
              rw [← hrunning, Function.update_eq_self]
          | attempt hpath hcrc hconnections hstart => exact absurd rfl (hattempt _ _)
          | @taken _ r event' streams hr hlabel hstep =>
              rw [UploadState.take_fst hr]
              exact Or.inr ⟨u, ⟨(r.step event' st.world).1, (u.on st.world).run.gather r event',
                ((u.on st.world).run.receive r event').contents,
                ((u.on st.world).run.receive r event').committed, streams⟩,
                (r.step event' st.world).2, hrunning, hattempt, hstep none, rfl⟩
          | @answered index missingRanges r streams hr hstep =>
              exact Or.inr ⟨u, { u with streams := streams }, _, hrunning, hattempt, hstep none, rfl⟩
      · exact Or.inl rfl
  | reply side =>
      rw [follow]
      split
      · rename_i u hrunning
        split
        · rename_i status hreturned
          exact Or.inr ⟨u, status, hrunning, hreturned, rfl⟩
        · exact Or.inl rfl
      · exact Or.inl rfl
  | torn manifest temp => exact Or.inl rfl

theorem foldl_follow_reachable (events : List StorEvent)
    (h : (concurrentStors clients path).Reachable st) :
    (concurrentStors clients path).Reachable (events.foldl (follow clients path) st) := by
  induction events generalizing st with
  | nil => exact h
  | cons event events ih =>
      rw [List.foldl_cons]
      apply ih
      rcases @follow_step clients path st event with hidle | hstep
      · rw [hidle]
        exact h
      · exact h.step hstep

theorem foldl_follow_restricted (events : List StorEvent)
    (h : ((concurrentStors clients path).restrict (FindsFree path)).Reachable st)
    (hfree : st.allFindFree clients path events = true) :
    ((concurrentStors clients path).restrict (FindsFree path)).Reachable
      (events.foldl (follow clients path) st) := by
  induction events generalizing st with
  | nil => exact h
  | cons event events ih =>
      rw [allFindFree, Bool.and_eq_true] at hfree
      rw [List.foldl_cons]
      refine ih ?_ hfree.2
      rcases @follow_step clients path st event with hidle | hstep
      · rw [hidle]
        exact h
      · exact h.step (l := event) ⟨findsFree_sound hfree.1, hstep⟩

end StorState

/-- A client with one byte. -/
def oneByteStorClient (transferId : Bytes) (byte : UInt8) : UploadClient where
  transferId := transferId
  source := [byte]
  chunkSize := 1
  connections := 1
  bufferSize := 128
  checksumBackend := .software
  hardware := false
  addressable := by simp
  buffered := by decide

def oneByteStorClients : StorSide → UploadClient
  | .first => oneByteStorClient (ascii "t") 65
  | .second => oneByteStorClient (ascii "u") 66

/-- Nothing is there. -/
def oneByteStorStart : StorState := ⟨.withFiles fun _ => none, fun _ => .waiting⟩

/-- The check of the control server, and the receiver's own. -/
def oneByteStorChecks (side : StorSide) : List StorEvent :=
  [.stor side false,
    .start side { oneByteOptions with transferId := (oneByteStorClients side).transferId }]

/-- Everything the client sends, up to the last test before the rename. -/
def oneByteStorBody (side : StorSide) : List StorEvent :=
  (oneByteStream false).map (StorEvent.upload side)

/-- The rename, the COMPLETE frame and the reply. -/
def oneByteStorEnd (side : StorSide) : List StorEvent :=
  [.upload side (.server .proceed), .upload side (.server .proceed), .reply side]

/-- Each connection does everything right after the other has done it. -/
def oneByteStorRace : List StorEvent :=
  (oneByteStorChecks .first ++ oneByteStorChecks .second) ++
    (oneByteStorBody .first ++ oneByteStorBody .second) ++
    (oneByteStorEnd .first ++ oneByteStorEnd .second)

/-- The second connection comes when the first is done. -/
def oneByteStorQueue : List StorEvent :=
  oneByteStorChecks .first ++ oneByteStorBody .first ++ oneByteStorEnd .first ++
    oneByteStorChecks .second ++ oneByteStorBody .second ++ oneByteStorEnd .second

def oneByteStors (events : List StorEvent) : StorState :=
  events.foldl (StorState.follow oneByteStorClients (ascii "o")) oneByteStorStart

theorem oneByteStorStart_initial :
    (concurrentStors oneByteStorClients (ascii "o")).initial oneByteStorStart := by
  intro side
  refine ⟨rfl, fun content hcontent => (by cases hcontent), fun text _ htext => ?_⟩
  cases htext

/-- The second connection is refused, and the output is the first source. -/
theorem stor_concurrent_oneByte :
    (oneByteStors oneByteStorQueue).Honoured oneByteStorClients (ascii "o") ∧
      (oneByteStors oneByteStorQueue).code .first = some 226 ∧
      (oneByteStors oneByteStorQueue).code .second = some 550 := by
  have hrun : oneByteStorStart.allFindFree oneByteStorClients (ascii "o") oneByteStorQueue = true ∧
      (oneByteStors oneByteStorQueue).code .first = some 226 ∧
      (oneByteStors oneByteStorQueue).code .second = some 550 := by
    decide +kernel
  refine ⟨?_, hrun.2⟩
  have hstart : ((concurrentStors oneByteStorClients (ascii "o")).restrict
      (FindsFree (ascii "o"))).Reachable oneByteStorStart := .initial oneByteStorStart_initial
  exact stor_concurrent oneByteStorClients (ascii "o") (by decide)
    (StorState.foldl_follow_restricted oneByteStorQueue hstart hrun.1)

/-- **Without that**, both come to 226, and the first source is lost. -/
theorem stor_concurrent_race :
    (concurrentStors oneByteStorClients (ascii "o")).Reachable (oneByteStors oneByteStorRace) ∧
      (∀ side, (oneByteStors oneByteStorRace).sides side = .replied 226) ∧
      (oneByteStors oneByteStorRace).world.files (ascii "o") = some [66] := by
  have hrun : (oneByteStors oneByteStorRace).code .first = some 226 ∧
      (oneByteStors oneByteStorRace).code .second = some 226 ∧
      (oneByteStors oneByteStorRace).world.files (ascii "o") = some [66] := by
    decide +kernel
  refine ⟨StorState.foldl_follow_reachable oneByteStorRace (.initial oneByteStorStart_initial),
    fun side => ?_, hrun.2.2⟩
  cases side with
  | first => exact StorState.code_eq hrun.1
  | second => exact StorState.code_eq hrun.2.1

end GridFlux
