/-
GridFlux/PassiveAgreement.lean

The passive flag of the session and the descriptor of the listener, over whole
runs of a control connection.

Each command gets one lemma: `runSize` and the like touch neither record,
EPSV and PASV set both, and the three functions that use the listener leave the
records in agreement exactly if they come past their checks.
-/
import GridFlux.ControlConnection

namespace GridFlux

open FileTree TextCodec Transition

/-! ### What a command does to the flag -/

namespace ControlSession

variable {s : ControlSession} {command : ControlCommand} {result : ControlResponse × ControlSession}

/-- A command that starts nothing leaves the flag alone. -/
theorem Handled.passiveReady_eq (h : Handled s command result)
    (hstarts : ¬result.1.action.Starts) : result.2.passiveReady = s.passiveReady := by
  cases h with
  | transfer _ _ _ _ haction => exact absurd (.inl haction) hstarts
  | listing _ _ _ haction => exact absurd (.inr haction) hstarts
  | _ => rfl

/-- A command that starts something finds the flag up and takes it down. -/
theorem Handled.takes_passive (h : Handled s command result)
    (hstarts : result.1.action.Starts) :
    s.passiveReady = true ∧ result.2.passiveReady = false ∧
      command.type ∈ [.stor, .retr, .list, .nlst] := by
  have hnot : result.1.action = .none → False := fun haction =>
    not_starts_of_harmless (.inl haction) hstarts
  cases h with
  | plain hplain => exact absurd hstarts hplain
  | user haction => exact (hnot haction).elim
  | loggedIn haction => exact (hnot haction).elim
  | loginFailed haction => exact (hnot haction).elim
  | binary => exact (hnot rfl).elim
  | parallel haction => exact (hnot haction).elim
  | restart => exact (hnot rfl).elim
  | transfer _ htype _ hpassive =>
      refine ⟨hpassive, rfl, ?_⟩
      rcases htype with htype | htype <;> simp [htype]
  | listing _ htype hpassive =>
      refine ⟨hpassive, rfl, ?_⟩
      rcases htype with htype | htype <;> simp [htype]

end ControlSession

namespace ControlConnection

/-- The session takes a listener to be at hand exactly if one is open. -/
def Agrees (c : ControlConnection) : Prop :=
  c.session.passiveReady = true ↔ c.passive.fd.isSome = true

instance (c : ControlConnection) : Decidable c.Agrees := inferInstanceAs (Decidable (_ ↔ _))

section Conditions

variable (options : ControlServerOptions) (env : Circumstances) (c : ControlConnection)
  (response : ControlResponse)

/-- STOR comes as far as its transfer. -/
def StorGoesAhead : Prop :=
  ∃ outputPath, c.resolve options env response .storTarget (ascii "STOR") = .ok outputPath ∧
    env.validateOutputBeforeStor outputPath.fullPath response.resume = .ok () ∧
    env.send (transferPrelude env response []) = .ok ()

/-- RETR comes as far as its transfer. -/
def RetrGoesAhead : Prop :=
  ∃ inputPath, c.resolve options env response .existingFile (ascii "RETR") = .ok inputPath ∧
    env.send (transferPrelude env response (ascii "download ")) = .ok ()

/-- A listing that has something to send gets its data connection. -/
def ListGoesAhead (namesOnly : Bool) : Prop :=
  ∀ path entries,
    c.resolve options env response .existingDirectory (listName namesOnly) = .ok path →
    env.readDirectoryEntries path.fullPath = .ok entries →
    env.send (listPrelude namesOnly) = .ok () ∧ env.acceptDataConnection = .ok ()

/-- The command does not leave its function while the listener is open. -/
def GoesAhead : Prop :=
  match response.action with
  | .startStor => c.StorGoesAhead options env response
  | .startRetr => c.RetrGoesAhead options env response
  | .startList => c.ListGoesAhead options env response false
  | .startNlst => c.ListGoesAhead options env response true
  | _ => True

end Conditions

/-- The same of a line, as the loop will serve it. -/
def LineGoesAhead (options : ControlServerOptions) (served : Served) (c : ControlConnection) :
    Prop :=
  match parseControlCommand served.line with
  | .error _ => True
  | .ok command =>
      { c with session := (c.session.handleCommand command).2 }.GoesAhead options served.env
        (c.session.handleCommand command).1

/-! ### Replies change neither record -/

variable {options : ControlServerOptions} {env : Circumstances} {c c' : ControlConnection}
  {response : ControlResponse}

@[simp] theorem sendLine_session (line : Bytes) : (env.sendLine c line).2.session = c.session := by
  rw [Circumstances.sendLine]
  split <;> rfl

@[simp] theorem sendLine_passive (line : Bytes) : (env.sendLine c line).2.passive = c.passive := by
  rw [Circumstances.sendLine]
  split <;> rfl

theorem sendLine_error {line : Bytes} {e : Status} (h : env.send line = .error e) :
    env.sendLine c line = (.error e, c) := by
  rw [Circumstances.sendLine, h]

theorem sendLine_ok {line : Bytes} (h : env.send line = .ok ()) :
    env.sendLine c line = (.ok (), { c with sent := c.sent ++ [line] }) := by
  rw [Circumstances.sendLine, h]

@[simp] theorem reply_session (code : Nat) (text : Bytes) :
    (env.reply c code text).session = c.session := sendLine_session _

@[simp] theorem reply_passive (code : Nat) (text : Bytes) :
    (env.reply c code text).passive = c.passive := sendLine_passive _

theorem sendResponse_kept (c : ControlConnection) (lines : List Bytes) :
    (env.sendResponse c lines).2.session = c.session ∧
      (env.sendResponse c lines).2.passive = c.passive := by
  induction lines generalizing c with
  | nil => exact ⟨rfl, rfl⟩
  | cons line lines ih =>
      rcases hsend : env.send line with e | u
      · rw [Circumstances.sendResponse, sendLine_error hsend]
        exact ⟨rfl, rfl⟩
      · rw [Circumstances.sendResponse, sendLine_ok hsend]
        exact ih _

/-- What leaves both records as they are keeps the agreement. -/
theorem agrees_of_kept (hsession : c'.session.passiveReady = c.session.passiveReady)
    (hpassive : c'.passive = c.passive) : c'.Agrees ↔ c.Agrees := by
  rw [Agrees, Agrees, hsession, hpassive]

/-- A dropped listener is forgotten as well. -/
theorem agrees_dropListener (code : Nat) (text : Bytes) :
    (env.reply c.dropListener code text).Agrees := by
  rw [Agrees, reply_session, reply_passive]
  exact ⟨fun h => (by cases h), fun h => (by cases h)⟩

/-! ### The commands that need no listener -/

@[simp] theorem setWorkingDirectory_passiveReady (s : ControlSession) (directory : Bytes) :
    (s.setWorkingDirectory directory).passiveReady = s.passiveReady := rfl

theorem runSize_agrees : (c.runSize options env response).Agrees ↔ c.Agrees := by
  apply agrees_of_kept
  · rw [runSize]
    split
    · rw [reply_session]
    · split <;> rw [reply_session]
  · rw [runSize]
    split
    · rw [reply_passive]
    · split <;> rw [reply_passive]

theorem runMdtm_agrees : (c.runMdtm options env response).Agrees ↔ c.Agrees := by
  apply agrees_of_kept
  · rw [runMdtm]
    split
    · rw [reply_session]
    · split <;> rw [reply_session]
  · rw [runMdtm]
    split
    · rw [reply_passive]
    · split <;> rw [reply_passive]

theorem runCwd_agrees : (c.runCwd options env response).Agrees ↔ c.Agrees := by
  apply agrees_of_kept
  · rw [runCwd]
    split
    · rw [reply_session, setWorkingDirectory_passiveReady]
    · split
      · rw [reply_session]
      · rw [reply_session, setWorkingDirectory_passiveReady]
  · rw [runCwd]
    split
    · rw [reply_passive]
    · split <;> rw [reply_passive]

/-! ### EPSV and PASV -/

theorem scanPorts_isSome {dataPortBase remaining offset : Nat} {passive : PassiveListener}
    (h : env.scanPorts dataPortBase remaining offset = .ok passive) :
    passive.fd.isSome = true := by
  induction remaining generalizing offset with
  | zero => cases h
  | succ remaining ih =>
      rw [Circumstances.scanPorts] at h
      split at h
      · cases h
      · split at h
        · exact ih h
        · rw [← Except.ok.inj h]
          rfl

theorem openPassiveListener_isSome {passive : PassiveListener}
    (h : env.openPassiveListener options = .ok passive) : passive.fd.isSome = true := by
  rw [Circumstances.openPassiveListener] at h
  exact scanPorts_isSome h

theorem openPassive_agrees {extended : Bool}
    (h : c.openPassive options env extended = some c') : c'.Agrees := by
  rcases hopen : env.openPassiveListener options with e | passive
  · rw [openPassive, hopen] at h
    cases h
  have hready : ∀ line, (env.sendLine
      { c with passive := passive, session := c.session.markPassiveReady } line).2.Agrees := by
    intro line
    rw [Agrees, sendLine_session, sendLine_passive]
    exact ⟨fun _ => openPassiveListener_isSome hopen, fun _ => rfl⟩
  rw [openPassive, hopen] at h
  cases extended with
  | true =>
      rw [← Option.some.inj h]
      exact hready _
  | false =>
      rcases hreply : env.pasvReply options.host passive.port with e | line
      · simp only [hreply, Bool.false_eq_true, if_false] at h
        rw [← Option.some.inj h, Agrees]
        exact ⟨fun h => (by cases h), fun h => (by cases h)⟩
      · simp only [hreply, Bool.false_eq_true, if_false] at h
        rw [← Option.some.inj h]
        exact hready _

/-! ### The commands that use the listener

The session has taken the flag back; the listener is still open. -/

theorem not_agrees_of_kept (hflag : c.session.passiveReady = false)
    (hopen : c.passive.fd.isSome = true) (hsession : c'.session = c.session)
    (hpassive : c'.passive = c.passive) : ¬c'.Agrees := by
  rw [Agrees, hsession, hpassive, hflag, hopen]
  exact fun h => absurd (h.mpr rfl) (by decide)

/-- A closed listener and a flag that is down agree. -/
theorem agrees_of_closed (hflag : c'.session.passiveReady = false) (hclosed : c'.passive = {}) :
    c'.Agrees := by
  rw [Agrees, hflag, hclosed]
  exact ⟨fun h => (by cases h), fun h => (by cases h)⟩

theorem transferOn_agrees (hflag : c.session.passiveReady = false) :
    (transferOn env c response).Agrees := by
  rw [transferOn]
  dsimp only
  split
  · exact agrees_of_closed (by rw [reply_session]; exact hflag) (by rw [reply_passive])
  · exact agrees_of_closed (by rw [reply_session]; rfl) (by rw [reply_passive])

section Taken

variable (hflag : c.session.passiveReady = false) (hopen : c.passive.fd.isSome = true)

include hflag hopen

/-- The 150 reply decides about the transfer. -/
theorem startTransfer_agrees_iff (opening : Bytes) :
    (startTransfer env c response opening).Agrees ↔
      env.send (transferPrelude env response opening) = .ok () := by
  rcases hsend : env.send (transferPrelude env response opening) with e | u
  · rw [startTransfer, sendLine_error hsend]
    exact ⟨fun h => absurd h (not_agrees_of_kept hflag hopen rfl rfl), fun h => (by cases h)⟩
  · rw [startTransfer, sendLine_ok hsend]
    exact ⟨fun _ => rfl, fun _ => transferOn_agrees hflag⟩

theorem runStor_agrees_iff :
    (c.runStor options env response).Agrees ↔ c.StorGoesAhead options env response := by
  have hkept : ∀ e : Status, ¬(env.reply c 550 e.message).Agrees := fun e =>
    not_agrees_of_kept hflag hopen (reply_session _ _) (reply_passive _ _)
  rw [runStor, if_neg (Option.isSome_iff_ne_none.mp hopen), StorGoesAhead]
  rcases hresolve : c.resolve options env response .storTarget (ascii "STOR") with e | outputPath
  · exact ⟨fun h => absurd h (hkept e), fun ⟨_, h, _⟩ => (by cases h)⟩
  rcases houtput : env.validateOutputBeforeStor outputPath.fullPath response.resume with e | u
  · simp only [houtput]
    refine ⟨fun h => absurd h (hkept e), fun ⟨path, hpath, hvalid, _⟩ => ?_⟩
    rw [← Except.ok.inj hpath, houtput] at hvalid
    cases hvalid
  · simp only [houtput]
    rw [startTransfer_agrees_iff hflag hopen]
    exact ⟨fun h => ⟨outputPath, rfl, houtput, h⟩, fun ⟨_, _, _, h⟩ => h⟩

theorem runRetr_agrees_iff :
    (c.runRetr options env response).Agrees ↔ c.RetrGoesAhead options env response := by
  have hkept : ∀ e : Status, ¬(env.reply c 550 e.message).Agrees := fun e =>
    not_agrees_of_kept hflag hopen (reply_session _ _) (reply_passive _ _)
  rw [runRetr, if_neg (Option.isSome_iff_ne_none.mp hopen), RetrGoesAhead]
  rcases hresolve : c.resolve options env response .existingFile (ascii "RETR") with e | inputPath
  · refine ⟨fun h => absurd h (hkept e), ?_⟩
    rintro ⟨_, h, -⟩
    cases h
  rcases hvirtual : resolveVirtualPath c.session.workingDirectory response.path false
    with e | virtualPath
  · -- the path has just been resolved from it
    rw [resolve, resolveControlPath, show decide (ControlPathKind.existingFile =
      .existingDirectory) = false from rfl, hvirtual] at hresolve
    cases hresolve
  · simp only
    rw [startTransfer_agrees_iff hflag hopen]
    refine ⟨fun h => ⟨inputPath, rfl, h⟩, ?_⟩
    rintro ⟨_, _, h⟩
    exact h

theorem runListLike_agrees_iff (namesOnly : Bool) :
    (c.runListLike options env response namesOnly).Agrees ↔
      c.ListGoesAhead options env response namesOnly := by
  rw [runListLike, if_neg (Option.isSome_iff_ne_none.mp hopen), ListGoesAhead]
  rcases hresolve : c.resolve options env response .existingDirectory (listName namesOnly)
    with e | path
  · exact ⟨fun _ _ _ h => (by cases h), fun _ => agrees_dropListener _ _⟩
  rcases hentries : env.readDirectoryEntries path.fullPath with e | entries
  · simp only [hentries]
    refine ⟨fun _ path' entries' hpath hread => ?_, fun _ => agrees_dropListener _ _⟩
    rw [← Except.ok.inj hpath, hentries] at hread
    cases hread
  rcases hsend : env.send (listPrelude namesOnly) with e | u
  · simp only [hentries, sendLine_error hsend]
    refine ⟨fun h => absurd h (not_agrees_of_kept hflag hopen rfl rfl), fun h => ?_⟩
    cases (h path entries rfl hentries).1
  simp only [hentries, sendLine_ok hsend, Circumstances.sendAsciiData, if_neg (Option.isSome_iff_ne_none.mp hopen)]
  rcases haccept : env.acceptDataConnection with e | u
  · refine ⟨fun h => absurd h ?_, fun h => ?_⟩
    · rw [Agrees, reply_session, reply_passive]
      exact fun h => Bool.false_ne_true (h.mpr hopen)
    · cases (h path entries rfl hentries).2
  refine ⟨fun _ _ _ _ _ => ⟨trivial, rfl⟩, fun _ => ?_⟩
  generalize (if namesOnly = true then _ else _) = payload
  rcases hraw : env.sendAllRaw payload with e | u
  · exact agrees_of_closed (by rw [reply_session]; rfl) (by rw [reply_passive])
  · exact agrees_of_closed (by rw [reply_session]; rfl) (by rw [reply_passive])

end Taken

/-! ### One round of the loop -/

theorem answer_agrees (h : c.Agrees) (hanswer : c.answer env response = some c') : c'.Agrees := by
  obtain ⟨hsession, hpassive⟩ := @sendResponse_kept env c response.lines
  rw [answer] at hanswer
  split at hanswer
  · cases hanswer
  · rename_i sent hsend
    rw [hsend] at hsession hpassive
    split at hanswer
    · cases hanswer
    · rw [← Option.some.inj hanswer]
      exact (agrees_of_kept (congrArg ControlSession.passiveReady hsession) hpassive).mpr h

theorem goesAhead_of_not_starts (hstarts : ¬response.action.Starts) :
    c.GoesAhead options env response := by
  rw [GoesAhead]
  split
  · exact absurd (.inl (.inl ‹_›)) hstarts
  · exact absurd (.inl (.inr ‹_›)) hstarts
  · exact absurd (.inr (.inl ‹_›)) hstarts
  · exact absurd (.inr (.inr ‹_›)) hstarts
  · trivial

/-- A response that starts nothing leaves the records in agreement. -/
theorem perform_agrees (h : c.Agrees) (hstarts : ¬response.action.Starts)
    (hperform : c.perform options env response = some c') : c'.Agrees := by
  rw [perform] at hperform
  cases haction : response.action with
  | none | quit =>
      simp only [haction] at hperform
      exact answer_agrees h hperform
  | openPassiveEpsv | openPassivePasv =>
      simp only [haction] at hperform
      exact openPassive_agrees hperform
  | querySize =>
      simp only [haction, Option.some.injEq] at hperform
      exact hperform ▸ runSize_agrees.mpr h
  | queryMdtm =>
      simp only [haction, Option.some.injEq] at hperform
      exact hperform ▸ runMdtm_agrees.mpr h
  | changeDirectory =>
      simp only [haction, Option.some.injEq] at hperform
      exact hperform ▸ runCwd_agrees.mpr h
  | startStor => exact absurd (.inl (.inl haction)) hstarts
  | startRetr => exact absurd (.inl (.inr haction)) hstarts
  | startList => exact absurd (.inr (.inl haction)) hstarts
  | startNlst => exact absurd (.inr (.inr haction)) hstarts

/-- One that starts something depends on how far it gets. -/
theorem perform_agrees_iff (hflag : c.session.passiveReady = false)
    (hopen : c.passive.fd.isSome = true) (hstarts : response.action.Starts)
    (hperform : c.perform options env response = some c') :
    c'.Agrees ↔ c.GoesAhead options env response := by
  rw [perform] at hperform
  rw [GoesAhead]
  rcases hstarts with (haction | haction) | haction | haction
  · simp only [haction, Option.some.injEq] at hperform ⊢
    rw [← hperform]
    exact runStor_agrees_iff hflag hopen
  · simp only [haction, Option.some.injEq] at hperform ⊢
    rw [← hperform]
    exact runRetr_agrees_iff hflag hopen
  · simp only [haction, Option.some.injEq] at hperform ⊢
    rw [← hperform]
    exact runListLike_agrees_iff hflag hopen false
  · simp only [haction, Option.some.injEq] at hperform ⊢
    rw [← hperform]
    exact runListLike_agrees_iff hflag hopen true

/-- **One line**: the agreement outlives it exactly if the command does not
leave its function while the listener is open. -/
theorem serve_agrees_iff {line : Bytes} (h : c.Agrees)
    (hserve : c.serve options env line = some c') :
    c'.Agrees ↔ c.LineGoesAhead options ⟨line, env⟩ := by
  rw [serve] at hserve
  rw [LineGoesAhead]
  rcases hparse : parseControlCommand line with e | command
  · simp only [hparse, Option.some.injEq] at hserve ⊢
    rw [← hserve]
    exact iff_true_intro ((agrees_of_kept (by rw [reply_session]) (reply_passive _ _)).mpr h)
  simp only [hparse] at hserve ⊢
  have hhandled := c.session.handleCommand_cases command
  by_cases hstarts : (c.session.handleCommand command).1.action.Starts
  · obtain ⟨hready, htaken, -⟩ := hhandled.takes_passive hstarts
    exact perform_agrees_iff htaken (h.mp hready) hstarts hserve
  · have hnew : { c with session := (c.session.handleCommand command).2 }.Agrees := by
      show (c.session.handleCommand command).2.passiveReady = true ↔ c.passive.fd.isSome = true
      rw [hhandled.passiveReady_eq hstarts]
      exact h
    exact iff_of_true (perform_agrees hnew hstarts hserve) (goesAhead_of_not_starts hstarts)

end ControlConnection

open ControlConnection

/-- **The flag and the listener over whole runs**: as long as no command leaves
its function while the listener is open they agree after every command, and the
first that does sets them apart. -/
theorem passive_agrees (options : ControlServerOptions) {c : ControlConnection}
    (h : ((controlLoop options).restrict (LineGoesAhead options)).Reachable c) :
    c.Agrees ∧ ∀ served c', (controlLoop options).step served c c' →
      (c'.Agrees ↔ c.LineGoesAhead options served) := by
  have hagrees : c.Agrees := by
    refine System.Reachable.invariant (I := ControlConnection.Agrees) ?_ ?_ h
    · rintro s rfl
      exact ⟨fun h => (by cases h), fun h => (by cases h)⟩
    · rintro served s s' - hs ⟨hahead, hstep⟩
      exact (serve_agrees_iff hs hstep).mpr hahead
  exact ⟨hagrees, fun served c' hstep => serve_agrees_iff hagrees hstep⟩

/-! ### Runs line by line -/

/-- The line is no STOR, RETR, LIST or NLST. -/
def quietLine (line : Bytes) : Bool :=
  match parseControlCommand line with
  | .error _ => true
  | .ok command => !([.stor, .retr, .list, .nlst].contains command.type)

theorem lineGoesAhead_of_quiet {options : ControlServerOptions} {c : ControlConnection}
    {served : Served} (h : quietLine served.line = true) : c.LineGoesAhead options served := by
  rw [LineGoesAhead]
  rw [quietLine] at h
  rcases hparse : parseControlCommand served.line with e | command
  · trivial
  simp only [hparse] at h ⊢
  apply goesAhead_of_not_starts
  intro hstarts
  obtain ⟨-, -, htype⟩ := (c.session.handleCommand_cases command).takes_passive hstarts
  rw [Bool.not_eq_true', List.contains_eq_mem, decide_eq_false_iff_not] at h
  exact h htype

/-- The lines served one after the other. -/
def ControlConnection.serveAll (options : ControlServerOptions) (env : Circumstances)
    (c : ControlConnection) : List Bytes → Option ControlConnection
  | [] => some c
  | line :: lines =>
      match c.serve options env line with
      | none => none
      | some c => serveAll options env c lines

theorem reachable_serveAll {options : ControlServerOptions} {env : Circumstances}
    {c c' : ControlConnection} {lines : List Bytes}
    (hc : ((controlLoop options).restrict (LineGoesAhead options)).Reachable c)
    (hquiet : lines.all quietLine = true) (h : c.serveAll options env lines = some c') :
    ((controlLoop options).restrict (LineGoesAhead options)).Reachable c' := by
  induction lines generalizing c with
  | nil =>
      obtain rfl := Option.some.inj h
      exact hc
  | cons line lines ih =>
      rw [List.all_cons, Bool.and_eq_true] at hquiet
      rw [serveAll] at h
      rcases hserve : c.serve options env line with - | c₁
      · simp [hserve] at h
      · simp only [hserve] at h
        have hahead : c.LineGoesAhead options ⟨line, env⟩ := lineGoesAhead_of_quiet hquiet.1
        have hstep : (controlLoop options).step ⟨line, env⟩ c c₁ := hserve
        exact ih (hc.step (l := ⟨line, env⟩) ⟨hahead, hstep⟩) hquiet.2 h

/-- A server over a small tree. -/
def smallServer : ControlServerOptions where
  host := ascii "127.0.0.1"
  root := ascii "/srv"
  dataPortBase := 20200
  connections := 1
  auth := { mode := .token, user := [], password := [], token := ascii "secret" }

/-- Everything succeeds. -/
def calmCircumstances : Circumstances where
  tree := linkedTree
  cwd := []
  send _ := .ok ()
  createListener _ := .ok 7
  localAddress := none
  inetPton _ := some (127, 0, 0, 1)
  random _ := 0
  pathExists _ := .ok false
  fileSizeOfPath _ := .ok 0
  mtimeOfPath _ := .ok 0
  unspecified := []
  readDirectoryEntries _ := .ok []
  acceptDataConnection := .ok ()
  sendAllRaw _ := .ok ()
  transfer := .ok ()

def greeted : ControlConnection where
  session := .new smallServer.auth smallServer.connections
  sent := [formatReply 220 (ascii "GridFlux GridFTP control ready")]

/-- A login and what has to come before a transfer. -/
def preparingLines : List Bytes :=
  [ascii "USER token", ascii "PASS secret", ascii "TYPE I", ascii "EPSV"]

def preparedConnection : ControlConnection :=
  (greeted.serveAll smallServer calmCircumstances preparingLines).getD greeted

theorem preparedConnection_reachable :
    ((controlLoop smallServer).restrict (LineGoesAhead smallServer)).Reachable
      preparedConnection :=
  @reachable_serveAll smallServer calmCircumstances greeted _ preparingLines (.initial rfl)
    (by decide +kernel) (by decide +kernel)

theorem passive_agrees_prepared :
    preparedConnection.Agrees ∧ ∀ served c',
      (controlLoop smallServer).step served preparedConnection c' →
        (c'.Agrees ↔ preparedConnection.LineGoesAhead smallServer served) :=
  passive_agrees smallServer preparedConnection_reachable

/-- A STOR with a path that escapes: the flag is down, the listener open. -/
def strandedConnection : ControlConnection :=
  (preparedConnection.serve smallServer calmCircumstances (ascii "STOR ..")).getD greeted

/-- **The listener left open**: the run reaches a state in which a descriptor is
open that no command can use. -/
theorem passive_stranded :
    (controlLoop smallServer).Reachable strandedConnection ∧
      strandedConnection.session.passiveReady = false ∧
      strandedConnection.passive = ⟨some 7, 20200⟩ ∧ ¬strandedConnection.Agrees := by
  have hserve : preparedConnection.serve smallServer calmCircumstances (ascii "STOR ..") =
      some strandedConnection := by decide +kernel
  have hstep : (controlLoop smallServer).step ⟨ascii "STOR ..", calmCircumstances⟩
      preparedConnection strandedConnection := hserve
  exact ⟨preparedConnection_reachable.of_restrict.step hstep, by decide +kernel,
    by decide +kernel, by decide +kernel⟩

end GridFlux
