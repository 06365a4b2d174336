/-
GridFlux/ControlRuns.lean

Whole runs of one control session: any sequence of command lines, with the
calls of the server that owns the session between them.

A run remembers what was exchanged.  The invariants read the flags of the
session as statements about that trace: `authenticated` says that a login
stands, `passiveReady` that a listener is at hand, `restartTransferId` which
REST is pending.  From them come the two results: nothing protected happens
without a login (`control_gate`), and readiness and restart ids are used once
(`control_oneShot`).
-/
import GridFlux.ControlSession
import GridFlux.Transition

namespace GridFlux

open TextCodec Transition

/-! ### Events and runs -/

/-- What a session is told: a command line of the client, or a call of the
server that owns it. -/
inductive SessionEvent
  | line (text : Bytes)
  | markPassiveReady
  | clearPassiveReady
  | setWorkingDirectory (directory : Bytes)
deriving DecidableEq, Repr

/-- The command a line is parsed to. -/
def SessionEvent.command : SessionEvent → Option ControlCommand
  | line text => (parseControlCommand text).toOption
  | _ => none

/-- A line that does not parse is answered by the server, not by the session. -/
def ControlSession.handle (s : ControlSession) (event : SessionEvent) :
    Option ControlResponse × ControlSession :=
  match event with
  | .line _ =>
      match event.command with
      | some command => ((s.handleCommand command).1, (s.handleCommand command).2)
      | none => (none, s)
  | .markPassiveReady => (none, s.markPassiveReady)
  | .clearPassiveReady => (none, s.clearPassiveReady)
  | .setWorkingDirectory directory => (none, s.setWorkingDirectory directory)

/-- An event and what the session answered. -/
structure Exchange where
  event : SessionEvent
  response : Option ControlResponse
deriving DecidableEq, Repr

structure SessionRun where
  trace : List Exchange
  session : ControlSession
deriving DecidableEq, Repr

def SessionRun.extend (r : SessionRun) (event : SessionEvent) : SessionRun where
  trace := r.trace ++ [⟨event, (r.session.handle event).1⟩]
  session := (r.session.handle event).2

def sessionRuns (auth : ControlAuthConfig) (connections : Nat) :
    System SessionRun SessionEvent where
  initial r := r = ⟨[], ControlSession.new auth connections⟩
  step event r r' := r' = r.extend event

/-! ### What a trace says -/

namespace Exchange

/-- The line is a command of this type. -/
def IsCommand (x : Exchange) (kind : ControlCommandType) : Prop :=
  ∃ command, x.event.command = some command ∧ command.type = kind

/-- The line is a command of this type with this argument. -/
def Gives (x : Exchange) (kind : ControlCommandType) (argument : Bytes) : Prop :=
  ∃ command, x.event.command = some command ∧ command.type = kind ∧ command.argument = argument

/-- An accepted TYPE I. -/
def AcceptedType (x : Exchange) : Prop :=
  ∃ argument, x.Gives .type argument ∧ upper argument = ascii "I" ∧
    x.response = some ControlSession.typeAccepted

/-- An accepted REST with this id. -/
def AcceptedRest (x : Exchange) (transferId : Bytes) : Prop :=
  ∃ command, x.event.command = some command ∧ command.type = .rest ∧
    command.transferId = transferId ∧ x.response = some (ControlSession.restAccepted transferId)

/-- STOR or RETR began. -/
def StartsTransfer (x : Exchange) : Prop :=
  ∃ response, x.response = some response ∧ response.action.StartsTransfer

/-- STOR, RETR, LIST or NLST began. -/
def Starts (x : Exchange) : Prop := ∃ response, x.response = some response ∧ response.action.Starts

theorem StartsTransfer.starts {x : Exchange} (h : x.StartsTransfer) : x.Starts := by
  obtain ⟨response, hresponse, haction⟩ := h
  exact ⟨response, hresponse, Or.inl haction⟩

theorem Gives.isCommand {x : Exchange} {kind : ControlCommandType} {argument : Bytes}
    (h : x.Gives kind argument) : x.IsCommand kind := by
  obtain ⟨command, hcommand, hkind, -⟩ := h
  exact ⟨command, hcommand, hkind⟩

/-- A command has one type. -/
theorem IsCommand.unique {x : Exchange} {kind kind' : ControlCommandType}
    (h : x.IsCommand kind) (h' : x.IsCommand kind') : kind = kind' := by
  obtain ⟨command, hcommand, rfl⟩ := h
  obtain ⟨command', hcommand', rfl⟩ := h'
  rw [Option.some.inj (hcommand.symm.trans hcommand')]

end Exchange

/-- Some exchange satisfies `p`, and `q` holds of all later ones. -/
def Since (p q : Exchange → Prop) (trace : List Exchange) : Prop :=
  ∃ before x after, trace = before ++ x :: after ∧ p x ∧ ∀ y ∈ after, q y

namespace Since

variable {p p' q q' : Exchange → Prop} {trace : List Exchange}

theorem now {x : Exchange} (h : p x) : Since p q (trace ++ [x]) :=
  ⟨trace, x, [], rfl, h, by simp⟩

theorem extend (h : Since p q trace) {x : Exchange} (hx : q x) : Since p q (trace ++ [x]) := by
  obtain ⟨before, y, after, rfl, hy, hafter⟩ := h
  refine ⟨before, y, after ++ [x], by simp, hy, ?_⟩
  intro z hz
  rcases List.mem_append.mp hz with hz | hz
  · exact hafter z hz
  · rw [List.mem_singleton.mp hz]
    exact hx

/-- What an extended trace says, the trace said before or the new exchange
says now. -/
theorem of_extend {x : Exchange} (h : Since p q (trace ++ [x])) :
    p x ∨ (q x ∧ Since p q trace) := by
  obtain ⟨before, y, after, heq, hy, hafter⟩ := h
  rcases List.eq_nil_or_concat after with rfl | ⟨init, z, rfl⟩
  · obtain ⟨-, hxy⟩ := List.append_inj' heq rfl
    rw [List.head_eq_of_cons_eq hxy]
    exact Or.inl hy
  · rw [List.concat_eq_append, ← List.cons_append, ← List.append_assoc] at heq
    obtain ⟨rfl, hxz⟩ := List.append_inj' heq rfl
    rw [List.head_eq_of_cons_eq hxz]
    refine Or.inr ⟨hafter z (by simp), before, y, init, rfl, hy, ?_⟩
    exact fun w hw => hafter w (by simp [hw])

theorem mono (hp : ∀ x, p x → p' x) (hq : ∀ x, q x → q' x) (h : Since p q trace) :
    Since p' q' trace := by
  obtain ⟨before, x, after, rfl, hx, hafter⟩ := h
  exact ⟨before, x, after, rfl, hp x hx, fun y hy => hq y (hafter y hy)⟩

end Since

/-- The most recent USER named the user. -/
def UserNamed (user : Bytes) (trace : List Exchange) : Prop :=
  Since (fun x => x.Gives .user user) (fun y => ¬y.IsCommand .user) trace

/-- **A login stands**: the most recent USER named the user, a PASS after it
carried the secret, and no PASS after that one was wrong. -/
def LoggedIn (user secret : Bytes) (trace : List Exchange) : Prop :=
  ∃ before between after u p, trace = before ++ u :: between ++ p :: after ∧
    u.Gives .user user ∧ p.Gives .pass secret ∧
    (∀ x ∈ between ++ p :: after, ¬x.IsCommand .user) ∧
    (∀ x ∈ after, x.IsCommand .pass → x.Gives .pass secret)

theorem LoggedIn.extend {user secret : Bytes} {trace : List Exchange}
    (h : LoggedIn user secret trace) {x : Exchange} (huser : ¬x.IsCommand .user)
    (hpass : x.IsCommand .pass → x.Gives .pass secret) :
    LoggedIn user secret (trace ++ [x]) := by
  obtain ⟨before, between, after, u, p, rfl, hu, hp, hnone, hright⟩ := h
  refine ⟨before, between, after ++ [x], u, p, by simp, hu, hp, ?_, ?_⟩
  · intro y hy
    rw [← List.cons_append, ← List.append_assoc] at hy
    rcases List.mem_append.mp hy with hy | hy
    · exact hnone y hy
    · rw [List.mem_singleton.mp hy]
      exact huser
  · intro y hy
    rcases List.mem_append.mp hy with hy | hy
    · exact hright y hy
    · rw [List.mem_singleton.mp hy]
      exact hpass

/-- A right PASS completes the login. -/
theorem UserNamed.login {user secret : Bytes} {trace : List Exchange} (h : UserNamed user trace)
    {x : Exchange} (hpass : x.Gives .pass secret) : LoggedIn user secret (trace ++ [x]) := by
  obtain ⟨before, u, between, rfl, hu, hnone⟩ := h
  refine ⟨before, between, [], u, x, by simp, hu, hpass, ?_, by simp⟩
  intro y hy
  rcases List.mem_append.mp hy with hy | hy
  · exact hnone y hy
  · rw [List.mem_singleton.mp hy]
    intro huser
    cases hpass.isCommand.unique huser

/-- A REST was accepted and no transfer began since. -/
def RestPending (trace : List Exchange) : Prop :=
  Since (fun x => ∃ transferId, x.AcceptedRest transferId) (fun y => ¬y.StartsTransfer) trace

/-- The same, and the id of the most recent such REST. -/
def LatestRest (transferId : Bytes) (trace : List Exchange) : Prop :=
  Since (fun x => x.AcceptedRest transferId)
    (fun y => ¬y.StartsTransfer ∧ ∀ transferId, ¬y.AcceptedRest transferId) trace

theorem LatestRest.restPending {transferId : Bytes} {trace : List Exchange}
    (h : LatestRest transferId trace) : RestPending trace :=
  Since.mono (fun _ hx => ⟨transferId, hx⟩) (fun _ hy => hy.1) h

/-- A listener of its own: a markPassiveReady with no clear and no action that
uses the listener after it. -/
def PassiveMarked (trace : List Exchange) : Prop :=
  Since (fun x => x.event = .markPassiveReady)
    (fun y => y.event ≠ .clearPassiveReady ∧ ¬y.Starts) trace

/-! ### The login -/

/-- The login flags say what the trace says. -/
structure LoginOk (auth : ControlAuthConfig) (trace : List Exchange) (s : ControlSession) :
    Prop where
  user : s.expectedUser = auth.expectedUser
  password : s.expectedPassword = auth.expectedPassword
  userNamed : s.userAccepted = true → UserNamed auth.expectedUser trace
  loggedIn : s.authenticated = true → LoggedIn auth.expectedUser auth.expectedPassword trace

variable {auth : ControlAuthConfig} {trace : List Exchange} {s s' : ControlSession} {x : Exchange}
  {command : ControlCommand}

/-- Neither USER nor PASS, and the login flags stay. -/
theorem LoginOk.keep (h : LoginOk auth trace s) (huser : ¬x.IsCommand .user)
    (hpass : ¬x.IsCommand .pass) (hexpected : s'.expectedUser = s.expectedUser)
    (hsecret : s'.expectedPassword = s.expectedPassword)
    (haccepted : s'.userAccepted = s.userAccepted) (hauth : s'.authenticated = s.authenticated) :
    LoginOk auth (trace ++ [x]) s' where
  user := hexpected.trans h.user
  password := hsecret.trans h.password
  userNamed hs := (h.userNamed (haccepted ▸ hs)).extend huser
  loggedIn hs := (h.loggedIn (hauth ▸ hs)).extend huser fun hx => absurd hx hpass

theorem not_isCommand {kind : ControlCommandType} (hx : x.event.command = some command)
    (h : command.type ≠ kind) : ¬x.IsCommand kind := by
  rintro ⟨command', hcommand, hkind⟩
  obtain rfl := Option.some.inj (hx.symm.trans hcommand)
  exact h hkind

/-- **The login step.** -/
theorem LoginOk.handleCommand (h : LoginOk auth trace s) (hx : x.event.command = some command) :
    LoginOk auth (trace ++ [x]) (s.handleCommand command).2 := by
  have hkeep : command.type ≠ .user ∧ command.type ≠ .pass → ∀ s' : ControlSession,
      s'.expectedUser = s.expectedUser → s'.expectedPassword = s.expectedPassword →
      s'.userAccepted = s.userAccepted → s'.authenticated = s.authenticated →
      LoginOk auth (trace ++ [x]) s' := fun hother s' =>
    h.keep (not_isCommand hx hother.1) (not_isCommand hx hother.2)
  have hnamed : command.type = .pass → s.userAccepted = true →
      UserNamed auth.expectedUser (trace ++ [x]) := by
    intro hpass haccepted
    exact (h.userNamed haccepted).extend (not_isCommand hx (by rw [hpass]; decide))
  generalize hresult : s.handleCommand command = result
  have hcases := ControlSession.handleCommand_cases s command
  rw [hresult] at hcases
  cases hcases with
  | plain hstarts hgate hother hrest => exact hkeep hother s rfl rfl rfl rfl
  | user haction htype =>
      refine ⟨h.user, h.password, fun haccepted => ?_, fun hauth => by cases hauth⟩
      have hargument : command.argument = s.expectedUser := of_decide_eq_true haccepted
      exact Since.now ⟨command, hx, htype, hargument.trans h.user⟩
  | loggedIn haction htype huser hpassword =>
      refine ⟨h.user, h.password, hnamed htype, fun _ => ?_⟩
      exact (h.userNamed huser).login ⟨command, hx, htype, hpassword.trans h.password⟩
  | loginFailed haction htype =>
      exact ⟨h.user, h.password, hnamed htype, fun hauth => by cases hauth⟩
  | binary hauth htype hargument =>
      exact hkeep (by rw [htype]; exact ⟨by decide, by decide⟩) _ rfl rfl rfl rfl
  | parallel haction hauth htype =>
      exact hkeep (by rw [htype]; exact ⟨by decide, by decide⟩) _ rfl rfl rfl rfl
  | restart hauth htype =>
      exact hkeep (by rw [htype]; exact ⟨by decide, by decide⟩) _ rfl rfl rfl rfl
  | transfer hauth htype =>
      refine hkeep ?_ _ rfl rfl rfl rfl
      rcases htype with htype | htype <;> rw [htype] <;> exact ⟨by decide, by decide⟩
  | listing hauth htype =>
      refine hkeep ?_ _ rfl rfl rfl rfl
      rcases htype with htype | htype <;> rw [htype] <;> exact ⟨by decide, by decide⟩

/-- An event that is no command, or a line that does not parse. -/
theorem not_isCommand_of_none {kind : ControlCommandType} (hx : x.event.command = none) :
    ¬x.IsCommand kind := by
  rintro ⟨command, hcommand, -⟩
  rw [hx] at hcommand
  cases hcommand

/-- What an event does to a session: a command is handled, or only the passive
flag and the working directory may change, by a call of the server. -/
theorem ControlSession.handle_cases (s : ControlSession) (event : SessionEvent) :
    (∃ command, event.command = some command ∧
        s.handle event = (some (s.handleCommand command).1, (s.handleCommand command).2)) ∨
      (event.command = none ∧ ∃ ready directory,
        s.handle event = (none, { s with passiveReady := ready, workingDirectory := directory }) ∧
        (event ≠ .markPassiveReady → ready = true →
          s.passiveReady = true ∧ event ≠ .clearPassiveReady)) := by
  cases event with
  | line text =>
      cases hcommand : (SessionEvent.line text).command with
      | some command => exact Or.inl ⟨command, rfl, by simp only [handle, hcommand]⟩
      | none =>
          refine Or.inr ⟨rfl, s.passiveReady, s.workingDirectory, ?_, fun _ h => ⟨h, by simp⟩⟩
          simp only [handle, hcommand]
  | markPassiveReady => exact Or.inr ⟨rfl, true, s.workingDirectory, rfl, fun h => absurd rfl h⟩
  | clearPassiveReady =>
      exact Or.inr ⟨rfl, false, s.workingDirectory, rfl, fun _ h => by cases h⟩
  | setWorkingDirectory directory =>
      exact Or.inr ⟨rfl, s.passiveReady, _, rfl, fun _ h => ⟨h, by simp⟩⟩

theorem LoginOk.extend {r : SessionRun} (h : LoginOk auth r.trace r.session)
    (event : SessionEvent) : LoginOk auth (r.extend event).trace (r.extend event).session := by
  rw [SessionRun.extend]
  rcases r.session.handle_cases event with
    ⟨command, hcommand, heq⟩ | ⟨hcommand, ready, directory, heq, -⟩
  · rw [heq]
    exact h.handleCommand hcommand
  · rw [heq]
    exact h.keep (not_isCommand_of_none hcommand) (not_isCommand_of_none hcommand) rfl rfl rfl rfl

theorem LoginOk.of_reachable {connections : Nat} {r : SessionRun}
    (hr : (sessionRuns auth connections).Reachable r) : LoginOk auth r.trace r.session := by
  apply hr.invariant (I := fun r => LoginOk auth r.trace r.session)
  · rintro _ rfl
    refine ⟨rfl, rfl, ?_, ?_⟩
    · intro h
      cases h
    · intro h
      cases h
  · rintro event r _ - h rfl
    exact h.extend event

/-- An action other than Quit is emitted, or the transfer type, the parallelism
or the restart id changes. -/
def Touches (s : ControlSession) (result : Option ControlResponse × ControlSession) : Prop :=
  (∃ response, result.1 = some response ∧ response.action ≠ .none ∧ response.action ≠ .quit) ∨
    result.2.binaryType ≠ s.binaryType ∨ result.2.connections ≠ s.connections ∨
    result.2.restartTransferId ≠ s.restartTransferId

/-- The event touches something protected. -/
def SessionRun.Protected (r : SessionRun) (event : SessionEvent) : Prop :=
  Touches r.session (r.session.handle event)

theorem not_touches {result : Option ControlResponse × ControlSession}
    (hresponse : ∀ response, result.1 = some response → response.action.Harmless)
    (hbinary : result.2.binaryType = s.binaryType)
    (hconnections : result.2.connections = s.connections)
    (hrest : result.2.restartTransferId = s.restartTransferId) : ¬Touches s result := by
  rintro (⟨response, hsome, hnone, hquit⟩ | h | h | h)
  · rcases hresponse response hsome with haction | haction
    · exact hnone haction
    · exact hquit haction
  · exact h hbinary
  · exact h hconnections
  · exact h hrest

/-- Without the flag no event touches anything protected. -/
theorem SessionRun.Protected.authenticated {r : SessionRun} {event : SessionEvent}
    (h : r.Protected event) : r.session.authenticated = true := by
  by_contra hnot
  revert h
  show ¬Touches r.session (r.session.handle event)
  rcases r.session.handle_cases event with
    ⟨command, hcommand, heq⟩ | ⟨hcommand, ready, directory, heq, -⟩
  · rw [heq]
    have hcases := ControlSession.handleCommand_cases r.session command
    generalize r.session.handleCommand command = result at hcases
    cases hcases with
    | plain hstarts hgate =>
        rcases hgate with hgate | hgate
        · exact absurd hgate hnot
        · exact not_touches (by rintro _ ⟨⟩; exact hgate) rfl rfl rfl
    | user haction => exact not_touches (by rintro _ ⟨⟩; exact Or.inl haction) rfl rfl rfl
    | loggedIn haction => exact not_touches (by rintro _ ⟨⟩; exact Or.inl haction) rfl rfl rfl
    | loginFailed haction =>
        exact not_touches (by rintro _ ⟨⟩; exact Or.inl haction) rfl rfl rfl
    | binary hauth => exact absurd hauth hnot
    | parallel haction hauth => exact absurd hauth hnot
    | restart hauth => exact absurd hauth hnot
    | transfer hauth => exact absurd hauth hnot
    | listing hauth => exact absurd hauth hnot
  · rw [heq]
    exact not_touches (by rintro _ ⟨⟩) rfl rfl rfl

/-- **The authentication gate.**  In every run of a session, with any command
lines and any calls of the server between them, an action other than Quit, and
a change of the transfer type, the parallelism or the restart id, comes only
while a login stands. -/
theorem control_gate {connections : Nat} {r : SessionRun}
    (hr : (sessionRuns auth connections).Reachable r) {event : SessionEvent}
    (h : r.Protected event) : LoggedIn auth.expectedUser auth.expectedPassword r.trace :=
  (LoginOk.of_reachable hr).loggedIn h.authenticated

/-- A run of events from a new session. -/
def SessionRun.after (r : SessionRun) (events : List SessionEvent) : SessionRun :=
  events.foldl SessionRun.extend r

theorem SessionRun.after_reachable {connections : Nat} {r : SessionRun}
    (hr : (sessionRuns auth connections).Reachable r) (events : List SessionEvent) :
    (sessionRuns auth connections).Reachable (r.after events) := by
  induction events generalizing r with
  | nil => exact hr
  | cons event events ih => exact ih (hr.step rfl)

def tokenAuth : ControlAuthConfig where
  mode := .token
  user := []
  password := []
  token := ascii "secret"

/-- A login, a wrong and a right PASS, and the preparations of a transfer. -/
def preparedEvents : List SessionEvent :=
  [.line (ascii "USER token\r\n"), .line (ascii "PASS wrong\r\n"),
    .line (ascii "PASS secret\r\n"), .line (ascii "TYPE I\r\n"), .markPassiveReady,
    .line (ascii "REST GFID:0123456789abcdef\r\n")]

def preparedRun : SessionRun :=
  SessionRun.after ⟨[], ControlSession.new tokenAuth 1⟩ preparedEvents

theorem preparedRun_reachable : (sessionRuns tokenAuth 1).Reachable preparedRun :=
  SessionRun.after_reachable (.initial rfl) _

theorem control_gate_prepared :
    LoggedIn (ascii "token") (ascii "secret") preparedRun.trace :=
  @control_gate tokenAuth 1 preparedRun preparedRun_reachable (.line (ascii "STOR a\r\n"))
    (Or.inl ⟨_, rfl, by decide +kernel, by decide +kernel⟩)

/-! ### What is used once -/

/-- The transfer type, the passive flag and the restart id say what the trace
says. -/
structure OnceOk (trace : List Exchange) (s : ControlSession) : Prop where
  binary : s.binaryType = true → ∃ x ∈ trace, x.AcceptedType
  passive : s.passiveReady = true → PassiveMarked trace
  noRest : s.restartTransferId = [] → ¬RestPending trace
  latestRest : s.restartTransferId ≠ [] → LatestRest s.restartTransferId trace

theorem not_startsTransfer (hx : ¬x.Starts) : ¬x.StartsTransfer := fun h => hx h.starts

theorem OnceOk.binary_extend (h : OnceOk trace s) (hs : s.binaryType = true) :
    ∃ y ∈ trace ++ [x], y.AcceptedType := by
  obtain ⟨y, hy, haccepted⟩ := h.binary hs
  exact ⟨y, List.mem_append_left _ hy, haccepted⟩

/-- An exchange that starts nothing and is no accepted REST keeps the three,
whatever else it does. -/
theorem OnceOk.keep (h : OnceOk trace s) (hstarts : ¬x.Starts)
    (hrest : ∀ transferId, ¬x.AcceptedRest transferId) (hbinary : s'.binaryType = s.binaryType)
    (hpassive : s'.passiveReady = true →
      x.event = .markPassiveReady ∨ (s.passiveReady = true ∧ x.event ≠ .clearPassiveReady))
    (hid : s'.restartTransferId = s.restartTransferId) : OnceOk (trace ++ [x]) s' where
  binary hs := h.binary_extend (hbinary ▸ hs)
  passive hs := by
    rcases hpassive hs with hmark | ⟨hready, hclear⟩
    · exact Since.now hmark
    · exact (h.passive hready).extend ⟨hclear, hstarts⟩
  noRest hs hpending := by
    rcases hpending.of_extend with ⟨transferId, haccepted⟩ | ⟨-, hbefore⟩
    · exact hrest transferId haccepted
    · exact h.noRest (hid ▸ hs) hbefore
  latestRest hs := by
    rw [hid] at hs ⊢
    exact (h.latestRest hs).extend ⟨not_startsTransfer hstarts, hrest⟩

theorem not_starts_of_response {response : ControlResponse} (hx : x.response = some response)
    (h : ¬response.action.Starts) : ¬x.Starts := by
  rintro ⟨response', hresponse, hstarts⟩
  obtain rfl := Option.some.inj (hx.symm.trans hresponse)
  exact h hstarts

theorem not_starts_of_none {response : ControlResponse} (hx : x.response = some response)
    (h : response.action = .none) : ¬x.Starts :=
  not_starts_of_response hx (ControlSession.not_starts_of_harmless (Or.inl h))

theorem not_acceptedRest (hx : x.event.command = some command) (h : command.type ≠ .rest)
    (transferId : Bytes) : ¬x.AcceptedRest transferId := by
  rintro ⟨command', hcommand, htype, -⟩
  obtain rfl := Option.some.inj (hx.symm.trans hcommand)
  exact h htype

theorem restAccepted_ne_loginRequired (transferId : Bytes) :
    ControlSession.restAccepted transferId ≠ ControlSession.loginRequired := by
  intro h
  have hlines : formatReply 350 _ = formatReply 530 _ :=
    List.head_eq_of_cons_eq (congrArg ControlResponse.lines h)
  have hcodes := congrArg List.head? hlines
  rw [formatReply, formatReply, List.head?_append, List.head?_append] at hcodes
  have h350 : (decimal 350).head? = some 51 := by decide +kernel
  have h530 : (decimal 530).head? = some 53 := by decide +kernel
  rw [h350, h530] at hcodes
  exact absurd (Option.some.inj hcodes) (by decide)

/-- **The step of what is used once.** -/
theorem OnceOk.handleCommand (h : OnceOk trace s) {line : Bytes} (hevent : x.event = .line line)
    (hx : x.event.command = some command)
    (hresponse : x.response = some (s.handleCommand command).1) :
    OnceOk (trace ++ [x]) (s.handleCommand command).2 := by
  have hclear : x.event ≠ .clearPassiveReady := by
    rw [hevent]
    exact SessionEvent.noConfusion
  have hcases := ControlSession.handleCommand_cases s command
  generalize s.handleCommand command = result at hcases hresponse
  cases hcases with
  | plain hstarts hgate hother hrest =>
      refine h.keep (not_starts_of_response hresponse hstarts) ?_ rfl
        (fun hs => Or.inr ⟨hs, hclear⟩) rfl
      rintro transferId ⟨command', hcommand, htype, -, haccepted⟩
      obtain rfl := Option.some.inj (hx.symm.trans hcommand)
      have hsame := Option.some.inj (haccepted.symm.trans hresponse)
      exact restAccepted_ne_loginRequired transferId (hsame.trans (hrest htype))
  | user haction htype =>
      exact h.keep (not_starts_of_none hresponse haction)
        (not_acceptedRest hx (by rw [htype]; decide)) rfl (fun hs => Or.inr ⟨hs, hclear⟩) rfl
  | loggedIn haction htype =>
      exact h.keep (not_starts_of_none hresponse haction)
        (not_acceptedRest hx (by rw [htype]; decide)) rfl (fun hs => Or.inr ⟨hs, hclear⟩) rfl
  | loginFailed haction htype =>
      exact h.keep (not_starts_of_none hresponse haction)
        (not_acceptedRest hx (by rw [htype]; decide)) rfl (fun hs => Or.inr ⟨hs, hclear⟩) rfl
  | parallel haction hauth htype =>
      exact h.keep (not_starts_of_none hresponse haction)
        (not_acceptedRest hx (by rw [htype]; decide)) rfl (fun hs => Or.inr ⟨hs, hclear⟩) rfl
  | binary hauth htype hargument =>
      have hstarts : ¬x.Starts :=
        not_starts_of_none hresponse rfl
      have hkept : OnceOk (trace ++ [x]) s := h.keep hstarts
        (not_acceptedRest hx (by rw [htype]; decide)) rfl (fun hs => Or.inr ⟨hs, hclear⟩) rfl
      refine ⟨fun _ => ⟨x, by simp, command.argument, ?_, hargument, hresponse⟩, hkept.passive,
        hkept.noRest, hkept.latestRest⟩
      exact ⟨command, hx, htype, rfl⟩
  | restart hauth htype =>
      have hstarts : ¬x.Starts :=
        not_starts_of_none hresponse rfl
      have haccepted : x.AcceptedRest command.transferId := ⟨command, hx, htype, rfl, hresponse⟩
      have hne : command.transferId ≠ [] := by
        rw [hevent] at hx
        cases hparse : parseControlCommand line with
        | error e =>
            rw [SessionEvent.command, hparse] at hx
            cases hx
        | ok parsed =>
            rw [SessionEvent.command, hparse] at hx
            obtain rfl : parsed = command := Option.some.inj hx
            exact parseControlCommand_rest hparse htype
      exact ⟨h.binary_extend, fun hs => (h.passive hs).extend ⟨hclear, hstarts⟩,
        fun hnil => absurd hnil hne, fun _ => Since.now haccepted⟩
  | transfer hauth htype hbinary hpassive haction =>
      refine ⟨h.binary_extend, fun hs => absurd hs Bool.false_ne_true, fun _ hpending => ?_,
        fun hs => absurd rfl hs⟩
      rcases hpending.of_extend with ⟨transferId, haccepted⟩ | ⟨hno, -⟩
      · refine not_acceptedRest hx ?_ transferId haccepted
        rcases htype with htype | htype <;> rw [htype] <;> decide
      · exact hno ⟨_, hresponse, haction⟩
  | listing hauth htype hpassive haction =>
      have hrest : ∀ transferId, ¬x.AcceptedRest transferId := by
        apply not_acceptedRest hx
        rcases htype with htype | htype <;> rw [htype] <;> decide
      have htransfer : ¬x.StartsTransfer := by
        rintro ⟨response, hsome, hstarts⟩
        obtain rfl := Option.some.inj (hresponse.symm.trans hsome)
        rcases haction with haction | haction <;> rw [haction] at hstarts <;>
          rcases hstarts with hstarts | hstarts <;> cases hstarts
      refine ⟨h.binary_extend, fun hs => absurd hs Bool.false_ne_true, fun hs hpending => ?_,
        fun hs => ?_⟩
      · rcases hpending.of_extend with ⟨transferId, haccepted⟩ | ⟨-, hbefore⟩
        · exact hrest transferId haccepted
        · exact h.noRest hs hbefore
      · exact (h.latestRest hs).extend ⟨htransfer, hrest⟩

theorem OnceOk.extend {r : SessionRun} (h : OnceOk r.trace r.session) (event : SessionEvent) :
    OnceOk (r.extend event).trace (r.extend event).session := by
  rw [SessionRun.extend]
  rcases r.session.handle_cases event with
    ⟨command, hcommand, heq⟩ | ⟨hcommand, ready, directory, heq, hready⟩
  · rw [heq]
    cases event with
    | line text => exact h.handleCommand rfl hcommand rfl
    | markPassiveReady => cases hcommand
    | clearPassiveReady => cases hcommand
    | setWorkingDirectory directory => cases hcommand
  · rw [heq]
    refine h.keep ?_ ?_ rfl (fun hs => ?_) rfl
    · rintro ⟨response, hresponse, -⟩
      cases hresponse
    · rintro transferId ⟨command, hsome, -⟩
      exact absurd (hsome.symm.trans hcommand) (Option.some_ne_none command)
    · by_cases hmark : event = .markPassiveReady
      · exact Or.inl hmark
      · exact Or.inr (hready hmark hs)

theorem OnceOk.of_reachable {connections : Nat} {r : SessionRun}
    (hr : (sessionRuns auth connections).Reachable r) : OnceOk r.trace r.session := by
  apply hr.invariant (I := fun r => OnceOk r.trace r.session)
  · rintro _ rfl
    refine ⟨?_, ?_, fun _ hpending => ?_, fun h => absurd rfl h⟩
    · intro h
      cases h
    · intro h
      cases h
    · obtain ⟨before, x, after, heq, -⟩ := hpending
      exact List.append_ne_nil_of_right_ne_nil before (List.cons_ne_nil x after) heq.symm
  · rintro event r _ - h rfl
    exact h.extend event

/-- What a session has in hand when it begins a STOR, RETR, LIST or NLST. -/
theorem ControlSession.starts_cases {event : SessionEvent} {response : ControlResponse}
    (hresponse : (s.handle event).1 = some response) (hstarts : response.action.Starts) :
    s.passiveReady = true ∧ (response.action.StartsTransfer → s.binaryType = true ∧
      response.resume = decide (s.restartTransferId ≠ []) ∧
      response.transferId = s.restartTransferId) := by
  rcases s.handle_cases event with ⟨command, hcommand, heq⟩ | ⟨hcommand, _, _, heq, -⟩
  · rw [heq] at hresponse
    have hcases := ControlSession.handleCommand_cases s command
    generalize s.handleCommand command = result at hcases hresponse
    obtain rfl := Option.some.inj hresponse
    have hno : ∀ {action : ControlAction}, action = .none → ¬action.Starts := fun h =>
      ControlSession.not_starts_of_harmless (Or.inl h)
    cases hcases with
    | plain hnot => exact absurd hstarts hnot
    | user haction => exact absurd hstarts (hno haction)
    | loggedIn haction => exact absurd hstarts (hno haction)
    | loginFailed haction => exact absurd hstarts (hno haction)
    | parallel haction => exact absurd hstarts (hno haction)
    | binary => exact absurd hstarts (hno rfl)
    | restart => exact absurd hstarts (hno rfl)
    | transfer hauth htype hbinary hpassive haction hresume hid =>
        exact ⟨hpassive, fun _ => ⟨hbinary, hresume, hid⟩⟩
    | listing hauth htype hpassive haction =>
        refine ⟨hpassive, fun htransfer => ?_⟩
        rcases haction with haction | haction <;> rw [haction] at htransfer <;>
          rcases htransfer with htransfer | htransfer <;> cases htransfer
  · rw [heq] at hresponse
    cases hresponse

/-- **Passive readiness and REST are one-shot.**  In every run of a session,
with any command lines and any calls of the server between them, an emitted
STOR, RETR, LIST or NLST uses a markPassiveReady of its own; STOR and RETR come
only after an accepted TYPE I; and they resume exactly when a REST was accepted
since the previous one, with the id of the most recent such REST. -/
theorem control_oneShot {connections : Nat} {r : SessionRun}
    (hr : (sessionRuns auth connections).Reachable r) {event : SessionEvent}
    {response : ControlResponse} (hresponse : (r.session.handle event).1 = some response)
    (hstarts : response.action.Starts) :
    PassiveMarked r.trace ∧
      (response.action.StartsTransfer →
        (∃ x ∈ r.trace, x.AcceptedType) ∧
        (response.resume = true ↔ RestPending r.trace) ∧
        (response.resume = true → LatestRest response.transferId r.trace)) := by
  have hok := OnceOk.of_reachable hr
  obtain ⟨hpassive, htransfer⟩ := ControlSession.starts_cases hresponse hstarts
  refine ⟨hok.passive hpassive, fun h => ?_⟩
  obtain ⟨hbinary, hresume, hid⟩ := htransfer h
  have hlatest : response.resume = true → LatestRest response.transferId r.trace := by
    intro hon
    rw [hresume] at hon
    rw [hid]
    exact hok.latestRest (of_decide_eq_true hon)
  refine ⟨hok.binary hbinary, ⟨fun hon => (hlatest hon).restPending, fun hpending => ?_⟩, hlatest⟩
  rw [hresume]
  exact decide_eq_true fun hnil => hok.noRest hnil hpending

theorem control_oneShot_prepared :
    LatestRest (ascii "0123456789abcdef") preparedRun.trace :=
  ((@control_oneShot tokenAuth 1 preparedRun preparedRun_reachable (.line (ascii "STOR a\r\n"))
    { action := .startStor
      path := ascii "a"
      resume := true
      transferId := ascii "0123456789abcdef" }
    (by decide +kernel) (Or.inl (Or.inl rfl))).2 (Or.inl rfl)).2.2 rfl

end GridFlux
