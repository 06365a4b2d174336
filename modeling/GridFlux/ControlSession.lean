/-
GridFlux/ControlSession.lean

The control session, the second half of `protocol/control/control_command.cpp`:
the login state, the transfer type, the passive flag and the restart id, and
what a command does to them.

`handleCommand_cases` says once what a command can do; everything about runs of
a session is derived from it.
-/
import GridFlux.ControlCommand

namespace GridFlux

open TextCodec

/-! ### The session -/

inductive AuthMode
  | anonymous
  | token
deriving DecidableEq, Repr

/-- What `ControlSession` reads of `ControlAuthConfig`. -/
structure ControlAuthConfig where
  mode : AuthMode
  user : Bytes
  password : Bytes
  token : Bytes
deriving DecidableEq, Repr

structure ControlSession where
  expectedUser : Bytes
  expectedPassword : Bytes
  connections : Nat
  userAccepted : Bool
  authenticated : Bool
  binaryType : Bool
  passiveReady : Bool
  restartTransferId : Bytes
  workingDirectory : Bytes
deriving DecidableEq, Repr

def ControlAuthConfig.expectedUser (auth : ControlAuthConfig) : Bytes :=
  if auth.mode = .token then ascii "token" else auth.user

def ControlAuthConfig.expectedPassword (auth : ControlAuthConfig) : Bytes :=
  if auth.mode = .token then auth.token else auth.password

def isLoginRequired : ControlCommandType → Bool
  | .type | .epsv | .pasv | .opts | .rest | .stor | .retr | .size | .mdtm | .cwd | .cdup | .list
  | .nlst => true
  | _ => false

namespace ControlSession

/-- The session of a new connection. -/
def new (auth : ControlAuthConfig) (defaultConnections : Nat) : ControlSession where
  expectedUser := auth.expectedUser
  expectedPassword := auth.expectedPassword
  connections := defaultConnections
  userAccepted := false
  authenticated := false
  binaryType := false
  passiveReady := false
  restartTransferId := []
  workingDirectory := ascii "/"

def markPassiveReady (s : ControlSession) : ControlSession := { s with passiveReady := true }

def clearPassiveReady (s : ControlSession) : ControlSession := { s with passiveReady := false }

def setWorkingDirectory (s : ControlSession) (directory : Bytes) : ControlSession :=
  { s with workingDirectory := if directory.head? = some 47 then directory else ascii "/" }

/-! ### The handlers -/

/-- STOR and RETR. -/
def handleTransfer (s : ControlSession) (command : ControlCommand) (name : Bytes)
    (action : ControlAction) : ControlResponse × ControlSession :=
  if ¬s.binaryType then (singleLine 550 (ascii "TYPE I is required before " ++ name), s)
  else if ¬s.passiveReady then
    (singleLine 550 (ascii "EPSV or PASV is required before " ++ name), s)
  else if command.argument = [] then (singleLine 550 (name ++ ascii " path is required"), s)
  else
    ({ action := action
       path := command.argument
       connections := s.connections
       resume := s.restartTransferId ≠ []
       transferId := s.restartTransferId },
      { s with passiveReady := false, restartTransferId := [] })

/-- LIST and NLST. -/
def handleListing (s : ControlSession) (command : ControlCommand) (name : Bytes)
    (action : ControlAction) : ControlResponse × ControlSession :=
  if ¬s.passiveReady then
    (singleLine 550 (ascii "EPSV or PASV is required before " ++ name), s)
  else
    ({ action := action, path := command.argument, connections := s.connections },
      { s with passiveReady := false })

/-- SIZE, MDTM and CWD. -/
def handlePath (s : ControlSession) (command : ControlCommand) (name : Bytes)
    (action : ControlAction) : ControlResponse × ControlSession :=
  if command.argument = [] then (singleLine 550 (name ++ ascii " path is required"), s)
  else ({ action := action, path := command.argument }, s)

def featLines : List Bytes :=
  [ascii "211-Features", ascii " EPSV", ascii " PASV", ascii " REST GFID", ascii " AUTH TOKEN",
    ascii " RETR", ascii " RETR RESUME", ascii " STOR", ascii " SIZE", ascii " MDTM",
    ascii " LIST", ascii " NLST", ascii " CWD", ascii " CDUP", ascii " OPTS PARALLELISM",
    ascii "211 End"]

/-- The reply to a command that needs a login. -/
def loginRequired : ControlResponse := singleLine 530 (ascii "Please login with USER and PASS")

/-- The reply to an accepted REST. -/
def restAccepted (transferId : Bytes) : ControlResponse :=
  singleLine 350 (ascii "Restart marker accepted transfer_id=GFID:" ++ transferId)

/-- The reply to an accepted TYPE. -/
def typeAccepted : ControlResponse := singleLine 200 (ascii "Type set to I")

def handleCommand (s : ControlSession) (command : ControlCommand) :
    ControlResponse × ControlSession :=
  if command.type = .empty then (singleLine 502 (ascii "Empty command"), s)
  else if command.type = .unknown then (singleLine 502 (ascii "Command not implemented"), s)
  else if ¬s.authenticated ∧ isLoginRequired command.type then (loginRequired, s)
  else
    match command.type with
    | .user =>
        if command.argument = s.expectedUser then
          (singleLine 331 (ascii "User name okay, need password"),
            { s with userAccepted := true, authenticated := false })
        else
          (singleLine 530 (ascii "Invalid user"),
            { s with userAccepted := false, authenticated := false })
    | .pass =>
        if s.userAccepted ∧ command.argument = s.expectedPassword then
          (singleLine 230 (ascii "User logged in"), { s with authenticated := true })
        else (singleLine 530 (ascii "Login incorrect"), { s with authenticated := false })
    | .type =>
        if upper command.argument = ascii "I" then (typeAccepted, { s with binaryType := true })
        else (singleLine 502 (ascii "Only TYPE I is supported"), s)
    | .syst => (singleLine 215 (ascii "UNIX Type: L8"), s)
    | .feat => ({ lines := featLines }, s)
    | .pwd =>
        (singleLine 257 (34 :: s.workingDirectory ++ ascii "\" is the current directory"), s)
    | .noop => (singleLine 200 (ascii "NOOP ok"), s)
    | .quit => ({ singleLine 221 (ascii "Goodbye") with action := .quit }, s)
    | .epsv => ({ action := .openPassiveEpsv }, s)
    | .pasv => ({ action := .openPassivePasv }, s)
    | .opts =>
        if command.parallelism = 0 then
          (singleLine 502 (ascii "Only OPTS PARALLELISM is supported"), s)
        else
          (singleLine 200 (ascii "Parallelism set to " ++ decimal command.parallelism),
            { s with connections := command.parallelism })
    | .rest =>
        (restAccepted command.transferId, { s with restartTransferId := command.transferId })
    | .stor => s.handleTransfer command (ascii "STOR") .startStor
    | .retr => s.handleTransfer command (ascii "RETR") .startRetr
    | .size => s.handlePath command (ascii "SIZE") .querySize
    | .mdtm => s.handlePath command (ascii "MDTM") .queryMdtm
    | .cwd => s.handlePath command (ascii "CWD") .changeDirectory
    | .cdup => ({ action := .changeDirectory, path := ascii ".." }, s)
    | .list => s.handleListing command (ascii "LIST") .startList
    | .nlst => s.handleListing command (ascii "NLST") .startNlst
    | .empty | .unknown => (singleLine 502 (ascii "Command not implemented"), s)

end ControlSession

/-- STOR or RETR begins. -/
def ControlAction.StartsTransfer (action : ControlAction) : Prop :=
  action = .startStor ∨ action = .startRetr

/-- An action that needs the passive listener begins. -/
def ControlAction.Starts (action : ControlAction) : Prop :=
  action.StartsTransfer ∨ action = .startList ∨ action = .startNlst

/-- Nothing happens besides a reply, or the connection ends. -/
def ControlAction.Harmless (action : ControlAction) : Prop := action = .none ∨ action = .quit

namespace ControlSession

/-! ### What a command can do -/

/-- How `handleCommand` ends. -/
inductive Handled (s : ControlSession) (command : ControlCommand) :
    ControlResponse × ControlSession → Prop
  | plain {r : ControlResponse} (hstarts : ¬r.action.Starts)
      (hgate : s.authenticated = true ∨ r.action.Harmless)
      (hother : command.type ≠ .user ∧ command.type ≠ .pass)
      (hrest : command.type = .rest → r = loginRequired) : Handled s command (r, s)
  | user {r : ControlResponse} (haction : r.action = .none) (htype : command.type = .user) :
      Handled s command
        (r, { s with
          userAccepted := decide (command.argument = s.expectedUser), authenticated := false })
  | loggedIn {r : ControlResponse} (haction : r.action = .none) (htype : command.type = .pass)
      (huser : s.userAccepted = true) (hpassword : command.argument = s.expectedPassword) :
      Handled s command (r, { s with authenticated := true })
  | loginFailed {r : ControlResponse} (haction : r.action = .none)
      (htype : command.type = .pass) : Handled s command (r, { s with authenticated := false })
  | binary (hauth : s.authenticated = true) (htype : command.type = .type)
      (hargument : upper command.argument = ascii "I") :
      Handled s command (typeAccepted, { s with binaryType := true })
  | parallel {r : ControlResponse} (haction : r.action = .none) (hauth : s.authenticated = true)
      (htype : command.type = .opts) :
      Handled s command (r, { s with connections := command.parallelism })
  | restart (hauth : s.authenticated = true) (htype : command.type = .rest) :
      Handled s command
        (restAccepted command.transferId, { s with restartTransferId := command.transferId })
  | transfer {r : ControlResponse} (hauth : s.authenticated = true)
      (htype : command.type = .stor ∨ command.type = .retr) (hbinary : s.binaryType = true)
      (hpassive : s.passiveReady = true) (haction : r.action.StartsTransfer)
      (hresume : r.resume = decide (s.restartTransferId ≠ []))
      (hid : r.transferId = s.restartTransferId) :
      Handled s command (r, { s with passiveReady := false, restartTransferId := [] })
  | listing {r : ControlResponse} (hauth : s.authenticated = true)
      (htype : command.type = .list ∨ command.type = .nlst) (hpassive : s.passiveReady = true)
      (haction : r.action = .startList ∨ r.action = .startNlst) :
      Handled s command (r, { s with passiveReady := false })

theorem not_starts_of_harmless {action : ControlAction} (h : action.Harmless) :
    ¬action.Starts := by
  rcases h with rfl | rfl
  · rintro ((h | h) | h | h) <;> cases h
  · rintro ((h | h) | h | h) <;> cases h

variable {s : ControlSession} {command : ControlCommand}

theorem handleTransfer_handled {name : Bytes} {action : ControlAction}
    (hauth : s.authenticated = true) (htype : command.type = .stor ∨ command.type = .retr)
    (haction : action.StartsTransfer) :
    Handled s command (s.handleTransfer command name action) := by
  have hplain : ∀ (code : Nat) (text : Bytes), Handled s command (singleLine code text, s) := by
    intro code text
    refine .plain (not_starts_of_harmless (Or.inl rfl)) (Or.inl hauth) ?_ fun hrest => ?_
    · rcases htype with h | h <;> rw [h] <;> exact ⟨by decide, by decide⟩
    · rcases htype with h | h <;> rw [h] at hrest <;> cases hrest
  rw [handleTransfer]
  split
  · exact hplain _ _
  · rename_i hbinary
    split
    · exact hplain _ _
    · rename_i hpassive
      split
      · exact hplain _ _
      · exact .transfer hauth htype (by simpa using hbinary) (by simpa using hpassive) haction rfl rfl

theorem handleListing_handled {name : Bytes} {action : ControlAction}
    (hauth : s.authenticated = true) (htype : command.type = .list ∨ command.type = .nlst)
    (haction : action = .startList ∨ action = .startNlst) :
    Handled s command (s.handleListing command name action) := by
  rw [handleListing]
  split
  · refine .plain (not_starts_of_harmless (Or.inl rfl)) (Or.inl hauth) ?_ fun hrest => ?_
    · rcases htype with h | h <;> rw [h] <;> exact ⟨by decide, by decide⟩
    · rcases htype with h | h <;> rw [h] at hrest <;> cases hrest
  · rename_i hpassive
    exact .listing hauth htype (by simpa using hpassive) haction

theorem handlePath_handled {name : Bytes} {action : ControlAction} (hauth : s.authenticated = true)
    (hother : command.type ≠ .user ∧ command.type ≠ .pass) (hrest : command.type ≠ .rest)
    (haction : ¬action.Starts) : Handled s command (s.handlePath command name action) := by
  rw [handlePath]
  split
  · exact .plain (not_starts_of_harmless (Or.inl rfl)) (Or.inl hauth) hother
      fun h => absurd h hrest
  · exact .plain haction (Or.inl hauth) hother fun h => absurd h hrest

/-- **What a command can do.** -/
theorem handleCommand_cases (s : ControlSession) (command : ControlCommand) :
    Handled s command (s.handleCommand command) := by
  have hreply : ∀ (r : ControlResponse), r.action.Harmless →
      command.type ≠ .user ∧ command.type ≠ .pass → command.type ≠ .rest →
      Handled s command (r, s) := fun r hr hother hrest =>
    .plain (not_starts_of_harmless hr) (Or.inr hr) hother fun h => absurd h hrest
  rw [handleCommand]
  split
  · rename_i htype
    exact hreply _ (Or.inl rfl) (by simp [htype]) (by simp [htype])
  · split
    · rename_i htype
      exact hreply _ (Or.inl rfl) (by simp [htype]) (by simp [htype])
    · split
      · -- a protected command without a login
        rename_i hrequired
        refine .plain (not_starts_of_harmless (Or.inl rfl)) (Or.inr (Or.inl rfl)) ⟨?_, ?_⟩
          fun _ => rfl
        · intro htype
          rw [htype] at hrequired
          exact absurd hrequired.2 (by decide)
        · intro htype
          rw [htype] at hrequired
          exact absurd hrequired.2 (by decide)
      · rename_i hgate
        have hauth : isLoginRequired command.type = true → s.authenticated = true := fun h => by
          by_contra hnot
          exact hgate ⟨hnot, h⟩
        cases htype : command.type with
        | user =>
            simp only
            split
            · rename_i hargument
              have h := @Handled.user s command
                (singleLine 331 (ascii "User name okay, need password")) rfl htype
              rwa [decide_eq_true hargument] at h
            · rename_i hargument
              have h := @Handled.user s command (singleLine 530 (ascii "Invalid user")) rfl htype
              rwa [decide_eq_false hargument] at h
        | pass =>
            simp only
            split
            · rename_i hlogin
              exact .loggedIn rfl htype hlogin.1 hlogin.2
            · exact .loginFailed rfl htype
        | type =>
            simp only
            split
            · rename_i hargument
              exact .binary (hauth (by rw [htype]; rfl)) htype hargument
            · exact hreply _ (Or.inl rfl) (by simp [htype]) (by simp [htype])
        | syst => exact hreply _ (Or.inl rfl) (by simp [htype]) (by simp [htype])
        | feat => exact hreply _ (Or.inl rfl) (by simp [htype]) (by simp [htype])
        | pwd => exact hreply _ (Or.inl rfl) (by simp [htype]) (by simp [htype])
        | noop => exact hreply _ (Or.inl rfl) (by simp [htype]) (by simp [htype])
        | quit => exact hreply _ (Or.inr rfl) (by simp [htype]) (by simp [htype])
        | opts =>
            simp only
            split
            · exact hreply _ (Or.inl rfl) (by simp [htype]) (by simp [htype])
            · exact .parallel rfl (hauth (by rw [htype]; rfl)) htype
        | rest => exact .restart (hauth (by rw [htype]; rfl)) htype
        | stor =>
            exact handleTransfer_handled (hauth (by rw [htype]; rfl)) (Or.inl htype) (Or.inl rfl)
        | retr =>
            exact handleTransfer_handled (hauth (by rw [htype]; rfl)) (Or.inr htype) (Or.inr rfl)
        | list =>
            exact handleListing_handled (hauth (by rw [htype]; rfl)) (Or.inl htype) (Or.inl rfl)
        | nlst =>
            exact handleListing_handled (hauth (by rw [htype]; rfl)) (Or.inr htype) (Or.inr rfl)
        | size =>
            exact handlePath_handled (hauth (by rw [htype]; rfl)) (by simp [htype])
              (by simp [htype]) (by rintro ((h | h) | h | h) <;> cases h)
        | mdtm =>
            exact handlePath_handled (hauth (by rw [htype]; rfl)) (by simp [htype])
              (by simp [htype]) (by rintro ((h | h) | h | h) <;> cases h)
        | cwd =>
            exact handlePath_handled (hauth (by rw [htype]; rfl)) (by simp [htype])
              (by simp [htype]) (by rintro ((h | h) | h | h) <;> cases h)
        | epsv =>
            exact .plain (by rintro ((h | h) | h | h) <;> cases h)
              (Or.inl (hauth (by rw [htype]; rfl))) (by simp [htype]) (by simp [htype])
        | pasv =>
            exact .plain (by rintro ((h | h) | h | h) <;> cases h)
              (Or.inl (hauth (by rw [htype]; rfl))) (by simp [htype]) (by simp [htype])
        | cdup =>
            exact .plain (by rintro ((h | h) | h | h) <;> cases h)
              (Or.inl (hauth (by rw [htype]; rfl))) (by simp [htype]) (by simp [htype])
        | empty => exact hreply _ (Or.inl rfl) (by simp [htype]) (by simp [htype])
        | unknown => exact hreply _ (Or.inl rfl) (by simp [htype]) (by simp [htype])

end ControlSession

end GridFlux
