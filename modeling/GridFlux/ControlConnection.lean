/-
GridFlux/ControlConnection.lean

One control connection: the loop of `handleControlConnection` with the `run*`
functions of `control_server.cpp`, over everything that a call may answer.

The session's flag and the descriptor of the passive listener are two records of
one fact.  `handleCommand` takes the flag back before the `run*` function looks
at the command, so each way out of such a function has to close the descriptor.
Those of `runStor` and `runRetr` before the transfer do not, and neither do two
of `runListLike`; `passive_agrees` says exactly that.
-/
import GridFlux.ControlPaths
import GridFlux.ControlReplies
import GridFlux.ControlSession
import GridFlux.TransferManifest
import GridFlux.Transition

namespace GridFlux

open FileTree TextCodec Transition

/-! ### The connection and its surroundings -/

/-- What the loop reads of `ControlServerOptions`. -/
structure ControlServerOptions where
  host : Bytes
  root : Bytes
  dataPortBase : Nat
  connections : Nat
  auth : ControlAuthConfig

/-- What the system answers while one command is served.  `send` is the end of
`sendLine` for a reply; `transfer` the end of the transfer that is handed the
listener. -/
structure Circumstances where
  tree : FsTree Name
  cwd : List Name
  send : Bytes → Except Status Unit
  createListener : Nat → Except Status Nat
  localAddress : Option Bytes
  inetPton : Bytes → Option (Nat × Nat × Nat × Nat)
  random : Fin 32 → UInt32
  pathExists : Bytes → Except Status Bool
  fileSizeOfPath : Bytes → Except Status Nat
  mtimeOfPath : Bytes → Except Status Int
  unspecified : Bytes
  readDirectoryEntries : Bytes → Except Status (List ControlListEntry)
  acceptDataConnection : Except Status Unit
  sendAllRaw : Bytes → Except Status Unit
  transfer : Except Status Unit

structure PassiveListener where
  fd : Option Nat := none
  port : Nat := 0
deriving DecidableEq, Repr

/-- The locals of `handleControlConnection`, with the replies it has sent and
the listings that went out on data connections. -/
structure ControlConnection where
  session : ControlSession
  passive : PassiveListener := {}
  sent : List Bytes
  listed : List Bytes := []
deriving DecidableEq, Repr

/-- `generateTransferId`, from what the random device returns. -/
def generateTransferId (random : Fin 32 → UInt32) : Bytes :=
  List.ofFn fun i => hexDigit ((random i).toNat % 16)

namespace Circumstances

/-! ### Replies and listeners -/

section Calls

variable (env : Circumstances)

def sendLine (c : ControlConnection) (line : Bytes) : Except Status Unit × ControlConnection :=
  match env.send line with
  | .error e => (.error e, c)
  | .ok _ => (.ok (), { c with sent := c.sent ++ [line] })

/-- A reply whose fate nobody looks at. -/
def reply (c : ControlConnection) (code : Nat) (text : Bytes) : ControlConnection :=
  (env.sendLine c (formatReply code text)).2

def sendResponse (c : ControlConnection) : List Bytes → Except Status Unit × ControlConnection
  | [] => (.ok (), c)
  | line :: lines =>
      match env.sendLine c line with
      | (.error e, c) => (.error e, c)
      | (.ok _, c) => sendResponse c lines

def kPassiveScanLimit : Nat := 512

/-- The loop of `openPassiveListener` from `offset` on. -/
def scanPorts (dataPortBase : Nat) : Nat → Nat → Except Status PassiveListener
  | 0, _ => .error (.runtimeError (ascii "no passive data port available"))
  | remaining + 1, offset =>
      let port := dataPortBase + offset
      if port = 0 ∨ port > 65535 then
        .error (.runtimeError (ascii "no passive data port available"))
      else
        match env.createListener port with
        | .error _ => scanPorts dataPortBase remaining (offset + 1)
        | .ok fd => .ok ⟨some fd, port⟩

def openPassiveListener (options : ControlServerOptions) : Except Status PassiveListener :=
  env.scanPorts options.dataPortBase kPassiveScanLimit 0

def epsvReply (port : Nat) : Bytes :=
  formatReply 229 (ascii "Entering Extended Passive Mode (|||" ++ decimal port ++ ascii "|)")

def pasvHostForReply (configuredHost : Bytes) : Bytes :=
  if configuredHost ≠ ascii "0.0.0.0" ∧ configuredHost ≠ ascii "::" then configuredHost
  else env.localAddress.getD (ascii "127.0.0.1")

def pasvReply (configuredHost : Bytes) (port : Nat) : Except Status Bytes :=
  match env.inetPton (env.pasvHostForReply configuredHost) with
  | none => .error (.invalidArgument (ascii "PASV requires an IPv4 bind address"))
  | some (a, b, c, d) =>
      .ok (formatReply 227 (ascii "Entering Passive Mode (" ++
        join 44 [decimal a, decimal b, decimal c, decimal d, decimal (port / 256),
          decimal (port % 256)] ++ ascii ")"))

def sendAsciiData (c : ControlConnection) (payload : Bytes) :
    Except Status Unit × ControlConnection :=
  if c.passive.fd = none then
    (.error (.runtimeError (ascii "passive data listener is not ready")), c)
  else
    match env.acceptDataConnection with
    | .error e => (.error e, c)
    | .ok _ =>
        match env.sendAllRaw payload with
        | .error e => (.error e, { c with passive := {} })
        | .ok _ => (.ok (), { c with passive := {}, listed := c.listed ++ [payload] })

def validateOutputBeforeStor (outputPath : Bytes) (resume : Bool) : Except Status Unit := do
  let outputExists ← env.pathExists outputPath
  require (outputExists = false) (.invalidArgument (ascii "output file already exists"))
  let manifestExists ← env.pathExists (manifestPathForOutput outputPath)
  require (¬(resume = true ∧ manifestExists = false))
    (.invalidArgument (ascii "manifest is required for REST resume"))
  require (¬(resume = false ∧ manifestExists = true))
    (.invalidArgument (ascii "manifest already exists; use REST GFID token"))

end Calls

end Circumstances

/-! ### The commands

The functions return the connection they leave; the loop drops their status.
What they write to the event log is left out. -/

namespace ControlConnection

section Commands

variable (options : ControlServerOptions) (env : Circumstances) (c : ControlConnection)
  (response : ControlResponse)

/-- `passive->fd.reset()` and `session.clearPassiveReady()`. -/
def dropListener : ControlConnection :=
  { c with passive := { c.passive with fd := none }, session := c.session.clearPassiveReady }

/-- `resolveControlPath` for the path of the command. -/
def resolve (kind : ControlPathKind) (commandName : Bytes) : Except Status ResolvedControlPath :=
  (resolveControlPath env.tree env.cwd options.root c.session.workingDirectory response.path kind
    commandName).1

def runSize : ControlConnection :=
  match c.resolve options env response .existingFile (ascii "SIZE") with
  | .error e => env.reply c 550 e.message
  | .ok path =>
      match env.fileSizeOfPath path.fullPath with
      | .error e => env.reply c 550 e.message
      | .ok size => env.reply c 213 (decimal size)

def runMdtm : ControlConnection :=
  match c.resolve options env response .existingFile (ascii "MDTM") with
  | .error e => env.reply c 550 e.message
  | .ok path =>
      match env.mtimeOfPath path.fullPath with
      | .error e => env.reply c 550 e.message
      | .ok mtime => env.reply c 213 (formatMdtmTime env.unspecified mtime)

def runCwd : ControlConnection :=
  if response.path = ascii ".." ∧ c.session.workingDirectory = ascii "/" then
    env.reply { c with session := c.session.setWorkingDirectory (ascii "/") } 250
      (ascii "Directory changed to /")
  else
    match c.resolve options env response .existingDirectory (ascii "CWD") with
    | .error e => env.reply c 550 e.message
    | .ok path =>
        env.reply { c with session := c.session.setWorkingDirectory path.virtualPath } 250
          (ascii "Directory changed to " ++ path.virtualPath)

def notReady : ControlConnection := env.reply c 550 (ascii "Passive data listener is not ready")

def listName (namesOnly : Bool) : Bytes := ascii (if namesOnly then "NLST" else "LIST")

def listPrelude (namesOnly : Bool) : Bytes :=
  formatReply 150 (ascii "Opening " ++ listName namesOnly ++ ascii " data")

def runListLike (namesOnly : Bool) : ControlConnection :=
  if c.passive.fd = none then notReady env c
  else
    match c.resolve options env response .existingDirectory (listName namesOnly) with
    | .error e => env.reply c.dropListener 550 e.message
    | .ok path =>
        match env.readDirectoryEntries path.fullPath with
        | .error e => env.reply c.dropListener 550 e.message
        | .ok entries =>
            let payload := if namesOnly then formatNlst entries
              else formatList env.unspecified entries
            match env.sendLine c (listPrelude namesOnly) with
            | (.error _, c) => c
            | (.ok _, c) =>
                let (status, c) := env.sendAsciiData c payload
                let c := { c with session := c.session.clearPassiveReady }
                match status with
                | .error e => env.reply c 425 e.message
                | .ok _ => env.reply c 226 (listName namesOnly ++ ascii " complete")

def transferIdFor : Bytes :=
  if response.resume then response.transferId else generateTransferId env.random

def transferPrelude (opening : Bytes) : Bytes :=
  formatReply 150 (ascii "Opening GridFlux " ++ opening ++ ascii "data connection transfer_id=GFID:" ++
    transferIdFor env response ++ ascii " connections=" ++ decimal response.connections)

/-- The transfer of STOR and RETR: the listener is moved into it, and it closes
it. -/
def transferOn : ControlConnection :=
  let c := { c with passive := {} }
  match env.transfer with
  | .error e => env.reply c 550 (ascii "Transfer failed: " ++ e.message)
  | .ok _ =>
      env.reply { c with session := c.session.clearPassiveReady } 226
        (ascii "Transfer complete transfer_id=GFID:" ++ transferIdFor env response)

/-- The 150 reply and, once it is out, the transfer. -/
def startTransfer (opening : Bytes) : ControlConnection :=
  match env.sendLine c (transferPrelude env response opening) with
  | (.error _, c) => c
  | (.ok _, c) => transferOn env c response

def runStor : ControlConnection :=
  if c.passive.fd = none then notReady env c
  else
    match c.resolve options env response .storTarget (ascii "STOR") with
    | .error e => env.reply c 550 e.message
    | .ok outputPath =>
        match env.validateOutputBeforeStor outputPath.fullPath response.resume with
        | .error e => env.reply c 550 e.message
        | .ok _ => startTransfer env c response []

def runRetr : ControlConnection :=
  if c.passive.fd = none then notReady env c
  else
    match c.resolve options env response .existingFile (ascii "RETR") with
    | .error e => env.reply c 550 e.message
    | .ok _ =>
        match resolveVirtualPath c.session.workingDirectory response.path false with
        | .error e => env.reply c 550 e.message
        | .ok _ => startTransfer env c response (ascii "download ")

/-! ### The loop -/

/-- EPSV and PASV; `none` where the connection is given up. -/
def openPassive (extended : Bool) : Option ControlConnection :=
  match env.openPassiveListener options with
  | .error _ => none
  | .ok passive =>
      let c := { c with passive := passive, session := c.session.markPassiveReady }
      if extended then some (env.sendLine c (Circumstances.epsvReply passive.port)).2
      else
        match env.pasvReply options.host passive.port with
        | .error e => some (env.reply c 550 e.message).dropListener
        | .ok line => some (env.sendLine c line).2

/-- The lines of a response that asks for nothing else. -/
def answer : Option ControlConnection :=
  match env.sendResponse c response.lines with
  | (.error _, _) => none
  | (.ok _, c) => if response.action = .quit then none else some c

/-- What the loop does with the session's response. -/
def perform : Option ControlConnection :=
  match response.action with
  | .openPassiveEpsv => c.openPassive options env true
  | .openPassivePasv => c.openPassive options env false
  | .startStor => some (c.runStor options env response)
  | .startRetr => some (c.runRetr options env response)
  | .querySize => some (c.runSize options env response)
  | .queryMdtm => some (c.runMdtm options env response)
  | .changeDirectory => some (c.runCwd options env response)
  | .startList => some (c.runListLike options env response false)
  | .startNlst => some (c.runListLike options env response true)
  | .none | .quit => c.answer env response

/-- One round of the loop, for the line `readLine` returned; `none` where the
connection is given up. -/
def serve (line : Bytes) : Option ControlConnection :=
  match parseControlCommand line with
  | .error e => some (env.reply c 550 e.message)
  | .ok command =>
      { c with session := (c.session.handleCommand command).2 }.perform options env
        (c.session.handleCommand command).1

end Commands

end ControlConnection

/-- A line of the client and what the system answers while it is served. -/
structure Served where
  line : Bytes
  env : Circumstances

/-- The loop, once the greeting is out. -/
def controlLoop (options : ControlServerOptions) : System ControlConnection Served where
  initial c := c =
    { session := .new options.auth options.connections
      sent := [formatReply 220 (ascii "GridFlux GridFTP control ready")] }
  step served c c' := c.serve options served.env served.line = some c'

end GridFlux
