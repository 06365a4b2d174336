/-
GridFlux/ControlCommand.lean

Control commands, the first half of `protocol/control/control_command.cpp`:
how a line becomes a `ControlCommand`, and the replies.

`trim` takes blanks off both ends, so exactly the texts that neither begin nor
end with one survive it (`trim_eq_self_iff`).
-/
import GridFlux.Manifest
import Mathlib.Data.List.DropRight

namespace GridFlux

open TextCodec

/-! ### Character classes of the C locale -/

/-- `std::isspace`. -/
def isSpace (c : UInt8) : Bool := c = 32 || (9 ≤ c && c ≤ 13)

/-- `std::toupper`. -/
def toUpper (c : UInt8) : UInt8 := if 97 ≤ c ∧ c ≤ 122 then c - 32 else c

def trim (value : Bytes) : Bytes := (value.dropWhile isSpace).rdropWhile isSpace

def upper (value : Bytes) : Bytes := value.map toUpper

/-- The text neither begins nor ends with a blank. -/
structure Unpadded (value : Bytes) : Prop where
  head : ∀ c, value.head? = some c → isSpace c = false
  last : ∀ c, value.getLast? = some c → isSpace c = false

theorem dropWhile_eq_self {p : UInt8 → Bool} {value : Bytes}
    (h : ∀ c, value.head? = some c → p c = false) : value.dropWhile p = value := by
  cases value with
  | nil => rfl
  | cons c rest => rw [List.dropWhile_cons_of_neg (by simpa using h c rfl)]

/-- **`trim` keeps** what is not padded. -/
theorem trim_eq_self {value : Bytes} (h : Unpadded value) : trim value = value := by
  rw [trim, dropWhile_eq_self h.head, List.rdropWhile_eq_self_iff]
  intro hne hspace
  have hlast := h.last _ (List.getLast?_eq_some_getLast hne)
  rw [hlast] at hspace
  cases hspace

/-- What `trim` leaves is not padded. -/
theorem unpadded_trim (value : Bytes) : Unpadded (trim value) := by
  constructor
  · intro c hc
    have hprefix : trim value <+: value.dropWhile isSpace := List.rdropWhile_prefix isSpace _
    obtain ⟨tail, htail⟩ := hprefix
    have hhead : (value.dropWhile isSpace).head? = some c := by
      rw [← htail, List.head?_append, hc]
      rfl
    have hnot := List.head?_dropWhile_not isSpace value
    rw [hhead] at hnot
    simpa using hnot
  · intro c hc
    have hne : trim value ≠ [] := by
      intro hnil
      rw [hnil] at hc
      cases hc
    rw [List.getLast?_eq_some_getLast hne] at hc
    obtain rfl := Option.some.inj hc
    exact eq_false_of_ne_true (List.rdropWhile_last_not isSpace (value.dropWhile isSpace) hne)

theorem trim_eq_self_iff {value : Bytes} : trim value = value ↔ Unpadded value :=
  ⟨fun h => h ▸ unpadded_trim value, trim_eq_self⟩

instance (value : Bytes) : Decidable (Unpadded value) :=
  decidable_of_iff (trim value = value) trim_eq_self_iff

/-! ### Commands -/

inductive ControlCommandType
  | empty
  | unknown
  | user
  | pass
  | type
  | syst
  | feat
  | pwd
  | noop
  | quit
  | epsv
  | pasv
  | opts
  | rest
  | stor
  | retr
  | size
  | mdtm
  | cwd
  | cdup
  | list
  | nlst
deriving DecidableEq, Repr

structure ControlCommand where
  type : ControlCommandType := .unknown
  verb : Bytes := []
  argument : Bytes := []
  parallelism : Nat := 0
  transferId : Bytes := []
deriving DecidableEq, Repr

def commandVerbs : List (Bytes × ControlCommandType) :=
  [(ascii "USER", .user), (ascii "PASS", .pass), (ascii "TYPE", .type), (ascii "SYST", .syst),
    (ascii "FEAT", .feat), (ascii "PWD", .pwd), (ascii "NOOP", .noop), (ascii "QUIT", .quit),
    (ascii "EPSV", .epsv), (ascii "PASV", .pasv), (ascii "OPTS", .opts), (ascii "REST", .rest),
    (ascii "STOR", .stor), (ascii "RETR", .retr), (ascii "SIZE", .size), (ascii "MDTM", .mdtm),
    (ascii "CWD", .cwd), (ascii "CDUP", .cdup), (ascii "LIST", .list), (ascii "NLST", .nlst)]

def commandTypeForVerb (verb : Bytes) : ControlCommandType :=
  (commandVerbs.lookup verb).getD .unknown

/-- `parseParallelism`.  A numeral too big for `std::from_chars` is too big for
the range as well. -/
def parseParallelism (value : Bytes) : Except Status Nat := do
  require (value ≠ []) (.invalidArgument (ascii "parallelism must not be empty"))
  require (value.all isDigit ∧ decimalValue value ≠ 0 ∧ decimalValue value ≤ 64)
    (.invalidArgument (ascii "parallelism must be in range 1..64"))
  return decimalValue value

def kDirectPrefix : Bytes := ascii "PARALLELISM="
def kRetrPrefix : Bytes := ascii "RETR PARALLELISM="
def kMarkerPrefix : Bytes := ascii "GFID:"

/-- The part of `parseControlCommand` about OPTS. -/
def parseOpts (command : ControlCommand) : Except Status ControlCommand :=
  let normalized := upper command.argument
  if kDirectPrefix <+: normalized then do
    let parallelism ← parseParallelism (command.argument.drop kDirectPrefix.length)
    return { command with parallelism := parallelism }
  else if kRetrPrefix <+: normalized then do
    let parallelism ← parseParallelism (command.argument.drop kRetrPrefix.length)
    return { command with parallelism := parallelism }
  else .ok command

/-- The part of `parseControlCommand` about REST. -/
def parseRest (command : ControlCommand) : Except Status ControlCommand := do
  require (upper (command.argument.take 5) = kMarkerPrefix ∧
      ¬command.argument.length ≤ kMarkerPrefix.length)
    (.invalidArgument (ascii "REST marker must be GFID:<transfer_id>"))
  let transferId := command.argument.drop kMarkerPrefix.length
  require (isValidTransferId transferId) (.invalidArgument (ascii "REST transfer_id is invalid"))
  return { command with transferId := transferId }

/-- Neither a space nor a tab. -/
def isVerbCharacter (c : UInt8) : Bool := c ≠ 32 && c ≠ 9

/-- Verb and argument of a trimmed line. -/
def splitCommand (stripped : Bytes) : ControlCommand :=
  let verb := upper (stripped.takeWhile isVerbCharacter)
  { type := commandTypeForVerb verb
    verb := verb
    argument := trim (stripped.dropWhile isVerbCharacter) }

/-- `parseControlCommand`.  The loop that takes line ends off the trimmed line
finds none: they are blanks too. -/
def parseControlCommand (line : Bytes) : Except Status ControlCommand :=
  let stripped := trim line
  if stripped = [] then .ok { type := .empty }
  else
    let command := splitCommand stripped
    if command.type = .opts then parseOpts command
    else if command.type = .rest then parseRest command
    else .ok command

/-! ### Replies -/

def formatReply (code : Nat) (text : Bytes) : Bytes := decimal code ++ 32 :: text

inductive ControlAction
  | none
  | openPassiveEpsv
  | openPassivePasv
  | startStor
  | startRetr
  | querySize
  | queryMdtm
  | changeDirectory
  | startList
  | startNlst
  | quit
deriving DecidableEq, Repr

structure ControlResponse where
  lines : List Bytes := []
  action : ControlAction := .none
  path : Bytes := []
  transferId : Bytes := []
  connections : Nat := 1
  resume : Bool := false
deriving DecidableEq, Repr

def singleLine (code : Nat) (text : Bytes) : ControlResponse :=
  { lines := [formatReply code text] }

/-! ### What the parser yields -/

/-- A command keeps its type and its argument through the parser. -/
theorem parseControlCommand_ok {line : Bytes} {command : ControlCommand}
    (h : parseControlCommand line = .ok command) :
    (trim line = [] ∧ command = { type := .empty }) ∨
      (trim line ≠ [] ∧ command.type = (splitCommand (trim line)).type ∧
        command.argument = (splitCommand (trim line)).argument) := by
  rw [parseControlCommand] at h
  split at h
  · rename_i hnil
    exact Or.inl ⟨hnil, (Except.ok.inj h).symm⟩
  · rename_i hne
    refine Or.inr ⟨hne, ?_⟩
    dsimp only at h
    split at h
    · simp only [parseOpts] at h
      split at h
      · simp only [bind_eq_ok] at h
        obtain ⟨parallelism, -, heq⟩ := h
        rw [← Except.ok.inj heq]
        exact ⟨rfl, rfl⟩
      · split at h
        · simp only [bind_eq_ok] at h
          obtain ⟨parallelism, -, heq⟩ := h
          rw [← Except.ok.inj heq]
          exact ⟨rfl, rfl⟩
        · rw [← Except.ok.inj h]
          exact ⟨rfl, rfl⟩
    · split at h
      · simp only [parseRest, bind_eq_ok] at h
        obtain ⟨_, -, _, -, heq⟩ := h
        rw [← Except.ok.inj heq]
        exact ⟨rfl, rfl⟩
      · rw [← Except.ok.inj h]
        exact ⟨rfl, rfl⟩

/-- A REST command has a transfer id. -/
theorem parseControlCommand_rest {line : Bytes} {command : ControlCommand}
    (h : parseControlCommand line = .ok command) (hrest : command.type = .rest) :
    command.transferId ≠ [] := by
  have hsplit := parseControlCommand_ok h
  rw [parseControlCommand] at h
  rcases hsplit with ⟨-, rfl⟩ | ⟨hne, htype, -⟩
  · cases hrest
  · have hrest' : (splitCommand (trim line)).type = .rest := htype.symm.trans hrest
    have hopts : (splitCommand (trim line)).type ≠ .opts := by
      rw [hrest']
      decide
    simp only [if_neg hne, if_neg hopts, if_pos hrest', parseRest, bind_eq_ok, require_eq_ok] at h
    obtain ⟨_, ⟨-, hlength⟩, _, -, heq⟩ := h
    rw [← Except.ok.inj heq]
    intro hnil
    have hzero := congrArg List.length hnil
    rw [List.length_drop] at hzero
    exact hlength (Nat.le_of_sub_eq_zero hzero)

end GridFlux
