/-
GridFlux/ControlLine.lean

A command on its way: the line the tree client sends for a path, `readLine` of
the control server, and what the server's parser makes of the line.

The client sends the path as it is, and the server takes blanks off the
argument and refuses a line of more than 8192 bytes.  So the path arrives
exactly when it neither begins nor ends with a blank and the line is short
enough (`command_arrives_iff`), however the bytes are cut up on the way.
-/
import GridFlux.ControlCommand
import GridFlux.TreeManifest

namespace GridFlux

open TextCodec

/-! ### The client -/

def joinRemotePath (root relative : Bytes) : Bytes :=
  if root = ascii "/" then relative
  else if root = [] then relative
  else root ++ ascii "/" ++ relative

/-- `validateRemoteDirArgument` of the tree options. -/
def validateRemoteDirArgument (path option : Bytes) : Except Status Unit :=
  if path = [] then .error (.invalidArgument (option ++ ascii " must not be empty"))
  else if path = ascii "/" then .ok ()
  else validateTreeRelativePath path

/-- The commands that the tree client sends with a path. -/
inductive TreeVerb
  | stor
  | retr
  | nlst
  | size
  | mdtm
deriving DecidableEq, Repr

namespace TreeVerb

def text : TreeVerb → Bytes
  | stor => ascii "STOR"
  | retr => ascii "RETR"
  | nlst => ascii "NLST"
  | size => ascii "SIZE"
  | mdtm => ascii "MDTM"

def type : TreeVerb → ControlCommandType
  | stor => .stor
  | retr => .retr
  | nlst => .nlst
  | size => .size
  | mdtm => .mdtm

end TreeVerb

/-- What `sendOnly` writes for a command and its path. -/
def commandText (verb : TreeVerb) (path : Bytes) : Bytes :=
  verb.text ++ ascii " " ++ path ++ [carriageReturn, newline]

/-! ### The server's `readLine` -/

namespace ControlServer

/-- The line without its end. -/
def stripLineEnd (line : Bytes) : Bytes :=
  line.rdropWhile fun c => c = newline || c = carriageReturn

def kMaxControlLine : Nat := 8192

/-- `readLine`, with the buffer it leaves.  `received` are the pieces that the
calls of `readSome` deliver, an empty one for an interrupted call; after them
the connection is closed. -/
def readLine (buffer : Bytes) (received : List Bytes) : Except Status (Bytes × Bytes) :=
  if newline ∈ buffer then
    .ok (stripLineEnd (buffer.takeWhile (· ≠ newline) ++ [newline]),
      (buffer.dropWhile (· ≠ newline)).drop 1)
  else
    match received with
    | [] => .error (.runtimeError (ascii "control connection closed"))
    | piece :: received =>
        if piece = [] then readLine buffer received
        else if (buffer ++ piece).length > kMaxControlLine then
          .error (.invalidArgument (ascii "control line exceeds 8192 bytes"))
        else readLine (buffer ++ piece) received

/-! ### Reading one line -/

/-- A buffer that holds one line. -/
theorem readLine_whole {body : Bytes} (h : newline ∉ body) (received : List Bytes) :
    readLine (body ++ [newline]) received = .ok (stripLineEnd (body ++ [newline]), []) := by
  have htake : (body ++ [newline]).takeWhile (· ≠ newline) = body := by
    rw [List.takeWhile_append_of_pos]
    · simp
    · intro c hc
      exact decide_eq_true fun heq => h (heq ▸ hc)
  have hdrop : (body ++ [newline]).dropWhile (· ≠ newline) = [newline] := by
    rw [List.dropWhile_append_of_pos]
    · simp
    · intro c hc
      exact decide_eq_true fun heq => h (heq ▸ hc)
  rw [readLine.eq_def, if_pos (by simp), htake, hdrop]
  rfl

/-- What holds the end of the line holds all of it. -/
theorem eq_of_newline_mem {body : Bytes} (h : newline ∉ body) {front rest : Bytes}
    (hall : front ++ rest = body ++ [newline]) (hmem : newline ∈ front) :
    front = body ++ [newline] ∧ rest = [] := by
  rcases List.eq_nil_or_concat rest with rfl | ⟨init, last, rfl⟩
  · rw [List.append_nil] at hall
    exact ⟨hall, rfl⟩
  · rw [List.concat_eq_append, ← List.append_assoc] at hall
    obtain ⟨hbody, -⟩ := List.append_inj' hall rfl
    exact absurd (hbody ▸ List.mem_append_left init hmem) h

/-- **One line, in any pieces**: it is read when it fits, and refused when it
does not. -/
theorem readLine_line {body : Bytes} (h : newline ∉ body) {buffer : Bytes}
    {received : List Bytes} (hall : buffer ++ received.flatten = body ++ [newline])
    (hbuffer : newline ∉ buffer) :
    readLine buffer received =
      if (body ++ [newline]).length ≤ kMaxControlLine then
        .ok (stripLineEnd (body ++ [newline]), [])
      else .error (.invalidArgument (ascii "control line exceeds 8192 bytes")) := by
  induction received generalizing buffer with
  | nil =>
      rw [List.flatten_nil, List.append_nil] at hall
      exact absurd (hall ▸ List.mem_append_right body (List.mem_singleton_self newline)) hbuffer
  | cons piece received ih =>
      rw [List.flatten_cons, ← List.append_assoc] at hall
      rw [readLine, if_neg hbuffer]
      by_cases hempty : piece = []
      · rw [if_pos hempty]
        rw [hempty, List.append_nil] at hall
        exact ih hall hbuffer
      · have hle : (buffer ++ piece).length ≤ (body ++ [newline]).length := by
          rw [← hall]
          exact (List.prefix_append (buffer ++ piece) _).length_le
        rw [if_neg hempty]
        by_cases hlong : (buffer ++ piece).length > kMaxControlLine
        · rw [if_pos hlong, if_neg (Nat.not_le.mpr (hlong.trans_le hle))]
        · rw [if_neg hlong]
          by_cases hnewline : newline ∈ buffer ++ piece
          · -- the line has come, and nothing after it
            obtain ⟨hwhole, -⟩ := eq_of_newline_mem h hall hnewline
            rw [hwhole] at hlong ⊢
            rw [readLine_whole h, if_pos (Nat.not_lt.mp hlong)]
          · exact ih hall hnewline

end ControlServer

/-! ### The path arrives -/

/-- Every character of a path that the validation accepts can stand on a line. -/
theorem validateTreeRelativePath_line {path : Bytes} (h : validateTreeRelativePath path = .ok ()) :
    path ≠ [] ∧ ∀ c ∈ path, isControlCharacter c = false := by
  simp only [validateTreeRelativePath, bind_eq_ok, require_eq_ok, List.all_eq_true] at h
  obtain ⟨-, hne, -, -, -, -, -, hcontrol, -⟩ := h
  exact ⟨hne, fun c hc => by simpa using hcontrol c hc⟩

theorem joinRemotePath_line {root path option : Bytes}
    (hroot : validateRemoteDirArgument root option = .ok ())
    (hpath : validateTreeRelativePath path = .ok ()) :
    joinRemotePath root path ≠ [] ∧
      ∀ c ∈ joinRemotePath root path, isControlCharacter c = false := by
  obtain ⟨hne, hcontrol⟩ := validateTreeRelativePath_line hpath
  rw [joinRemotePath]
  rw [validateRemoteDirArgument] at hroot
  split
  · exact ⟨hne, hcontrol⟩
  · rename_i hslash
    split
    · exact ⟨hne, hcontrol⟩
    · rename_i hempty
      rw [if_neg hempty, if_neg hslash] at hroot
      obtain ⟨-, hroot'⟩ := validateTreeRelativePath_line hroot
      refine ⟨by simp [hempty], fun c hc => ?_⟩
      rcases List.mem_append.mp hc with hc | hc
      · rcases List.mem_append.mp hc with hc | hc
        · exact hroot' c hc
        · rw [List.mem_singleton.mp hc]
          rfl
      · exact hcontrol c hc

section Line

variable {verb : TreeVerb} {path : Bytes}

theorem TreeVerb.isVerbCharacter_of_mem {c : UInt8} (h : c ∈ verb.text) :
    isVerbCharacter c = true := by
  have hall : ∀ c ∈ verb.text, isVerbCharacter c = true := by
    cases verb <;> decide +kernel
  exact hall c h

/-- The command of a line whose path is not padded. -/
theorem splitCommand_line (h : Unpadded path) :
    splitCommand (verb.text ++ ascii " " ++ path) =
      { type := verb.type, verb := verb.text, argument := path } := by
  have hblank : ascii " " ++ path = 32 :: path := rfl
  have htake : (verb.text ++ ascii " " ++ path).takeWhile isVerbCharacter = verb.text := by
    rw [List.append_assoc, List.takeWhile_append_of_pos
      fun c hc => TreeVerb.isVerbCharacter_of_mem hc, hblank]
    exact List.append_nil _
  have hdrop : (verb.text ++ ascii " " ++ path).dropWhile isVerbCharacter = 32 :: path := by
    rw [List.append_assoc, List.dropWhile_append_of_pos
      fun c hc => TreeVerb.isVerbCharacter_of_mem hc, hblank]
    rfl
  have htrim : trim (32 :: path) = path := by
    rw [trim, List.dropWhile_cons_of_pos (by decide)]
    exact trim_eq_self h
  rw [splitCommand, htake, hdrop, htrim]
  cases verb <;> rfl

/-- The last character of a path that is not empty. -/
theorem getLast?_line (hne : path ≠ []) :
    (verb.text ++ ascii " " ++ path).getLast? = path.getLast? := by
  rw [List.getLast?_append, List.getLast?_eq_some_getLast hne]
  rfl

theorem unpadded_line (hne : path ≠ []) (h : Unpadded path) :
    Unpadded (verb.text ++ ascii " " ++ path) := by
  constructor
  · intro c hc
    have hhead : verb.text.head?.any isSpace = false := by
      cases verb <;> decide +kernel
    have hverb : verb.text ≠ [] := by cases verb <;> decide +kernel
    rw [List.append_assoc, List.head?_append_of_ne_nil _ hverb] at hc
    rw [hc] at hhead
    exact hhead
  · intro c hc
    rw [getLast?_line hne] at hc
    exact h.last c hc

/-- **The parser on the client's line.** -/
theorem parseControlCommand_line (hne : path ≠ []) (h : Unpadded path) :
    parseControlCommand (verb.text ++ ascii " " ++ path) =
      .ok { type := verb.type, verb := verb.text, argument := path } := by
  have hline : verb.text ++ ascii " " ++ path ≠ [] := by
    intro hnil
    exact hne (List.append_eq_nil_iff.mp hnil).2
  have hopts : verb.type ≠ .opts := by cases verb <;> decide
  have hrest : verb.type ≠ .rest := by cases verb <;> decide
  rw [parseControlCommand, trim_eq_self (unpadded_line hne h), if_neg hline]
  dsimp only
  rw [splitCommand_line h, if_neg hopts, if_neg hrest]

/-- The line end comes off, and nothing else. -/
theorem stripLineEnd_commandText (hne : path ≠ [])
    (hcontrol : ∀ c ∈ path, isControlCharacter c = false) :
    ControlServer.stripLineEnd (commandText verb path) = verb.text ++ ascii " " ++ path := by
  rw [ControlServer.stripLineEnd, commandText,
    show ([carriageReturn, newline] : Bytes) = [carriageReturn] ++ [newline] from rfl,
    ← List.append_assoc, List.rdropWhile_concat_pos _ _ _ (by decide),
    List.rdropWhile_concat_pos _ _ _ (by decide), List.rdropWhile_eq_self_iff]
  intro hline hend
  have hlast : (verb.text ++ ascii " " ++ path).getLast hline ∈ path := by
    have heq := @getLast?_line verb path hne
    rw [List.getLast?_eq_some_getLast hline, List.getLast?_eq_some_getLast hne] at heq
    rw [Option.some.inj heq]
    exact List.getLast_mem hne
  have hcontrol' := hcontrol _ hlast
  rcases Bool.or_eq_true_iff.mp hend with heq | heq
  · rw [of_decide_eq_true heq] at hcontrol'
    cases hcontrol'
  · rw [of_decide_eq_true heq] at hcontrol'
    cases hcontrol'

end Line

/-- **`readLine` on the client's line**, however it is cut up. -/
theorem readLine_commandText {verb : TreeVerb} {path : Bytes} (hne : path ≠ [])
    (hcontrol : ∀ c ∈ path, isControlCharacter c = false) {received : List Bytes}
    (hreceived : received.flatten = commandText verb path) :
    ControlServer.readLine [] received =
      if (commandText verb path).length ≤ ControlServer.kMaxControlLine then
        .ok (verb.text ++ ascii " " ++ path, [])
      else .error (.invalidArgument (ascii "control line exceeds 8192 bytes")) := by
  have hbody : commandText verb path =
      (verb.text ++ ascii " " ++ path ++ [carriageReturn]) ++ [newline] := by
    rw [commandText, List.append_assoc _ _ [newline]]
    rfl
  have hplain : newline ∉ verb.text ++ ascii " " ++ path ++ [carriageReturn] := by
    intro hmem
    rcases List.mem_append.mp hmem with hmem | hmem
    · rcases List.mem_append.mp hmem with hmem | hmem
      · revert hmem
        cases verb <;> decide +kernel
      · have hfalse := hcontrol _ hmem
        cases hfalse
    · exact absurd hmem (by decide)
  rw [ControlServer.readLine_line hplain (by rw [List.nil_append, hreceived, hbody]) (by simp),
    ← hbody, stripLineEnd_commandText hne hcontrol]

/-- The server reads this command with this very path. -/
def Arrives (verb : TreeVerb) (path : Bytes) (received : List Bytes) : Prop :=
  ∃ line command, ControlServer.readLine [] received = .ok (line, []) ∧
    parseControlCommand line = .ok command ∧ command.type = verb.type ∧
    command.verb = verb.text ∧ command.argument = path

/-- **When a path arrives.**  For every root the tree options accept, every
relative path the validation accepts and every way the line is cut up: the
server reads the verb and exactly that path if and only if the path neither
begins nor ends with a blank and the line has at most 8192 bytes. -/
theorem command_arrives_iff {root option path : Bytes}
    (hroot : validateRemoteDirArgument root option = .ok ())
    (hpath : validateTreeRelativePath path = .ok ()) {verb : TreeVerb} {received : List Bytes}
    (hreceived : received.flatten = commandText verb (joinRemotePath root path)) :
    Arrives verb (joinRemotePath root path) received ↔
      Unpadded (joinRemotePath root path) ∧
        (commandText verb (joinRemotePath root path)).length ≤ ControlServer.kMaxControlLine := by
  obtain ⟨hne, hcontrol⟩ := joinRemotePath_line hroot hpath
  generalize joinRemotePath root path = joined at hne hcontrol hreceived ⊢
  have hread := readLine_commandText hne hcontrol hreceived
  constructor
  · rintro ⟨line, command, hline, hparse, htype, -, rfl⟩
    rw [hread] at hline
    split at hline
    · rename_i hshort
      refine ⟨?_, hshort⟩
      rcases parseControlCommand_ok hparse with ⟨-, rfl⟩ | ⟨-, -, hargument⟩
      · cases verb <;> cases htype
      · -- whatever the argument is, it has been trimmed
        rw [hargument]
        exact unpadded_trim _
    · cases hline
  · rintro ⟨hunpadded, hshort⟩
    rw [if_pos hshort] at hread
    exact ⟨_, _, hread, parseControlCommand_line hne hunpadded, rfl, rfl, rfl⟩

theorem command_arrives_nested :
    Arrives .stor (ascii "data set/a b.bin")
      [ascii "STOR data s", [], ascii "et/a b.bin\r", ascii "\n"] :=
  (@command_arrives_iff (ascii "data set") (ascii "--dest-dir") (ascii "a b.bin")
    (by decide +kernel) (by decide +kernel) .stor _ (by decide +kernel)).mpr (by decide +kernel)

/-- **A name that ends in a blank does not arrive**: the server reads the name
without it. -/
theorem command_arrives_padded :
    validateRemoteDirArgument (ascii "d") (ascii "--dest-dir") = .ok () ∧
      validateTreeRelativePath (ascii "a ") = .ok () ∧
      joinRemotePath (ascii "d") (ascii "a ") = ascii "d/a " ∧
      ¬Arrives .stor (ascii "d/a ") [commandText .stor (ascii "d/a ")] := by
  refine ⟨by decide +kernel, by decide +kernel, by decide +kernel, ?_⟩
  rintro ⟨line, command, hline, hparse, -, -, hargument⟩
  have hread : ControlServer.readLine [] [commandText .stor (ascii "d/a ")] =
      .ok (ascii "STOR d/a ", []) := by decide +kernel
  rw [hread] at hline
  obtain ⟨rfl, -⟩ := Prod.mk.inj (Except.ok.inj hline)
  have hserver : parseControlCommand (ascii "STOR d/a ") =
      .ok { type := .stor, verb := ascii "STOR", argument := ascii "d/a" } := by decide +kernel
  rw [hserver] at hparse
  obtain rfl := Except.ok.inj hparse
  exact absurd hargument (by decide +kernel)

end GridFlux
