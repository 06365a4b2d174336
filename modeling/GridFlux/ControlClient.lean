/-
GridFlux/ControlClient.lean

`ControlClient` of `tree_transfer_client.cpp`: EPSV, NLST, SIZE and MDTM as the
tree download sends them, with the server's loop at the other end of the line.

Client and server take turns: a command is sent, served to its end, and its
replies are read.  The server closes the connection on a line that it cannot
read; from then on every command fails.
-/
import GridFlux.ControlConnection
import GridFlux.ControlLine

namespace GridFlux

open TextCodec

structure ControlReply where
  code : Nat
  lines : List Bytes
deriving DecidableEq, Repr

namespace ControlClient

/-! ### Replies -/

def replyCode (line : Bytes) : Nat :=
  if 3 ≤ line.length ∧ (line.take 3).all isDigit then decimalValue (line.take 3) else 0

/-- `readReply`, with the lines it leaves. -/
def readReply : List Bytes → Except Status (ControlReply × List Bytes)
  | [] => .error (.runtimeError (ascii "control connection closed"))
  | first :: lines =>
      if first[3]? = some dash then
        let expected := first.take 3 ++ ascii " "
        let inner := lines.takeWhile fun line => !(expected.isPrefixOf line)
        match lines.drop inner.length with
        | [] => .error (.runtimeError (ascii "control connection closed"))
        | last :: rest => .ok (⟨replyCode first, first :: inner ++ [last]⟩, rest)
      else .ok (⟨replyCode first, [first]⟩, lines)

def joined (reply : ControlReply) : Bytes := reply.lines.flatMap (· ++ [newline])

/-- The text after the first blank. -/
def replyValue (line : Bytes) : Option Bytes := (splitFirst 32 line).map Prod.snd

/-- The digits of `(|||port|)` at the beginning of a text. -/
def matchPort (text : Bytes) : Option Bytes :=
  if (ascii "(|||").isPrefixOf text then
    let digits := (text.drop 4).takeWhile isDigit
    if digits ≠ [] ∧ (ascii "|)").isPrefixOf (text.drop (4 + digits.length)) then some digits
    else none
  else none

/-- `regex_search` for it. -/
def searchPort : Bytes → Option Bytes
  | [] => none
  | c :: text =>
      match matchPort (c :: text) with
      | some digits => some digits
      | none => searchPort text

/-- `std::stoull`; where it throws, the enumeration ends as well. -/
def stoull (text : Bytes) : Except Status Nat :=
  let digits := text.takeWhile isDigit
  if digits ≠ [] ∧ decimalValue digits < 2 ^ 64 then .ok (decimalValue digits)
  else .error (.runtimeError (ascii "stoull"))

/-- What `size` makes of its reply. -/
def readSize (reply : ControlReply) : Except Status Nat :=
  if reply.code ≠ 213 then .error (.runtimeError (ascii "SIZE rejected"))
  else
    match reply.lines.head? with
    | none => .error (.runtimeError (ascii "SIZE rejected"))
    | some line =>
        match replyValue line with
        | none => .error (.runtimeError (ascii "SIZE response missing value"))
        | some value => stoull value

/-- The fourteen digits of a time. -/
def readTimestamp (text : Bytes) : Except Status Int :=
  if text.all isDigit = false then
    .error (.runtimeError (ascii "MDTM response has invalid timestamp"))
  else
    let field (start length : Nat) : Int := decimalValue ((text.drop start).take length)
    let value := timegm ⟨field 0 4, field 4 2, field 6 2, field 8 2, field 10 2, field 12 2⟩
    if value < 0 then .error (.runtimeError (ascii "MDTM timestamp is out of range"))
    else .ok value

/-- What `mdtm` makes of its reply. -/
def readMdtm (reply : ControlReply) : Except Status Int :=
  if reply.code ≠ 213 then .error (.runtimeError (ascii "MDTM rejected"))
  else
    match reply.lines.head? with
    | none => .error (.runtimeError (ascii "MDTM rejected"))
    | some line =>
        match replyValue line with
        | none => .error (.runtimeError (ascii "MDTM response missing timestamp"))
        | some value =>
            if value.length < 14 then
              .error (.runtimeError (ascii "MDTM response missing timestamp"))
            else readTimestamp (value.take 14)

/-- What `epsv` makes of its reply. -/
def readPort (reply : ControlReply) : Except Status Nat :=
  if reply.code ≠ 229 then .error (.runtimeError (ascii "EPSV rejected"))
  else
    match searchPort (joined reply) with
    | none => .error (.runtimeError (ascii "failed to parse EPSV port"))
    | some digits =>
        if decimalValue digits = 0 ∨ decimalValue digits > 65535 then
          .error (.runtimeError (ascii "EPSV port out of range"))
        else .ok (decimalValue digits)

/-- The names in an NLST payload. -/
def readNames (payload : Bytes) : List Bytes :=
  ((pieces newline payload).map stripCarriageReturn).filter (· ≠ [])

/-! ### Replies read back -/

section ReadBack

variable {code : Nat} (text : Bytes)

/-- A reply of one line, its code a number of three digits. -/
theorem readReply_formatReply (hcode : (decimal code).length = 3) (lines : List Bytes) :
    readReply (formatReply code text :: lines) = .ok (⟨code, [formatReply code text]⟩, lines) := by
  have htake : (formatReply code text).take 3 = decimal code := by
    rw [formatReply, ← hcode, List.take_left']
    rfl
  have hfourth : (formatReply code text)[3]? = some 32 := by
    rw [formatReply, ← hcode, List.getElem?_append_right (Nat.le_refl _), Nat.sub_self]
    rfl
  have hlength : 3 ≤ (formatReply code text).length := by
    rw [formatReply, List.length_append, hcode]
    exact Nat.le_add_right 3 _
  have hdigits : (decimal code).all isDigit = true :=
    List.all_eq_true.mpr fun _ hb => isDigit_of_mem_decimal hb
  rw [readReply, hfourth, if_neg (by decide), replyCode, htake, if_pos ⟨hlength, hdigits⟩,
    decimalValue_decimal]

theorem replyValue_formatReply : replyValue (formatReply code text) = some text := by
  have hblank : (32 : UInt8) ∉ decimal code := fun hmem => by
    have hdigit := isDigit_of_mem_decimal hmem
    cases hdigit
  rw [replyValue, formatReply, splitFirst_append 32 hblank]
  rfl

/-- A number is read to its end. -/
theorem takeWhile_decimal (n : Nat) {c : UInt8} (hc : isDigit c = false) :
    (decimal n ++ c :: text).takeWhile isDigit = decimal n := by
  rw [List.takeWhile_append_of_pos fun _ hb => isDigit_of_mem_decimal hb,
    List.takeWhile_cons_of_neg (by rw [hc]; exact Bool.false_ne_true), List.append_nil]

theorem readSize_formatReply {size : Nat} (hsize : size < 2 ^ 64) :
    readSize ⟨213, [formatReply 213 (decimal size)]⟩ = .ok size := by
  have hdigits : (decimal size).takeWhile isDigit = decimal size :=
    List.takeWhile_eq_self_iff.mpr fun _ hb => isDigit_of_mem_decimal hb
  rw [readSize, if_neg fun h => h rfl]
  dsimp only [List.head?_cons]
  rw [replyValue_formatReply]
  dsimp only
  rw [stoull, hdigits, decimalValue_decimal, if_pos ⟨decimal_ne_nil size, hsize⟩]

end ReadBack

/-- The search passes over a text without a parenthesis. -/
theorem searchPort_append {front : Bytes} (h : (40 : UInt8) ∉ front) (text : Bytes) :
    searchPort (front ++ text) = searchPort text := by
  induction front with
  | nil => rfl
  | cons c front ih =>
      rw [List.mem_cons, not_or] at h
      have hprefix : ¬(ascii "(|||").isPrefixOf (c :: (front ++ text)) = true := by
        intro hprefix
        have hcons := List.isPrefixOf_iff_prefix.mp hprefix
        exact h.1 (List.cons_prefix_cons.mp hcons).1
      rw [List.cons_append, searchPort, matchPort, if_neg hprefix]
      exact ih h.2

theorem searchPort_of_matchPort {text digits : Bytes} (h : matchPort text = some digits) :
    searchPort text = some digits := by
  cases text with
  | nil => cases h
  | cons c text => rw [searchPort, h]

theorem readPort_epsvReply {port : Nat} (hport : port ≠ 0 ∧ port ≤ 65535) :
    readPort ⟨229, [Circumstances.epsvReply port]⟩ = .ok port := by
  have htext : joined ⟨229, [Circumstances.epsvReply port]⟩ =
      ascii "229 Entering Extended Passive Mode " ++
        (ascii "(|||" ++ (decimal port ++ 124 :: [41, newline])) := by
    have hcode : decimal 229 = ascii "229" := by decide +kernel
    rw [joined, List.flatMap_singleton, Circumstances.epsvReply, formatReply, hcode]
    simp [ascii]
  have hmatch : matchPort (ascii "(|||" ++ (decimal port ++ 124 :: [41, newline])) =
      some (decimal port) := by
    have hprefix : (ascii "(|||").isPrefixOf
        (ascii "(|||" ++ (decimal port ++ 124 :: [41, newline])) = true :=
      List.isPrefixOf_iff_prefix.mpr (List.prefix_append _ _)
    have hdrop : (ascii "(|||" ++ (decimal port ++ 124 :: [41, newline])).drop 4 =
        decimal port ++ 124 :: [41, newline] := rfl
    have hend : (ascii "(|||" ++ (decimal port ++ 124 :: [41, newline])).drop
        (4 + (decimal port).length) = 124 :: [41, newline] := by
      rw [← List.drop_drop, hdrop, List.drop_left]
    rw [matchPort, if_pos hprefix, hdrop, takeWhile_decimal _ port (by decide)]
    dsimp only
    rw [hend]
    exact if_pos ⟨decimal_ne_nil port, by decide +kernel⟩
  have hrange : ¬(port = 0 ∨ port > 65535) := by
    rintro (hzero | hlarge)
    · exact hport.1 hzero
    · exact Nat.not_lt.mpr hport.2 hlarge
  rw [readPort, if_neg fun h => h rfl, htext, searchPort_append (by decide +kernel),
    searchPort_of_matchPort hmatch]
  dsimp only
  rw [decimalValue_decimal, if_neg hrange]

theorem stripCarriageReturn_append (text : Bytes) :
    stripCarriageReturn (text ++ [carriageReturn]) = text := by
  rw [stripCarriageReturn, if_pos (List.getLast?_concat), List.dropLast_concat]

/-- A listing of names without line ends reads back. -/
theorem readNames_formatNlst {entries : List ControlListEntry}
    (h : ∀ entry ∈ entries, entry.name ≠ [] ∧ newline ∉ entry.name) :
    readNames (formatNlst entries) = entries.map ControlListEntry.name := by
  have hlines : formatNlst entries =
      lines newline (entries.map fun entry => entry.name ++ [carriageReturn]) := by
    rw [formatNlst, lines, List.map_map, List.flatMap_def]
    simp [Function.comp_def]
  have hplain : ∀ line ∈ entries.map fun entry => entry.name ++ [carriageReturn],
      newline ∉ line := by
    intro line hline hmem
    obtain ⟨entry, hentry, rfl⟩ := List.mem_map.mp hline
    rcases List.mem_append.mp hmem with hmem | hmem
    · exact (h entry hentry).2 hmem
    · exact absurd hmem (by decide)
  rw [readNames, hlines, pieces_lines newline hplain, List.map_map]
  have hnames : stripCarriageReturn ∘ (fun entry : ControlListEntry =>
      entry.name ++ [carriageReturn]) = ControlListEntry.name := by
    funext entry
    exact stripCarriageReturn_append entry.name
  rw [hnames, List.filter_eq_self]
  intro name hname
  obtain ⟨entry, hentry, rfl⟩ := List.mem_map.mp hname
  exact decide_eq_true (h entry hentry).1

/-! ### Commands -/

/-- The two replies of NLST and the payload between them. -/
def readListing (lines listings : List Bytes) : Except Status (List Bytes) := do
  let (opening, lines) ← readReply lines
  require (opening.code = 150) (.runtimeError (ascii "NLST rejected"))
  match listings with
  | [] => .error (.runtimeError (ascii "connect data"))
  | payload :: _ =>
      let (complete, _) ← readReply lines
      require (complete.code = 226) (.runtimeError (ascii "NLST did not complete"))
      return readNames payload

/-- A listing that came through. -/
theorem readListing_ok (opening complete payload : Bytes) :
    readListing [formatReply 150 opening, formatReply 226 complete] [payload] =
      .ok (readNames payload) := by
  have hopening := readReply_formatReply opening (show (decimal 150).length = 3 by decide +kernel)
    [formatReply 226 complete]
  have hcomplete := readReply_formatReply complete
    (show (decimal 226).length = 3 by decide +kernel) []
  rw [readListing, hopening, ok_bind]
  dsimp only
  rw [require_pos rfl, ok_bind, hcomplete, ok_bind]
  dsimp only
  rw [require_pos rfl, ok_bind]
  rfl

section Commands

variable (options : ControlServerOptions) (env : Circumstances)

/-- A command as it is sent and served: its replies, the listings that went out
with it, and the connection, `none` once the server has closed it. -/
def exchange (link : Option ControlConnection) (text : Bytes) :
    (List Bytes × List Bytes) × Option ControlConnection :=
  match link with
  | none => (([], []), none)
  | some c =>
      match ControlServer.readLine [] [text ++ [carriageReturn, newline]] with
      | .error _ => (([], []), none)
      | .ok (line, _) =>
          match c.serve options env line with
          | none => (([], []), none)
          | some c' =>
              ((c'.sent.drop c.sent.length, c'.listed.drop c.listed.length), some c')

def command (link : Option ControlConnection) (text : Bytes) :
    Except Status ControlReply × Option ControlConnection :=
  ((readReply (exchange options env link text).1.1).map Prod.fst,
    (exchange options env link text).2)

def epsv (link : Option ControlConnection) : Except Status Nat × Option ControlConnection :=
  let (reply, link) := command options env link (ascii "EPSV")
  (reply.bind readPort, link)

def size (link : Option ControlConnection) (path : Bytes) :
    Except Status Nat × Option ControlConnection :=
  let (reply, link) := command options env link (TreeVerb.size.text ++ ascii " " ++ path)
  (reply.bind readSize, link)

def mdtm (link : Option ControlConnection) (path : Bytes) :
    Except Status Int × Option ControlConnection :=
  let (reply, link) := command options env link (TreeVerb.mdtm.text ++ ascii " " ++ path)
  (reply.bind readMdtm, link)

def nlst (link : Option ControlConnection) (path : Bytes) :
    Except Status (List Bytes) × Option ControlConnection :=
  match epsv options env link with
  | (.error e, link) => (.error e, link)
  | (.ok _, link) =>
      let ((lines, listings), link) :=
        exchange options env link (TreeVerb.nlst.text ++ ascii " " ++ path)
      (readListing lines listings, link)

end Commands

end ControlClient

end GridFlux
