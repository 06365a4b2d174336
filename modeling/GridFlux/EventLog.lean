/-
GridFlux/EventLog.lean

`writeEventLog` of `event_log.cpp`, and both copies of `jsonEscape`.

The copy of the tree client writes to one stream for the whole text; its base,
width and fill outlive a character unless they are put back.  Both copies write
what `JsonText.escape` does (`jsonEscape_eq`, `TreeClient.jsonEscape_eq`), and an
event is an object on one line that reads back (`eventLine_eq`).
-/
import GridFlux.JsonText
import GridFlux.MdtmTime
import GridFlux.Redaction

namespace GridFlux

open TextCodec JsonText

/-! ### Streams -/

/-- `std::ostringstream` with the format state that the source touches. -/
structure TextStream where
  text : Bytes := []
  hex : Bool := false
  width : Nat := 0
  fill : UInt8 := 32
deriving DecidableEq, Repr

namespace TextStream

/-- `<<` of a character or a string: padded on the left, and the width is gone. -/
def put (output : TextStream) (text : Bytes) : TextStream :=
  { output with
    text := output.text ++ (List.replicate (output.width - text.length) output.fill ++ text)
    width := 0 }

/-- `<<` of an `int` that is not negative. -/
def putInt (output : TextStream) (value : Nat) : TextStream :=
  output.put ((Nat.toDigits (if output.hex then 16 else 10) value).map charByte)

/-- `std::hex`, `std::setw(4)` and `std::setfill('0')`. -/
def fourHexDigits (output : TextStream) : TextStream :=
  { output with hex := true, width := 4, fill := 48 }

end TextStream

/-! ### `jsonEscape` -/

/-- What `event_log.cpp` appends for a character. -/
def escapeCharacter (character : UInt8) : Bytes :=
  if character = 34 then ascii "\\\""
  else if character = 92 then ascii "\\\\"
  else if character = 8 then ascii "\\b"
  else if character = 12 then ascii "\\f"
  else if character = 10 then ascii "\\n"
  else if character = 13 then ascii "\\r"
  else if character = 9 then ascii "\\t"
  else if character < 32 then
    ((({} : TextStream).put (ascii "\\u")).fourHexDigits.putInt character.toNat).text
  else [character]

def jsonEscape (value : Bytes) : Bytes :=
  value.foldl (fun output character => output ++ escapeCharacter character) []

/-- What the tree client writes for a character. -/
def TreeClient.putCharacter (output : TextStream) (ch : UInt8) : TextStream :=
  if ch = 34 then output.put (ascii "\\\"")
  else if ch = 92 then output.put (ascii "\\\\")
  else if ch = 8 then output.put (ascii "\\b")
  else if ch = 12 then output.put (ascii "\\f")
  else if ch = 10 then output.put (ascii "\\n")
  else if ch = 13 then output.put (ascii "\\r")
  else if ch = 9 then output.put (ascii "\\t")
  else if ch < 32 then
    { (output.put (ascii "\\u")).fourHexDigits.putInt ch.toNat with hex := false }
  else output.put [ch]

def TreeClient.jsonEscape (value : Bytes) : Bytes :=
  (value.foldl TreeClient.putCharacter {}).text

/-! ### Events -/

inductive ErrorCode
  | ok
  | authRequired
  | authFailed
  | tlsRequired
  | tlsFailed
  | dataTlsRequired
  | dataTlsFailed
  | pathRejected
  | manifestCorrupt
  | checksumMismatch
  | changedFile
  | remoteSyncFailed
  | ioError
  | protocolError
  | configError
  | unknownError
deriving DecidableEq, Repr

def errorCodeName : ErrorCode → Bytes
  | .ok => ascii "ok"
  | .authRequired => ascii "auth_required"
  | .authFailed => ascii "auth_failed"
  | .tlsRequired => ascii "tls_required"
  | .tlsFailed => ascii "tls_failed"
  | .dataTlsRequired => ascii "data_tls_required"
  | .dataTlsFailed => ascii "data_tls_failed"
  | .pathRejected => ascii "path_rejected"
  | .manifestCorrupt => ascii "manifest_corrupt"
  | .checksumMismatch => ascii "checksum_mismatch"
  | .changedFile => ascii "changed_file"
  | .remoteSyncFailed => ascii "remote_sync_failed"
  | .ioError => ascii "io_error"
  | .protocolError => ascii "protocol_error"
  | .configError => ascii "config_error"
  | .unknownError => ascii "unknown_error"

/-- `elapsedSeconds` is kept as the text that `<<` writes for the `double`. -/
structure EventRecord where
  component : Bytes
  event : Bytes
  transferId : Bytes
  direction : Bytes
  path : Bytes
  result : Bytes
  errorCode : ErrorCode := .ok
  message : Bytes
  elapsedSeconds : NumberText
  bytes : Nat
  attributes : List (Bytes × Bytes) := []

/-- `timestampUtc`, for a clock that shows this second. -/
def timestampUtc (now : Int) : Bytes :=
  let utc := gmtime now
  signedDecimal utc.year ++ ascii "-" ++ twoDigits utc.month ++ ascii "-" ++ twoDigits utc.day ++
    ascii "T" ++ twoDigits utc.hour ++ ascii ":" ++ twoDigits utc.minute ++ ascii ":" ++
    twoDigits utc.second ++ ascii "Z"

/-- `"name":"text",` -/
def eventField (name : String) (text : Bytes) : Bytes :=
  ascii "\"" ++ ascii name ++ ascii "\":\"" ++ text ++ ascii "\","

/-- The loop over the attributes. -/
def attributesText : Bool → List (Bytes × Bytes) → Bytes
  | _, [] => []
  | first, (key, value) :: attributes =>
      (if first then [] else ascii ",") ++ (ascii "\"" ++ jsonEscape key ++ ascii "\":\"" ++
        jsonEscape value ++ ascii "\"") ++ attributesText false attributes

/-- What `writeEventLog` puts out. -/
def eventLine (now : Int) (record : EventRecord) : Bytes :=
  ascii "\x7b" ++ eventField "timestamp" (timestampUtc now) ++
    eventField "component" (jsonEscape record.component) ++
    eventField "event" (jsonEscape record.event) ++
    eventField "transfer_id" (jsonEscape record.transferId) ++
    eventField "direction" (jsonEscape record.direction) ++
    eventField "path" (jsonEscape record.path) ++
    eventField "result" (jsonEscape record.result) ++
    eventField "error_code" (errorCodeName record.errorCode) ++
    eventField "message" (jsonEscape (sanitizeMessage record.message)) ++
    ascii "\"elapsed_seconds\":" ++ record.elapsedSeconds.val ++ ascii "," ++
    ascii "\"bytes\":" ++ decimal record.bytes ++
    (if record.attributes = [] then []
      else ascii ",\"attributes\":\x7b" ++ attributesText true record.attributes ++ ascii "\x7d") ++
    ascii "\x7d\n"

/-- `writeEventLog`: whether the file opens, and, if the output fails, how many
bytes of it are in the file. -/
def writeEventLog (path : Bytes) (opens : Bool) (cut : Option Nat) (now : Int)
    (record : EventRecord) (file : Bytes) : Except Status Unit × Bytes :=
  if path = [] then (.ok (), file)
  else if opens = false then
    (.error (.runtimeError (ascii "event log cannot be opened: " ++ path)), file)
  else
    match cut with
    | some length =>
        (.error (.runtimeError (ascii "event log write failed: " ++ path)),
          file ++ (eventLine now record).take length)
    | none => (.ok (), file ++ eventLine now record)

/-! ### Both copies write the JSON escapes -/

/-- A control character's number, padded to four digits. -/
theorem fourHexDigits_eq {n : Nat} (h : n < 32) :
    List.replicate (4 - ((Nat.toDigits 16 n).map charByte).length) 48 ++
      (Nat.toDigits 16 n).map charByte = hexDigits 4 n := by
  interval_cases n <;> rfl

theorem escapeCharacter_eq (character : UInt8) :
    escapeCharacter character = escapeByte character := by
  rw [escapeCharacter, escapeByte]
  have hcontrol : character < 32 →
      ((({} : TextStream).put (ascii "\\u")).fourHexDigits.putInt character.toNat).text =
        92 :: 117 :: hexDigits 4 character.toNat := by
    intro hlt
    have hdigits := @fourHexDigits_eq character.toNat hlt
    rw [← hdigits]
    rfl
  by_cases hlt : character < 32
  · rw [if_pos hlt, if_pos hlt, hcontrol hlt]
    rfl
  · rw [if_neg hlt, if_neg hlt]
    rfl

theorem foldl_append_eq (value : Bytes) (output : Bytes) :
    value.foldl (fun output character => output ++ escapeCharacter character) output =
      output ++ escape value := by
  induction value generalizing output with
  | nil => exact (List.append_nil output).symm
  | cons character value ih =>
      have hcons : escape (character :: value) = escapeByte character ++ escape value :=
        List.flatMap_cons
      rw [List.foldl_cons, ih, hcons, escapeCharacter_eq, List.append_assoc]

theorem jsonEscape_eq (value : Bytes) : jsonEscape value = escape value :=
  foldl_append_eq value []

namespace TreeClient

/-- Nothing of a character's format is left behind. -/
structure Plain (output : TextStream) : Prop where
  decimalBase : output.hex = false
  noWidth : output.width = 0

theorem put_plain {output : TextStream} (h : Plain output) (text : Bytes) :
    (output.put text).text = output.text ++ text ∧ Plain (output.put text) := by
  refine ⟨?_, h.decimalBase, rfl⟩
  rw [TextStream.put, h.noWidth, Nat.zero_sub]
  rfl

/-- **One character** adds its escape and leaves the stream plain. -/
theorem putCharacter_eq {output : TextStream} (h : Plain output) (ch : UInt8) :
    (putCharacter output ch).text = output.text ++ escapeByte ch ∧
      Plain (putCharacter output ch) := by
  have hput := put_plain h
  rw [putCharacter, escapeByte]
  by_cases hquote : ch = 34
  · rw [if_pos hquote, if_pos hquote]
    exact hput _
  rw [if_neg hquote, if_neg hquote]
  by_cases hbackslash : ch = 92
  · rw [if_pos hbackslash, if_pos hbackslash]
    exact hput _
  rw [if_neg hbackslash, if_neg hbackslash]
  by_cases hletter : ch = 8
  · rw [if_pos hletter, if_pos hletter]
    exact hput _
  rw [if_neg hletter, if_neg hletter]
  by_cases hletter : ch = 12
  · rw [if_pos hletter, if_pos hletter]
    exact hput _
  rw [if_neg hletter, if_neg hletter]
  by_cases hletter : ch = 10
  · rw [if_pos hletter, if_pos hletter]
    exact hput _
  rw [if_neg hletter, if_neg hletter]
  by_cases hletter : ch = 13
  · rw [if_pos hletter, if_pos hletter]
    exact hput _
  rw [if_neg hletter, if_neg hletter]
  by_cases hletter : ch = 9
  · rw [if_pos hletter, if_pos hletter]
    exact hput _
  rw [if_neg hletter, if_neg hletter]
  by_cases hcontrol : ch < 32
  · -- base and width are set for the number, and put back
    rw [if_pos hcontrol, if_pos hcontrol]
    refine ⟨?_, rfl, rfl⟩
    have hstart := (hput (ascii "\\u")).1
    show (output.put (ascii "\\u")).text ++ (List.replicate _ 48 ++ _) = _
    rw [hstart, List.append_assoc]
    have hdigits := @fourHexDigits_eq ch.toNat hcontrol
    show output.text ++ (92 :: 117 :: (List.replicate
      (4 - ((Nat.toDigits 16 ch.toNat).map charByte).length) 48 ++
        (Nat.toDigits 16 ch.toNat).map charByte)) = _
    rw [hdigits]
  · rw [if_neg hcontrol, if_neg hcontrol]
    exact hput _

theorem foldl_putCharacter_eq (value : Bytes) {output : TextStream} (h : Plain output) :
    (value.foldl putCharacter output).text = output.text ++ escape value := by
  induction value generalizing output with
  | nil => exact (List.append_nil output.text).symm
  | cons ch value ih =>
      obtain ⟨htext, hplain⟩ := putCharacter_eq h ch
      have hcons : escape (ch :: value) = escapeByte ch ++ escape value := List.flatMap_cons
      rw [List.foldl_cons, ih hplain, htext, hcons, List.append_assoc]

theorem jsonEscape_eq (value : Bytes) : jsonEscape value = escape value :=
  foldl_putCharacter_eq value ⟨rfl, rfl⟩

end TreeClient

/-! ### An event is one object on one line -/

/-- Text that is written without escapes. -/
def PlainText (text : Bytes) : Prop := ∀ b ∈ text, 32 ≤ b ∧ b ≠ 34 ∧ b ≠ 92

theorem plainText_of_all {text : Bytes}
    (h : (text.all fun b => 32 ≤ b && b != 34 && b != 92) = true) : PlainText text := by
  intro b hb
  have hplain := List.all_eq_true.mp h b hb
  rw [Bool.and_eq_true, Bool.and_eq_true, decide_eq_true_eq, bne_iff_ne, bne_iff_ne] at hplain
  exact ⟨hplain.1.1, hplain.1.2, hplain.2⟩

theorem PlainText.append {text text' : Bytes} (h : PlainText text) (h' : PlainText text') :
    PlainText (text ++ text') := by
  intro b hb
  rcases List.mem_append.mp hb with hb | hb
  · exact h b hb
  · exact h' b hb

theorem PlainText.escape_eq {text : Bytes} (h : PlainText text) : escape text = text := by
  induction text with
  | nil => rfl
  | cons c text ih =>
      obtain ⟨hcontrol, hquote, hbackslash⟩ := h c List.mem_cons_self
      have hnot : ¬c < 32 := UInt8.not_lt.mpr hcontrol
      have hcons : escape (c :: text) = escapeByte c ++ escape text := List.flatMap_cons
      have hbyte := escapeByte_plain hquote hnot hbackslash
      rw [hcons, hbyte, ih fun b hb => h b (List.mem_cons_of_mem c hb)]
      rfl

theorem plainText_decimal (n : Nat) : PlainText (decimal n) := by
  intro b hb
  have hdigit := isDigit_of_mem_decimal hb
  simp only [isDigit, Bool.and_eq_true, decide_eq_true_eq, UInt8.le_iff_toNat_le] at hdigit
  have hlow : 48 ≤ b.toNat := hdigit.1
  have hhigh : b.toNat ≤ 57 := hdigit.2
  refine ⟨UInt8.le_iff_toNat_le.mpr ?_, ?_, ?_⟩
  · show 32 ≤ b.toNat
    omega
  · rintro rfl
    exact absurd hlow (by decide)
  · rintro rfl
    exact absurd hhigh (by decide)

theorem plainText_signedDecimal (value : Int) : PlainText (signedDecimal value) := by
  rw [signedDecimal]
  split
  · intro b hb
    rcases List.mem_cons.mp hb with rfl | hb
    · decide
    · exact plainText_decimal _ b hb
  · exact plainText_decimal _

theorem plainText_twoDigits {value : Int} (hlow : 0 ≤ value) (hhigh : value ≤ 99) :
    PlainText (twoDigits value) := by
  have hdigit : ∀ n ≤ 9, 32 ≤ UInt8.ofNat (48 + n) ∧ UInt8.ofNat (48 + n) ≠ 34 ∧
      UInt8.ofNat (48 + n) ≠ 92 := by decide
  intro b hb
  rcases List.mem_cons.mp hb with rfl | hb
  · exact hdigit _ (by omega)
  · rw [List.mem_singleton.mp hb]
    exact hdigit _ (by omega)

/-- The fields of any time that `gmtime_r` returns have two digits. -/
theorem gmtime_small (now : Int) :
    (0 ≤ (gmtime now).month ∧ (gmtime now).month ≤ 99) ∧
      (0 ≤ (gmtime now).day ∧ (gmtime now).day ≤ 99) ∧
      (0 ≤ (gmtime now).hour ∧ (gmtime now).hour ≤ 99) ∧
      (0 ≤ (gmtime now).minute ∧ (gmtime now).minute ≤ 99) ∧
      0 ≤ (gmtime now).second ∧ (gmtime now).second ≤ 99 := by
  by_cases h : Convertible now
  · obtain ⟨hmonth, hday, hhour, hminute, hsecond⟩ := gmtime_inRange h
    exact ⟨⟨by omega, by omega⟩, ⟨by omega, by omega⟩, ⟨by omega, by omega⟩, ⟨by omega, by omega⟩,
      by omega, by omega⟩
  · have hzeroed : gmtime now = ⟨1900, 1, 0, 0, 0, 0⟩ := by
      unfold gmtime
      exact if_neg h
    rw [hzeroed]
    decide

theorem plainText_timestampUtc (now : Int) : PlainText (timestampUtc now) := by
  obtain ⟨hmonth, hday, hhour, hminute, hsecond⟩ := gmtime_small now
  have hdash : PlainText (ascii "-") := plainText_of_all rfl
  have hcolon : PlainText (ascii ":") := plainText_of_all rfl
  have hT : PlainText (ascii "T") := plainText_of_all rfl
  have hZ : PlainText (ascii "Z") := plainText_of_all rfl
  rw [timestampUtc]
  refine PlainText.append ?_ hZ
  refine PlainText.append ?_ (plainText_twoDigits hsecond.1 hsecond.2)
  refine PlainText.append ?_ hcolon
  refine PlainText.append ?_ (plainText_twoDigits hminute.1 hminute.2)
  refine PlainText.append ?_ hcolon
  refine PlainText.append ?_ (plainText_twoDigits hhour.1 hhour.2)
  refine PlainText.append ?_ hT
  refine PlainText.append ?_ (plainText_twoDigits hday.1 hday.2)
  refine PlainText.append ?_ hdash
  refine PlainText.append ?_ (plainText_twoDigits hmonth.1 hmonth.2)
  exact (plainText_signedDecimal _).append hdash

theorem plainText_errorCodeName (code : ErrorCode) : PlainText (errorCodeName code) := by
  apply plainText_of_all
  cases code with
  | _ => rfl

/-- A number as `<<` writes it. -/
def decimalNumber (n : Nat) : NumberText := by
  refine ⟨decimal n, decimal_ne_nil n, List.all_eq_true.mpr fun b hb => ?_⟩
  rw [isNumberByte, isDigit_of_mem_decimal hb]
  rfl

/-- What an event says. -/
def eventMembers (now : Int) (record : EventRecord) : List (Bytes × Value) :=
  [(ascii "timestamp", .string (timestampUtc now)),
    (ascii "component", .string record.component),
    (ascii "event", .string record.event),
    (ascii "transfer_id", .string record.transferId),
    (ascii "direction", .string record.direction),
    (ascii "path", .string record.path),
    (ascii "result", .string record.result),
    (ascii "error_code", .string (errorCodeName record.errorCode)),
    (ascii "message", .string (sanitizeMessage record.message)),
    (ascii "elapsed_seconds", .number record.elapsedSeconds),
    (ascii "bytes", .number (decimalNumber record.bytes))] ++
    if record.attributes = [] then [] else [(ascii "attributes", .object record.attributes)]

theorem attributesText_eq (attributes : List (Bytes × Bytes)) :
    attributesText true attributes = join 44 (attributes.map (writeMember writeString)) := by
  have hmember : ∀ pair : Bytes × Bytes,
      ascii "\"" ++ jsonEscape pair.1 ++ ascii "\":\"" ++ jsonEscape pair.2 ++
        ascii "\"" = writeMember writeString pair := by
    intro pair
    have hquote : ascii "\"" = [quote] := rfl
    have hcolon : ascii "\":\"" = [quote, 58, quote] := rfl
    rw [writeMember, writeString, writeString, jsonEscape_eq, jsonEscape_eq, hquote, hcolon]
    simp
  have hrest : ∀ attributes : List (Bytes × Bytes), attributesText false attributes =
      (attributes.map fun pair => 44 :: writeMember writeString pair).flatten := by
    intro attributes
    induction attributes with
    | nil => rfl
    | cons pair attributes ih =>
        rw [attributesText, hmember, ih]
        rfl
  have hjoin : ∀ (pair : Bytes × Bytes) (attributes : List (Bytes × Bytes)),
      join 44 ((pair :: attributes).map (writeMember writeString)) =
        writeMember writeString pair ++
          (attributes.map fun pair => 44 :: writeMember writeString pair).flatten := by
    intro pair attributes
    induction attributes generalizing pair with
    | nil => exact (List.append_nil _).symm
    | cons next attributes ih =>
        rw [List.map_cons, List.map_cons, join, ← List.map_cons, ih next]
        rfl
  cases attributes with
  | nil => rfl
  | cons pair attributes =>
      rw [attributesText, hmember, hrest, hjoin]
      rfl

/-- A field is a member and a comma. -/
theorem eventField_eq {name : String} {text content : Bytes} (hname : PlainText (ascii name))
    (htext : text = escape content) :
    eventField name text = writeMember writeValue (ascii name, .string content) ++ [44] := by
  have hquote : ascii "\"" = [quote] := rfl
  have hcolon : ascii "\":\"" = [quote, 58, quote] := rfl
  have hcomma : ascii "\"," = [quote, 44] := rfl
  have hvalue : writeValue (.string content) = writeString content := rfl
  rw [eventField, hquote, hcolon, hcomma, htext, writeMember, hvalue, writeString, writeString,
    hname.escape_eq]
  simp

/-- **An event is an object** and the end of a line. -/
theorem eventLine_eq (now : Int) (record : EventRecord) :
    eventLine now record = writeMembers writeValue (eventMembers now record) ++ [newline] := by
  have hname : ∀ name ∈ ["timestamp", "component", "event", "transfer_id", "direction", "path",
      "result", "error_code", "message"], PlainText (ascii name) := by
    intro name hname
    have hall : (["timestamp", "component", "event", "transfer_id", "direction", "path", "result",
        "error_code", "message"].all fun name =>
          (ascii name).all fun b => 32 ≤ b && b != 34 && b != 92) = true := rfl
    exact plainText_of_all (List.all_eq_true.mp hall name hname)
  have htimestamp := eventField_eq (hname "timestamp" (by decide))
    (plainText_timestampUtc now).escape_eq.symm
  have hcode := eventField_eq (hname "error_code" (by decide))
    (plainText_errorCodeName record.errorCode).escape_eq.symm
  have hcomponent := eventField_eq (hname "component" (by decide)) (jsonEscape_eq record.component)
  have hevent := eventField_eq (hname "event" (by decide)) (jsonEscape_eq record.event)
  have htransfer := eventField_eq (hname "transfer_id" (by decide))
    (jsonEscape_eq record.transferId)
  have hdirection := eventField_eq (hname "direction" (by decide)) (jsonEscape_eq record.direction)
  have hpath := eventField_eq (hname "path" (by decide)) (jsonEscape_eq record.path)
  have hresult := eventField_eq (hname "result" (by decide)) (jsonEscape_eq record.result)
  have hmessage := eventField_eq (hname "message" (by decide))
    (jsonEscape_eq (sanitizeMessage record.message))
  have helapsed : ascii "\"elapsed_seconds\":" ++ record.elapsedSeconds.val =
      writeMember writeValue (ascii "elapsed_seconds", .number record.elapsedSeconds) := rfl
  have hbytes : ascii "\"bytes\":" ++ decimal record.bytes =
      writeMember writeValue (ascii "bytes", .number (decimalNumber record.bytes)) := rfl
  have hopen : ascii "\x7b" = [123] := rfl
  have hclose : ascii "\x7d\n" = [125, newline] := rfl
  have hcomma : ascii "," = [44] := rfl
  rw [eventLine, htimestamp, hcode, hcomponent, hevent, htransfer, hdirection, hpath, hresult,
    hmessage, hopen, hclose, hcomma]
  by_cases hattributes : record.attributes = []
  · rw [if_pos hattributes, eventMembers, if_pos hattributes]
    simp only [writeMembers, List.append_nil, List.map_cons, List.map_nil, join, ← helapsed, ← hbytes,
      List.append_assoc, List.cons_append, List.nil_append]
  · have hobject : ascii ",\"attributes\":\x7b" ++ attributesText true record.attributes ++
        ascii "\x7d" =
          44 :: writeMember writeValue (ascii "attributes", .object record.attributes) := by
      have hvalue : writeValue (.object record.attributes) =
          writeMembers writeString record.attributes := rfl
      rw [attributesText_eq, writeMember, hvalue, writeMembers]
      rfl
    rw [if_neg hattributes, eventMembers, if_neg hattributes, hobject]
    simp only [writeMembers, List.map_cons, List.map_nil, join, ← helapsed, ← hbytes,
      List.append_assoc, List.cons_append, List.nil_append]

/-- A text that `writeString` has written holds no control character. -/
theorem le_of_mem_writeString {text : Bytes} {b : UInt8} (h : b ∈ writeString text) : 32 ≤ b := by
  rw [writeString] at h
  rcases List.mem_cons.mp h with rfl | h
  · decide
  · rcases List.mem_append.mp h with h | h
    · exact le_of_mem_escape h
    · rw [List.mem_singleton.mp h]
      decide

theorem le_of_mem_writeMembers {β : Type} {write : β → Bytes} {members : List (Bytes × β)}
    (hwrite : ∀ member ∈ members, ∀ b ∈ write member.2, 32 ≤ b) {b : UInt8}
    (h : b ∈ writeMembers write members) : 32 ≤ b := by
  rw [writeMembers] at h
  rcases List.mem_cons.mp h with rfl | h
  · decide
  · rcases List.mem_append.mp h with h | h
    · rcases mem_join h with rfl | ⟨piece, hpiece, hb⟩
      · decide
      · obtain ⟨member, hmember, rfl⟩ := List.mem_map.mp hpiece
        rw [writeMember] at hb
        rcases List.mem_append.mp hb with hb | hb
        · exact le_of_mem_writeString hb
        · rcases List.mem_cons.mp hb with rfl | hb
          · decide
          · exact hwrite member hmember b hb
    · rw [List.mem_singleton.mp h]
      decide

theorem le_of_mem_writeValue {value : Value} {b : UInt8} (h : b ∈ writeValue value) : 32 ≤ b := by
  cases value with
  | string text => exact le_of_mem_writeString h
  | object members =>
      exact le_of_mem_writeMembers (fun member _ b hb => le_of_mem_writeString hb) h
  | number text =>
      have hnumber := List.all_eq_true.mp text.property.2 b h
      by_contra hlt
      have hsmall : b.toNat < 32 := Nat.not_le.mp fun hle => hlt (UInt8.le_iff_toNat_le.mpr hle)
      have hnone : ∀ n < 32, isNumberByte (UInt8.ofNat n) = false := by decide
      have hbyte := hnone b.toNat hsmall
      rw [UInt8.ofNat_toNat, hnumber] at hbyte
      cases hbyte

/-- **Escaping and events.**  An escaped text has no bare quote and no control
character and reads back, in both copies alike; an event that is written adds one
line to the log, from which all it says can be read. -/
theorem jsonEscape_lossless (text : Bytes) (now : Int) (record : EventRecord) :
    (hasBareQuote (jsonEscape text) = false ∧ (∀ b ∈ jsonEscape text, 32 ≤ b) ∧
        unescape (jsonEscape text) = some text ∧
        TreeClient.jsonEscape text = jsonEscape text) ∧
      ∃ line : Bytes, newline ∉ line ∧
        readMembers readValue line = some (eventMembers now record, []) ∧
        ∀ path file : Bytes, path ≠ [] →
          writeEventLog path true none now record file = (.ok (), file ++ (line ++ [newline])) := by
  constructor
  · rw [TreeClient.jsonEscape_eq, jsonEscape_eq]
    exact ⟨hasBareQuote_escape text, fun b hb => le_of_mem_escape hb, unescape_escape text, rfl⟩
  · refine ⟨writeMembers writeValue (eventMembers now record), ?_, ?_, ?_⟩
    · intro hmem
      have hle := le_of_mem_writeMembers
        (fun member _ b (hb : b ∈ writeValue member.2) => le_of_mem_writeValue hb) hmem
      exact absurd hle (by decide)
    · have hread := readMembers_write (fun member (_ : member ∈ eventMembers now record) =>
        readValue_write member.2) []
      rwa [List.append_nil] at hread
    · intro path file hpath
      rw [writeEventLog, if_neg hpath, if_neg (by decide), eventLine_eq]

end GridFlux
