/-
GridFlux/JsonText.lean

JSON strings over bytes, and flat JSON objects.  It names nothing of the
transfer code.

`escape` writes a string, `readString` reads one up to its closing quote; what is
escaped reads back (`readString_escape`), whatever bytes it holds.  An object
whose values are strings, numbers and objects of strings reads back as well
(`readMembers_write`).
-/
import GridFlux.Text

namespace JsonText

open TextCodec

abbrev Text := List UInt8

/-! ### Strings -/

def quote : UInt8 := 34
def backslash : UInt8 := 92

/-- The byte behind a backslash and a letter. -/
def escapeOf (letter : UInt8) : Option UInt8 :=
  if letter = 34 then some 34
  else if letter = 92 then some 92
  else if letter = 47 then some 47
  else if letter = 98 then some 8
  else if letter = 102 then some 12
  else if letter = 110 then some 10
  else if letter = 114 then some 13
  else if letter = 116 then some 9
  else none

/-- The bytes of a code unit that stands for a character of its own. -/
def utf8 (unit : Nat) : Option Text :=
  if unit < 0x80 then some [UInt8.ofNat unit]
  else if unit < 0x800 then
    some [UInt8.ofNat (0xC0 + unit / 64), UInt8.ofNat (0x80 + unit % 64)]
  else if 0xD800 ≤ unit ∧ unit < 0xE000 then none
  else
    some [UInt8.ofNat (0xE0 + unit / 4096), UInt8.ofNat (0x80 + unit / 64 % 64),
      UInt8.ofNat (0x80 + unit % 64)]

/-- What one byte of a string is written as. -/
def escapeByte (c : UInt8) : Text :=
  if c = 34 then [92, 34]
  else if c = 92 then [92, 92]
  else if c = 8 then [92, 98]
  else if c = 12 then [92, 102]
  else if c = 10 then [92, 110]
  else if c = 13 then [92, 114]
  else if c = 9 then [92, 116]
  else if c < 32 then 92 :: 117 :: hexDigits 4 c.toNat
  else [c]

def escape (text : Text) : Text := text.flatMap escapeByte

/-- The content of a string, from behind its opening quote, and what follows its
closing quote. -/
def readString : Text → Option (Text × Text)
  | [] => none
  | c :: rest =>
      if c = 34 then some ([], rest)
      else if c < 32 then none
      else if c = 92 then
        match rest with
        | [] => none
        | letter :: rest =>
            if letter = 117 then
              match rest with
              | h₁ :: h₂ :: h₃ :: h₄ :: rest =>
                  if [h₁, h₂, h₃, h₄].all isHexDigit then
                    (utf8 (hexNumber [h₁, h₂, h₃, h₄])).bind fun bytes =>
                      (readString rest).map fun r => (bytes ++ r.1, r.2)
                  else none
              | _ => none
            else (escapeOf letter).bind fun byte => (readString rest).map fun r => (byte :: r.1, r.2)
      else (readString rest).map fun r => (c :: r.1, r.2)

/-- The text behind the escapes. -/
def unescape (text : Text) : Option Text :=
  match readString (text ++ [quote]) with
  | some (content, []) => some content
  | _ => none

/-- A quote that no backslash stands before. -/
def hasBareQuote : Text → Bool
  | [] => false
  | c :: rest =>
      if c = 92 then
        match rest with
        | [] => false
        | _ :: rest => hasBareQuote rest
      else c = 34 || hasBareQuote rest

/-! ### What is escaped reads back -/

section Read

variable (rest : Text)

theorem readString_quote : readString (quote :: rest) = some ([], rest) := by
  rw [quote, readString.eq_def]
  exact if_pos rfl

theorem readString_plain {c : UInt8} (hquote : c ≠ 34) (hcontrol : ¬c < 32) (hbackslash : c ≠ 92) :
    readString (c :: rest) = (readString rest).map fun r => (c :: r.1, r.2) := by
  rw [readString.eq_def]
  dsimp only
  rw [if_neg hquote, if_neg hcontrol, if_neg hbackslash]

theorem readString_letter {letter byte : UInt8} (h : escapeOf letter = some byte)
    (hletter : letter ≠ 117) :
    readString (92 :: letter :: rest) = (readString rest).map fun r => (byte :: r.1, r.2) := by
  rw [readString.eq_def]
  dsimp only
  rw [if_neg (by decide), if_neg (by decide), if_pos rfl, if_neg hletter, h, Option.bind_some]

/-- Four digits that stand for a byte of its own. -/
theorem readString_unit {unit : Nat} (h : unit < 0x80) :
    readString (92 :: 117 :: (hexDigits 4 unit ++ rest)) =
      (readString rest).map fun r => (UInt8.ofNat unit :: r.1, r.2) := by
  have hnumber : hexNumber (hexDigits 4 unit) = unit := hexNumber_hexDigits (by omega)
  have hdigits : (hexDigits 4 unit).all isHexDigit = true := by
    rw [List.all_eq_true]
    intro b hb
    obtain ⟨d, hd, rfl⟩ := mem_hexDigits hb
    exact isHexDigit_hexDigit hd
  have hfour : ∃ h₁ h₂ h₃ h₄, hexDigits 4 unit = [h₁, h₂, h₃, h₄] :=
    ⟨_, _, _, _, rfl⟩
  obtain ⟨h₁, h₂, h₃, h₄, heq⟩ := hfour
  rw [heq] at hnumber hdigits ⊢
  rw [readString.eq_def]
  dsimp only [List.cons_append, List.nil_append]
  rw [if_neg (by decide), if_neg (by decide), if_pos rfl, if_pos rfl, if_pos hdigits, hnumber, utf8,
    if_pos h, Option.bind_some]
  rfl

/-- How a byte is written. -/
inductive Escaped (c : UInt8) : Text → Prop
  | letter {letter : UInt8} (h : escapeOf letter = some c) (hletter : letter ≠ 117)
      (hvisible : 32 ≤ letter) : Escaped c [92, letter]
  | unit (h : c < 32) : Escaped c (92 :: 117 :: hexDigits 4 c.toNat)
  | plain (hquote : c ≠ 34) (hcontrol : ¬c < 32) (hbackslash : c ≠ 92) : Escaped c [c]

theorem escaped_escapeByte (c : UInt8) : Escaped c (escapeByte c) := by
  rw [escapeByte]
  by_cases hquote : c = 34
  · rw [if_pos hquote, hquote]
    exact .letter rfl (by decide) (by decide)
  rw [if_neg hquote]
  by_cases hbackslash : c = 92
  · rw [if_pos hbackslash, hbackslash]
    exact .letter rfl (by decide) (by decide)
  rw [if_neg hbackslash]
  -- the five control characters that have a letter
  by_cases h : c = 8
  · rw [if_pos h, h]
    exact .letter rfl (by decide) (by decide)
  rw [if_neg h]
  by_cases h : c = 12
  · rw [if_pos h, h]
    exact .letter rfl (by decide) (by decide)
  rw [if_neg h]
  by_cases h : c = 10
  · rw [if_pos h, h]
    exact .letter rfl (by decide) (by decide)
  rw [if_neg h]
  by_cases h : c = 13
  · rw [if_pos h, h]
    exact .letter rfl (by decide) (by decide)
  rw [if_neg h]
  by_cases h : c = 9
  · rw [if_pos h, h]
    exact .letter rfl (by decide) (by decide)
  rw [if_neg h]
  by_cases hcontrol : c < 32
  · rw [if_pos hcontrol]
    exact .unit hcontrol
  · rw [if_neg hcontrol]
    exact .plain hquote hcontrol hbackslash

/-- Most bytes stand for themselves. -/
theorem escapeByte_plain {c : UInt8} (hquote : c ≠ 34) (hcontrol : ¬c < 32) (hbackslash : c ≠ 92) :
    escapeByte c = [c] := by
  have hother : ∀ k : UInt8, k < 32 → c ≠ k := by
    rintro k hk rfl
    exact hcontrol hk
  rw [escapeByte, if_neg hquote, if_neg hbackslash, if_neg (hother 8 (by decide)),
    if_neg (hother 12 (by decide)), if_neg (hother 10 (by decide)), if_neg (hother 13 (by decide)),
    if_neg (hother 9 (by decide)), if_neg hcontrol]

/-- **One byte reads back**, whatever it is. -/
theorem readString_escapeByte (c : UInt8) :
    readString (escapeByte c ++ rest) = (readString rest).map fun r => (c :: r.1, r.2) := by
  have hescaped := escaped_escapeByte c
  generalize escapeByte c = written at hescaped
  cases hescaped with
  | letter h hletter hvisible => exact readString_letter rest h hletter
  | unit h =>
      have hsmall : c.toNat < 0x80 := by
        have hlt : c.toNat < 32 := h
        omega
      have hread := readString_unit rest hsmall
      rw [UInt8.ofNat_toNat] at hread
      exact hread
  | plain hquote hcontrol hbackslash => exact readString_plain rest hquote hcontrol hbackslash

/-- **A string reads back.** -/
theorem readString_escape (text : Text) :
    readString (escape text ++ quote :: rest) = some (text, rest) := by
  induction text with
  | nil => exact readString_quote rest
  | cons c text ih =>
      have hcons : escape (c :: text) = escapeByte c ++ escape text := List.flatMap_cons
      rw [hcons, List.append_assoc, readString_escapeByte, ih]
      rfl

end Read

theorem unescape_escape (text : Text) : unescape (escape text) = some text := by
  rw [unescape, readString_escape]

/-- No control character is left. -/
theorem le_of_mem_escape {text : Text} {b : UInt8} (h : b ∈ escape text) : 32 ≤ b := by
  obtain ⟨c, -, hb⟩ := List.mem_flatMap.mp h
  have hescaped := escaped_escapeByte c
  generalize escapeByte c = written at hescaped hb
  cases hescaped with
  | letter _ _ hvisible =>
      rcases List.mem_cons.mp hb with rfl | hb
      · decide
      · rw [List.mem_singleton.mp hb]
        exact hvisible
  | unit _ =>
      rcases List.mem_cons.mp hb with rfl | hb
      · decide
      · rcases List.mem_cons.mp hb with rfl | hb
        · decide
        · obtain ⟨d, hd, rfl⟩ := mem_hexDigits hb
          have hdigits : ∀ d < 16, 32 ≤ hexDigit d := by decide
          exact hdigits d hd
  | plain _ hcontrol _ =>
      rw [List.mem_singleton.mp hb]
      exact UInt8.not_lt.mp hcontrol

theorem hasBareQuote_escapeByte (c : UInt8) (rest : Text) :
    hasBareQuote (escapeByte c ++ rest) = hasBareQuote rest := by
  have hplain : ∀ (b : UInt8) (rest : Text), b ≠ 92 → b ≠ 34 →
      hasBareQuote (b :: rest) = hasBareQuote rest := by
    intro b rest hbackslash hquote
    rw [hasBareQuote.eq_def]
    dsimp only
    rw [if_neg hbackslash, decide_eq_false hquote, Bool.false_or]
  have hescaped := escaped_escapeByte c
  generalize escapeByte c = written at hescaped
  cases hescaped with
  | letter _ _ _ => rfl
  | unit _ =>
      have hdigit : ∀ d < 16, hexDigit d ≠ 92 ∧ hexDigit d ≠ 34 := by decide
      have hmod : ∀ n : Nat, n % 16 < 16 := fun n => Nat.mod_lt n (by decide)
      show hasBareQuote (hexDigit _ :: hexDigit _ :: hexDigit _ :: hexDigit _ :: rest) = _
      rw [hplain _ _ (hdigit _ (hmod _)).1 (hdigit _ (hmod _)).2,
        hplain _ _ (hdigit _ (hmod _)).1 (hdigit _ (hmod _)).2,
        hplain _ _ (hdigit _ (hmod _)).1 (hdigit _ (hmod _)).2,
        hplain _ _ (hdigit _ (hmod _)).1 (hdigit _ (hmod _)).2]
  | plain hquote _ hbackslash => exact hplain c rest hbackslash hquote

/-- No quote is left bare. -/
theorem hasBareQuote_escape (text : Text) : hasBareQuote (escape text) = false := by
  induction text with
  | nil => rfl
  | cons c text ih =>
      have hcons : escape (c :: text) = escapeByte c ++ escape text := List.flatMap_cons
      rw [hcons, hasBareQuote_escapeByte, ih]

/-! ### Objects -/

def writeString (text : Text) : Text := quote :: (escape text ++ [quote])

def readQuoted : Text → Option (Text × Text)
  | [] => none
  | c :: rest => if c = quote then readString rest else none

theorem readQuoted_writeString (text rest : Text) :
    readQuoted (writeString text ++ rest) = some (text, rest) := by
  have happend : writeString text ++ rest = quote :: (escape text ++ quote :: rest) := by
    simp [writeString]
  rw [happend, readQuoted, if_pos rfl, readString_escape]

section Members

variable {β : Type} (write : β → Text) (read : Text → Option (β × Text))

def writeMember (member : Text × β) : Text := writeString member.1 ++ 58 :: write member.2

/-- An object, its members in this order. -/
def writeMembers (members : List (Text × β)) : Text :=
  123 :: (join 44 (members.map (writeMember write)) ++ [125])

def readMember (text : Text) : Option ((Text × β) × Text) :=
  (readQuoted text).bind fun key =>
    match key.2 with
    | [] => none
    | c :: rest =>
        if c = 58 then (read rest).map fun value => ((key.1, value.1), value.2) else none

/-- One member or more, and the closing brace. -/
def readMore : Nat → Text → Option (List (Text × β) × Text)
  | 0, _ => none
  | fuel + 1, text =>
      (readMember read text).bind fun member =>
        match member.2 with
        | [] => none
        | c :: rest =>
            if c = 125 then some ([member.1], rest)
            else if c = 44 then
              (readMore fuel rest).map fun members => (member.1 :: members.1, members.2)
            else none

def readMembers (text : Text) : Option (List (Text × β) × Text) :=
  match text with
  | [] => none
  | brace :: rest =>
      if brace = 123 then
        match rest with
        | [] => none
        | c :: after => if c = 125 then some ([], after) else readMore read rest.length rest
      else none

/-- What may follow a value. -/
def EndsValue (rest : Text) : Prop := rest.head? = some 44 ∨ rest.head? = some 125

/-- The value is read to its end. -/
def ReadsBack (value : β) : Prop :=
  ∀ rest, EndsValue rest → read (write value ++ rest) = some (value, rest)

variable {write read}

theorem readMember_write {member : Text × β} (h : ReadsBack write read member.2) {rest : Text}
    (hrest : EndsValue rest) :
    readMember read (writeMember write member ++ rest) = some (member, rest) := by
  rw [readMember, writeMember, List.append_assoc, readQuoted_writeString, Option.bind_some,
    List.cons_append]
  dsimp only
  rw [if_pos rfl, h rest hrest]
  rfl

theorem readMore_write {members : List (Text × β)} (hne : members ≠ [])
    (h : ∀ member ∈ members, ReadsBack write read member.2) (rest : Text) {fuel : Nat}
    (hfuel : members.length ≤ fuel) :
    readMore read fuel (join 44 (members.map (writeMember write)) ++ 125 :: rest) =
      some (members, rest) := by
  induction members generalizing fuel with
  | nil => exact absurd rfl hne
  | cons member members ih =>
      have hmember := h member List.mem_cons_self
      cases fuel with
      | zero => exact absurd hfuel (Nat.not_succ_le_zero _)
      | succ fuel =>
          cases members with
          | nil =>
              rw [List.map_singleton, join, readMore,
                readMember_write hmember (Or.inr rfl), Option.bind_some]
              dsimp only
              rw [if_pos rfl]
          | cons next members =>
              have hrest := ih (List.cons_ne_nil _ _)
                (fun m hm => h m (List.mem_cons_of_mem member hm)) (Nat.le_of_succ_le_succ hfuel)
              rw [List.map_cons, List.map_cons, join, List.append_assoc, List.cons_append,
                ← List.map_cons, readMore, readMember_write hmember (Or.inl rfl), Option.bind_some]
              dsimp only
              rw [if_neg (by decide), if_pos rfl, hrest]
              rfl

theorem length_le_join (members : List (Text × β)) :
    members.length ≤ (join 44 (members.map (writeMember write))).length := by
  induction members with
  | nil => exact Nat.le_refl _
  | cons member members ih =>
      have hpos : 0 < (writeMember write member).length := by
        rw [writeMember, writeString]
        exact Nat.succ_pos _
      cases members with
      | nil =>
          rw [List.map_singleton, join]
          exact hpos
      | cons next members =>
          rw [List.map_cons, List.map_cons, join, ← List.map_cons]
          simp only [List.length_append, List.length_cons] at ih ⊢
          omega

/-- **An object reads back** if its values do. -/
theorem readMembers_write {members : List (Text × β)}
    (h : ∀ member ∈ members, ReadsBack write read member.2) (rest : Text) :
    readMembers read (writeMembers write members ++ rest) = some (members, rest) := by
  cases members with
  | nil => rfl
  | cons member members =>
      have htext : writeMembers write (member :: members) ++ rest =
          123 :: (join 44 ((member :: members).map (writeMember write)) ++ 125 :: rest) := by
        simp [writeMembers]
      have hmore := fun fuel => @readMore_write β write read (member :: members)
        (List.cons_ne_nil _ _) h rest fuel
      have hlength := @length_le_join β write (member :: members)
      have hhead : ∃ after, join 44 ((member :: members).map (writeMember write)) ++ 125 :: rest =
          quote :: after := by
        cases members with
        | nil => exact ⟨_, rfl⟩
        | cons next members => exact ⟨_, rfl⟩
      rw [htext]
      generalize hbody : join 44 ((member :: members).map (writeMember write)) ++ 125 :: rest =
        body at hmore hhead
      obtain ⟨after, rfl⟩ := hhead
      have hfuel : (member :: members).length ≤ (quote :: after).length := by
        rw [← hbody, List.length_append]
        omega
      rw [readMembers, if_pos rfl, if_neg (by decide), hmore _ hfuel]

end Members

/-! ### Values -/

/-- Digits, signs, the point, and the letters of an exponent. -/
def isNumberByte (c : UInt8) : Bool :=
  isDigit c || c = 46 || c = 45 || c = 43 || (97 ≤ c && c ≤ 122)

abbrev NumberText := {text : Text // text ≠ [] ∧ text.all isNumberByte = true}

inductive Value
  | string (text : Text)
  | number (text : NumberText)
  | object (members : List (Text × Text))

def writeValue : Value → Text
  | .string text => writeString text
  | .number text => text.val
  | .object members => writeMembers writeString members

def readNumber (text : Text) : Option (Value × Text) :=
  if h : text.takeWhile isNumberByte ≠ [] ∧
      (text.takeWhile isNumberByte).all isNumberByte = true then
    some (.number ⟨text.takeWhile isNumberByte, h⟩, text.dropWhile isNumberByte)
  else none

def readValue (text : Text) : Option (Value × Text) :=
  if text.head? = some quote then (readQuoted text).map fun r => (.string r.1, r.2)
  else if text.head? = some 123 then
    (readMembers readQuoted text).map fun r => (.object r.1, r.2)
  else readNumber text

/-- **A value reads back.** -/
theorem readValue_write (value : Value) : ReadsBack writeValue readValue value := by
  intro rest hrest
  cases value with
  | string text =>
      have hread := readQuoted_writeString text rest
      have hhead : (writeValue (.string text) ++ rest).head? = some quote := rfl
      rw [readValue, if_pos hhead]
      show (readQuoted (writeString text ++ rest)).map _ = _
      rw [hread]
      rfl
  | object members =>
      have hread := @readMembers_write _ _ _ members
        (fun member _ after _ => readQuoted_writeString member.2 after) rest
      have hhead : (writeValue (.object members) ++ rest).head? = some 123 := rfl
      have hquote : some (123 : UInt8) ≠ some quote := by decide
      rw [readValue, hhead, if_neg hquote, if_pos rfl]
      show (readMembers readQuoted (writeMembers writeString members ++ rest)).map _ = _
      rw [hread]
      rfl
  | number text =>
      obtain ⟨token, hne, hall⟩ := text
      obtain ⟨c, more, rfl⟩ := List.exists_cons_of_ne_nil hne
      have hc : isNumberByte c = true := List.all_eq_true.mp hall c List.mem_cons_self
      have hquote : c ≠ quote := by
        rintro rfl
        cases hc
      have hbrace : c ≠ 123 := by
        rintro rfl
        cases hc
      have hstop : ∀ b, rest.head? = some b → isNumberByte b = false := by
        intro b hb
        rcases hrest with h | h
        · rw [h] at hb
          obtain rfl := Option.some.inj hb
          rfl
        · rw [h] at hb
          obtain rfl := Option.some.inj hb
          rfl
      have hafter : rest.takeWhile isNumberByte = [] ∧ rest.dropWhile isNumberByte = rest := by
        cases rest with
        | nil => exact ⟨rfl, rfl⟩
        | cons b rest =>
            have hb := hstop b rfl
            rw [List.takeWhile_cons_of_neg (by rw [hb]; exact Bool.false_ne_true),
              List.dropWhile_cons_of_neg (by rw [hb]; exact Bool.false_ne_true)]
            exact ⟨rfl, rfl⟩
      have hall' : ∀ b ∈ c :: more, isNumberByte b = true := List.all_eq_true.mp hall
      have htake : (c :: more ++ rest).takeWhile isNumberByte = c :: more := by
        rw [List.takeWhile_append_of_pos hall', hafter.1, List.append_nil]
      have hdrop : (c :: more ++ rest).dropWhile isNumberByte = rest := by
        rw [List.dropWhile_append_of_pos hall', hafter.2]
      have hhead : (c :: more ++ rest).head? = some c := rfl
      show readValue (c :: more ++ rest) = _
      rw [readValue, hhead, if_neg (fun h => hquote (Option.some.inj h)),
        if_neg (fun h => hbrace (Option.some.inj h)), readNumber]
      simp only [htake, hdrop]
      exact dif_pos ⟨hne, hall⟩

end JsonText
